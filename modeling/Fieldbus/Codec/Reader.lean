import Fieldbus.Bytes
import Fieldbus.Codec.Error

/-!
# Reading values off the front of a byte string

A `Reader` consumes bytes from the front of a string. It ends with a value or a cause of
failure, and in both cases with the bytes it left: what was consumed before a failure stays
consumed, and a number that does not fit in what is left consumes nothing. `Reader.exactly`
reads a whole string as one value.
-/

namespace Fieldbus

/-- Consumes bytes from the front of a string; a failure keeps the bytes not consumed. -/
abbrev Reader := EStateM CodecError Bytes

namespace Reader

/-- One byte. -/
def byte : Reader UInt8
  | [] => .error .endOfBuffer []
  | b :: rest => .ok b rest

/-- A number of two bytes, high byte first. -/
def word : Reader UInt16
  | h :: l :: rest => .ok (Bytes.join h l) rest
  | bytes => .error .endOfBuffer bytes

/-- A given number of bytes, untouched. -/
def take (n : Nat) : Reader Bytes := fun bytes =>
  if bytes.length < n then .error .endOfBuffer bytes else .ok (bytes.take n) (bytes.drop n)

/-- A byte that is zero for no and one for yes. -/
def flag : Reader Bool := do
  match ← byte with
  | 0 => return false
  | 1 => return true
  | _ => throw .invalidBool

/-- A length byte and as many bytes; no bytes are read as an absent value. -/
def counted : Reader (Option Bytes) := do
  let length ← byte
  if length = 0 then return none
  return some (← take length.toNat)

/-- All bytes as one value: what is left behind it is refused. -/
def exactly {α : Type} (r : Reader α) (bytes : Bytes) : Except CodecError α :=
  match r.run bytes with
  | .ok value [] => .ok value
  | .ok _ rest => .error (.extraData rest.length)
  | .error cause _ => .error cause

@[simp] theorem word_append (n : UInt16) (rest : Bytes) :
    word (Bytes.word n ++ rest) = .ok n rest := by
  show EStateM.Result.ok (Bytes.join (Bytes.high n) (Bytes.low n)) rest = _
  rw [Bytes.join_split]

@[simp] theorem take_append (bytes rest : Bytes) :
    take bytes.length (bytes ++ rest) = .ok bytes rest := by
  simp [take]

end Reader

end Fieldbus
