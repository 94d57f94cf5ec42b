/-!
# Byte strings, their hexadecimal text and two-byte numbers

Frames, sub-addresses and payloads are plain lists of bytes. Numbers of two bytes travel
with the high byte first. Main statements: joining the two bytes of a number gives the
number back (`join_split`), and a number splits into the bytes it was joined from
(`high_join`, `low_join`).
-/

namespace Fieldbus

/-- A string of bytes. -/
abbrev Bytes := List UInt8

namespace Bytes

/-- The lower-case hexadecimal digit of a value below sixteen. -/
def hexDigit (n : Nat) : Char :=
  if n < 10 then Char.ofNat ('0'.toNat + n) else Char.ofNat ('a'.toNat + (n - 10))

/-- Two lower-case digits a byte, the high one first. -/
def hex (bytes : Bytes) : String :=
  String.ofList (bytes.flatMap fun b => [hexDigit (b.toNat / 16), hexDigit (b.toNat % 16)])

/-- The value of a hexadecimal digit of either case. -/
def hexValue? (c : Char) : Option Nat :=
  if '0' ≤ c ∧ c ≤ '9' then some (c.toNat - '0'.toNat)
  else if 'a' ≤ c ∧ c ≤ 'f' then some (c.toNat - 'a'.toNat + 10)
  else if 'A' ≤ c ∧ c ≤ 'F' then some (c.toNat - 'A'.toNat + 10)
  else none

/-- Reads pairs of hexadecimal digits of either case. -/
def ofHexDigits? : List Char → Option Bytes
  | [] => some []
  | high :: low :: rest => do
    let h ← hexValue? high
    let l ← hexValue? low
    let bytes ← ofHexDigits? rest
    return (16 * h + l).toUInt8 :: bytes
  | [_] => none

/-- The bytes a hexadecimal text spells, two digits a byte. -/
def ofHex? (text : String) : Option Bytes :=
  ofHexDigits? text.toList

/-- The first of the two bytes of a number. -/
def high (n : UInt16) : UInt8 := (n.toNat / 256).toUInt8

/-- The second of the two bytes of a number. -/
def low (n : UInt16) : UInt8 := (n.toNat % 256).toUInt8

/-- The number two bytes stand for. -/
def join (h l : UInt8) : UInt16 := (256 * h.toNat + l.toNat).toUInt16

/-- The two bytes of a number, high byte first. -/
def word (n : UInt16) : Bytes := [high n, low n]

@[simp] theorem length_word (n : UInt16) : (word n).length = 2 := rfl

/-- Joining the two bytes of a number gives the number back. -/
@[simp] theorem join_split (n : UInt16) : join (high n) (low n) = n := by
  apply UInt16.toNat_inj.mp
  have hn := n.toNat_lt
  simp only [join, high, low, Nat.toUInt16_eq, Nat.toUInt8_eq, UInt16.toNat_ofNat',
    UInt8.toNat_ofNat']
  omega

@[simp] theorem high_join (h l : UInt8) : high (join h l) = h := by
  apply UInt8.toNat_inj.mp
  have hh := h.toNat_lt
  have hl := l.toNat_lt
  simp only [join, high, Nat.toUInt16_eq, Nat.toUInt8_eq, UInt16.toNat_ofNat',
    UInt8.toNat_ofNat']
  omega

@[simp] theorem low_join (h l : UInt8) : low (join h l) = l := by
  apply UInt8.toNat_inj.mp
  have hh := h.toNat_lt
  have hl := l.toNat_lt
  simp only [join, low, Nat.toUInt16_eq, Nat.toUInt8_eq, UInt16.toNat_ofNat',
    UInt8.toNat_ofNat']
  omega

/-- Two bytes are exactly the spelling of the number they join to. -/
theorem word_join (h l : UInt8) : word (join h l) = [h, l] := by
  simp only [word, high_join, low_join]

end Bytes

end Fieldbus
