import Fieldbus.Address
import Fieldbus.Codec.Reader

/-!
# Bodies of the messages a router answers

A router query may name one segment, a router announcement lists the segments behind its
sender, and a segment announcement gives the number of the sender's segment. The first two
have no length of their own: they reach to the end of the message. Main statement: a list of
numbers is read back from its bytes (`words_flatMap_word`), so an announcement has exactly one
spelling.
-/

namespace Fieldbus

/-- Asks which router reaches a segment, or all segments a router reaches. -/
structure RouterQuery where
  /-- The segment asked for; absent for every segment. -/
  segment : Option Segment
  deriving DecidableEq, Repr

namespace RouterQuery

/-- The number of the segment, or nothing. -/
def bytes (q : RouterQuery) : Bytes :=
  (q.segment.map Bytes.word).getD []

/-- How many bytes the query takes. -/
def size (q : RouterQuery) : Nat :=
  if q.segment.isSome then 2 else 0

/-- Nothing asks for every segment; anything else starts with the number asked for. -/
def reader : Reader RouterQuery := fun bytes =>
  if bytes.isEmpty then .ok ⟨none⟩ bytes
  else (do return ⟨some (← Reader.word)⟩ : Reader RouterQuery) bytes

@[simp] theorem length_bytes (q : RouterQuery) : q.bytes.length = q.size := by
  cases q with
  | mk segment => cases segment <;> rfl

end RouterQuery

/-- Says which segments are reached through the sender. -/
structure RouterAnnouncement where
  /-- The segments, in the order they are announced. -/
  segments : List Segment
  deriving DecidableEq, Repr

namespace RouterAnnouncement

/-- The numbers of the segments, one behind the other. -/
def bytes (a : RouterAnnouncement) : Bytes :=
  a.segments.flatMap Bytes.word

/-- How many bytes the announcement takes. -/
def size (a : RouterAnnouncement) : Nat :=
  2 * a.segments.length

/-- The numbers that pairs of bytes stand for. -/
def words : Bytes → List Segment
  | h :: l :: rest => Bytes.join h l :: words rest
  | _ => []

/-- Reads numbers to the end; half a number is refused before anything is read. -/
def reader : Reader RouterAnnouncement := fun bytes =>
  if bytes.length % 2 = 0 then .ok ⟨words bytes⟩ [] else .error .oddBodyLength bytes

@[simp] theorem length_bytes (a : RouterAnnouncement) : a.bytes.length = a.size := by
  obtain ⟨segments⟩ := a
  induction segments with
  | nil => rfl
  | cons s rest ih =>
    simp only [bytes, size, List.flatMap_cons, List.length_append, Bytes.length_word,
      List.length_cons] at ih ⊢
    omega

/-- A list of numbers is read back from its bytes. -/
@[simp] theorem words_flatMap_word (segments : List Segment) :
    words (segments.flatMap Bytes.word) = segments := by
  induction segments with
  | nil => rfl
  | cons s rest ih =>
    show words (Bytes.high s :: Bytes.low s :: rest.flatMap Bytes.word) = s :: rest
    rw [words, Bytes.join_split, ih]

end RouterAnnouncement

/-- Says which number the sender's segment has. -/
structure SegmentAnnouncement where
  /-- The number of the segment. -/
  segment : Segment
  /-- The number was configured and not learned. -/
  configured : Bool
  deriving DecidableEq, Repr

namespace SegmentAnnouncement

/-- The number and a flag byte. -/
def bytes (a : SegmentAnnouncement) : Bytes :=
  Bytes.word a.segment ++ [if a.configured then 1 else 0]

/-- How many bytes the announcement takes. -/
def size (_ : SegmentAnnouncement) : Nat := 3

/-- Reads the number and then the flag. -/
def reader : Reader SegmentAnnouncement := do
  let segment ← Reader.word
  let configured ← Reader.flag
  return ⟨segment, configured⟩

@[simp] theorem length_bytes (a : SegmentAnnouncement) : a.bytes.length = a.size := rfl

end SegmentAnnouncement

end Fieldbus
