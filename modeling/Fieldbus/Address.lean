import Fieldbus.Bytes
import Fieldbus.Codec.Error

/-!
# Network addresses

An address is a segment number and, unless it reaches every node of the segment, the
sub-address of one node. Segment zero is resolved by whoever reads the address, and the
highest number addresses every reachable segment. An address always fits its written form:
the type keeps a present sub-address within one to 255 bytes and the global segment without
one. Main statements: only an overlong sub-address is refused (`of_eq_error_iff`), and moving
an address to another segment never fails, so `withSegment` is a total function.
-/

namespace Fieldbus

/-- The number of a segment. -/
abbrev Segment := UInt16

namespace Segment

/-- The number that means "the segment of whoever reads this". -/
def here : Segment := 0

/-- The number that addresses every reachable segment. -/
def everywhere : Segment := 0xFFFF

end Segment

/-- The longest sub-address that a length byte can announce. -/
def maxMacLength : Nat := 255

/-- A segment and, if only one of its nodes is meant, the sub-address of that node. -/
structure Address where
  /-- The segment, which may be `Segment.here` or `Segment.everywhere`. -/
  segment : Segment
  /-- The node on the segment; absent for every node. -/
  mac : Option Bytes
  /-- A present sub-address is not empty. -/
  mac_ne_nil : ∀ m ∈ mac, m ≠ []
  /-- A present sub-address fits behind a length byte. -/
  mac_length_le : ∀ m ∈ mac, m.length ≤ maxMacLength
  /-- The global segment has no sub-addresses. -/
  mac_everywhere : segment = Segment.everywhere → mac = none
  deriving DecidableEq, Repr

namespace Address

/-- Addresses with the same segment and sub-address are equal. -/
@[ext] theorem ext {a b : Address} (segment : a.segment = b.segment) (mac : a.mac = b.mac) :
    a = b := by
  cases a
  cases b
  cases segment
  cases mac
  rfl

/-- The address that reaches every node of every reachable segment. -/
def everywhere : Address where
  segment := Segment.everywhere
  mac := none
  mac_ne_nil := by simp
  mac_length_le := by simp
  mac_everywhere _ := rfl

instance : Inhabited Address := ⟨everywhere⟩

/-- The address that reaches every node of one segment. -/
def all (segment : Segment) : Address where
  segment
  mac := none
  mac_ne_nil := by simp
  mac_length_le := by simp
  mac_everywhere _ := rfl

/-- The address made of a segment and a sub-address.

An empty sub-address counts as absent and the global segment drops the one it is given, so
only an overlong one on another segment is refused. -/
def of (segment : Segment) (mac : Option Bytes) : Except Overlong Address :=
  match mac with
  | none => .ok (all segment)
  | some m =>
    if global : segment = Segment.everywhere then .ok everywhere
    else if empty : m = [] then .ok (all segment)
    else if fits : m.length ≤ maxMacLength then
      .ok {
        segment
        mac := some m
        mac_ne_nil := by simpa using empty
        mac_length_le := by simpa using fits
        mac_everywhere := fun h => absurd h global }
    else .error ⟨m.length⟩

/-- The address of a node on the segment of whoever reads it. -/
def onLink (mac : Bytes) : Except Overlong Address := of Segment.here (some mac)

/-- The address reaches every node of every reachable segment. -/
def isGlobal (a : Address) : Bool := a.segment == Segment.everywhere

/-- The segment is left to whoever reads the address. -/
def isHere (a : Address) : Bool := a.segment == Segment.here

/-- The same sub-address on another segment. -/
def withSegment (a : Address) (segment : Segment) : Address :=
  if global : segment = Segment.everywhere then everywhere
  else { a with segment, mac_everywhere := fun h => absurd h global }

/-- The segment in decimal and the sub-address in hexadecimal, or a star for every node. -/
def text (a : Address) : String :=
  match a.mac with
  | some m => s!"{a.segment.toNat}:{Bytes.hex m}"
  | none => s!"{a.segment.toNat}:*"

/-- By segment; on one segment every node comes before single nodes, and those go byte by
byte. -/
instance : Ord Address where
  compare a b := (compare a.segment b.segment).then (compare a.mac b.mac)

/-- Addresses in ascending order. -/
def sort (addresses : List Address) : List Address :=
  addresses.mergeSort fun a b => (compare a b).isLE

@[simp] theorem segment_everywhere : everywhere.segment = Segment.everywhere := rfl

@[simp] theorem mac_everywhere_eq : everywhere.mac = none := rfl

@[simp] theorem segment_all (s : Segment) : (all s).segment = s := rfl

@[simp] theorem mac_all (s : Segment) : (all s).mac = none := rfl

/-- Every node of the global segment is everywhere. -/
theorem all_everywhere : all Segment.everywhere = everywhere := rfl

/-- The global addresses are exactly the one that reaches everywhere. -/
theorem isGlobal_iff {a : Address} : a.isGlobal = true ↔ a = everywhere := by
  constructor
  · intro h
    have hs : a.segment = Segment.everywhere := by simpa [isGlobal] using h
    exact ext hs (a.mac_everywhere hs)
  · rintro rfl
    rfl

/-- Only a sub-address beyond the length limit on a single segment makes no address. -/
theorem of_eq_error_iff {s : Segment} {mac : Option Bytes} {o : Overlong} :
    of s mac = .error o ↔
      ∃ m, mac = some m ∧ s ≠ Segment.everywhere ∧ maxMacLength < m.length ∧ o = ⟨m.length⟩ := by
  cases mac with
  | none => simp [of]
  | some m =>
    by_cases hs : s = Segment.everywhere
    · simp [of, hs]
    by_cases hm : m = []
    · simp [of, hs, hm, maxMacLength]
    by_cases hl : m.length ≤ maxMacLength
    · simp [of, hs, hm, hl, Nat.not_lt.mpr hl]
    · simp [of, hs, hm, hl, Nat.not_le.mp hl, eq_comm]

/-- The parts of an address make that address. -/
@[simp] theorem of_parts (a : Address) : of a.segment a.mac = .ok a := by
  obtain ⟨s, mac, hne, hle, hg⟩ := a
  cases mac with
  | none => rfl
  | some m =>
    have hs : s ≠ Segment.everywhere := fun h => by simpa using hg h
    simp [of, hs, hne m rfl, hle m rfl]

/-- Moving an address builds the address of the new segment and the old sub-address. -/
theorem of_withSegment (a : Address) (s : Segment) : of s a.mac = .ok (a.withSegment s) := by
  by_cases hs : s = Segment.everywhere
  · subst hs
    cases h : a.mac <;> simp [of, withSegment, all_everywhere]
  · have he : (a.withSegment s).mac = a.mac ∧ (a.withSegment s).segment = s := by
      simp [withSegment, hs]
    have hp := of_parts (a.withSegment s)
    rwa [he.1, he.2] at hp

end Address

end Fieldbus
