import Fieldbus.Address
import Fieldbus.Table

/-!
# Learned routers

Nodes of a segment announce the segments they route to. The table keeps, for each remote
segment, the sub-address of the node that announced it last. Main statement: an announcement
changes the router of the segments it names and that can have one, and no other
(`router?_learn`).
-/

namespace Fieldbus

/-- The sub-address of the router last announced for each remote segment. -/
structure RouterTable where
  /-- The routers by segment. -/
  routers : Table Segment Bytes := ∅
  deriving DecidableEq, Repr

namespace RouterTable

/-- The segment can have a router on `home`: it is another segment and its number is not
reserved. -/
def admits (home segment : Segment) : Bool :=
  segment != home && segment != Segment.here && segment != Segment.everywhere

/-- Notes that a node routes to some segments; those that can have no router are passed
over. -/
def learn (t : RouterTable) (home : Segment) (mac : Bytes) (segments : List Segment) :
    RouterTable :=
  ⟨(segments.filter (admits home)).foldl (fun routers s => routers.insert s mac) t.routers⟩

/-- The sub-address of the router announced for a segment. -/
def router? (t : RouterTable) (segment : Segment) : Option Bytes :=
  t.routers.get? segment

/-- The segments with a router, in ascending order. -/
def segments (t : RouterTable) : List Segment :=
  t.routers.keys.mergeSort fun a b => a ≤ b

/-- The routers by segment, in ascending order. -/
def toList (t : RouterTable) : List (Segment × Bytes) :=
  t.segments.filterMap fun s => (t.router? s).map fun mac => (s, mac)

/-- An announcement changes the router of the segments it names and that can have one. -/
theorem router?_learn (t : RouterTable) (home : Segment) (mac : Bytes) (segments : List Segment)
    (s : Segment) :
    (t.learn home mac segments).router? s =
      if s ∈ segments ∧ admits home s = true then some mac else t.router? s := by
  simp only [learn, router?, ← List.mem_filter]
  generalize segments.filter (admits home) = admitted
  induction admitted generalizing t with
  | nil => simp
  | cons a rest ih =>
    have hi := ih ⟨t.routers.insert a mac⟩
    simp only [List.foldl_cons, List.mem_cons] at hi ⊢
    rw [hi, Table.get?_insert]
    by_cases hs : s = a <;> simp [hs]

/-- The segments with a router are those a router is found for. -/
theorem mem_segments_iff {t : RouterTable} {s : Segment} :
    s ∈ t.segments ↔ ∃ mac, t.router? s = some mac := by
  simp only [segments, List.mem_mergeSort, router?]
  exact Table.mem_keys_iff

end RouterTable

end Fieldbus
