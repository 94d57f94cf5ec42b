import Fieldbus.Fault
import Fieldbus.Table

/-!
# Route tables

A route table leads from remote segments to neighbors and numbers the routes by slots from
one to 255. Neighbors are kept by name: a route whose neighbor is gone stays in the table and
finds nobody, so every lookup takes the directory in which names are looked up. A segment that
loses its slot to another keeps its neighbor. Main statements: after a route was added its
segment leads to the neighbor given and every other segment to where it led before
(`bySegment_of_add`, `bySegment_of_addAt`).
-/

namespace Fieldbus

/-- The highest number of a slot. -/
def maxSlot : Nat := 255

/-- Routes from one segment to the neighbors on others. -/
structure RouteTable (ν : Type) where
  /-- The segment the routes start from. -/
  home : Segment
  /-- The neighbor last given for each segment. -/
  neighbors : Table Segment ν := ∅
  /-- The segment in each slot, slot one first. -/
  slots : List (Option Segment) := []
  deriving DecidableEq, Repr

namespace RouteTable

variable {ν α : Type}

/-- No route leads to the segment: it has a reserved number or is where routes start. -/
def refuses (t : RouteTable ν) (segment : Segment) : Bool :=
  segment == Segment.here || segment == Segment.everywhere || segment == t.home

/-- The place of a segment's slot, counted from zero. -/
def place? (t : RouteTable ν) (segment : Segment) : Option Nat :=
  t.slots.findIdx? fun s => s == some segment

/-- Adds a route and says its slot: the one the segment has, or the next one. -/
def add (t : RouteTable ν) (segment : Segment) (neighbor : ν) :
    Except Fault (Nat × RouteTable ν) :=
  if t.refuses segment then .error (.invalidSegment segment)
  else
    match t.place? segment with
    | some i => .ok (i + 1, { t with neighbors := t.neighbors.insert segment neighbor })
    | none =>
      if t.slots.length ≥ maxSlot then .error .noRoomForRoutes
      else .ok (t.slots.length + 1, { t with
        neighbors := t.neighbors.insert segment neighbor
        slots := t.slots ++ [some segment] })

/-- Adds a route at a slot, in place of the segment that held it. -/
def addAt (t : RouteTable ν) (slot : Nat) (segment : Segment) (neighbor : ν) :
    Except Fault (RouteTable ν) :=
  if slot = 0 ∨ slot > maxSlot then .error (.invalidSlot slot)
  else if t.refuses segment then .error (.invalidSegment segment)
  else
    let long := t.slots ++ List.replicate (slot - t.slots.length) none
    let cleared := long.map fun s => if s == some segment then none else s
    .ok { t with
      neighbors := t.neighbors.insert segment neighbor
      slots := cleared.set (slot - 1) (some segment) }

/-- The neighbor last given for a segment, if the directory still has it. -/
def bySegment (t : RouteTable ν) (find : ν → Option α) (segment : Segment) : Option α :=
  (t.neighbors.get? segment).bind find

/-- The neighbor of the segment in a slot, if the directory still has it. -/
def bySlot (t : RouteTable ν) (find : ν → Option α) (slot : Nat) : Option α :=
  if slot = 0 then none else t.slots[slot - 1]?.join.bind (t.bySegment find)

/-- The segments with a slot, in slot order. -/
def segments (t : RouteTable ν) : List Segment :=
  t.slots.filterMap id

/-- The neighbors the directory still has for the segments with a slot, in slot order. -/
def live (t : RouteTable ν) (find : ν → Option α) : List α :=
  t.segments.filterMap (t.bySegment find)

/-- A segment that no route may lead to is refused. -/
theorem add_of_refuses {t : RouteTable ν} {segment : Segment} (h : t.refuses segment = true)
    (neighbor : ν) : t.add segment neighbor = .error (.invalidSegment segment) := by
  simp [add, h]

/-- Adding a route keeps the slots that are taken and sets the neighbor of the segment. -/
theorem of_add {t t' : RouteTable ν} {segment : Segment} {neighbor : ν} {slot : Nat}
    (h : t.add segment neighbor = .ok (slot, t')) :
    t'.home = t.home ∧ t'.neighbors = t.neighbors.insert segment neighbor
      ∧ t.slots <+: t'.slots := by
  unfold add at h
  split at h
  · cases h
  split at h
  · cases h
    exact ⟨rfl, rfl, List.prefix_rfl⟩
  split at h
  · cases h
  · cases h
    exact ⟨rfl, rfl, List.prefix_append _ _⟩

/-- Adding a route at a slot sets the neighbor of the segment. -/
theorem of_addAt {t t' : RouteTable ν} {segment : Segment} {neighbor : ν} {slot : Nat}
    (h : t.addAt slot segment neighbor = .ok t') :
    t'.home = t.home ∧ t'.neighbors = t.neighbors.insert segment neighbor := by
  unfold addAt at h
  split at h
  · cases h
  split at h
  · cases h
  · cases h
    exact ⟨rfl, rfl⟩

/-- What a lookup finds after a route was added. -/
theorem bySegment_of_add {t t' : RouteTable ν} {segment : Segment} {neighbor : ν} {slot : Nat}
    (h : t.add segment neighbor = .ok (slot, t')) (find : ν → Option α) (s : Segment) :
    t'.bySegment find s = if s = segment then find neighbor else t.bySegment find s := by
  rw [bySegment, (of_add h).2.1, Table.get?_insert]
  split <;> rfl

/-- What a lookup finds after a route was added at a slot. -/
theorem bySegment_of_addAt {t t' : RouteTable ν} {segment : Segment} {neighbor : ν} {slot : Nat}
    (h : t.addAt slot segment neighbor = .ok t') (find : ν → Option α) (s : Segment) :
    t'.bySegment find s = if s = segment then find neighbor else t.bySegment find s := by
  rw [bySegment, (of_addAt h).2, Table.get?_insert]
  split <;> rfl

end RouteTable

end Fieldbus
