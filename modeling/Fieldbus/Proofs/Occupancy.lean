import Mathlib.Data.List.Range
import Fieldbus.Proofs.Routes

/-!
# Who holds the slots of a route table

Routes are added to a table one after another, at a slot that is asked for or at one of the table's
own choice, and some are refused. A slot holds a segment as long as neither was given away since
(`RouteTable.occupant?_built_iff`). Main statements: the table keeps its shape, whatever it is asked
for (`RouteTable.wellKept_built`), and a segment that was given a route is found under its slot,
unless the slot has been given to another segment since (`RouteTable.found_or_displaced`).
-/

namespace Fieldbus

/-- A route that somebody wants added. -/
structure Addition (ν : Type) where
  /-- The slot asked for; absent if the table is to choose one. -/
  slot : Option Nat
  /-- The segment the route leads to. -/
  segment : Segment
  /-- The neighbor there. -/
  neighbor : ν
  deriving DecidableEq, Repr

/-- A route that was added. -/
structure Grant (ν : Type) where
  /-- The slot the segment was given. -/
  slot : Nat
  /-- The segment the route leads to. -/
  segment : Segment
  /-- The neighbor there. -/
  neighbor : ν
  deriving DecidableEq, Repr

namespace Grant

variable {ν : Type}

/-- The last of the routes that were added for a segment; the last one added comes first. -/
def lastFor (past : List (Grant ν)) (s : Segment) : Option (Grant ν) :=
  past.find? fun g => g.segment == s

/-- The last of the routes that were added at a slot. -/
def lastAt (past : List (Grant ν)) (slot : Nat) : Option (Grant ν) :=
  past.find? fun g => g.slot == slot

/-- The slot that a segment was given last has been given to another segment since. -/
def Displaced (past : List (Grant ν)) (g : Grant ν) : Prop :=
  lastFor past g.segment = some g ∧ ∃ g', lastAt past g.slot = some g' ∧ g'.segment ≠ g.segment

theorem lastFor_cons (g : Grant ν) (past : List (Grant ν)) (s : Segment) :
    lastFor (g :: past) s = if g.segment = s then some g else lastFor past s := by
  simp only [lastFor, List.find?_cons, beq_eq_decide]
  by_cases h : g.segment = s <;> simp [h]

theorem lastAt_cons (g : Grant ν) (past : List (Grant ν)) (slot : Nat) :
    lastAt (g :: past) slot = if g.slot = slot then some g else lastAt past slot := by
  simp only [lastAt, List.find?_cons, beq_eq_decide]
  by_cases h : g.slot = slot <;> simp [h]

end Grant

namespace RouteTable

variable {ν α : Type} {t t' : RouteTable ν} {s : Segment} {p slot : Nat} {a : Addition ν}
  {find : ν → Option α}

/-! ## Slots -/

/-- The segment in a slot. -/
def occupant? (t : RouteTable ν) (slot : Nat) : Option Segment :=
  if slot = 0 then none else t.slots[slot - 1]?.join

theorem occupant?_eq_some_iff :
    t.occupant? p = some s ↔ 1 ≤ p ∧ t.slots[p - 1]? = some (some s) := by
  unfold occupant?
  by_cases hp : p = 0
  · simp [hp]
  · rw [if_neg hp, Option.join_eq_some_iff]
    exact (and_iff_right (by omega)).symm

/-- A slot leads to the neighbor of the segment in it. -/
theorem bySlot_eq_bind : t.bySlot find p = (t.occupant? p).bind (t.bySegment find) := by
  unfold bySlot occupant?
  split <;> rfl

/-- A slot that holds a segment is one of those the table has. -/
theorem le_length_of_occupant? (h : t.occupant? p = some s) : 1 ≤ p ∧ p ≤ t.slots.length := by
  obtain ⟨hp, hs⟩ := occupant?_eq_some_iff.mp h
  have hlt := (List.getElem?_eq_some_iff.mp hs).1
  omega

/-- In a valid table no segment is in two slots. -/
theorem Valid.eq_of_occupant? (valid : t.Valid) {q : Nat} (hp : t.occupant? p = some s)
    (hq : t.occupant? q = some s) : p = q := by
  obtain ⟨hp, hps⟩ := occupant?_eq_some_iff.mp hp
  obtain ⟨hq, hqs⟩ := occupant?_eq_some_iff.mp hq
  have he := valid.single _ _ s hps hqs
  omega

theorem mem_segments_iff : s ∈ t.segments ↔ ∃ p, t.occupant? p = some s := by
  have hmem : s ∈ t.segments ↔ some s ∈ t.slots := by simp [segments]
  rw [hmem, List.mem_iff_getElem?]
  constructor
  · rintro ⟨i, hi⟩
    exact ⟨i + 1, occupant?_eq_some_iff.mpr ⟨by omega, hi⟩⟩
  · rintro ⟨p, hp⟩
    exact ⟨p - 1, (occupant?_eq_some_iff.mp hp).2⟩

/-- What is found at the places of a list, in order, is what is found in the list. -/
theorem filterMap_range_getElem? {β γ : Type} (l : List β) (f : β → Option γ) {n : Nat}
    (h : l.length ≤ n) : ((List.range n).filterMap fun i => l[i]?.bind f) = l.filterMap f := by
  induction l generalizing n with
  | nil => simp
  | cons b rest ih =>
    obtain ⟨m, rfl⟩ : ∃ m, n = m + 1 := ⟨n - 1, by rw [List.length_cons] at h; omega⟩
    have hrest := ih (n := m) (by rw [List.length_cons] at h; omega)
    rw [List.range_succ_eq_map, List.filterMap_cons, List.filterMap_map, List.filterMap_cons]
    simp only [Function.comp_def, List.getElem?_cons_succ, hrest, List.getElem?_cons_zero,
      Option.bind_some]

/-- The segments with a slot are found by going through the slots. -/
theorem filterMap_segments {β : Type} {n : Nat} (h : t.slots.length ≤ n) (f : Segment → Option β) :
    t.segments.filterMap f = (List.range' 1 n).filterMap fun p => (t.occupant? p).bind f := by
  have hslots : t.segments.filterMap f = t.slots.filterMap fun o => o.bind f := by
    rw [segments, List.filterMap_filterMap]
    rfl
  rw [hslots, ← filterMap_range_getElem? t.slots _ h, List.range'_eq_map_range,
    List.filterMap_map]
  congr 1
  funext i
  have hi : ¬ 1 + i = 0 := by omega
  simp only [Function.comp_apply, occupant?, hi, ite_false, Nat.add_sub_cancel_left]
  cases t.slots[i]? <;> rfl

/-- The neighbors with a slot are those that some slot leads to. -/
theorem mem_live_iff {n : α} : n ∈ t.live find ↔ ∃ p, t.bySlot find p = some n := by
  simp only [live, List.mem_filterMap, mem_segments_iff, bySlot_eq_bind, Option.bind_eq_some_iff]
  constructor
  · rintro ⟨s, ⟨p, hp⟩, hs⟩
    exact ⟨p, s, hp, hs⟩
  · rintro ⟨p, s, hp, hs⟩
    exact ⟨s, ⟨p, hp⟩, hs⟩

/-! ## Adding a route -/

/-- Adds a route where it is wanted, and says its slot. -/
def grant (t : RouteTable ν) (a : Addition ν) : Except Fault (Nat × RouteTable ν) :=
  match a.slot with
  | none => t.add a.segment a.neighbor
  | some slot => (t.addAt slot a.segment a.neighbor).map fun t' => (slot, t')

/-- What adding a route comes to: its slot holds its segment, no other slot does, and whatever other
segments are in other slots stays there. -/
structure Adds (t : RouteTable ν) (g : Grant ν) (t' : RouteTable ν) : Prop where
  /-- The slot has a number that slots can have. -/
  bounds : 1 ≤ g.slot ∧ g.slot ≤ maxSlot
  /-- There are not too many slots. -/
  length_le : t'.slots.length ≤ maxSlot
  /-- The table keeps its shape. -/
  valid : t'.Valid
  /-- Routes start from where they started. -/
  home : t'.home = t.home
  /-- The segment leads to the neighbor. -/
  neighbors : t'.neighbors = t.neighbors.insert g.segment g.neighbor
  /-- What the slots hold. -/
  occupant? : ∀ p, t'.occupant? p = if p = g.slot then some g.segment
    else if t.occupant? p = some g.segment then none else t.occupant? p

/-- What the slots hold after one was added behind them. -/
theorem occupant?_of_slots_append (h : t'.slots = t.slots ++ [some s]) (p : Nat) :
    t'.occupant? p = if p = t.slots.length + 1 then some s else t.occupant? p := by
  unfold occupant?
  rw [h]
  by_cases hp0 : p = 0
  · simp [hp0]
  rw [if_neg hp0, if_neg hp0, List.getElem?_append]
  split
  · rw [if_neg (by omega)]
  · rw [List.getElem?_singleton, List.getElem?_eq_none (by omega)]
    by_cases hlast : p = t.slots.length + 1
    · rw [if_pos hlast, if_pos (by omega)]
      rfl
    · rw [if_neg hlast, if_neg (by omega)]

/-- What the slots hold after the table was made long enough, a segment lost its slot and was given
another one. -/
theorem occupant?_of_slots_set (hslot : 1 ≤ slot)
    (h : t'.slots = ((t.slots ++ List.replicate (slot - t.slots.length) none).map fun o =>
      if o == some s then none else o).set (slot - 1) (some s)) (p : Nat) :
    t'.occupant? p = if p = slot then some s
      else if t.occupant? p = some s then none else t.occupant? p := by
  unfold occupant?
  rw [h]
  by_cases hp0 : p = 0
  · have hne : ¬ 0 = slot := by omega
    simp [hp0, hne]
  -- The slots that the table had hold what they held, and those that were added hold nothing.
  have hlong : (t.slots ++ List.replicate (slot - t.slots.length) none)[p - 1]?.join =
      t.slots[p - 1]?.join := by
    rw [List.getElem?_append]
    split
    · rfl
    · rw [List.getElem?_replicate, List.getElem?_eq_none (by omega)]
      split <;> rfl
  rw [if_neg hp0, if_neg hp0, List.getElem?_set]
  by_cases hp : p = slot
  · rw [if_pos hp, if_pos (by omega), if_pos]
    · rfl
    · simp only [List.length_map, List.length_append, List.length_replicate]
      omega
  · rw [if_neg hp, if_neg (by omega), List.getElem?_map, ← hlong]
    generalize (t.slots ++ List.replicate (slot - t.slots.length) none)[p - 1]? = held
    rcases held with _ | _ | held
    · rfl
    · rfl
    · by_cases hheld : held = s <;> simp [hheld]

/-- Adding a route at a slot of the table's own choice. -/
theorem adds_of_add {neighbor : ν} (valid : t.Valid) (hlen : t.slots.length ≤ maxSlot)
    (h : t.add s neighbor = .ok (slot, t')) : t.Adds ⟨slot, s, neighbor⟩ t' := by
  have hvalid := valid.add h
  obtain ⟨home, neighbors, -⟩ := of_add h
  have hr := refuses_of_add h
  simp only [add, hr, Bool.false_eq_true, ite_false] at h
  cases hp : t.place? s with
  | some k =>
    rw [hp] at h
    cases h
    have hk : t.occupant? (k + 1) = some s := by
      obtain ⟨hlt, heq, -⟩ := List.findIdx?_eq_some_iff_getElem.mp hp
      refine occupant?_eq_some_iff.mpr ⟨by omega, ?_⟩
      rw [Nat.add_sub_cancel, List.getElem?_eq_getElem hlt, beq_iff_eq.mp heq]
    have hle := le_length_of_occupant? hk
    refine ⟨⟨hle.1, hle.2.trans hlen⟩, hlen, hvalid, home, neighbors, fun p => ?_⟩
    show t.occupant? p = _
    dsimp only
    by_cases hpk : p = k + 1
    · rw [if_pos hpk, hpk, hk]
    · rw [if_neg hpk, if_neg fun hs => hpk (valid.eq_of_occupant? hs hk)]
  | none =>
    rw [hp] at h
    dsimp only at h
    split at h
    · cases h
    cases h
    have hnew : ∀ p, t.occupant? p ≠ some s := fun p hs =>
      place?_eq_none_iff.mp hp (List.mem_of_getElem? (occupant?_eq_some_iff.mp hs).2)
    have hroom : t.slots.length + 1 ≤ maxSlot := by omega
    refine ⟨⟨Nat.succ_pos _, hroom⟩, ?_, hvalid, home, neighbors, fun p => ?_⟩
    · rwa [List.length_append, List.length_singleton]
    · rw [occupant?_of_slots_append rfl, if_neg (hnew p)]

/-- Adding a route at a slot that is asked for. -/
theorem adds_of_addAt {neighbor : ν} (valid : t.Valid) (hlen : t.slots.length ≤ maxSlot)
    (h : t.addAt slot s neighbor = .ok t') : t.Adds ⟨slot, s, neighbor⟩ t' := by
  have hvalid := valid.addAt h
  obtain ⟨home, neighbors⟩ := of_addAt h
  have hr := refuses_of_addAt h
  unfold addAt at h
  split at h
  · cases h
  rw [hr] at h
  cases h
  have hbounds : 1 ≤ slot ∧ slot ≤ maxSlot := by omega
  refine ⟨hbounds, ?_, hvalid, home, neighbors, occupant?_of_slots_set hbounds.1 rfl⟩
  simp only [List.length_set, List.length_map, List.length_append, List.length_replicate]
  omega

/-- Whatever slot a route is added at, this is what it comes to. -/
theorem adds_of_grant (valid : t.Valid) (hlen : t.slots.length ≤ maxSlot)
    (h : t.grant a = .ok (slot, t')) :
    (∀ p ∈ a.slot, slot = p) ∧ t.Adds ⟨slot, a.segment, a.neighbor⟩ t' := by
  obtain ⟨_ | p, segment, neighbor⟩ := a
  · exact ⟨by simp, adds_of_add valid hlen h⟩
  · obtain ⟨t₁, hadd, he⟩ : ∃ t₁, t.addAt p segment neighbor = .ok t₁ ∧ (p, t₁) = (slot, t') := by
      simp only [grant] at h
      cases hadd : t.addAt p segment neighbor with
      | error fault =>
        rw [hadd] at h
        cases h
      | ok t₁ =>
        rw [hadd] at h
        exact ⟨t₁, rfl, Except.ok.inj h⟩
    cases he
    exact ⟨by simp, adds_of_addAt valid hlen hadd⟩

/-- A route is refused for a slot that no table has, for a segment that no route may lead to, and for
want of room. -/
theorem exists_grant_eq_error_iff : (∃ fault, t.grant a = .error fault) ↔
    (∃ p ∈ a.slot, p = 0 ∨ maxSlot < p) ∨ t.refuses a.segment = true ∨
      a.slot = none ∧ (∀ p, t.occupant? p ≠ some a.segment) ∧ maxSlot ≤ t.slots.length := by
  obtain ⟨_ | p, segment, neighbor⟩ := a
  · have hplace : t.place? segment = none ↔ ∀ p, t.occupant? p ≠ some segment := by
      rw [← not_iff_not, ← Ne, Option.ne_none_iff_exists']
      simp only [not_forall, not_not, ← mem_segments_iff]
      rw [← Option.isSome_iff_exists, ← Option.ne_none_iff_isSome, Ne, place?_eq_none_iff, not_not]
      simp [segments]
    simp only [grant, add, Option.mem_def, reduceCtorEq, false_and, exists_false, false_or, true_and]
    rw [← hplace]
    cases t.refuses segment with
    | true => simp
    | false =>
      cases t.place? segment with
      | some k => simp
      | none => by_cases hroom : maxSlot ≤ t.slots.length <;> simp [hroom]
  · have hslot : (∃ q ∈ some p, q = 0 ∨ maxSlot < q) ↔ p = 0 ∨ p > maxSlot := by simp
    simp only [grant, addAt, hslot, reduceCtorEq, false_and, or_false]
    by_cases hp : p = 0 ∨ p > maxSlot
    · simp [hp, Except.map]
    · cases t.refuses segment <;> simp [hp, Except.map]

/-! ## Routes that are added one after another -/

/-- The table after a route was asked for; a route that is refused changes nothing. -/
def after (t : RouteTable ν) (a : Addition ν) : RouteTable ν :=
  match t.grant a with
  | .ok (_, t') => t'
  | .error _ => t

/-- A new table after some routes were asked for, the last one first. -/
def built (home : Segment) : List (Addition ν) → RouteTable ν
  | [] => { home }
  | a :: earlier => (built home earlier).after a

/-- The routes that were added to a new table when some were asked for, the last one first. -/
def granted (home : Segment) : List (Addition ν) → List (Grant ν)
  | [] => []
  | a :: earlier =>
    match (built home earlier).grant a with
    | .ok (slot, _) => ⟨slot, a.segment, a.neighbor⟩ :: granted home earlier
    | .error _ => granted home earlier

variable {home : Segment} {asked : List (Addition ν)}

/-- The table keeps its shape, whatever it is asked for. -/
theorem valid_built (home : Segment) (asked : List (Addition ν)) :
    (built home asked).Valid ∧ (built home asked).slots.length ≤ maxSlot ∧
      (built home asked).home = home := by
  induction asked with
  | nil => exact ⟨valid_empty home, Nat.zero_le _, rfl⟩
  | cons a earlier ih =>
    obtain ⟨valid, hlen, hhome⟩ := ih
    rw [built, after]
    split
    · rename_i slot t' h
      have hadds := (adds_of_grant valid hlen h).2
      exact ⟨hadds.valid, hadds.length_le, hadds.home.trans hhome⟩
    · exact ⟨valid, hlen, hhome⟩

/-- Either a route is refused and nothing changes, or it is added. -/
theorem built_cons (home : Segment) (a : Addition ν) (earlier : List (Addition ν)) :
    built home (a :: earlier) = built home earlier ∧
        granted home (a :: earlier) = granted home earlier ∨
      ∃ g : Grant ν, granted home (a :: earlier) = g :: granted home earlier ∧
        (built home earlier).Adds g (built home (a :: earlier)) := by
  obtain ⟨valid, hlen, -⟩ := valid_built home earlier
  rw [built, granted, after]
  cases h : (built home earlier).grant a with
  | error fault => exact Or.inl ⟨rfl, rfl⟩
  | ok added => exact Or.inr ⟨_, rfl, (adds_of_grant valid hlen h).2⟩

/-- A segment leads to the neighbor of the last route that was added for it. -/
theorem neighbors_built (home : Segment) (asked : List (Addition ν)) (s : Segment) :
    (built home asked).neighbors.get? s =
      (Grant.lastFor (granted home asked) s).map Grant.neighbor := by
  induction asked with
  | nil => rfl
  | cons a earlier ih =>
    obtain ⟨hbuilt, hgranted⟩ | ⟨g, hgranted, hadds⟩ := built_cons home a earlier
    · rw [hbuilt, hgranted, ih]
    · rw [hadds.neighbors, hgranted, Table.get?_insert, Grant.lastFor_cons]
      by_cases hs : s = g.segment
      · rw [if_pos hs, if_pos hs.symm]
        rfl
      · rw [if_neg hs, if_neg (Ne.symm hs), ih]

/-- A slot holds a segment exactly if each was given to the other when a route was last added for
it. -/
theorem occupant?_built_iff (home : Segment) (asked : List (Addition ν)) (p : Nat) (s : Segment) :
    (built home asked).occupant? p = some s ↔
      (∃ g, Grant.lastAt (granted home asked) p = some g ∧ g.segment = s) ∧
        ∃ g, Grant.lastFor (granted home asked) s = some g ∧ g.slot = p := by
  induction asked with
  | nil => simp [built, granted, occupant?, Grant.lastAt]
  | cons a earlier ih =>
    obtain ⟨hbuilt, hgranted⟩ | ⟨g, hgranted, hadds⟩ := built_cons home a earlier
    · rw [hbuilt, hgranted, ih]
    · rw [hadds.occupant?, hgranted, Grant.lastAt_cons, Grant.lastFor_cons]
      by_cases hp : p = g.slot <;> by_cases hs : s = g.segment
      · simp [hp, hs]
      · simp [hp, Ne.symm hs]
      · -- The segment has moved to another slot.
        subst hs
        rw [if_neg hp, if_neg (Ne.symm hp), if_pos rfl]
        refine iff_of_false ?_ ?_
        · split
          · simp
          · assumption
        · rintro ⟨-, g', hg, hslot⟩
          cases hg
          exact hp hslot.symm
      · rw [if_neg hp, if_neg (Ne.symm hp), if_neg (Ne.symm hs), ← ih]
        split
        · rename_i hold
          simp [hold, Ne.symm hs]
        · rfl

/-! ## The shape of a table -/

/-- What is to be had of a table for which some routes were added, the last one first. -/
structure WellKept (home : Segment) (past : List (Grant ν)) (t : RouteTable ν) : Prop where
  /-- There are not too many slots. -/
  length_le : t.slots.length ≤ maxSlot
  /-- No segment is in two slots. -/
  single : ∀ {p q : Nat} {s : Segment}, t.occupant? p = some s → t.occupant? q = some s → p = q
  /-- Every segment with a slot has a neighbor. -/
  entry : ∀ {p : Nat} {s : Segment}, t.occupant? p = some s →
    ∃ neighbor, t.neighbors.get? s = some neighbor
  /-- It is the neighbor of the last route that was added for the segment. -/
  last : ∀ s, t.neighbors.get? s = (Grant.lastFor past s).map Grant.neighbor
  /-- No segment with a neighbor has a reserved number or is where routes start. -/
  admitted : ∀ {s : Segment} {neighbor : ν}, t.neighbors.get? s = some neighbor →
    s ≠ Segment.here ∧ s ≠ Segment.everywhere ∧ s ≠ home
  /-- The segments with a slot are listed once each, in slot order. -/
  segments : t.segments = (List.range' 1 maxSlot).filterMap t.occupant? ∧ t.segments.Nodup
  /-- The neighbors that are still there are listed slot by slot. -/
  live : ∀ {α : Type} (find : ν → Option α),
    t.live find = (List.range' 1 maxSlot).filterMap (t.bySlot find)

/-- What is to be had of a route that was asked for and was added at a slot. -/
structure Settled (t : RouteTable ν) (a : Addition ν) (slot : Nat) (t' : RouteTable ν) : Prop where
  /-- The slot has a number that slots can have. -/
  bounds : 1 ≤ slot ∧ slot ≤ maxSlot
  /-- It is the slot that was asked for. -/
  asked : ∀ p ∈ a.slot, slot = p
  /-- As long as the neighbor is there, it is found by its slot and by its segment. -/
  found : ∀ {α : Type} (find : ν → Option α),
    t'.bySlot find slot = find a.neighbor ∧ t'.bySegment find a.segment = find a.neighbor
  /-- If the table was to choose, no slot has lost its segment, and the segment has kept the slot
  it had. -/
  chosen : a.slot = none → ∀ {p : Nat} {s : Segment}, t.occupant? p = some s →
    t'.occupant? p = some s ∧ (s = a.segment → slot = p)
  /-- Other slots, the one the segment had apart, hold and find what they held and found. -/
  others : ∀ {p : Nat}, p ≠ slot → t.occupant? p ≠ some a.segment →
    t'.occupant? p = t.occupant? p ∧
      ∀ {α : Type} (find : ν → Option α), t'.bySlot find p = t.bySlot find p

/-- A route that is added where the table chooses takes no slot from a segment. -/
theorem occupant?_of_add {neighbor : ν} (h : t.add s neighbor = .ok (slot, t')) {w : Segment}
    (hp : t.occupant? p = some w) : t'.occupant? p = some w := by
  obtain ⟨hpos, hs⟩ := occupant?_eq_some_iff.mp hp
  obtain ⟨more, hmore⟩ := (of_add h).2.2
  refine occupant?_eq_some_iff.mpr ⟨hpos, ?_⟩
  rw [← hmore, List.getElem?_append_left (List.getElem?_eq_some_iff.mp hs).1, hs]

theorem settled_of_grant (valid : t.Valid) (hlen : t.slots.length ≤ maxSlot)
    (h : t.grant a = .ok (slot, t')) : t.Settled a slot t' := by
  obtain ⟨hasked, hadds⟩ := adds_of_grant valid hlen h
  have hslot : t'.occupant? slot = some a.segment := by rw [hadds.occupant?, if_pos rfl]
  have hfound : ∀ {α : Type} (find : ν → Option α), t'.bySegment find a.segment = find a.neighbor := by
    intro α find
    rw [bySegment, hadds.neighbors, Table.get?_insert_self]
    rfl
  refine ⟨hadds.bounds, hasked, fun find => ⟨?_, hfound find⟩, fun hchoose p s hp => ?_,
    fun {p} hp hs => ?_⟩
  · rw [bySlot_eq_bind, hslot]
    exact hfound find
  · have hadd : t.add a.segment a.neighbor = .ok (slot, t') := by
      simpa only [grant, hchoose] using h
    have hkept := occupant?_of_add hadd hp
    refine ⟨hkept, ?_⟩
    rintro rfl
    exact hadds.valid.eq_of_occupant? hslot hkept
  · have hkept : t'.occupant? p = t.occupant? p := by
      rw [hadds.occupant?, if_neg hp, if_neg hs]
    refine ⟨hkept, fun find => ?_⟩
    rw [bySlot_eq_bind, bySlot_eq_bind, hkept]
    cases ho : t.occupant? p with
    | none => rfl
    | some w =>
      have hw : w ≠ a.segment := fun he => hs (he ▸ ho)
      simp only [Option.bind_some, bySegment, hadds.neighbors, Table.get?_insert_of_ne _ _ hw]

/-- A route is added for a segment that has a slot, and the segment keeps the slot. -/
theorem exists_grant_of_occupant? (valid : t.Valid) (hlen : t.slots.length ≤ maxSlot)
    (hs : t.occupant? p = some s) (hr : t.refuses s = false) (neighbor : ν) :
    ∃ t', t.grant ⟨none, s, neighbor⟩ = .ok (p, t') := by
  cases h : t.grant ⟨none, s, neighbor⟩ with
  | error fault =>
    obtain ⟨q, hq, -⟩ | hrefused | ⟨-, hnone, -⟩ := exists_grant_eq_error_iff.mp ⟨fault, h⟩
    · cases hq
    · rw [hr] at hrefused
      cases hrefused
    · exact absurd hs (hnone p)
  | ok added =>
    obtain ⟨slot, t'⟩ := added
    have he := ((settled_of_grant valid hlen h).chosen rfl hs).2 rfl
    exact ⟨t', he ▸ rfl⟩

/-- Whatever a table is asked for, it keeps its shape. What is refused changes nothing, what is added
is found and leaves the rest alone, and a segment with a slot is never refused. -/
theorem wellKept_built (home : Segment) (asked : List (Addition ν)) :
    (built home asked).WellKept home (granted home asked) ∧
      (∀ {a : Addition ν} {fault : Fault}, (built home asked).grant a = .error fault →
        built home (a :: asked) = built home asked) ∧
      (∀ {a : Addition ν} {slot : Nat} {t' : RouteTable ν},
        (built home asked).grant a = .ok (slot, t') →
          built home (a :: asked) = t' ∧ (built home asked).Settled a slot t') ∧
      (∀ {p : Nat} {s : Segment}, (built home asked).occupant? p = some s → ∀ neighbor : ν,
        ∃ t', (built home asked).grant ⟨none, s, neighbor⟩ = .ok (p, t')) ∧
      ∀ a : Addition ν, (∃ fault, (built home asked).grant a = .error fault) ↔
        (∃ p ∈ a.slot, p = 0 ∨ maxSlot < p) ∨ (built home asked).refuses a.segment = true ∨
          a.slot = none ∧ (∀ p, (built home asked).occupant? p ≠ some a.segment) ∧
            maxSlot ≤ (built home asked).slots.length := by
  obtain ⟨valid, hlen, hhome⟩ := valid_built home asked
  have hentry : ∀ {p : Nat} {s : Segment}, (built home asked).occupant? p = some s →
      ∃ neighbor, (built home asked).neighbors.get? s = some neighbor := by
    intro p s hs
    obtain ⟨-, g, hg, -⟩ := (occupant?_built_iff home asked p s).mp hs
    exact ⟨g.neighbor, by rw [neighbors_built, hg, Option.map_some]⟩
  refine ⟨?_, fun h => ?_, fun h => ⟨?_, settled_of_grant valid hlen h⟩, fun hs neighbor => ?_,
    fun a => exists_grant_eq_error_iff⟩
  · refine ⟨hlen, valid.eq_of_occupant?, hentry, neighbors_built home asked, fun hs => ?_, ⟨?_,
      valid.nodup_segments⟩, fun find => ?_⟩
    · have hr := valid.admitted hs
      simp only [refuses, Bool.or_eq_false_iff, beq_eq_false_iff_ne, hhome] at hr
      exact ⟨hr.1.1, hr.1.2, hr.2⟩
    · have hsome := filterMap_segments hlen some
      simpa using hsome
    · rw [live, filterMap_segments hlen]
      congr 1
      funext p
      exact bySlot_eq_bind.symm
  · rw [built, after, h]
  · rw [built, after, h]
  · obtain ⟨n, hn⟩ := hentry hs
    exact exists_grant_of_occupant? valid hlen hs (valid.admitted hn) neighbor

/-- A segment is given a slot, another one is added behind it, and the first one moves. -/
private def moved : List (Addition Nat) := [⟨some 2, 7, 1⟩, ⟨none, 8, 2⟩, ⟨some 4, 7, 0⟩]

theorem wellKept_built_moved :
    (built 1 moved).segments = [7, 8] ∧
      built 1 (⟨some 256, 9, 3⟩ :: moved) = built 1 moved ∧
      (∃ t', built 1 (⟨some 5, 7, 3⟩ :: moved) = t' ∧ t'.bySlot some 5 = some 3 ∧
        t'.bySegment some 7 = some 3 ∧ t'.occupant? 2 = none) ∧
      ∃ t', (built 1 moved).grant ⟨none, 8, 4⟩ = .ok (5, t') := by
  obtain ⟨-, hrefused, hadded, hknown, -⟩ := wellKept_built 1 moved
  have herror : (built 1 moved).grant ⟨some 256, 9, 3⟩ = .error (.invalidSlot 256) := rfl
  have hgrant : (built 1 moved).grant ⟨some 5, 7, 3⟩ = .ok (5, _) := rfl
  obtain ⟨hbuilt, hsettled⟩ := hadded hgrant
  obtain ⟨hslot, hsegment⟩ := hsettled.found some
  exact ⟨by decide, hrefused herror, ⟨_, hbuilt, hslot, hsegment, by decide⟩, hknown (by decide) 4⟩

/-! ## Slots and segments -/

/-- A segment to which a route was added leads to the neighbor that its slot leads to, unless the
slot has been given to another segment since. Then it still leads to its neighbor, but has no slot
and is not listed with those that have one. Whatever is found by a slot is found by a segment. -/
theorem found_or_displaced (home : Segment) (asked : List (Addition ν)) (find : ν → Option α) :
    (∀ (s : Segment) (n : α), (built home asked).bySegment find s = some n ↔
      (∃ p, (built home asked).occupant? p = some s ∧ (built home asked).bySlot find p = some n) ∨
        ∃ g, Grant.Displaced (granted home asked) g ∧ g.segment = s ∧ find g.neighbor = some n) ∧
    (∀ g, Grant.Displaced (granted home asked) g →
      (∀ p, (built home asked).occupant? p ≠ some g.segment) ∧
        g.segment ∉ (built home asked).segments) ∧
    ∀ n : α, n ∈ (built home asked).live find ↔ ∃ p s, (built home asked).occupant? p = some s ∧
      (built home asked).bySlot find p = some n ∧ (built home asked).bySegment find s = some n := by
  have hsegment : ∀ (s : Segment) (n : α), (built home asked).bySegment find s = some n ↔
      ∃ g, Grant.lastFor (granted home asked) s = some g ∧ find g.neighbor = some n := by
    intro s n
    rw [bySegment, neighbors_built]
    cases Grant.lastFor (granted home asked) s <;> simp
  have hdisplaced : ∀ g, Grant.Displaced (granted home asked) g →
      ∀ p, (built home asked).occupant? p ≠ some g.segment := by
    rintro g ⟨hfor, g', hat, hne⟩ p hp
    obtain ⟨⟨taker, htaker, hsame⟩, own, hown, rfl⟩ := (occupant?_built_iff home asked p _).mp hp
    obtain rfl := Option.some.inj (hfor.symm.trans hown)
    obtain rfl := Option.some.inj (hat.symm.trans htaker)
    exact hne hsame
  refine ⟨fun s n => ⟨fun h => ?_, ?_⟩, fun g hg => ⟨hdisplaced g hg, fun hmem => ?_⟩, fun n => ?_⟩
  · obtain ⟨g, hfor, hn⟩ := (hsegment s n).mp h
    have hseg : g.segment = s := by simpa using List.find?_some hfor
    have hsome : (Grant.lastAt (granted home asked) g.slot).isSome :=
      List.find?_isSome.mpr ⟨g, List.mem_of_find?_eq_some hfor, beq_self_eq_true _⟩
    obtain ⟨g', hat⟩ := Option.isSome_iff_exists.mp hsome
    by_cases hkept : g'.segment = s
    · have hoccupant := (occupant?_built_iff home asked g.slot s).mpr ⟨⟨g', hat, hkept⟩, g, hfor, rfl⟩
      refine Or.inl ⟨g.slot, hoccupant, ?_⟩
      rw [bySlot_eq_bind, hoccupant]
      exact h
    · exact Or.inr ⟨g, ⟨hseg ▸ hfor, g', hat, hseg ▸ hkept⟩, hseg, hn⟩
  · rintro (⟨p, hp, hn⟩ | ⟨g, ⟨hfor, -⟩, rfl, hn⟩)
    · rwa [bySlot_eq_bind, hp] at hn
    · exact (hsegment g.segment n).mpr ⟨g, hfor, hn⟩
  · obtain ⟨p, hp⟩ := mem_segments_iff.mp hmem
    exact hdisplaced g hg p hp
  · rw [mem_live_iff]
    constructor
    · rintro ⟨p, hp⟩
      have hbind := hp
      rw [bySlot_eq_bind, Option.bind_eq_some_iff] at hbind
      obtain ⟨s, hs, hn⟩ := hbind
      exact ⟨p, s, hs, hp, hn⟩
    · rintro ⟨p, -, -, hp, -⟩
      exact ⟨p, hp⟩

/-- The slot of a segment is given to another segment. -/
private def taken : List (Addition Nat) := [⟨some 1, 6, 1⟩, ⟨some 1, 5, 0⟩]

theorem found_or_displaced_taken :
    Grant.Displaced (granted 1 taken) ⟨1, 5, 0⟩ ∧ (built 1 taken).bySegment some 5 = some 0 ∧
      5 ∉ (built 1 taken).segments ∧ 1 ∈ (built 1 taken).live some := by
  have hdisplaced : Grant.Displaced (granted 1 taken) ⟨1, 5, 0⟩ :=
    ⟨by decide, ⟨1, 6, 1⟩, by decide, by decide⟩
  obtain ⟨hfound, hslotless, hlisted⟩ := found_or_displaced 1 taken some
  exact ⟨hdisplaced, (hfound 5 0).mpr (Or.inr ⟨_, hdisplaced, rfl, rfl⟩),
    (hslotless _ hdisplaced).2, (hlisted 1).mpr ⟨1, 6, by decide, by decide, by decide⟩⟩

/-- Frames for a segment are still handed to the neighbor there, though no slot leads to the neighbor
any more and it is not listed. -/
theorem found_without_slot :
    (built 1 taken).bySegment some 5 = some 0 ∧ (built 1 taken).live some = [1] ∧
      ∀ p, (built 1 taken).bySlot some p ≠ some 0 := by
  have hlive : (built 1 taken).live some = [1] := by decide
  refine ⟨by decide, hlive, fun p hp => ?_⟩
  have hmem : 0 ∈ (built 1 taken).live some := mem_live_iff.mpr ⟨p, hp⟩
  rw [hlive] at hmem
  simp at hmem

end RouteTable

end Fieldbus
