import Mathlib.Data.List.Nodup
import Mathlib.Data.List.ReduceOption
import Fieldbus.Network.Workers

/-!
# Where routes lead

A route table never lists a segment twice and never leads to a reserved number or back to where
it starts (`RouteTable.Valid`). In a network whose routes were all added by naming a node, a
route leads to a station on the segment it is looked up by (`Network.Routed`). Main statements:
adding nodes and routes keeps this (`Network.Routed.addNode`, `Network.Routed.addRoute`,
`Network.Routed.addRouteAt`), and so does every change after which stations have the routes they
had before (`Network.Routed.of_keepsRoutes`), dropping nodes included.
-/

namespace Fieldbus

/-- The shape that adding routes gives a route table. -/
structure RouteTable.Valid {ν : Type} (t : RouteTable ν) : Prop where
  /-- No segment occupies two slots. -/
  single : ∀ (i j : Nat) (s : Segment), t.slots[i]? = some (some s) → t.slots[j]? = some (some s) →
    i = j
  /-- Every segment with a neighbor is one that routes may lead to. -/
  admitted : ∀ {s : Segment} {neighbor : ν}, t.neighbors.get? s = some neighbor →
    t.refuses s = false

namespace RouteTable

variable {ν : Type}

/-- A table without routes. -/
theorem valid_empty (home : Segment) : ({ home := home } : RouteTable ν).Valid where
  single _ _ _ h _ := by simp at h
  admitted h := by simp at h

/-- A segment has a place exactly if some slot holds it. -/
theorem place?_eq_none_iff {t : RouteTable ν} {segment : Segment} :
    t.place? segment = none ↔ some segment ∉ t.slots := by
  simp only [place?, List.findIdx?_eq_none_iff, beq_eq_false_iff_ne]
  constructor
  · intro h hm
    exact h _ hm rfl
  · intro h s hs he
    exact h (he ▸ hs)

/-- The neighbors of a table to which one was added are still for admitted segments. -/
private theorem Valid.admitted_insert {t t' : RouteTable ν} (h : t.Valid) {segment : Segment}
    {neighbor : ν} (hr : t.refuses segment = false) (home : t'.home = t.home)
    (hn : t'.neighbors = t.neighbors.insert segment neighbor) {s : Segment} {found : ν}
    (hs : t'.neighbors.get? s = some found) : t'.refuses s = false := by
  have href : t'.refuses s = t.refuses s := by simp only [refuses, home]
  rw [href]
  rw [hn, Table.get?_insert] at hs
  by_cases he : s = segment
  · rw [he, hr]
  · rw [if_neg he] at hs
    exact h.admitted hs

/-- A table to which a route can be added leads to admitted segments only. -/
theorem refuses_of_add {t t' : RouteTable ν} {segment : Segment} {neighbor : ν} {slot : Nat}
    (h : t.add segment neighbor = .ok (slot, t')) : t.refuses segment = false := by
  cases hr : t.refuses segment with
  | false => rfl
  | true =>
    rw [add_of_refuses hr] at h
    cases h

/-- Slots hold single segments if one of them holds a given segment and all others what they
held before. -/
private theorem Valid.single_of_held {t : RouteTable ν} (h : t.Valid) {slots : List (Option Segment)}
    (place : Nat) (segment : Segment)
    (held : ∀ {i : Nat} {s : Segment}, slots[i]? = some (some s) →
      i = place ∧ s = segment ∨ s ≠ segment ∧ t.slots[i]? = some (some s))
    (i j : Nat) (s : Segment) (hi : slots[i]? = some (some s)) (hj : slots[j]? = some (some s)) :
    i = j := by
  rcases held hi with ⟨rfl, rfl⟩ | ⟨hne, hi⟩
  · rcases held hj with ⟨rfl, -⟩ | ⟨hne, -⟩
    · rfl
    · exact absurd rfl hne
  · rcases held hj with ⟨-, rfl⟩ | ⟨-, hj⟩
    · exact absurd rfl hne
    · exact h.single i j s hi hj

/-- Adding a route keeps a table valid. -/
theorem Valid.add {t t' : RouteTable ν} (h : t.Valid) {segment : Segment} {neighbor : ν}
    {slot : Nat} (ha : t.add segment neighbor = .ok (slot, t')) : t'.Valid where
  admitted := h.admitted_insert (refuses_of_add ha) (of_add ha).1 (of_add ha).2.1
  single := by
    have hr := refuses_of_add ha
    simp only [RouteTable.add, hr, Bool.false_eq_true, ite_false] at ha
    cases hp : t.place? segment with
    | some k =>
      rw [hp] at ha
      cases ha
      exact h.single
    | none =>
      rw [hp] at ha
      dsimp only at ha
      split at ha
      · cases ha
      · cases ha
        have hn := place?_eq_none_iff.mp hp
        refine h.single_of_held t.slots.length segment fun {i s} hi => ?_
        rw [List.getElem?_append] at hi
        split at hi
        · refine Or.inr ⟨?_, hi⟩
          rintro rfl
          exact hn (List.mem_of_getElem? hi)
        · rw [List.getElem?_singleton] at hi
          split at hi
          · cases hi
            exact Or.inl ⟨by omega, rfl⟩
          · cases hi

/-- A table to which a route can be added at a slot leads to the segment. -/
theorem refuses_of_addAt {t t' : RouteTable ν} {segment : Segment} {neighbor : ν}
    {slot : Nat} (h : t.addAt slot segment neighbor = .ok t') : t.refuses segment = false := by
  unfold addAt at h
  split at h
  · cases h
  · cases hr : t.refuses segment with
    | false => rfl
    | true =>
      rw [hr] at h
      cases h

/-- Adding a route at a slot keeps a table valid. -/
theorem Valid.addAt {t t' : RouteTable ν} (h : t.Valid) {segment : Segment} {neighbor : ν}
    {slot : Nat} (ha : t.addAt slot segment neighbor = .ok t') : t'.Valid where
  admitted := h.admitted_insert (refuses_of_addAt ha) (of_addAt ha).1 (of_addAt ha).2
  single := by
    have hr := refuses_of_addAt ha
    unfold RouteTable.addAt at ha
    split at ha
    · cases ha
    · rw [hr] at ha
      cases ha
      -- The segment was cleared from every slot before it was put into its new one.
      refine h.single_of_held (slot - 1) segment fun {i s} hi => ?_
      rw [List.getElem?_set] at hi
      split at hi
      · split at hi
        · cases hi
          exact Or.inl ⟨by omega, rfl⟩
        · cases hi
      · rw [List.getElem?_map, Option.map_eq_some_iff] at hi
        obtain ⟨held, hl, hc⟩ := hi
        split at hc
        · cases hc
        · subst hc
          refine Or.inr ⟨by simp_all, ?_⟩
          rw [List.getElem?_append] at hl
          split at hl
          · exact hl
          · rw [List.getElem?_replicate] at hl
            split at hl <;> cases hl

/-- A valid table lists every segment once. -/
theorem Valid.nodup_segments {t : RouteTable ν} (h : t.Valid) : t.segments.Nodup := by
  rw [segments, List.Nodup, List.pairwise_filterMap, List.pairwise_iff_getElem]
  rintro i j hi hj hij s hs _ hs' rfl
  have he : i = j := h.single i j s (by rw [List.getElem?_eq_getElem hi]; exact congrArg some hs)
    (by rw [List.getElem?_eq_getElem hj]; exact congrArg some hs')
  omega

/-- Segments that are listed once occupy one slot. -/
theorem Valid.of_nodup_segments {t : RouteTable ν} (nodup : t.segments.Nodup)
    (admitted : ∀ entry ∈ t.neighbors.entries, t.refuses entry.1 = false) : t.Valid where
  admitted := by
    intro s neighbor hs
    exact admitted _ (Table.mem_of_get?_eq_some hs)
  single := by
    rw [segments, List.Nodup, List.pairwise_filterMap, List.pairwise_iff_getElem] at nodup
    have hne : ∀ (i j : Nat) (s : Segment), t.slots[i]? = some (some s) →
        t.slots[j]? = some (some s) → ¬ i < j := by
      intro i j s hi hj hij
      obtain ⟨hilt, hi⟩ := List.getElem?_eq_some_iff.mp hi
      obtain ⟨hjlt, hj⟩ := List.getElem?_eq_some_iff.mp hj
      exact nodup i j hilt hjlt hij s hi s hj rfl
    intro i j s hi hj
    have hij := hne i j s hi hj
    have hji := hne j i s hj hi
    omega

end RouteTable

namespace Directory

variable {d : Directory} {s : Station} {segment : Segment} {n n' : Member}

/-- A neighbor on a segment is the station that the route for the segment names. -/
theorem neighborOn?_eq_some_iff :
    d.neighborOn? s segment = some n ↔
      s.routes.neighbors.get? segment = some n.id ∧ d n.id = some n.station := by
  obtain ⟨id, station⟩ := n
  simp only [neighborOn?, RouteTable.bySegment, Option.bind_eq_some_iff, member?,
    Option.map_eq_some_iff, Member.mk.injEq]
  constructor
  · rintro ⟨target, ht, station', hs, rfl, rfl⟩
    exact ⟨ht, hs⟩
  · rintro ⟨ht, hs⟩
    exact ⟨id, ht, station, hs, rfl, rfl⟩

/-- The neighbors of a station are found on the segments with a slot. -/
theorem mem_neighbors_iff :
    n ∈ d.neighbors s ↔ ∃ segment ∈ s.routes.segments, d.neighborOn? s segment = some n :=
  List.mem_filterMap

/-- Neighbors are stations of the directory. -/
theorem apply_of_mem_neighbors (h : n ∈ d.neighbors s) : d n.id = some n.station := by
  obtain ⟨segment, -, hn⟩ := mem_neighbors_iff.mp h
  exact (neighborOn?_eq_some_iff.mp hn).2

/-- Every route leads to a station on the segment that the route is for. -/
structure Routed (d : Directory) : Prop where
  /-- No station is on the global segment. -/
  segment_ne : ∀ {id : NodeId} {s : Station}, d id = some s → s.segment ≠ Segment.everywhere
  /-- Routes start from the segment of the station. -/
  home : ∀ {id : NodeId} {s : Station}, d id = some s → s.routes.home = s.segment
  /-- Route tables have the shape that adding routes gives them. -/
  valid : ∀ {id : NodeId} {s : Station}, d id = some s → s.routes.Valid
  /-- A route leads to the segment it is for. -/
  leads : ∀ {id target : NodeId} {s s' : Station} {segment : Segment}, d id = some s →
    s.routes.neighbors.get? segment = some target → d target = some s' → s'.segment = segment

namespace Routed

variable {id : NodeId}

/-- The neighbor found for a segment is on the segment. -/
theorem segment_neighborOn? (h : d.Routed) (hs : d id = some s)
    (hn : d.neighborOn? s segment = some n) : n.station.segment = segment := by
  obtain ⟨ht, hd⟩ := neighborOn?_eq_some_iff.mp hn
  exact h.leads hs ht hd

/-- A neighbor is found by the segment it is on. -/
theorem neighborOn?_of_mem (h : d.Routed) (hs : d id = some s) (hn : n ∈ d.neighbors s) :
    d.neighborOn? s n.station.segment = some n := by
  obtain ⟨segment, -, hf⟩ := mem_neighbors_iff.mp hn
  rwa [h.segment_neighborOn? hs hf]

/-- Neighbors on the same segment are the same. -/
theorem eq_of_segment_eq (h : d.Routed) (hs : d id = some s) (hn : n ∈ d.neighbors s)
    (hn' : n' ∈ d.neighbors s) (he : n.station.segment = n'.station.segment) : n = n' := by
  have hf := h.neighborOn?_of_mem hs hn
  rw [he, h.neighborOn?_of_mem hs hn'] at hf
  exact (Option.some.inj hf).symm

/-- A route leads to another segment, the number of which is not reserved. -/
theorem segment_ne_of_neighborOn? (h : d.Routed) (hs : d id = some s)
    (hn : d.neighborOn? s segment = some n) :
    segment ≠ Segment.here ∧ segment ≠ Segment.everywhere ∧ segment ≠ s.segment := by
  have hr := (h.valid hs).admitted (neighborOn?_eq_some_iff.mp hn).1
  simp only [RouteTable.refuses, Bool.or_eq_false_iff, beq_eq_false_iff_ne, h.home hs] at hr
  exact ⟨hr.1.1, hr.1.2, hr.2⟩

/-- A neighbor is on another segment, the number of which is not reserved. -/
theorem segment_ne_of_mem (h : d.Routed) (hs : d id = some s) (hn : n ∈ d.neighbors s) :
    n.station.segment ≠ Segment.here ∧ n.station.segment ≠ Segment.everywhere ∧
      n.station.segment ≠ s.segment :=
  h.segment_ne_of_neighborOn? hs (h.neighborOn?_of_mem hs hn)

/-- No neighbor is listed twice. -/
theorem nodup_neighbors (h : d.Routed) (hs : d id = some s) : (d.neighbors s).Nodup := by
  refine (h.valid hs).nodup_segments.filterMap fun a b n ha hb => ?_
  rw [← h.segment_neighborOn? hs ha, ← h.segment_neighborOn? hs hb]

end Routed

end Directory

namespace Network

/-- Every route of the network leads to a station on the segment that the route is for, and names
a node that has been added. -/
structure Routed (net : Network) : Prop where
  /-- Routes lead where they are said to lead. -/
  directory : net.directory.Routed
  /-- Routes name nodes that have been added. -/
  added : ∀ {id target : NodeId} {s : Station} {segment : Segment}, net.directory id = some s →
    s.routes.neighbors.get? segment = some target → target < net.nodes.length

theorem lt_length_of_directory {net : Network} {id : NodeId} {s : Station}
    (h : net.directory id = some s) : id < net.nodes.length := by
  obtain ⟨n, hn, -⟩ := Option.map_eq_some_iff.mp h
  rw [node?, Option.join_eq_some_iff] at hn
  exact (List.getElem?_eq_some_iff.mp hn).1

/-- The stations of `net'` are stations of `net` with the segments and routes they had there. -/
structure KeepsRoutes (net net' : Network) : Prop where
  /-- No name is taken back. -/
  length_le : net.nodes.length ≤ net'.nodes.length
  /-- Whoever is still there has the segment and the routes it had. -/
  station : ∀ {id : NodeId} {s' : Station}, net'.directory id = some s' →
    ∃ s, net.directory id = some s ∧ s'.segment = s.segment ∧ s'.routes = s.routes

/-- What routing looks at after the station of a node was changed. -/
theorem directory_modifyStation (net : Network) (id id' : NodeId) (f : Station → Station) :
    (net.modifyStation id f).directory id' =
      if id' = id then (net.directory id).map f else net.directory id' := by
  simp only [directory, modifyStation, node?_modifyNode]
  by_cases h : id' = id
  · subst h
    simp only [ite_true, Option.map_map, Function.comp_def]
  · simp only [h, ite_false]

@[simp] theorem length_nodes_modifyNode (net : Network) (id : NodeId) (f : Node → Node) :
    (net.modifyNode id f).nodes.length = net.nodes.length :=
  List.length_modify ..

/-- Learning routers and ending a station keep routes. -/
theorem keepsRoutes_modifyStation (net : Network) (id : NodeId) {f : Station → Station}
    (segment : ∀ s, (f s).segment = s.segment) (routes : ∀ s, (f s).routes = s.routes) :
    net.KeepsRoutes (net.modifyStation id f) where
  length_le := Nat.le_of_eq (length_nodes_modifyNode net id _).symm
  station := by
    intro id' s' hs'
    rw [directory_modifyStation] at hs'
    split at hs'
    · rename_i he
      obtain ⟨s, hs, rfl⟩ := Option.map_eq_some_iff.mp hs'
      exact ⟨s, he ▸ hs, segment s, routes s⟩
    · exact ⟨s', hs', rfl, rfl⟩

/-- Whoever is found after a node ceased to exist was there before. -/
theorem directory_of_set_none {net : Network} {id id' : NodeId} {s : Station}
    (h : Network.directory { net with nodes := net.nodes.set id none } id' = some s) :
    net.directory id' = some s := by
  simp only [directory, node?, List.getElem?_set] at h ⊢
  split at h
  · split at h <;> cases h
  · exact h

/-- A node that ceases to exist takes its routes with it. -/
theorem keepsRoutes_set_none (net : Network) (id : NodeId) :
    net.KeepsRoutes { net with nodes := net.nodes.set id none } where
  length_le := Nat.le_of_eq List.length_set.symm
  station hs' := ⟨_, directory_of_set_none hs', rfl, rfl⟩

section

variable {net net' : Network} {id target : NodeId}

/-- Whoever is found after a node was added was there before or is the new station. -/
theorem of_addNode {segment : Segment} {attachment : Attachment} {medium : Medium}
    {keepsFaults : Bool} (h : net.addNode segment attachment medium keepsFaults = .ok (id, net')) :
    segment ≠ Segment.everywhere ∧ net'.nodes.length = net.nodes.length + 1 ∧
      ∀ {id' : NodeId} {s : Station}, net'.directory id' = some s → net.directory id' = some s ∨
        net.nodes.length ≤ id' ∧ s = { segment, attachment, routes := { home := segment } } := by
  unfold Network.addNode Station.make at h
  by_cases hg : segment = Segment.everywhere
  · rw [if_pos hg] at h
    cases h
  rw [if_neg hg] at h
  cases h
  refine ⟨hg, by simp, fun {id' s} hs => ?_⟩
  simp only [Network.directory, node?, List.getElem?_append] at hs ⊢
  split at hs
  · exact Or.inl hs
  · rw [List.getElem?_singleton] at hs
    split at hs
    · cases hs
      exact Or.inr ⟨by omega, rfl⟩
    · cases hs

/-- A route that is added goes into the table of one station, under the segment of another. -/
theorem of_addRoute {slot : Nat} (h : net.addRoute id target = .ok (slot, net')) :
    net' = net ∨ ∃ s t routes, net.directory id = some s ∧ net.directory target = some t ∧
      s.routes.add t.segment target = .ok (slot, routes) ∧
      net' = net.modifyStation id fun s => { s with routes } := by
  unfold addRoute at h
  split at h
  · rename_i n t hn ht
    cases hr : n.station.routes.add t.station.segment target with
    | error fault =>
      rw [hr] at h
      cases h
    | ok added =>
      rw [hr] at h
      cases h
      exact Or.inr ⟨n.station, t.station, added.2, by simp [directory, hn], by simp [directory, ht],
        hr, rfl⟩
  · cases h
    exact Or.inl rfl

/-- A route that is added at a slot goes into the table of one station, under the segment of
another. -/
theorem of_addRouteAt {slot : Nat} (h : net.addRouteAt id slot target = .ok net') :
    net' = net ∨ ∃ s t routes, net.directory id = some s ∧ net.directory target = some t ∧
      s.routes.addAt slot t.segment target = .ok routes ∧
      net' = net.modifyStation id fun s => { s with routes } := by
  unfold addRouteAt at h
  split at h
  · rename_i n t hn ht
    cases hr : n.station.routes.addAt slot t.station.segment target with
    | error fault =>
      rw [hr] at h
      cases h
    | ok routes =>
      rw [hr] at h
      cases h
      exact Or.inr ⟨n.station, t.station, routes, by simp [directory, hn], by simp [directory, ht],
        hr, rfl⟩
  · cases h
    exact Or.inl rfl

end

namespace Routed

variable {net net' : Network}

theorem of_keepsRoutes (h : net.Routed) (keeps : net.KeepsRoutes net') : net'.Routed where
  added hs ht := by
    obtain ⟨s, hs, -, hr⟩ := keeps.station hs
    exact Nat.lt_of_lt_of_le (h.added hs (hr ▸ ht)) keeps.length_le
  directory := {
    segment_ne := by
      intro id s' hs'
      obtain ⟨s, hs, hg, -⟩ := keeps.station hs'
      rw [hg]
      exact h.directory.segment_ne hs
    home := by
      intro id s' hs'
      obtain ⟨s, hs, hg, hr⟩ := keeps.station hs'
      rw [hg, hr]
      exact h.directory.home hs
    valid := by
      intro id s' hs'
      obtain ⟨s, hs, -, hr⟩ := keeps.station hs'
      rw [hr]
      exact h.directory.valid hs
    leads := by
      intro id target s t segment hs ht htarget
      obtain ⟨s₀, hs₀, -, hr⟩ := keeps.station hs
      obtain ⟨t₀, ht₀, hg, -⟩ := keeps.station htarget
      rw [hg]
      exact h.directory.leads hs₀ (hr ▸ ht) ht₀ }

/-- There are no routes in a network without nodes. -/
theorem empty : Routed {} where
  added h := by simp [Network.directory, node?] at h
  directory := {
    segment_ne := by simp [Network.directory, node?]
    home := by simp [Network.directory, node?]
    valid := by simp [Network.directory, node?]
    leads := by simp [Network.directory, node?] }

/-- A new node has no routes, and none leads to it yet. -/
theorem addNode (h : net.Routed) {segment : Segment} {attachment : Attachment} {medium : Medium}
    {keepsFaults : Bool} {id : NodeId}
    (ha : net.addNode segment attachment medium keepsFaults = .ok (id, net')) : net'.Routed := by
  obtain ⟨hg, hlen, hold⟩ := of_addNode ha
  refine ⟨⟨?_, ?_, ?_, ?_⟩, ?_⟩
  · intro id s hs
    rcases hold hs with hs | ⟨-, rfl⟩
    · exact h.directory.segment_ne hs
    · exact hg
  · intro id s hs
    rcases hold hs with hs | ⟨-, rfl⟩
    · exact h.directory.home hs
    · rfl
  · intro id s hs
    rcases hold hs with hs | ⟨-, rfl⟩
    · exact h.directory.valid hs
    · exact RouteTable.valid_empty segment
  · intro id target s t seg hs ht htarget
    rcases hold hs with hs | ⟨-, rfl⟩
    · rcases hold htarget with htarget | ⟨hle, -⟩
      · exact h.directory.leads hs ht htarget
      · exact absurd (h.added hs ht) (Nat.not_lt.mpr hle)
    · cases ht
  · intro id target s seg hs ht
    rw [hlen]
    rcases hold hs with hs | ⟨-, rfl⟩
    · exact Nat.lt_succ_of_lt (h.added hs ht)
    · cases ht

/-- A station that gets a route to a node of the network, under the segment of the node. -/
private theorem setRoutes (h : net.Routed) {id target : NodeId} {s t : Station}
    {routes : RouteTable NodeId} (hs : net.directory id = some s)
    (ht : net.directory target = some t) (valid : routes.Valid)
    (home : routes.home = s.routes.home)
    (neighbors : routes.neighbors = s.routes.neighbors.insert t.segment target) :
    (net.modifyStation id fun s => { s with routes }).Routed := by
  -- Every station is where it was; only the one that got the route has other routes.
  have hold : ∀ {id' : NodeId} {s' : Station},
      (net.modifyStation id fun s => { s with routes }).directory id' = some s' →
      ∃ s₀, net.directory id' = some s₀ ∧ s'.segment = s₀.segment ∧
        (s'.routes = s₀.routes ∨ s₀ = s ∧ id' = id ∧ s'.routes = routes) := by
    intro id' s' hs'
    rw [directory_modifyStation] at hs'
    split at hs'
    · rename_i he
      rw [hs] at hs'
      cases hs'
      exact ⟨s, he ▸ hs, rfl, Or.inr ⟨rfl, he, rfl⟩⟩
    · exact ⟨s', hs', rfl, Or.inl rfl⟩
  have hroute : ∀ {segment : Segment} {target' : NodeId},
      routes.neighbors.get? segment = some target' →
      target' = target ∧ segment = t.segment ∨ s.routes.neighbors.get? segment = some target' := by
    intro segment target' hr
    rw [neighbors, Table.get?_insert] at hr
    split at hr
    · rename_i he
      exact Or.inl ⟨(Option.some.inj hr).symm, he⟩
    · exact Or.inr hr
  refine ⟨⟨?_, ?_, ?_, ?_⟩, ?_⟩
  · intro id' s' hs'
    obtain ⟨s₀, hs₀, hseg, -⟩ := hold hs'
    exact hseg ▸ h.directory.segment_ne hs₀
  · intro id' s' hs'
    obtain ⟨s₀, hs₀, hseg, hr | ⟨rfl, rfl, hr⟩⟩ := hold hs'
    · rw [hr, hseg]
      exact h.directory.home hs₀
    · rw [hr, hseg, home]
      exact h.directory.home hs₀
  · intro id' s' hs'
    obtain ⟨s₀, hs₀, -, hr | ⟨-, -, hr⟩⟩ := hold hs'
    · exact hr ▸ h.directory.valid hs₀
    · exact hr ▸ valid
  · intro id' target' s' t' segment hs' hr' ht'
    obtain ⟨t₀, ht₀, htseg, -⟩ := hold ht'
    rw [htseg]
    obtain ⟨s₀, hs₀, -, hr | ⟨rfl, rfl, hr⟩⟩ := hold hs'
    · exact h.directory.leads hs₀ (hr ▸ hr') ht₀
    · rcases hroute (hr ▸ hr') with ⟨rfl, rfl⟩ | hold'
      · rw [ht] at ht₀
        rw [Option.some.inj ht₀]
      · exact h.directory.leads hs₀ hold' ht₀
  · intro id' target' s' segment hs' hr'
    have hlen : (net.modifyStation id fun s => { s with routes }).nodes.length = net.nodes.length :=
      length_nodes_modifyNode net id _
    rw [hlen]
    obtain ⟨s₀, hs₀, -, hr | ⟨rfl, rfl, hr⟩⟩ := hold hs'
    · exact h.added hs₀ (hr ▸ hr')
    · rcases hroute (hr ▸ hr') with ⟨rfl, -⟩ | hold'
      · exact lt_length_of_directory ht
      · exact h.added hs₀ hold'

/-- A route is added under the segment of the node it names. -/
theorem addRoute (h : net.Routed) {id target : NodeId} {slot : Nat}
    (ha : net.addRoute id target = .ok (slot, net')) : net'.Routed := by
  rcases of_addRoute ha with rfl | ⟨s, t, routes, hs, ht, hr, rfl⟩
  · exact h
  · exact h.setRoutes hs ht ((h.directory.valid hs).add hr) (RouteTable.of_add hr).1
      (RouteTable.of_add hr).2.1

/-- A route is added at a slot under the segment of the node it names. -/
theorem addRouteAt (h : net.Routed) {id target : NodeId} {slot : Nat}
    (ha : net.addRouteAt id slot target = .ok net') : net'.Routed := by
  rcases of_addRouteAt ha with rfl | ⟨s, t, routes, hs, ht, hr, rfl⟩
  · exact h
  · exact h.setRoutes hs ht ((h.directory.valid hs).addAt hr) (RouteTable.of_addAt hr).1
      (RouteTable.of_addAt hr).2

/-- Whether every route leads where it is said to lead can be checked node by node. -/
theorem of_forall_nodes (h : ∀ n ∈ net.nodes.reduceOption,
    n.station.segment ≠ Segment.everywhere ∧ n.station.routes.home = n.station.segment ∧
      n.station.routes.segments.Nodup ∧ ∀ entry ∈ n.station.routes.neighbors.entries,
        n.station.routes.refuses entry.1 = false ∧ entry.2 < net.nodes.length ∧
          ∀ s ∈ net.directory entry.2, s.segment = entry.1) : net.Routed := by
  have hstation : ∀ {id : NodeId} {s : Station}, net.directory id = some s →
      ∃ n ∈ net.nodes.reduceOption, n.station = s := by
    intro id s hs
    obtain ⟨n, hn, rfl⟩ := Option.map_eq_some_iff.mp hs
    rw [node?, Option.join_eq_some_iff] at hn
    exact ⟨n, List.reduceOption_mem_iff.mpr (List.mem_of_getElem? hn), rfl⟩
  refine ⟨⟨?_, ?_, ?_, ?_⟩, ?_⟩
  · intro id s hs
    obtain ⟨n, hn, rfl⟩ := hstation hs
    exact (h n hn).1
  · intro id s hs
    obtain ⟨n, hn, rfl⟩ := hstation hs
    exact (h n hn).2.1
  · intro id s hs
    obtain ⟨n, hn, rfl⟩ := hstation hs
    obtain ⟨-, -, hnodup, hentries⟩ := h n hn
    exact RouteTable.Valid.of_nodup_segments hnodup fun entry he => (hentries entry he).1
  · intro id target s s' segment hs ht hs'
    obtain ⟨n, hn, rfl⟩ := hstation hs
    exact ((h n hn).2.2.2 _ (Table.mem_of_get?_eq_some ht)).2.2 s' hs'
  · intro id target s segment hs ht
    obtain ⟨n, hn, rfl⟩ := hstation hs
    exact ((h n hn).2.2.2 _ (Table.mem_of_get?_eq_some ht)).2.1

end Routed

end Network

end Fieldbus
