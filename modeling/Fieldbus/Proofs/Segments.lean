import Mathlib.Combinatorics.SimpleGraph.Acyclic
import Mathlib.Combinatorics.SimpleGraph.Metric
import Fieldbus.Proofs.Service

/-!
# Segments without loops

Nodes with routes to each other join their segments, so the segments of a network are the
vertices of a graph (`Wiring.graph`). Where that graph has neither cycles nor double edges
(`Wiring.LoopFree`), a segment lies in one direction only from every other one: it is beyond
exactly one of the segments next to it (`Beyond.unique`).
-/

namespace Fieldbus

/-! ## Directions in a graph -/

/-- The vertex `t` lies `d` edges beyond the vertex `u`, seen from the vertex `i`: a path leads
from `u` to `t` and leaves `i` aside. -/
def Beyond {V : Type} (G : SimpleGraph V) (i u t : V) (d : Nat) : Prop :=
  ∃ p : G.Walk u t, p.IsPath ∧ i ∉ p.support ∧ p.length = d

namespace Beyond

variable {V : Type} {G : SimpleGraph V} {i u t y y' : V} {d d' : Nat}

theorem refl (ne : i ≠ u) : Beyond G i u u 0 := by
  refine ⟨.nil, .nil, ?_, rfl⟩
  simpa using ne

theorem eq_of_length_eq_zero (h : Beyond G i u t 0) : t = u := by
  obtain ⟨p, -, -, hlength⟩ := h
  exact (SimpleGraph.Walk.eq_of_length_eq_zero hlength).symm

/-- A path does not come back to where it begins. -/
theorem length_eq_zero (h : Beyond G i u u d) : d = 0 := by
  obtain ⟨p, hp, -, rfl⟩ := h
  exact SimpleGraph.Walk.length_eq_zero_iff.mpr (SimpleGraph.Walk.isPath_iff_nil.mp hp)

/-- Nothing lies beyond a vertex in the place it is seen from. -/
theorem ne (h : Beyond G i u t d) : t ≠ i := by
  obtain ⟨p, -, hi, -⟩ := h
  rintro rfl
  exact hi p.end_mem_support

/-- What is beyond a next vertex is beyond this one, one edge further on. -/
theorem step (acyclic : G.IsAcyclic) (h : Beyond G u y t d) (hy : G.Adj u y) (hi : G.Adj u i)
    (ne : y ≠ i) : Beyond G i u t (d + 1) := by
  obtain ⟨p, hp, hu, rfl⟩ := h
  have hpath : (SimpleGraph.Walk.cons hy p).IsPath := hp.cons hu
  refine ⟨.cons hy p, hpath, fun hmem => ne ?_, rfl⟩
  rw [acyclic.eq_snd_of_adj_start hpath hi hmem, SimpleGraph.Walk.snd_cons]

/-- The way on leads to a next vertex other than the one it comes from. -/
theorem exists_next (h : Beyond G i u t (d + 1)) : ∃ y, G.Adj u y ∧ y ≠ i ∧ Beyond G u y t d := by
  obtain ⟨p, hp, hi, hlength⟩ := h
  cases p with
  | nil => cases hlength
  | @cons _ y _ hy p =>
    obtain ⟨hp, hu⟩ := (SimpleGraph.Walk.cons_isPath_iff hy p).mp hp
    refine ⟨y, hy, ?_, p, hp, hu, Nat.succ.inj hlength⟩
    rintro rfl
    exact hi (List.mem_cons_of_mem _ p.start_mem_support)

/-- Without cycles a vertex is beyond one next vertex only, and at one distance. -/
theorem unique (acyclic : G.IsAcyclic) (hy : G.Adj u y) (hy' : G.Adj u y') (h : Beyond G u y t d)
    (h' : Beyond G u y' t d') : y = y' ∧ d = d' := by
  obtain ⟨p, hp, hu, rfl⟩ := h
  obtain ⟨p', hp', hu', rfl⟩ := h'
  have hsame := (acyclic.subsingleton_path u t).elim ⟨.cons hy p, hp.cons hu⟩
    ⟨.cons hy' p', hp'.cons hu'⟩
  have hwalk : SimpleGraph.Walk.cons hy p = .cons hy' p' := congrArg Subtype.val hsame
  have hsnd := congrArg SimpleGraph.Walk.snd hwalk
  rw [SimpleGraph.Walk.snd_cons, SimpleGraph.Walk.snd_cons] at hsnd
  refine ⟨hsnd, ?_⟩
  exact Nat.succ.inj (congrArg SimpleGraph.Walk.length hwalk)

/-- A path that begins with an edge leads beyond the other end of the edge. -/
theorem exists_path_iff : (∃ p : G.Walk u t, p.IsPath ∧ p.length = d + 1 ∧ p.snd = y) ↔
    G.Adj u y ∧ Beyond G u y t d := by
  constructor
  · rintro ⟨p, hp, hlength, rfl⟩
    cases p with
    | nil => cases hlength
    | cons hy p =>
      obtain ⟨hp, hu⟩ := (SimpleGraph.Walk.cons_isPath_iff hy p).mp hp
      rw [SimpleGraph.Walk.snd_cons]
      exact ⟨hy, p, hp, hu, Nat.succ.inj hlength⟩
  · rintro ⟨hy, p, hp, hu, rfl⟩
    exact ⟨.cons hy p, hp.cons hu, rfl, SimpleGraph.Walk.snd_cons p hy⟩

end Beyond

/-- Without cycles a path is as long as its ends are distant. -/
theorem dist_eq_length {V : Type} {G : SimpleGraph V} (acyclic : G.IsAcyclic) {u t : V}
    {p : G.Walk u t} (hp : p.IsPath) : G.dist u t = p.length := by
  obtain ⟨q, hq, hlength⟩ := p.reachable.exists_path_of_dist
  have hsame := (acyclic.subsingleton_path u t).elim ⟨q, hq⟩ ⟨p, hp⟩
  rw [← hlength]
  exact congrArg (fun r : G.Path u t => r.val.length) hsame

/-! ## Segments and the links that stand for them -/

namespace Wiring

/-- Two nodes that exist have routes to each other. -/
structure Joins (w : Wiring) (m n : Member) : Prop where
  /-- The station of the first node. -/
  left : w.directory m.id = some m.station
  /-- The station of the second node. -/
  right : w.directory n.id = some n.station
  /-- The first node has a route to the second. -/
  there : n ∈ w.directory.neighbors m.station
  /-- The second node has a route to the first. -/
  back : m ∈ w.directory.neighbors n.station

theorem Joins.symm {w : Wiring} {m n : Member} (h : w.Joins m n) : w.Joins n m :=
  ⟨h.right, h.left, h.back, h.there⟩

/-- The graph of segments, which nodes with routes to each other join. -/
def graph (w : Wiring) : SimpleGraph Segment where
  Adj s t := s ≠ t ∧ ∃ m n, w.Joins m n ∧ m.station.segment = s ∧ n.station.segment = t
  symm := ⟨fun _ _ ⟨ne, m, n, h, hm, hn⟩ => ⟨ne.symm, n, m, h.symm, hn, hm⟩⟩
  loopless := ⟨fun _ h => h.1 rfl⟩

/-- Routes are mutual, and the segments form trees in which nothing joins two of them twice. -/
structure LoopFree (w : Wiring) : Prop where
  /-- Whoever a node has a route to has one back. -/
  back : ∀ {m n : Member}, w.directory m.id = some m.station → n ∈ w.directory.neighbors m.station →
    m ∈ w.directory.neighbors n.station
  /-- Two segments are joined by one pair of nodes at most. -/
  single : ∀ {m n m' n' : Member}, w.Joins m n → w.Joins m' n' →
    m.station.segment = m'.station.segment → n.station.segment = n'.station.segment →
      m = m' ∧ n = n'
  /-- There are no cycles. -/
  acyclic : w.graph.IsAcyclic

/-- All links are in service, each for a segment of its own, and all nodes are tapped to them. -/
structure InService (w : Wiring) : Prop where
  /-- The links are in service. -/
  serves : ∀ {k : LinkId} {l : Link}, w.links[k]? = some l → w.Serves k l
  /-- Every node that exists is tapped to one of them. -/
  attends : ∀ {m : Member}, w.directory m.id = some m.station →
    ∃ k l, w.Attends k m ∧ w.links[k]? = some l
  /-- No two links stand for the same segment. -/
  link_eq : ∀ {k k' : LinkId} {l l' : Link}, w.links[k]? = some l → w.links[k']? = some l' →
    l.segment = l'.segment → k = k'

variable {w : Wiring} {m n : Member}

theorem LoopFree.joins (h : w.LoopFree) (hm : w.directory m.id = some m.station)
    (hn : n ∈ w.directory.neighbors m.station) : w.Joins m n :=
  ⟨hm, Directory.apply_of_mem_neighbors hn, hn, h.back hm hn⟩

theorem Joins.adj (h : w.Joins m n) (routed : w.directory.Routed) :
    w.graph.Adj m.station.segment n.station.segment :=
  ⟨(routed.segment_ne_of_mem h.left h.there).2.2.symm, m, n, h, rfl, rfl⟩

/-- A node is tapped to the link that stands for its segment. -/
theorem InService.attends_of_segment_eq (h : w.InService) {m : Member}
    (hm : w.directory m.id = some m.station) {k : LinkId} {l : Link} (hl : w.links[k]? = some l)
    (hs : m.station.segment = l.segment) : w.Attends k m := by
  obtain ⟨k', l', hattends, hl'⟩ := h.attends hm
  have hon := (h.serves hl').on m hattends
  obtain rfl : k = k' := h.link_eq hl hl' (hs.symm.trans hon.segment)
  exact hattends

/-- The stations that are registered with a link, with the names of their nodes. -/
def stations (w : Wiring) (l : Link) : List Member :=
  l.registry.values.filterMap w.directory.member?

/-- A frame without target is handed to all stations. -/
theorem recipients_of_target_none {l : Link} {f : LinkFrame} (h : f.target = none) :
    l.recipients w.isAlive f = (w.stations l).map Member.id := by
  have hmember : ∀ id, (w.directory.member? id).map Member.id =
      if w.isAlive id then some id else none := by
    intro id
    cases hs : w.directory id <;> simp [Directory.member?, isAlive, hs]
  simp only [Link.recipients, h, stations, List.map_filterMap, hmember]
  rw [← List.filterMap_eq_filter]
  rfl

namespace Serves

variable {k : LinkId} {l : Link}

theorem mem_stations_iff (h : w.Serves k l) {m : Member} : m ∈ w.stations l ↔ w.Attends k m := by
  simp only [stations, List.mem_filterMap, Directory.member?, Option.map_eq_some_iff]
  constructor
  · rintro ⟨id, hid, s, hs, rfl⟩
    obtain ⟨⟨mac, id⟩, he, rfl⟩ := List.mem_map.mp hid
    exact (h.attends mac id s he hs).1
  · intro hm
    exact ⟨m.id, List.mem_map_of_mem (h.registered m hm), m.station, hm.station, rfl⟩

theorem nodup_stations (h : w.Serves k l) : (w.stations l).Nodup := by
  have hr := h.nodup_recipients ⟨[], none, []⟩
  rw [recipients_of_target_none rfl] at hr
  exact hr.of_map

end Serves

/-- The neighbors to which the stations of a link pass on what came to them from a segment. -/
def exits (w : Wiring) (l : Link) (ingress : Segment) : List Member :=
  (w.stations l).flatMap fun m =>
    (w.directory.neighbors m.station).filter fun n => n.station.segment != ingress

section

variable {k : LinkId} {l : Link} {ingress : Segment}

theorem mem_exits_iff (h : w.Serves k l) : n ∈ w.exits l ingress ↔
    ∃ m, w.Attends k m ∧ n ∈ w.directory.neighbors m.station ∧ n.station.segment ≠ ingress := by
  simp only [exits, List.mem_flatMap, h.mem_stations_iff, List.mem_filter, bne_iff_ne, ne_eq]

/-- An exit has a route back to the segment of the link. -/
theorem LoopFree.exists_joins_of_mem_exits (loopFree : w.LoopFree) (h : w.Serves k l)
    (hn : n ∈ w.exits l ingress) :
    ∃ m, w.Joins m n ∧ m.station.segment = l.segment ∧ n.station.segment ≠ ingress := by
  obtain ⟨m, hm, hmn, ne⟩ := (mem_exits_iff h).mp hn
  exact ⟨m, loopFree.joins hm.station hmn, (h.on m hm).segment, ne⟩

/-- Exits that lead to the same segment are the same. -/
theorem LoopFree.eq_of_mem_exits (loopFree : w.LoopFree) (h : w.Serves k l) {n' : Member}
    (hn : n ∈ w.exits l ingress) (hn' : n' ∈ w.exits l ingress)
    (he : n.station.segment = n'.station.segment) : n = n' := by
  obtain ⟨m, hjoins, hm, -⟩ := loopFree.exists_joins_of_mem_exits h hn
  obtain ⟨m', hjoins', hm', -⟩ := loopFree.exists_joins_of_mem_exits h hn'
  exact (loopFree.single hjoins hjoins' (hm.trans hm'.symm) he).2

/-- No exit is listed twice. -/
theorem LoopFree.nodup_exits (loopFree : w.LoopFree) (routed : w.directory.Routed)
    (h : w.Serves k l) : (w.exits l ingress).Nodup := by
  refine List.nodup_flatMap.mpr ⟨fun m hm => ?_, ?_⟩
  · exact (routed.nodup_neighbors (h.mem_stations_iff.mp hm).station).filter _
  · refine h.nodup_stations.imp_of_mem fun {m m'} hm hm' ne n hn hn' => ?_
    have hattends := h.mem_stations_iff.mp hm
    have hattends' := h.mem_stations_iff.mp hm'
    have hs : m.station.segment = m'.station.segment :=
      (h.on m hattends).segment.trans (h.on m' hattends').segment.symm
    have hjoins := loopFree.joins hattends.station (List.mem_of_mem_filter hn)
    have hjoins' := loopFree.joins hattends'.station (List.mem_of_mem_filter hn')
    exact ne (loopFree.single hjoins hjoins' hs rfl).1

/-- What joins the segment of a link to another one is an exit. -/
theorem exists_mem_exits (h : w.Serves k l) (serve : w.InService) {t : Segment}
    (adj : w.graph.Adj l.segment t) (ne : t ≠ ingress) :
    ∃ n ∈ w.exits l ingress, n.station.segment = t := by
  obtain ⟨-, m, n, hjoins, hm, rfl⟩ := adj
  have hattends := serve.attends_of_segment_eq hjoins.left h.link hm
  exact ⟨n, (mem_exits_iff h).mpr ⟨m, hattends, hjoins.there, ne⟩, rfl⟩

end

/-- The way from the segment of a node to the segment `t` begins with a route of the node. -/
def LeadsTo (w : Wiring) (m : Member) (t : Segment) : Prop :=
  ∃ p : w.graph.Walk m.station.segment t, p.IsPath ∧
    ∃ n ∈ w.directory.neighbors m.station, p.snd = n.station.segment

/-- A route of a node leads to what lies beyond the neighbor. -/
theorem LoopFree.leadsTo_iff (loopFree : w.LoopFree) (routed : w.directory.Routed)
    (hm : w.directory m.id = some m.station) {t : Segment} {d : Nat} :
    (w.LeadsTo m t ∧ d = w.graph.dist m.station.segment t) ↔
      ∃ n ∈ w.directory.neighbors m.station, ∃ d', d = d' + 1 ∧
        Beyond w.graph m.station.segment n.station.segment t d' := by
  constructor
  · rintro ⟨⟨p, hp, n, hn, hsnd⟩, hd⟩
    rw [dist_eq_length loopFree.acyclic hp] at hd
    have hadj := (loopFree.joins hm hn).adj routed
    obtain ⟨d', rfl⟩ : ∃ d', d = d' + 1 := by
      refine Nat.exists_eq_succ_of_ne_zero ?_
      rintro rfl
      cases p with
      | nil => exact hadj.ne hsnd
      | cons hy p => cases hd
    exact ⟨n, hn, d', rfl, (Beyond.exists_path_iff.mp ⟨p, hp, hd.symm, hsnd⟩).2⟩
  · rintro ⟨n, hn, d', rfl, hbeyond⟩
    have hadj := (loopFree.joins hm hn).adj routed
    obtain ⟨p, hp, hlength, hsnd⟩ := Beyond.exists_path_iff.mpr ⟨hadj, hbeyond⟩
    exact ⟨⟨p, hp, n, hn, hsnd⟩, hlength.symm.trans (dist_eq_length loopFree.acyclic hp).symm⟩

end Wiring

namespace Network

variable {net : Network}

/-- Whether segments have loops can be checked node by node, given a graph without cycles. -/
theorem loopFree_of_forall_nodes {G : SimpleGraph Segment} (acyclic : G.IsAcyclic)
    (adj : ∀ id < net.nodes.length, ∀ s ∈ net.directory id, ∀ n ∈ net.directory.neighbors s,
      G.Adj s.segment n.station.segment)
    (back : ∀ id < net.nodes.length, ∀ s ∈ net.directory id, ∀ n ∈ net.directory.neighbors s,
      ⟨id, s⟩ ∈ net.directory.neighbors n.station)
    (single : ∀ id < net.nodes.length, ∀ s ∈ net.directory id, ∀ n ∈ net.directory.neighbors s,
      ∀ id' < net.nodes.length, ∀ s' ∈ net.directory id', ∀ n' ∈ net.directory.neighbors s',
        s.segment = s'.segment → n.station.segment = n'.station.segment →
          id = id' ∧ s = s' ∧ n = n') : net.wiring.LoopFree where
  back {m n} hm hn := back m.id (lt_length_of_directory hm) m.station hm n hn
  single {m n m' n'} h h' hs hs' := by
    obtain ⟨id, s⟩ := m
    obtain ⟨id', s'⟩ := m'
    obtain ⟨rfl, rfl, rfl⟩ := single id (lt_length_of_directory h.left) s h.left n h.there id'
      (lt_length_of_directory h'.left) s' h'.left n' h'.there hs hs'
    exact ⟨rfl, rfl⟩
  acyclic := by
    refine acyclic.anti fun s t => ?_
    rintro ⟨-, m, n, h, rfl, rfl⟩
    exact adj m.id (lt_length_of_directory h.left) m.station h.left n h.there

end Network

end Fieldbus
