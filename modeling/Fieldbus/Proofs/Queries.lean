import Fieldbus.Proofs.Surveys

/-!
# Queries for one segment and for all of them

A router is asked for one segment or for all it reaches, and looks through what its neighbors lead to
in different ways. Main statements: it answers a query for one segment exactly if it lists the
segment among all (`Network.answers_alike`), but for its own segment, which it never lists and yet
announces on demand if a neighbor has learned a router for it
(`Network.announces_own_segment`).
-/

namespace Fieldbus

namespace Directory

variable {d : Directory} {s : Station} {w : Segment} {id : NodeId}

/-- Some neighbor has learned a router for the segment. -/
def Learned (d : Directory) (s : Station) (w : Segment) : Prop :=
  ∃ n ∈ d.neighbors s, w ∈ n.station.routers.segments

/-- Some neighbor leads to a segment if the segment is listed among all, or if it is the router's own
and some neighbor has learned a router for it: neighbors themselves are on other segments. -/
theorem Routed.exists_leadsTo_iff (routed : d.Routed) (hs : d id = some s) :
    (∃ n ∈ d.neighbors s, w ∈ n.leadsTo) ↔
      w ∈ d.announced s ⟨none⟩ ∨ w = s.segment ∧ d.Learned s w := by
  constructor
  · rintro ⟨n, hn, hleads⟩
    by_cases hw : w = s.segment
    · obtain ⟨-, -, foreign⟩ := routed.segment_ne_of_mem hs hn
      rcases List.mem_cons.mp hleads with hown | hlearned
      · exact absurd (hown.symm.trans hw) foreign
      · exact .inr ⟨hw, n, hn, hlearned⟩
    · exact .inl (mem_announced_none.mpr ⟨hw, n, hn, hleads⟩)
  · rintro (hlisted | ⟨-, n, hn, hlearned⟩)
    · exact (mem_announced_none.mp hlisted).2
    · exact ⟨n, hn, List.mem_cons_of_mem _ hlearned⟩

theorem announced_some_of_leadsTo (h : ∃ n ∈ d.neighbors s, w ∈ n.leadsTo) :
    d.announced s ⟨some w⟩ = [w] := by
  rw [announced_some, if_pos h]

theorem announced_some_of_not_leadsTo (h : ¬ ∃ n ∈ d.neighbors s, w ∈ n.leadsTo) :
    d.announced s ⟨some w⟩ = [] := by
  rw [announced_some, if_neg h]

end Directory

/-- The transmission announces the segments to everybody on the own segment of a station. -/
structure Transmission.Announces (t : Transmission) (everyone : Address) (segments : List Segment) :
    Prop where
  recipient : t.recipient = everyone
  router : t.router = none
  broadcast : t.broadcast = true
  /-- The frame lists the segments. -/
  frame : ∃ header body, decode t.frame = .ok (header, body) ∧ header.source = none ∧
    header.destination = none ∧ header.message = some .iAmRouterToNetwork ∧
    RouterAnnouncement.reader.exactly body = .ok ⟨segments⟩

namespace Network

variable {net : Network} {id : NodeId} {m : Member} {query : Envelope} {w : Segment}
  {everyone : Address} {segments : List Segment}

/-- All that a station does with a query is to hand one announcement of the segments to its medium,
or nothing if there are no segments to announce. -/
def AnswersWith (net : Network) (id : NodeId) (query : Envelope) (everyone : Address)
    (segments : List Segment) : Prop :=
  (segments = [] → net.answerRouterQuery id query = (.ok (), net)) ∧
    (segments ≠ [] → ∃ t : Transmission, t.Announces everyone segments ∧
      net.answerRouterQuery id query = net.offer id t)

/-- A query is answered with what is announced to it. -/
theorem Reachable.answersWith_announced (reachable : net.Reachable) (hm : net.member? id = some m)
    (he : m.station.broadcastAddress = .ok everyone) {q : RouterQuery} {rest : Bytes}
    (hq : RouterQuery.reader.run query.payload = .ok q rest) :
    net.AnswersWith id query everyone (net.directory.announced m.station q) := by
  obtain ⟨s, hs, rfl⟩ := Option.map_eq_some_iff.mp hm
  constructor
  · intro hnil
    have hanswer : net.directory.answerRouterQuery ⟨id, s⟩ query = {} := by
      rw [Directory.answerRouterQuery, hq]
      dsimp only
      rw [hnil]
    simp only [answerRouterQuery, Network.call, hm, hanswer]
    rfl
  · intro hne
    have hanswer := Directory.answerRouterQuery_of_ne_nil (m := ⟨id, s⟩) hq hne
    rw [Directory.announce_eq_put reachable.routed.directory hs he rfl rfl] at hanswer
    exact ⟨_, ⟨rfl, rfl, rfl, _, _, Directory.decode_announcement s q everyone, rfl, rfl, rfl,
      RouterAnnouncement.exactly_bytes _⟩, call_eq_offer hm hanswer⟩

/-- A station whose medium has too long a sub-address for everybody emits nothing. -/
theorem answerRouterQuery_of_overlong (hm : net.member? id = some m) {overlong : Overlong}
    (he : m.station.broadcastAddress = .error overlong) (query : Envelope) :
    (net.answerRouterQuery id query).2 = net := by
  simp only [answerRouterQuery, call, hm, Directory.answerRouterQuery, Directory.announce, he]
  split
  · rfl
  · split <;> rfl

/-- A router announces what its neighbors lead to except its own segment to a query for all segments,
and it answers a query for one segment with that segment if the segment is among these and not at all
otherwise. Its own segment is the exception: it announces this one too if some neighbor has learned a
router for it. Nothing is announced at all if the sub-address that reaches every node of the medium is too long for
an address. -/
theorem answers_alike (reachable : net.Reachable) (hm : net.member? id = some m) :
    (∀ everyone, m.station.broadcastAddress = .ok everyone →
      ∃ segments, (∀ w, w ∈ segments ↔ w ≠ m.station.segment ∧
          ∃ n ∈ net.directory.neighbors m.station, w ∈ n.leadsTo) ∧
        (∀ query : Envelope, query.payload = [] → net.AnswersWith id query everyone segments) ∧
        ∀ (query : Envelope) w rest, RouterQuery.reader.run query.payload = .ok ⟨some w⟩ rest →
          (w ∈ segments ∨ w = m.station.segment ∧ net.directory.Learned m.station w →
            net.AnswersWith id query everyone [w]) ∧
          (¬ (w ∈ segments ∨ w = m.station.segment ∧ net.directory.Learned m.station w) →
            net.AnswersWith id query everyone [])) ∧
    ∀ overlong, m.station.broadcastAddress = .error overlong →
      ∀ query, (net.answerRouterQuery id query).2 = net := by
  obtain ⟨s, hs, rfl⟩ := Option.map_eq_some_iff.mp hm
  refine ⟨fun everyone he => ⟨net.directory.announced s ⟨none⟩,
    fun w => Directory.mem_announced_none, fun query plain => ?_, fun query w rest hq => ?_⟩,
    fun overlong he => answerRouterQuery_of_overlong hm he⟩
  · exact reachable.answersWith_announced hm he (Directory.run_reader_of_eq_nil plain)
  · have hanswer := reachable.answersWith_announced hm he hq
    rw [← reachable.routed.directory.exists_leadsTo_iff hs]
    constructor
    · intro hleads
      rwa [Directory.announced_some_of_leadsTo hleads] at hanswer
    · intro hleads
      rwa [Directory.announced_some_of_not_leadsTo hleads] at hanswer

/-- A station of `nook`. -/
private def nookStation (segment : Segment) (routes : RouteTable NodeId) (routers : RouterTable) :
    Station where
  segment
  attachment := wireAttachment [segment.toUInt8] none
  routes
  routers

/-- The router of `nook`, which leads to segment two. -/
private def nookRouter : Member := ⟨0, nookStation 1 ⟨1, ⟨[(2, 1)]⟩, [some 2]⟩ {}⟩

/-- The neighbor on segment two, which has learned routers for segments five and one. -/
private def nookNeighbor : Member := ⟨1, nookStation 2 { home := 2 } ⟨⟨[(5, [4]), (1, [4])]⟩⟩⟩

/-- A router whose neighbor has learned a router for the router's own segment. -/
private def nook : Network where
  nodes := [nookRouter, nookNeighbor].map fun m =>
    some { station := m.station, medium := .wire false [], keepsFaults := true }

private theorem reachable_nook : nook.Reachable := by
  have hone := Reachable.empty.addNode
    (rfl : Network.addNode {} 1 (wireAttachment [1] none) (.wire false []) true = .ok (0, _))
  have htwo := hone.addNode
    (rfl : Network.addNode _ 2 (wireAttachment [2] none) (.wire false []) true = .ok (1, _))
  have hroute := htwo.addRoute (rfl : Network.addRoute _ 0 1 = .ok (1, _))
  exact hroute.learn 1 [4] [5, 1]

/-- A query that a node of the first segment puts to the router. -/
private def nookQuery (segment : Option Segment) : Envelope where
  sender := (Address.onLink [3]).toOption.getD Address.everywhere
  recipient := none
  payload := RouterQuery.bytes ⟨segment⟩

private theorem learned_nook {w : Segment} (hw : w = 1 ∨ w = 5) :
    nook.directory.Learned nookRouter.station w := by
  have hneighbor : nookNeighbor ∈ nook.directory.neighbors nookRouter.station := by decide
  refine ⟨nookNeighbor, hneighbor, RouterTable.mem_segments_iff.mpr ?_⟩
  rcases hw with rfl | rfl
  · exact ⟨[4], rfl⟩
  · exact ⟨[4], rfl⟩

/-- The router of `nook` is asked for all segments, for one that is among them and for one that is
not. -/
theorem answers_alike_nook : nook.Reachable ∧ nook.member? 0 = some nookRouter ∧
    ∃ everyone segments, 5 ∈ segments ∧ 8 ∉ segments ∧
      nook.AnswersWith 0 (nookQuery none) everyone segments ∧
      nook.AnswersWith 0 (nookQuery (some 5)) everyone [5] ∧
      nook.AnswersWith 0 (nookQuery (some 8)) everyone [] := by
  have hmember : nook.member? 0 = some nookRouter := rfl
  obtain ⟨segments, hlisted, hall, hone⟩ := (answers_alike reachable_nook hmember).1 _ rfl
  have hquery : ∀ w, RouterQuery.reader.run (nookQuery (some w)).payload = .ok ⟨some w⟩ [] :=
    fun w => RouterQuery.run_bytes ⟨some w⟩
  have hmem : 5 ∈ segments := by
    obtain ⟨n, hn, hlearned⟩ := learned_nook (.inr rfl)
    exact (hlisted 5).mpr ⟨by decide, n, hn, List.mem_cons_of_mem _ hlearned⟩
  have hunlisted : 8 ∉ segments := by
    intro hmem
    obtain ⟨-, n, hn, hleads⟩ := (hlisted 8).mp hmem
    obtain rfl : n = nookNeighbor := List.mem_singleton.mp hn
    rcases List.mem_cons.mp hleads with he | hlearned
    · cases he
    · obtain ⟨mac, hmac⟩ := RouterTable.mem_segments_iff.mp hlearned
      cases hmac
  refine ⟨reachable_nook, hmember, _, segments, hmem, hunlisted, hall (nookQuery none) rfl,
    (hone _ 5 [] (hquery 5)).1 (.inl hmem), (hone _ 8 [] (hquery 8)).2 ?_⟩
  rintro (hmem | ⟨hown, -⟩)
  · exact hunlisted hmem
  · cases hown

/-- The router of `nook` does not list its own segment, which it announces to a query for it. -/
theorem announces_own_segment : nook.Reachable ∧ nook.member? 0 = some nookRouter ∧
    RouterQuery.reader.run (nookQuery (some 1)).payload = .ok ⟨some nookRouter.station.segment⟩ [] ∧
    nookRouter.station.segment ∉ nook.directory.announced nookRouter.station ⟨none⟩ ∧
    nook.directory.Announces nookRouter (nookQuery (some 1)) nookRouter.station.segment := by
  have hmember : nook.directory 0 = some nookRouter.station := rfl
  have hquery : RouterQuery.reader.run (nookQuery (some 1)).payload = .ok ⟨some 1⟩ [] :=
    RouterQuery.run_bytes ⟨some 1⟩
  refine ⟨reachable_nook, rfl, hquery, fun h => (Directory.mem_announced_none.mp h).1 rfl, ?_⟩
  obtain ⟨n, hn, hlearned⟩ := learned_nook (.inl rfl)
  refine (Directory.announces_iff reachable_nook.routed.directory hmember).mpr
    ⟨⟨some 1⟩, [], _, hquery, ?_, rfl, fun limit h => by cases h⟩
  rw [Directory.announced_some_of_leadsTo ⟨n, hn, List.mem_cons_of_mem _ hlearned⟩]
  exact List.mem_singleton_self _

end Network

end Fieldbus
