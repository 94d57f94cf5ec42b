import Fieldbus.Proofs.Copies

/-!
# Global broadcasts

A global broadcast that is sent in a network without loops is put exactly once on the link of its
sender and of every segment that a route of the sender leads to and that is not further away than
the hops of a copy last, and every node there takes note of it exactly once; all other links carry
nothing of it (`broadcast_once`).
-/

namespace Fieldbus

namespace Sight

/-- The frame that is seen. -/
def frame? : Sight → Option LinkFrame
  | frame f => some f
  | arrival .. => none

/-- The envelope that is seen to arrive at a given node. -/
def envelope? (id : NodeId) : Sight → Option Envelope
  | frame _ => none
  | arrival node e => if node = id then some e else none

end Sight

namespace Directory

/-- A global broadcast goes to all neighbors of its sender and onto its link. -/
theorem send_everywhere {d : Directory} {m : Member} {msg : Message} {sender : Address}
    (recipient : msg.recipient = Address.everywhere) (plain : msg.kind = none)
    (hs : m.station.address = .ok sender)
    (takes : m.station.attachment.Takes (msg.header.bytes ++ msg.payload).length) :
    d.send m msg = {
      events := d.handOver m msg sender (d.neighbors m.station) ++
        [.transmitted m.id (msg.transmission msg.header none)] } := by
  have hglobal : msg.recipient.isGlobal = true := Address.isGlobal_iff.mpr recipient
  have haudience : d.audience m.station msg = d.neighbors m.station := by
    simp [audience, plain]
  simp only [send, hglobal, ite_true, sendEverywhere, haudience, hs, Member.put_of_takes msg takes]
  cases d.neighbors m.station <;> rfl

end Directory

namespace Wiring

variable {w : Wiring} {k k' : LinkId} {l : Link} {m n : Member}

theorem frame?_eq_bind (event : Event) :
    w.frame? k event = (w.sight? k event).bind Sight.frame? := by
  cases event with
  | transmitted id t =>
    rw [sight?]
    cases w.frame? k (.transmitted id t) <;> rfl
  | arrived id e =>
    rw [sight?]
    split <;> rfl
  | _ => rfl

theorem Attends.arrival?_eq_bind (hm : w.Attends k m) (event : Event) :
    event.arrival? m.id = (w.sight? k event).bind (Sight.envelope? m.id) := by
  cases event with
  | transmitted id t =>
    rw [sight?]
    cases w.frame? k (.transmitted id t) <;> rfl
  | arrived id e =>
    rw [sight?]
    by_cases he : id = m.id
    · subst he
      rw [if_pos hm.tap]
      rfl
    · rw [Event.arrival?, if_neg he]
      split
      · exact (if_neg he).symm
      · rfl
  | _ => rfl

/-- Who looks at what somebody else observes sees a part of it. -/
theorem observed_bind {α β : Type} {look : Event → Option α} {part : α → Option β}
    {look' : Event → Option β} (h : ∀ event, look' event = (look event).bind part)
    (events : List Event) :
    w.observed look' events = (w.observed look events).filterMap part := by
  rw [observed, observed, Multiset.filterMap_filterMap]
  exact congrArg (fun f => (w.outcome events).filterMap f) (funext h)

private theorem filterMap_sum_map {α β γ : Type} (part : β → Option γ) (xs : List α)
    (f : α → Multiset β) :
    (xs.map f).sum.filterMap part = (xs.map fun x => (f x).filterMap part).sum := by
  induction xs with
  | nil => rfl
  | cons x xs ih =>
    rw [List.map_cons, List.sum_cons, Multiset.filterMap_add, ih, List.map_cons, List.sum_cons]

/-- One frame is to be seen. -/
theorem filterMap_frame?_scene (l : Link) (f : LinkFrame) (heard : Member → Option Envelope) :
    (w.scene l f heard).filterMap Sight.frame? = {f} := by
  have harrival : ∀ m, Multiset.filterMap Sight.frame?
      ↑((heard m).map (Sight.arrival m.id)).toList = 0 := by
    intro m
    cases heard m <;> rfl
  rw [scene, Multiset.filterMap_add, filterMap_sum_map]
  simp only [harrival, List.map_const', List.sum_replicate, smul_zero, add_zero]
  rfl

/-- At a node the envelope is to be seen that it has heard. -/
theorem Serves.filterMap_envelope?_scene (h : w.Serves k l) (hm : w.Attends k m) (f : LinkFrame)
    (heard : Member → Option Envelope) :
    (w.scene l f heard).filterMap (Sight.envelope? m.id) = ↑(heard m).toList := by
  have hnode : ∀ n, Multiset.filterMap (Sight.envelope? m.id)
      ↑((heard n).map (Sight.arrival n.id)).toList =
        if n.id = m.id then ((heard n).toList : Multiset Envelope) else 0 := by
    intro n
    cases heard n with
    | none => split <;> rfl
    | some e =>
      refine (Multiset.filterMap_coe _ _).trans ?_
      by_cases he : n.id = m.id <;> simp [Sight.envelope?, he]
  have hothers : ∀ n ∈ w.stations l, n ≠ m →
      (if n.id = m.id then ((heard n).toList : Multiset Envelope) else 0) = 0 := by
    intro n hn ne
    refine if_neg fun he => ne ?_
    have hs := (h.mem_stations_iff.mp hn).station
    obtain ⟨id, s⟩ := n
    obtain rfl : id = m.id := he
    exact congrArg (Member.mk m.id) (Option.some.inj (hs.symm.trans hm.station))
  rw [scene, Multiset.filterMap_add, filterMap_sum_map]
  simp only [hnode]
  rw [sum_map_eq_single h.nodup_stations (h.mem_stations_iff.mpr hm) hothers, if_pos rfl]
  exact zero_add _

/-! ## Sending -/

/-- A plain message for everybody is seen on the link of its sender, and all other stations there
take note of it. -/
theorem Serves.observed_transmitted_plain (h : w.Serves k' l) (routed : w.directory.Routed)
    (hn : w.Attends k' n) {msg : Message} (recipient : msg.recipient = Address.everywhere)
    (plain : msg.kind = none) {hint : Address}
    (ho : Address.onLink n.station.attachment.mac = .ok hint) (k : LinkId) :
    w.observed (w.sight? k) [.transmitted n.id (msg.transmission msg.header none)] =
      if k' = k then
        w.scene l ⟨n.station.attachment.mac, none, msg.header.bytes ++ msg.payload⟩ fun m =>
          if m = n then none else some { msg.envelope hint with recipient := none }
      else 0 := by
  have hglobal : (msg.transmission msg.header none).recipient.isGlobal = true :=
    Address.isGlobal_iff.mpr recipient
  have heach : ∀ m ∈ w.stations l, w.observed (w.sight? k)
      (w.directory.receive m (msg.header.bytes ++ msg.payload) n.station.attachment.mac).events =
        if k' = k then
          ↑((if m = n then none else some { msg.envelope hint with recipient := none }).map
            (Sight.arrival m.id)).toList
        else 0 := by
    intro m hm
    have hattends := h.mem_stations_iff.mp hm
    rw [h.events_receive_plain hattends hn plain ho, observed_cons_of_eq_none _ rfl rfl]
    by_cases he : m = n
    · rw [if_pos he, if_pos he]
      exact (ite_self 0).symm
    · rw [if_neg he, if_neg he, hattends.observed_arrived]
      rfl
  rw [h.observed_transmitted_global routed hn hglobal]
  have hsum := congrArg List.sum (List.map_congr_left heach)
  refine (congrArg _ hsum).trans ?_
  by_cases hk : k' = k
  · simp only [hk, ite_true]
    rfl
  · simp only [hk, ite_false, List.map_const', List.sum_replicate, smul_zero, add_zero]

/-- What a node hands over to its neighbors is seen, once, on the links that its routes lead to and
that are within the hops of a copy. -/
theorem Attends.seen_handOver (routed : w.directory.Routed) (serve : w.InService)
    (loopFree : w.LoopFree) (hm : w.Attends k' m) (hl : w.links[k]? = some l) {msg : Message}
    (recipient : msg.recipient = Address.everywhere) (plain : msg.kind = none) {sender : Address}
    (segment : sender.segment = m.station.segment) (here : sender.segment ≠ Segment.here)
    (fits : ∀ {k' : LinkId} {l' : Link}, w.links[k']? = some l' → w.LeadsTo m l'.segment →
      w.graph.dist m.station.segment l'.segment ≤ 256 →
      (msg.envelope sender).frame.length ≤ l'.maxFrameLength) :
    w.Seen k l (msg.envelope sender) 256
      (fun d => w.LeadsTo m l.segment ∧ d = w.graph.dist m.station.segment l.segment)
      (w.observed (w.sight? k) (w.directory.handOver m msg sender
        (w.directory.neighbors m.station))) := by
  have he : (msg.envelope sender).Global := ⟨congrArg some recipient, plain, rfl, here⟩
  have hfull : (msg.envelope sender).withHops 255 = msg.envelope sender := rfl
  have hobserved : w.observed (w.sight? k) (w.directory.handOver m msg sender
      (w.directory.neighbors m.station)) = ((w.directory.neighbors m.station).map fun n =>
        w.observed (w.sight? k) (w.directory.relay n m.station.segment Address.everywhere
          ((msg.envelope sender).withHops 255) msg.broadcast)).sum := by
    rw [Directory.handOver, observed_flatMap, recipient, hfull]
    refine congrArg List.sum (List.map_congr_left fun n _ => ?_)
    exact observed_cons_of_eq_none _ rfl rfl _
  have hadj : ∀ n ∈ w.directory.neighbors m.station,
      w.graph.Adj m.station.segment n.station.segment := fun n hn =>
    (loopFree.joins hm.station hn).adj routed
  rw [hobserved]
  refine Seen.sum loopFree (routed.nodup_neighbors hm.station) hadj
    (fun n hn n' hn' => routed.eq_of_segment_eq hm.station hn hn') ?_
    (fun d => loopFree.leadsTo_iff routed hm.station)
  intro n hn
  have hbehind : Beyond w.graph n.station.segment m.station.segment
      (msg.envelope sender).sender.segment 0 := by
    have hs : (msg.envelope sender).sender.segment = m.station.segment := segment
    rw [hs]
    exact Beyond.refl (hadj n hn).ne'
  refine (loopFree.joins hm.station hn).seen_relay routed serve loopFree he hl (by omega)
    ⟨0, hbehind⟩ ?_ msg.broadcast
  intro k'' l'' d hl'' le hbeyond
  have hleads := (loopFree.leadsTo_iff routed hm.station).mpr ⟨n, hn, d, rfl, hbeyond⟩
  exact fits hl'' hleads.1 (by omega)

/-- What is seen of a global broadcast is what is seen of the copies for the neighbors and, on the
link of the sender, of the plain message. -/
theorem Serves.observed_send (h : w.Serves k' l) (routed : w.directory.Routed)
    (hm : w.Attends k' m) {msg : Message} (recipient : msg.recipient = Address.everywhere)
    (plain : msg.kind = none) {sender : Address} (hs : m.station.address = .ok sender)
    (fits : (msg.header.bytes ++ msg.payload).length ≤ l.maxFrameLength) (k : LinkId) :
    (w.directory.send m msg).result = .ok () ∧
      w.observed (w.sight? k) (w.directory.send m msg).events =
        w.observed (w.sight? k) (w.directory.handOver m msg sender
          (w.directory.neighbors m.station)) +
        if k' = k then
          w.scene l ⟨m.station.attachment.mac, none, msg.header.bytes ++ msg.payload⟩ fun n =>
            if n = m then none
            else some { msg.envelope (sender.withSegment Segment.here) with recipient := none }
        else 0 := by
  have hhint : Address.onLink m.station.attachment.mac = .ok (sender.withSegment Segment.here) := by
    have hw := Address.of_withSegment sender Segment.here
    rwa [(h.of_address hm hs).2] at hw
  rw [Directory.send_everywhere recipient plain hs ((h.on m hm).takes fits), observed_append,
    h.observed_transmitted_plain routed hm recipient plain hhint]
  exact ⟨rfl, rfl⟩

/-- A global broadcast is seen as a plain message on the link of its sender, and as copies that its
neighbors are handed on all other links. -/
theorem Attends.seen_send (routed : w.directory.Routed) (serve : w.InService)
    (loopFree : w.LoopFree) (hm : w.Attends k' m) {l' : Link} (hl' : w.links[k']? = some l')
    {msg : Message} (recipient : msg.recipient = Address.everywhere) (plain : msg.kind = none)
    {sender : Address} (hs : m.station.address = .ok sender)
    (fits : (msg.header.bytes ++ msg.payload).length ≤ l'.maxFrameLength)
    (lands : ∀ {k : LinkId} {l : Link}, w.links[k]? = some l → w.LeadsTo m l.segment →
      w.graph.dist m.station.segment l.segment ≤ 256 →
      (msg.envelope sender).frame.length ≤ l.maxFrameLength) :
    w.observed (w.sight? k') (w.directory.send m msg).events =
        w.scene l' ⟨m.station.attachment.mac, none, msg.header.bytes ++ msg.payload⟩ (fun n =>
          if n = m then none
          else some { msg.envelope (sender.withSegment Segment.here) with recipient := none }) ∧
      ∀ {k : LinkId} {l : Link}, w.links[k]? = some l → k ≠ k' →
        w.Seen k l (msg.envelope sender) 256
          (fun d => w.LeadsTo m l.segment ∧ d = w.graph.dist m.station.segment l.segment)
          (w.observed (w.sight? k) (w.directory.send m msg).events) := by
  have hserves := serve.serves hl'
  have hon := hserves.on m hm
  have hsegment := (hserves.of_address hm hs).1
  have hsend := fun k => (hserves.observed_send routed hm recipient plain hs fits k).2
  have hcopies := fun {k : LinkId} {l : Link} (hl : w.links[k]? = some l) =>
    hm.seen_handOver routed serve loopFree hl recipient plain (hsegment.trans hon.segment.symm)
      (hsegment ▸ hserves.segment_ne_here) lands
  refine ⟨?_, fun {k l} hl ne => ?_⟩
  · -- No route leads back to the segment of the sender.
    have hback := (hcopies hl').eq_zero fun d _ hd => by
      obtain ⟨n, -, d', -, hbeyond⟩ := (loopFree.leadsTo_iff routed hm.station).mp hd
      exact hbeyond.ne hon.segment.symm
    rw [hsend, hback, if_pos rfl, zero_add]
  · rw [hsend, if_neg ne.symm, add_zero]
    exact hcopies hl

end Wiring

namespace Network

variable {net net' : Network} {k : LinkId} {l : Link} {m : Member} {events rest : List Event}

/-- The frames that events leave on a link, in order. -/
def framesOn (net : Network) (k : LinkId) (events : List Event) : List LinkFrame :=
  events.filterMap (net.wiring.frame? k)

/-- What is seen of a call is what the link carries and what the nodes there take note of. -/
theorem Ready.of_observed (ready : net.Ready) (run : LinkRun (net.applyAll events) rest net')
    (done : net'.waiting = 0) {seen : Multiset Sight}
    (h : net.wiring.observed (net.wiring.sight? k) events = seen) :
    (net.framesOn k (events ++ rest) : Multiset LinkFrame) = seen.filterMap Sight.frame? ∧
      ∀ m, net.wiring.Attends k m → ∃ new, net'.noted m.id = net.noted m.id ++ new ∧
        (new : Multiset Envelope) = seen.filterMap (Sight.envelope? m.id) := by
  subst h
  refine ⟨?_, fun m hm => ?_⟩
  · rw [← Wiring.observed_bind Wiring.frame?_eq_bind]
    exact observed_of_linkRun _ ready.routed ready.idle run done
  · obtain ⟨new, hnew, hobserved⟩ :=
      noted_of_linkRun ready.routed ready.collects ready.idle run done (isAlive_of_attends hm)
    exact ⟨new, hnew, hobserved.trans (Wiring.observed_bind hm.arrival?_eq_bind events)⟩

/-- A link carries one frame and its nodes take note of what is seen to arrive there. -/
theorem Ready.of_observed_scene (ready : net.Ready) (run : LinkRun (net.applyAll events) rest net')
    (done : net'.waiting = 0) (hk : net.wiring.Serves k l) {f : LinkFrame}
    {heard : Member → Option Envelope}
    (h : net.wiring.observed (net.wiring.sight? k) events = net.wiring.scene l f heard) :
    net.framesOn k (events ++ rest) = [f] ∧
      ∀ m, net.wiring.Attends k m → net'.noted m.id = net.noted m.id ++ (heard m).toList := by
  obtain ⟨hframes, hnoted⟩ := ready.of_observed run done h
  rw [Wiring.filterMap_frame?_scene] at hframes
  refine ⟨Multiset.coe_eq_singleton.mp hframes, fun m hm => ?_⟩
  obtain ⟨new, hnew, hobserved⟩ := hnoted m hm
  rw [hk.filterMap_envelope?_scene hm] at hobserved
  rw [hnew]
  congr 1
  cases hh : heard m with
  | none =>
    rw [hh] at hobserved
    exact (Multiset.coe_eq_zero _).mp hobserved
  | some e =>
    rw [hh] at hobserved
    exact Multiset.coe_eq_singleton.mp hobserved

/-- A link on which nothing is seen carries nothing, and its nodes take note of nothing. -/
theorem Ready.of_observed_zero (ready : net.Ready) (run : LinkRun (net.applyAll events) rest net')
    (done : net'.waiting = 0)
    (h : net.wiring.observed (net.wiring.sight? k) events = 0) :
    net.framesOn k (events ++ rest) = [] ∧
      ∀ m, net.wiring.Attends k m → net'.noted m.id = net.noted m.id := by
  obtain ⟨hframes, hnoted⟩ := ready.of_observed run done h
  refine ⟨(Multiset.coe_eq_zero _).mp hframes, fun m hm => ?_⟩
  obtain ⟨new, hnew, hobserved⟩ := hnoted m hm
  rw [hnew, (Multiset.coe_eq_zero _).mp hobserved, List.append_nil]

/-- A global broadcast in a network without loops. On its own link it is put as a plain message, of
which every other node there takes note once. On the link of a segment that a route of the sender
leads to, at most 256 segments away, it is put exactly once, under the address of the sender and
with the hops that are left, and every node there takes note of it exactly once. All other links
carry nothing, and their nodes take note of nothing. -/
theorem broadcast_once (ready : net.Ready) (serve : net.wiring.InService)
    (loopFree : net.wiring.LoopFree) {a : Member} {ka : LinkId} {la : Link}
    (ha : net.wiring.Attends ka a) (hla : net.wiring.links[ka]? = some la) {sender : Address}
    (hs : a.station.address = .ok sender) (msg : Message)
    (recipient : msg.recipient = Address.everywhere) (plain : msg.kind = none)
    (fits : (msg.header.bytes ++ msg.payload).length ≤ la.maxFrameLength)
    (lands : ∀ {k : LinkId} {l : Link}, net.wiring.links[k]? = some l →
      net.wiring.LeadsTo a l.segment → net.wiring.graph.dist a.station.segment l.segment ≤ 256 →
      (msg.envelope sender).frame.length ≤ l.maxFrameLength) :
    sender.segment = la.segment ∧ sender.mac = some a.station.attachment.mac ∧
    (net.send a.id msg).1 = .ok () ∧
    (net.send a.id msg).2.Settles fun events net' =>
      (net.framesOn ka ((net.directory.send a msg).events ++ events) =
          [⟨a.station.attachment.mac, none, msg.header.bytes ++ msg.payload⟩] ∧
        net'.noted a.id = net.noted a.id ∧
        ∀ x, net.wiring.Attends ka x → x ≠ a → net'.noted x.id = net.noted x.id ++
          [{ msg.envelope (sender.withSegment Segment.here) with recipient := none }]) ∧
      ∀ (k : LinkId) (l : Link), net.wiring.links[k]? = some l → k ≠ ka →
        ((net.wiring.LeadsTo a l.segment →
          net.wiring.graph.dist a.station.segment l.segment ≤ 256 →
          ∃ hops f h, hops + net.wiring.graph.dist a.station.segment l.segment = 256 ∧
            net.framesOn k ((net.directory.send a msg).events ++ events) = [f] ∧
            decode f.data = .ok (h, msg.payload) ∧
            h.destination = some ⟨Segment.everywhere, none, hops.toUInt8⟩ ∧
            h.source = some ⟨sender.segment, sender.mac⟩ ∧
            ∀ x, net.wiring.Attends k x → ∃ link, net'.noted x.id = net.noted x.id ++
              [{ msg.envelope sender with link, hopCount := hops.toUInt8 }]) ∧
        ((net.wiring.LeadsTo a l.segment →
          256 < net.wiring.graph.dist a.station.segment l.segment) →
          net.framesOn k ((net.directory.send a msg).events ++ events) = [] ∧
            ∀ x, net.wiring.Attends k x → net'.noted x.id = net.noted x.id)) := by
  have hserves := serve.serves hla
  obtain ⟨hsegment, hmac⟩ := hserves.of_address ha hs
  have hresult := (hserves.observed_send ready.routed.directory ha recipient plain hs fits ka).1
  obtain ⟨hown, hothers⟩ :=
    ha.seen_send ready.routed.directory serve loopFree hla recipient plain hs fits lands
  rw [send_eq_applyAll ha]
  refine ⟨hsegment, hmac, hresult, ?_⟩
  refine settles_applyAll ready.routed ready.collects ready.running fun rest net' run done => ?_
  refine ⟨?_, fun k l hl ne => ?_⟩
  · obtain ⟨hframes, hnoted⟩ := ready.of_observed_scene run done hserves hown
    refine ⟨hframes, ?_, fun x hx ne => ?_⟩
    · rw [hnoted a ha, if_pos rfl, Option.toList_none, List.append_nil]
    · rw [hnoted x hx, if_neg ne, Option.toList_some]
  · have hseen := hothers hl ne
    generalize hcopies : net.wiring.observed (net.wiring.sight? k)
      (net.wiring.directory.send a msg).events = copies at hseen
    cases hseen with
    | @lands d n le distance attends =>
      obtain ⟨hleads, rfl⟩ := distance
      obtain ⟨hframes, hnoted⟩ := ready.of_observed_scene run done (serve.serves hl) hcopies
      refine ⟨fun _ _ => ?_, fun hfar => absurd (hfar hleads) (by omega)⟩
      have hhere : sender.isHere = false := by
        simpa [Address.isHere, hsegment] using hserves.segment_ne_here
      refine ⟨_, _, _, Nat.sub_add_cancel le, hframes, Envelope.decode_frame plain, ?_, ?_, ?_⟩
      · rw [Envelope.header, Envelope.withHops, Message.envelope, recipient]
        rfl
      · rw [Envelope.header, Envelope.withHops, Message.envelope, hhere]
        rfl
      · intro x hx
        rw [hnoted x hx, Envelope.heard]
        split
        · exact ⟨none, rfl⟩
        · exact ⟨_, rfl⟩
    | misses far =>
      refine ⟨fun hleads le => absurd ⟨hleads, rfl⟩ (far _ le), fun _ => ?_⟩
      exact ready.of_observed_zero run done hcopies

/-- A node of `row`. -/
private def rowNode (link : LinkId) (segment : Segment) (mac : Bytes)
    (routes : List (Segment × NodeId)) : Node where
  station := {
    segment
    attachment := ⟨mac, [mac], [0xFF], some 64⟩
    routes := ⟨segment, ⟨routes⟩, routes.map fun r => some r.1⟩ }
  medium := .tap link {}
  keepsFaults := true
  consumer := some (.collector [])

/-- Three links in a row: the stations in the middle each have a route to one end. -/
def row : Network where
  nodes := [some (rowNode 0 1 [1] [(2, 1)]), some (rowNode 1 2 [1] [(1, 0)]),
    some (rowNode 1 2 [2] [(3, 3)]), some (rowNode 2 3 [1] [(2, 2)])]
  links := [⟨1, [0xFF], 64, ⟨[([1], 0)]⟩, ∅, true⟩,
    ⟨2, [0xFF], 64, ⟨[([1], 1), ([2], 2)]⟩, ∅, true⟩, ⟨3, [0xFF], 64, ⟨[([1], 3)]⟩, ∅, true⟩]

/-- The graph of the segments of `row`. -/
private def rowGraph : SimpleGraph Segment := ⊥ ⊔ SimpleGraph.edge 1 2 ⊔ SimpleGraph.edge 2 3

private theorem isAcyclic_rowGraph : rowGraph.IsAcyclic := by
  refine .sup_edge_of_not_reachable ?_ (.sup_edge_of_not_reachable ?_ SimpleGraph.isAcyclic_bot)
  · intro h
    obtain ⟨p⟩ := h.symm
    have hp := p.adj_snd (SimpleGraph.Walk.not_nil_of_ne (by decide))
    simp [SimpleGraph.edge_adj] at hp
  · rw [SimpleGraph.reachable_bot]
    decide

private theorem loopFree_row : row.wiring.LoopFree := by
  refine loopFree_of_forall_nodes isAcyclic_rowGraph ?_ (by decide) (by decide)
  intro id hid s hs n hn
  have hends : ∀ id < row.nodes.length, ∀ s ∈ row.directory id, ∀ n ∈ row.directory.neighbors s,
      (s.segment = 1 ∧ n.station.segment = 2 ∨ s.segment = 2 ∧ n.station.segment = 1) ∨
        s.segment = 2 ∧ n.station.segment = 3 ∨ s.segment = 3 ∧ n.station.segment = 2 := by decide
  rcases hends id hid s hs n hn with (⟨h, h'⟩ | ⟨h, h'⟩) | ⟨h, h'⟩ | ⟨h, h'⟩ <;>
    simp [rowGraph, SimpleGraph.edge_adj, h, h']

private theorem inService_row : row.wiring.InService := by
  refine ⟨fun {k l} hl => ?_, fun {m} hm => ?_, fun {k k' l l'} hl hl' hs => ?_⟩
  · rcases k with _ | _ | _ | k <;> cases hl <;>
      exact serves_of_forall_nodes rfl (by decide) (by decide) (by decide) (by decide) (by decide)
  · obtain ⟨id, s⟩ := m
    rcases id with _ | _ | _ | _ | id <;> cases hm
    · exact ⟨0, _, ⟨rfl, rfl⟩, rfl⟩
    · exact ⟨1, _, ⟨rfl, rfl⟩, rfl⟩
    · exact ⟨1, _, ⟨rfl, rfl⟩, rfl⟩
    · exact ⟨2, _, ⟨rfl, rfl⟩, rfl⟩
  · rcases k with _ | _ | _ | k <;> rcases k' with _ | _ | _ | k' <;> cases hl <;> cases hl' <;>
      first | rfl | exact absurd hs (by decide)

private theorem ready_row : row.Ready := by
  refine ⟨Routed.of_forall_nodes (by decide), ?_, by decide, rfl⟩
  intro id n hn
  rcases id with _ | _ | _ | _ | id <;> cases hn <;> exact ⟨[], rfl⟩

/-- A member of `row`. -/
private def rowMember (id : NodeId) (segment : Segment) (mac : Bytes)
    (routes : List (Segment × NodeId)) : Member :=
  ⟨id, (rowNode 0 segment mac routes).station⟩

/-- The way through `row`. -/
private theorem exists_path_row :
    ∃ p : row.wiring.graph.Walk 1 3, p.IsPath ∧ p.length = 2 ∧ p.snd = 2 := by
  have hnear : row.wiring.Joins (rowMember 0 1 [1] [(2, 1)]) (rowMember 1 2 [1] [(1, 0)]) :=
    ⟨rfl, rfl, by decide, by decide⟩
  have hfar : row.wiring.Joins (rowMember 2 2 [2] [(3, 3)]) (rowMember 3 3 [1] [(2, 2)]) :=
    ⟨rfl, rfl, by decide, by decide⟩
  have hadj : row.wiring.graph.Adj 1 2 := ⟨by decide, _, _, hnear, rfl, rfl⟩
  have hadj' : row.wiring.graph.Adj 2 3 := ⟨by decide, _, _, hfar, rfl, rfl⟩
  refine ⟨.cons hadj (.cons hadj' .nil), ?_, rfl, SimpleGraph.Walk.snd_cons _ _⟩
  have hsupport : (SimpleGraph.Walk.cons hadj (.cons hadj' .nil)).support = [1, 2, 3] := rfl
  rw [SimpleGraph.Walk.isPath_def, hsupport]
  decide

theorem broadcast_once_row : ∃ events net',
    LinkRun (row.send 0 ⟨Address.everywhere, none, none, [7, 8], true, false⟩).2 events net' ∧
      net'.LinksRest ∧ net'.noted 0 = [] ∧ ∃ link, net'.noted 3 = [{
        sender := (Address.of 1 (some [1])).toOption.getD Address.everywhere
        recipient := some Address.everywhere
        link
        payload := [7, 8]
        hopCount := 254 }] := by
  have ha : row.wiring.Attends 0 (rowMember 0 1 [1] [(2, 1)]) := ⟨rfl, rfl⟩
  have hc : row.wiring.Attends 2 (rowMember 3 3 [1] [(2, 2)]) := ⟨rfl, rfl⟩
  obtain ⟨p, hp, hlength, hsnd⟩ := exists_path_row
  have hdist : row.wiring.graph.dist 1 3 = 2 :=
    (dist_eq_length loopFree_row.acyclic hp).trans hlength
  have hleads : row.wiring.LeadsTo (rowMember 0 1 [1] [(2, 1)]) 3 :=
    ⟨p, hp, rowMember 1 2 [1] [(1, 0)], by decide, hsnd⟩
  have hbroadcast := broadcast_once ready_row inService_row loopFree_row ha rfl rfl
    ⟨Address.everywhere, none, none, [7, 8], true, false⟩ rfl rfl (by decide) (by
      intro k l hl _ _
      rcases k with _ | _ | _ | k <;> cases hl <;> decide)
  obtain ⟨-, -, -, ⟨events, net', run, done⟩, hall⟩ := hbroadcast
  obtain ⟨⟨-, hself, -⟩, hothers⟩ := hall events net' run done
  obtain ⟨hops, -, -, hhops, -, -, -, -, hnoted⟩ :=
    (hothers 2 _ rfl (by decide)).1 hleads (hdist.le.trans (by decide))
  obtain ⟨link, hlink⟩ := hnoted _ hc
  obtain rfl : hops = 254 := by
    have hsum : hops + 2 = 256 := hdist ▸ hhops
    omega
  exact ⟨events, net', run, done, hself, link, hlink⟩

end Network

end Fieldbus
