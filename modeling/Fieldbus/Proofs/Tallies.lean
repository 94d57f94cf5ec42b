import Fieldbus.Proofs.Balance
import Fieldbus.Proofs.Histories
import Fieldbus.Proofs.Transports

/-!
# What nodes count

A node counts the frames and envelopes that its station takes in, keeps, hands on and discards. Main
statements: nodes count the events that happen to them, whoever takes their envelopes
(`Network.enters_applyAll`), and whatever outsiders use a network for is not counted
(`Network.Uses.keepsCounts`).
-/

namespace Fieldbus

/-- The event is one that stations count. -/
def Event.isCounted : Event → Bool
  | .received _ => true
  | .dropped _ => true
  | .arrived .. => true
  | .relayed .. => true
  | _ => false

/-- A node counts nothing where nothing that is counted happens to it. -/
theorem of_not_isCounted {id : NodeId} {events : List Event}
    (h : ∀ event ∈ events, event.isCounted = true → event.place ≠ id) :
    events.countP (Event.isReception id) = 0 ∧ (arrivals id events).length = 0 ∧
      events.countP (Event.isForward id) = 0 ∧ events.countP (Event.isDrop id) = 0 := by
  have hzero : ∀ {p : Event → Bool},
      (∀ event, p event = true → event.isCounted = true ∧ event.place = id) →
      events.countP p = 0 := fun hp => countP_eq_zero_of_forall fun event he =>
    eq_false_of_ne_true fun hc => h event he (hp event hc).1 (hp event hc).2
  refine ⟨hzero fun event hc => ?_, (length_arrivals id events).trans (hzero fun event hc => ?_),
    hzero fun event hc => ?_, hzero fun event hc => ?_⟩
  all_goals cases event <;> first | exact absurd hc Bool.false_ne_true | exact ⟨rfl, eq_of_beq hc⟩

/-- A node has counted what it had counted if nothing that is counted happens to it. -/
theorem Node.counts_after_of_not_isCounted {id : NodeId} {events : List Event}
    (h : ∀ event ∈ events, event.isCounted = true → event.place ≠ id) (n : Node) :
    (n.after id events).counts = n.counts := by
  obtain ⟨hreception, harrival, hforward, hdrop⟩ := of_not_isCounted h
  simp only [after, hreception, harrival, hforward, hdrop, ite_self, add_zero]

/-- What a node has counted after some events depends on its counters and on whether anybody takes its
envelopes. -/
theorem Node.counts_after_congr {n n' : Node} (counts : n'.counts = n.counts)
    (consumer : n'.consumer.isSome = n.consumer.isSome) (id : NodeId) (events : List Event) :
    (n'.after id events).counts = (n.after id events).counts := by
  simp only [after, counts, consumer]

namespace Network

/-! ## Events -/

/-- Nodes have counted some events, and whether anybody takes the envelopes for them is as it was. -/
structure Enters (net : Network) (events : List Event) (net' : Network) : Prop where
  /-- No node is added. -/
  length_eq : net'.nodes.length = net.nodes.length
  /-- Whoever is there has counted the events. -/
  counts : ∀ {id : NodeId} {n' : Node}, net'.node? id = some n' → ∃ n, net.node? id = some n ∧
    n'.counts = (n.after id events).counts ∧ n'.consumer.isSome = n.consumer.isSome

variable {net net' : Network} {id : NodeId} {events events' : List Event} {event : Event}

theorem Enters.trans {net'' : Network} (h : net.Enters events net') (h' : net'.Enters events' net'') :
    net.Enters (events ++ events') net'' where
  length_eq := h'.length_eq.trans h.length_eq
  counts hn'' := by
    obtain ⟨n', hn', hcounts', hconsumer'⟩ := h'.counts hn''
    obtain ⟨n, hn, hcounts, hconsumer⟩ := h.counts hn'
    refine ⟨n, hn, ?_, hconsumer'.trans hconsumer⟩
    rw [hcounts', Node.after_append]
    exact Node.counts_after_congr hcounts hconsumer _ events'

/-- A change outside of nodes is not counted. -/
theorem enters_of_nodes_eq (h : net'.nodes = net.nodes) : net.Enters [] net' where
  length_eq := congrArg List.length h
  counts {id n'} hn' := by
    have hn : net.node? id = some n' := by rw [node?, ← h]; exact hn'
    exact ⟨n', hn, by rw [Node.after_nil], rfl⟩

/-- A change to a node that keeps its counters is not counted. -/
theorem enters_modifyNode_nil {f : Node → Node} (h : ∀ n, net.node? id = some n →
    (f n).counts = n.counts ∧ (f n).consumer.isSome = n.consumer.isSome) :
    net.Enters [] (net.modifyNode id f) where
  length_eq := length_nodes_modifyNode net id f
  counts {id' n'} hn' := by
    rw [node?_modifyNode] at hn'
    split at hn'
    · rename_i he
      subst he
      obtain ⟨n, hn, rfl⟩ := Option.map_eq_some_iff.mp hn'
      exact ⟨n, hn, by rw [Node.after_nil]; exact (h n hn).1, (h n hn).2⟩
    · exact ⟨n', hn', by rw [Node.after_nil], rfl⟩

/-- An event is counted at the node where it happens. -/
theorem enters_modifyNode (event : Event) {f : Node → Node}
    (h : ∀ n, net.node? event.place = some n →
    (f n).counts = (n.record event).counts ∧ (f n).consumer.isSome = n.consumer.isSome) :
    net.Enters [event] (net.modifyNode event.place f) where
  length_eq := length_nodes_modifyNode net _ f
  counts {id n'} hn' := by
    rw [node?_modifyNode] at hn'
    split at hn'
    · rename_i he
      subst he
      obtain ⟨n, hn, rfl⟩ := Option.map_eq_some_iff.mp hn'
      exact ⟨n, hn, by rw [Node.after_place]; exact (h n hn).1, (h n hn).2⟩
    · rename_i hne
      exact ⟨n', hn', by rw [Node.after_of_place_ne (Ne.symm hne)], rfl⟩

/-- An event that no node counts. -/
theorem Enters.of_quiet (h : net.Enters [] net')
    (quiet : ∀ id (n : Node), (n.after id [event]).counts = n.counts) : net.Enters [event] net' where
  length_eq := h.length_eq
  counts hn' := by
    obtain ⟨n, hn, hcounts, hconsumer⟩ := h.counts hn'
    rw [Node.after_nil] at hcounts
    exact ⟨n, hn, hcounts.trans (quiet _ n).symm, hconsumer⟩

/-- Whatever a consumer does with an envelope is not counted. -/
theorem enters_consume {c : Consumer} (e : Envelope)
    (hc : (net.node? id).bind (·.consumer) = some c) : net.Enters [] (net.consume id e c) := by
  have hset : ∀ c', net.Enters [] (net.setConsumer id (some c')) := by
    refine fun c' => enters_modifyNode_nil fun n hn => ⟨rfl, ?_⟩
    rw [hn, Option.bind_some] at hc
    rw [hc]
    rfl
  cases c with
  | collector items => exact enters_modifyNode_nil fun _ _ => ⟨rfl, rfl⟩
  | dedicated t => exact hset _
  | shared pool t =>
    unfold consume
    dsimp only
    split
    · exact enters_of_nodes_eq rfl
    · exact enters_of_nodes_eq rfl

/-- A frame that a medium takes is not counted. -/
theorem enters_transmit (net : Network) (id : NodeId) (t : Transmission) :
    net.Enters [] (net.transmit id t) := by
  unfold transmit
  split
  · exact enters_of_nodes_eq rfl
  · split
    · exact enters_modifyNode_nil fun _ _ => ⟨rfl, rfl⟩
    · rename_i k counts _
      have hcounted : net.Enters [] (net.modifyNode id fun n => { n with
          medium := .tap k { counts with bytesOut := counts.bytesOut + t.frame.length } }) :=
        enters_modifyNode_nil fun _ _ => ⟨rfl, rfl⟩
      exact hcounted.trans (enters_of_nodes_eq rfl)

/-- Nodes count what happens to them. -/
theorem enters_apply (net : Network) (event : Event) : net.Enters [event] (net.apply event) := by
  cases event with
  | received node => exact enters_modifyNode (.received node) fun _ _ => ⟨rfl, rfl⟩
  | dropped node => exact enters_modifyNode (.dropped node) fun _ _ => ⟨rfl, rfl⟩
  | relayed source target ingress recipient e broadcast =>
    exact enters_modifyNode (.relayed source target ingress recipient e broadcast)
      fun _ _ => ⟨rfl, rfl⟩
  | arrived node e =>
    unfold apply arrive
    dsimp only
    split
    · rename_i hc
      refine enters_modifyNode (.arrived node e) fun n hn => ⟨?_, rfl⟩
      have hn : net.node? node = some n := hn
      rw [hn, Option.bind_some] at hc
      rw [Node.record, hc]
      rfl
    · rename_i c hc
      have hcounted : net.Enters [.arrived node e]
          (net.count node fun c => { c with delivered := c.delivered + 1 }) := by
        refine enters_modifyNode (.arrived node e) fun n hn => ⟨?_, rfl⟩
        have hn : net.node? node = some n := hn
        rw [hn, Option.bind_some] at hc
        rw [Node.record, hc]
        rfl
      refine hcounted.trans (enters_consume e ?_)
      rw [count, node?_modifyNode, if_pos rfl, Option.bind_map]
      exact hc
  | handed node length =>
    refine Enters.of_quiet (enters_modifyNode_nil fun n _ => ?_) fun id n => by
      simp [Node.after, arrivals, List.filterMap_cons]
    split <;> exact ⟨rfl, rfl⟩
  | transmitted node t =>
    exact (enters_transmit net node t).of_quiet fun id n => by
      simp [Node.after, arrivals, List.filterMap_cons]
  | reported node fault =>
    refine Enters.of_quiet (enters_modifyNode_nil fun n _ => ?_) fun id n => by
      simp [Node.after, arrivals, List.filterMap_cons]
    split <;> exact ⟨rfl, rfl⟩

theorem enters_applyAll (net : Network) (events : List Event) :
    net.Enters events (net.applyAll events) := by
  induction events generalizing net with
  | nil => exact enters_of_nodes_eq rfl
  | cons event rest ih => exact (enters_apply net event).trans (ih (net.apply event))

/-! ## What is not counted -/

/-- Whoever was there has counted what it had counted, and whoever is new has counted nothing. -/
structure KeepsCounts (net net' : Network) : Prop where
  /-- No name is taken back. -/
  length_le : net.nodes.length ≤ net'.nodes.length
  /-- Whoever is there has counted nothing meanwhile. -/
  counts : ∀ {id : NodeId} {n' : Node}, net'.node? id = some n' →
    (∃ n, net.node? id = some n ∧ n'.counts = n.counts) ∨ net.nodes.length ≤ id ∧ n'.counts = {}

theorem KeepsCounts.trans {net'' : Network} (h : net.KeepsCounts net') (h' : net'.KeepsCounts net'') :
    net.KeepsCounts net'' where
  length_le := Nat.le_trans h.length_le h'.length_le
  counts hn'' := by
    rcases h'.counts hn'' with ⟨n', hn', hcounts'⟩ | ⟨hle, hnone⟩
    · rcases h.counts hn' with ⟨n, hn, hcounts⟩ | ⟨hle, hnone⟩
      · exact Or.inl ⟨n, hn, hcounts'.trans hcounts⟩
      · exact Or.inr ⟨hle, hcounts'.trans hnone⟩
    · exact Or.inr ⟨Nat.le_trans h.length_le hle, hnone⟩

theorem Enters.keepsCounts (h : net.Enters [] net') : net.KeepsCounts net' where
  length_le := Nat.le_of_eq h.length_eq.symm
  counts hn' := by
    obtain ⟨n, hn, hcounts, -⟩ := h.counts hn'
    rw [Node.after_nil] at hcounts
    exact Or.inl ⟨n, hn, hcounts⟩

theorem keepsCounts_of_nodes_eq (h : net'.nodes = net.nodes) : net.KeepsCounts net' :=
  (enters_of_nodes_eq h).keepsCounts

theorem KeepsCounts.refl (net : Network) : net.KeepsCounts net := keepsCounts_of_nodes_eq rfl

theorem keepsCounts_modifyNode (net : Network) (id : NodeId) {f : Node → Node}
    (h : ∀ n, (f n).counts = n.counts) : net.KeepsCounts (net.modifyNode id f) where
  length_le := Nat.le_of_eq (length_nodes_modifyNode net id f).symm
  counts {id' n'} hn' := by
    rw [node?_modifyNode] at hn'
    split at hn'
    · obtain ⟨n, hn, rfl⟩ := Option.map_eq_some_iff.mp hn'
      exact Or.inl ⟨n, hn, h n⟩
    · exact Or.inl ⟨n', hn', rfl⟩

theorem overlooksTransports_keepsCounts : OverlooksTransports KeepsCounts where
  refl := KeepsCounts.refl
  trans := KeepsCounts.trans
  modifyNode net id f hf := by
    refine keepsCounts_modifyNode net id fun n => ?_
    obtain ⟨consumer, noted, outcomes, hn⟩ := hf n
    rw [hn]
  modifyPool _ _ _ := keepsCounts_of_nodes_eq rfl

theorem keepsCounts_addNode {segment : Segment} {attachment : Attachment} {medium : Medium}
    {keepsFaults : Bool}
    (added : net.addNode segment attachment medium keepsFaults = .ok (id, net')) :
    net.KeepsCounts net' where
  length_le := by
    rw [(of_addNode added).2.1]
    exact Nat.le_succ _
  counts {id n'} hn' := by
    obtain ⟨station, -, h⟩ := exists_of_map_eq_ok added
    cases h
    simp only [node?, List.getElem?_append] at hn' ⊢
    split at hn'
    · exact Or.inl ⟨n', hn', rfl⟩
    · rename_i hlt
      rw [List.getElem?_singleton] at hn'
      split at hn'
      · cases hn'
        exact Or.inr ⟨Nat.le_of_not_lt hlt, rfl⟩
      · cases hn'

theorem keepsCounts_terminate (net : Network) (id : NodeId) : net.KeepsCounts (net.terminate id) := by
  have hdetached : ∀ net : Network, net.KeepsCounts (net.detach id) := by
    intro net
    unfold detach
    split
    · exact KeepsCounts.refl net
    · split
      · exact keepsCounts_modifyNode net id fun _ => rfl
      · exact keepsCounts_of_nodes_eq rfl
  unfold terminate
  split
  · exact KeepsCounts.refl net
  · split
    · exact KeepsCounts.refl net
    · refine KeepsCounts.trans ?_ (hdetached _)
      exact keepsCounts_modifyNode net id fun _ => rfl

theorem keepsCounts_set_none (net : Network) (id : NodeId) :
    net.KeepsCounts { net with nodes := net.nodes.set id none } where
  length_le := Nat.le_of_eq List.length_set.symm
  counts {id' n'} hn' := by
    refine Or.inl ⟨n', ?_, rfl⟩
    simp only [node?, List.getElem?_set] at hn' ⊢
    split at hn'
    · split at hn' <;> cases hn'
    · exact hn'

/-- Whatever outsiders use a network for is not counted. -/
theorem Uses.keepsCounts (uses : net.Uses net') : net.KeepsCounts net' := by
  cases uses with
  | addLink added =>
    obtain ⟨l, rfl⟩ := of_addLink added
    exact keepsCounts_of_nodes_eq rfl
  | addPool => exact keepsCounts_of_nodes_eq rfl
  | startLink k => exact keepsCounts_of_nodes_eq rfl
  | terminateLink k => exact keepsCounts_of_nodes_eq rfl
  | addNode added => exact keepsCounts_addNode added
  | start started =>
    rcases of_start started with rfl | ⟨sent, rfl⟩ | ⟨k, l, rfl⟩
    · exact KeepsCounts.refl _
    · exact keepsCounts_modifyNode net _ fun _ => rfl
    · exact keepsCounts_of_nodes_eq rfl
  | terminate id => exact keepsCounts_terminate net id
  | addRoute added =>
    rcases of_addRoute added with rfl | ⟨s, t, routes, -, -, -, rfl⟩
    · exact KeepsCounts.refl _
    · exact keepsCounts_modifyNode net _ fun _ => rfl
  | addRouteAt added =>
    rcases of_addRouteAt added with rfl | ⟨s, t, routes, -, -, -, rfl⟩
    · exact KeepsCounts.refl _
    · exact keepsCounts_modifyNode net _ fun _ => rfl
  | replaceConsumer id kind =>
    exact (overlooksTransports_keepsCounts.dropConsumer net id).trans
      (keepsCounts_modifyNode _ id fun _ => rfl)
  | startTransport id => exact overlooksTransports_keepsCounts.startTransport net id
  | stopTransport id => exact overlooksTransports_keepsCounts.stopTransport net id
  | takeOutgoing taken => exact overlooksTransports_keepsCounts.takeOutgoing taken
  | submit id o => exact overlooksTransports_keepsCounts.submit net id o
  | emit emitted =>
    rcases of_emit emitted with rfl | rfl
    · exact KeepsCounts.refl _
    · exact (enters_transmit net _ _).keepsCounts
  | drop id =>
    exact (overlooksTransports_keepsCounts.dropConsumer net id).trans (keepsCounts_set_none _ id)

end Network

end Fieldbus
