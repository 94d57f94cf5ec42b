import Fieldbus.Network.Operations

/-!
# What transports are no matter of

Much of a network does not change when a transport is started, used or given up: neither the wires
nor what was counted. A relation of networks that no change of a consumer and no change of a pool
breaks (`Network.OverlooksTransports`) holds between a network and what becomes of it when a
transport is started or terminated, when something is handed to it, and when a node gives its
consumer up. Main statements: `OverlooksTransports.stopTransport`,
`OverlooksTransports.dropConsumer` and `OverlooksTransports.submit`.
-/

namespace Fieldbus

/-! ## Requests that end -/

/-- Requests that are given up are ended. -/
theorem exists_resolve_of_mem_failAll {items : List Outgoing} {fault : Fault} {act : Act}
    (h : act ∈ Outgoing.failAll items fault) : ∃ ticket outcome, act = .resolve ticket outcome := by
  obtain ⟨ticket, -, rfl⟩ := List.mem_map.mp h
  exact ⟨ticket, _, rfl⟩

/-- Requests whose reply is no longer awaited are ended. -/
theorem exists_resolve_of_mem_close {d : Dispatcher} {act : Act} (h : act ∈ d.close.2) :
    ∃ ticket outcome, act = .resolve ticket outcome := by
  obtain ⟨w, -, rfl⟩ := List.mem_map.mp h
  exact ⟨w.ticket, _, rfl⟩

/-- A transport with a worker that is terminated ends requests and does nothing else. -/
theorem Dedicated.exists_resolve_of_mem_terminate {t : Dedicated} {act : Act}
    (h : act ∈ t.terminate.2) : ∃ ticket outcome, act = .resolve ticket outcome := by
  unfold terminate at h
  split at h
  · cases h
  · exact (List.mem_append.mp h).elim exists_resolve_of_mem_failAll exists_resolve_of_mem_close

/-- So does a transport on a pool. -/
theorem Shared.exists_resolve_of_mem_terminate {t : Shared} {owner : NodeId} {p : Pool} {act : Act}
    (h : act ∈ (t.terminate owner p).2.2) : ∃ ticket outcome, act = .resolve ticket outcome := by
  unfold terminate at h
  split at h
  · cases h
  · exact (List.mem_append.mp h).elim exists_resolve_of_mem_close exists_resolve_of_mem_failAll

namespace Network

/-- A relation of networks that nothing breaks that happens to consumers, to what nodes have noted,
to how requests ended, and to pools. -/
structure OverlooksTransports (R : Network → Network → Prop) : Prop where
  refl : ∀ net, R net net
  trans : ∀ {net net' net''}, R net net' → R net' net'' → R net net''
  /-- Of nodes it regards what is left when the consumer and its traces are taken away. -/
  modifyNode : ∀ (net : Network) (id : NodeId) {f : Node → Node},
    (∀ n, ∃ consumer noted outcomes, f n = { n with consumer, noted, outcomes }) →
      R net (net.modifyNode id f)
  modifyPool : ∀ (net : Network) (pool : PoolId) (f : Pool → Pool), R net (net.modifyPool pool f)

namespace OverlooksTransports

variable {R : Network → Network → Prop} {net net' : Network} {id : NodeId}

theorem setConsumer (h : OverlooksTransports R) (net : Network) (id : NodeId)
    (c : Option Consumer) : R net (net.setConsumer id c) :=
  h.modifyNode net id fun n => ⟨c, n.noted, n.outcomes, rfl⟩

/-- A consumer is handed an envelope. -/
theorem consume (h : OverlooksTransports R) (net : Network) (id : NodeId) (e : Envelope)
    (c : Consumer) : R net (net.consume id e c) := by
  cases c with
  | collector items =>
    exact h.modifyNode net id fun n => ⟨n.consumer, n.noted ++ [e], n.outcomes, rfl⟩
  | dedicated t => exact h.setConsumer net id _
  | shared pool t =>
    unfold Network.consume
    dsimp only
    split
    · exact h.modifyPool net pool _
    · exact h.refl net

theorem deliver (h : OverlooksTransports R) (net : Network) (id : NodeId) (e : Envelope) :
    R net (net.deliver id e) := by
  unfold Network.deliver
  split
  · exact h.refl net
  · exact h.consume net id e _

/-- Requests end. -/
theorem performAll_resolve (h : OverlooksTransports R) (net : Network) (id : NodeId)
    {acts : List Act} (ends : ∀ act ∈ acts, ∃ ticket outcome, act = .resolve ticket outcome) :
    R net (net.performAll id acts) := by
  induction acts generalizing net with
  | nil => exact h.refl net
  | cons act rest ih =>
    obtain ⟨⟨ticket, outcome, rfl⟩, hrest⟩ := List.forall_mem_cons.mp ends
    refine h.trans ?_ (ih (net.resolve id ticket outcome) hrest)
    exact h.modifyNode net id fun n => ⟨n.consumer, n.noted, n.outcomes ++ [(ticket, outcome)], rfl⟩

theorem startTransport (h : OverlooksTransports R) (net : Network) (id : NodeId) :
    R net (net.startTransport id) := by
  unfold Network.startTransport
  split
  · exact h.setConsumer net id _
  · split
    · exact h.refl net
    · exact h.trans (h.setConsumer net id _) (h.modifyPool _ _ _)
  · exact h.refl net

theorem stopTransport (h : OverlooksTransports R) (net : Network) (id : NodeId) :
    R net (net.stopTransport id) := by
  unfold Network.stopTransport
  split
  · refine h.trans (h.setConsumer net id _) (h.performAll_resolve _ id fun act hact => ?_)
    exact Dedicated.exists_resolve_of_mem_terminate hact
  · rename_i pool t _
    split
    · exact h.refl net
    · refine h.trans (h.trans (h.setConsumer net id _) (h.modifyPool _ pool _))
        (h.performAll_resolve _ id fun act hact => ?_)
      exact Shared.exists_resolve_of_mem_terminate hact
  · exact h.refl net

theorem takeOutgoing (h : OverlooksTransports R) {items : List Outgoing}
    (taken : net.takeOutgoing id = some (items, net')) : R net net' := by
  unfold Network.takeOutgoing at taken
  split at taken
  · cases taken
    refine h.trans (h.setConsumer net id _) (h.performAll_resolve _ id fun act hact => ?_)
    obtain ⟨ticket, -, rfl⟩ := List.mem_map.mp hact
    exact ⟨ticket, _, rfl⟩
  · cases taken

/-- A node gives up its consumer. -/
theorem dropConsumer (h : OverlooksTransports R) (net : Network) (id : NodeId) :
    R net (net.dropConsumer id) := by
  unfold Network.dropConsumer
  refine h.trans ?_ (h.modifyNode _ id fun n => ⟨none, [], n.outcomes, rfl⟩)
  split
  · exact h.takeOutgoing ‹_›
  · exact h.stopTransport net id

/-- A consumer is handed something to be sent. -/
theorem submit (h : OverlooksTransports R) (net : Network) (id : NodeId) (o : Outgoing) :
    R net (net.submit id o) := by
  unfold Network.submit
  split
  · exact h.refl net
  · exact h.setConsumer net id _
  · dsimp only
    unfold Dedicated.submit
    split
    · refine h.trans (h.setConsumer net id _) (h.performAll_resolve _ id fun act hact => ?_)
      exact exists_resolve_of_mem_failAll hact
    · exact h.setConsumer net id _
  · rename_i pool t _
    unfold Shared.submit
    cases t.executors with
    | none => exact h.performAll_resolve net id fun act hact => exists_resolve_of_mem_failAll hact
    | some g => exact h.modifyPool net pool _

end OverlooksTransports

end Network

end Fieldbus
