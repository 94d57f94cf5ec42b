import Fieldbus.Proofs.Histories
import Fieldbus.Proofs.Transports

/-!
# Envelopes that wait

An envelope that has reached a node waits at the transport of the node until it is dispatched
(`Network.Waits`). Main statements: only the arrival of an envelope makes it wait
(`of_waits_arrive`, `spares_apply`), and whatever outsiders use a network for makes none wait and
lets stations know the routers they knew (`Uses.spares`).
-/

namespace Fieldbus

/-- The envelopes that wait for the worker of a transport. -/
def Consumer.inbox : Consumer → List Envelope
  | .dedicated t => t.incoming.toList
  | _ => []

/-- The envelopes that wait for the worker of the transport at a node. -/
def Node.inbox (n : Node) : List Envelope := (n.consumer.map Consumer.inbox).getD []

/-- A pool has an envelope waiting for the transport at a node. -/
def Pool.Holds (p : Pool) (id : NodeId) (e : Envelope) : Prop := ⟨id, .dispatch e⟩ ∈ p.tasks.toList

/-- A transport that joins a pool leaves its jobs alone. -/
theorem Shared.tasks_start (t : Shared) (p : Pool) : (t.start p).2.tasks = p.tasks := by
  unfold start Pool.acquire
  by_cases h : (t.executors.isSome || t.closed) = true
  · rw [if_pos h]
  · rw [if_neg h]
    cases p.executors <;> rfl

namespace Network

/-- An envelope waits to be dispatched at a node. -/
def Waits (net : Network) (id : NodeId) (e : Envelope) : Prop :=
  (∃ n, net.node? id = some n ∧ e ∈ n.inbox) ∨ ∃ k p, net.pool? k = some p ∧ p.Holds id e

/-- Nothing waits in `net'` that does not wait in `net`, and the stations of `net'` are those of
`net` with the segments and the routers they had, or new ones that know no router. -/
structure Spares (net net' : Network) : Prop where
  /-- No name is taken back. -/
  length_le : net.nodes.length ≤ net'.nodes.length
  /-- Whoever was there before has its segment and knows the routers it knew. -/
  station : ∀ {id : NodeId} {s' : Station}, net'.directory id = some s' →
    (∃ s, net.directory id = some s ∧ s'.segment = s.segment ∧ s'.routers = s.routers) ∨
      net.nodes.length ≤ id ∧ s'.routers = {}
  /-- Nothing waits that did not wait before. -/
  waits : ∀ {id : NodeId} {e : Envelope}, net'.Waits id e → net.Waits id e

namespace Spares

variable {net net' net'' : Network}

theorem refl (net : Network) : net.Spares net where
  length_le := Nat.le_refl _
  station hs := Or.inl ⟨_, hs, rfl, rfl⟩
  waits h := h

theorem trans (h : net.Spares net') (h' : net'.Spares net'') : net.Spares net'' where
  length_le := Nat.le_trans h.length_le h'.length_le
  station hs := by
    rcases h'.station hs with ⟨s', hs', hsegment', hrouters'⟩ | ⟨hle, hnone⟩
    · rcases h.station hs' with ⟨s, hs, hsegment, hrouters⟩ | ⟨hle, hnone⟩
      · exact Or.inl ⟨s, hs, hsegment'.trans hsegment, hrouters'.trans hrouters⟩
      · exact Or.inr ⟨hle, hrouters'.trans hnone⟩
    · exact Or.inr ⟨Nat.le_trans h.length_le hle, hnone⟩
  waits hw := h.waits (h'.waits hw)

/-- A change outside of nodes and pools spares them. -/
theorem of_eq (nodes : net'.nodes = net.nodes) (pools : net'.pools = net.pools) :
    net.Spares net' := by
  obtain ⟨_, _, _, _⟩ := net
  obtain ⟨_, _, _, _⟩ := net'
  cases nodes
  cases pools
  exact ⟨Nat.le_refl _, fun hs => Or.inl ⟨_, hs, rfl, rfl⟩, fun h => h⟩

end Spares

variable {net net' : Network} {id : NodeId}

/-! ## Changes to one node, pool or link -/

/-- What waits after a change to one node, after which fewer envelopes wait there, waited before. -/
theorem of_waits_modifyNode {f : Node → Node} {id' : NodeId} {e : Envelope}
    (h : ∀ n, net.node? id = some n → (f n).inbox ⊆ n.inbox)
    (hw : (net.modifyNode id f).Waits id' e) : net.Waits id' e := by
  rcases hw with ⟨n', hn', he⟩ | hpool
  · rw [node?_modifyNode] at hn'
    split at hn'
    · rename_i hid
      subst hid
      obtain ⟨n, hn, rfl⟩ := Option.map_eq_some_iff.mp hn'
      exact Or.inl ⟨n, hn, h n hn he⟩
    · exact Or.inl ⟨n', hn', he⟩
  · exact Or.inr hpool

/-- A change to one node after which fewer envelopes wait there. -/
theorem spares_modifyNode {f : Node → Node} (h : ∀ n, net.node? id = some n →
    (f n).station.segment = n.station.segment ∧ (f n).station.routers = n.station.routers ∧
      (f n).inbox ⊆ n.inbox) : net.Spares (net.modifyNode id f) where
  length_le := Nat.le_of_eq (length_nodes_modifyNode net id f).symm
  station := by
    intro id' s' hs'
    simp only [directory, node?_modifyNode] at hs' ⊢
    split at hs'
    · rename_i he
      subst he
      rw [Option.map_map] at hs'
      obtain ⟨n, hn, rfl⟩ := Option.map_eq_some_iff.mp hs'
      obtain ⟨hsegment, hrouters, -⟩ := h n hn
      exact Or.inl ⟨n.station, by rw [hn, Option.map_some], hsegment, hrouters⟩
    · exact Or.inl ⟨s', hs', rfl, rfl⟩
  waits := of_waits_modifyNode fun n hn => (h n hn).2.2

/-- A change to one node that keeps its consumer and, at its station, the segment and the
routers. -/
theorem spares_modifyNode_of_consumer_eq (net : Network) (id : NodeId) {f : Node → Node}
    (segment : ∀ n, (f n).station.segment = n.station.segment)
    (routers : ∀ n, (f n).station.routers = n.station.routers)
    (consumer : ∀ n, (f n).consumer = n.consumer) : net.Spares (net.modifyNode id f) :=
  spares_modifyNode fun n _ => ⟨segment n, routers n, by
    unfold Node.inbox
    rw [consumer]
    exact List.Subset.refl _⟩

/-- A node gets a consumer at which fewer envelopes wait. -/
theorem spares_setConsumer {c : Option Consumer} (h : ∀ n, net.node? id = some n →
    (c.map Consumer.inbox).getD [] ⊆ n.inbox) : net.Spares (net.setConsumer id c) :=
  spares_modifyNode fun n hn => ⟨rfl, rfl, h n hn⟩

theorem spares_modifyLink (net : Network) (k : LinkId) (f : Link → Link) :
    net.Spares (net.modifyLink k f) :=
  Spares.of_eq rfl rfl

/-- A change to one pool after which it holds fewer envelopes. -/
theorem spares_modifyPool {k : PoolId} {f : Pool → Pool} (h : ∀ p, net.pool? k = some p →
    ∀ id e, (f p).Holds id e → p.Holds id e) : net.Spares (net.modifyPool k f) where
  length_le := Nat.le_refl _
  station hs := Or.inl ⟨_, hs, rfl, rfl⟩
  waits := by
    rintro id e (hnode | ⟨k', p', hp', he⟩)
    · exact Or.inl hnode
    · refine Or.inr ?_
      simp only [pool?, modifyPool, List.getElem?_modify] at hp'
      obtain ⟨p, hp, rfl⟩ := Option.map_eq_some_iff.mp hp'
      split at he
      · rename_i hk
        subst hk
        exact ⟨k, p, hp, h p hp id e he⟩
      · exact ⟨k', p, hp, he⟩

/-- A pool that gives up one of its jobs. -/
theorem spares_removeTask {k : PoolId} {p : Pool} {before after : List Task} {task : Task}
    (hp : net.pool? k = some p) (tasks : p.tasks.toList = before ++ task :: after) :
    net.Spares (net.modifyPool k fun p => { p with tasks := ⟨before ++ after⟩ }) := by
  refine spares_modifyPool fun p' hp' id e he => ?_
  cases hp.symm.trans hp'
  rw [Pool.Holds, tasks]
  exact List.mem_append.mpr ((List.mem_append.mp he).imp_right (List.mem_cons_of_mem _))

/-! ## Events -/

/-- What happens makes no envelope wait unless one arrives. -/
theorem spares_apply (net : Network) {event : Event} (h : ∀ id e, event ≠ .arrived id e) :
    net.Spares (net.apply event) := by
  cases event with
  | arrived id e => exact absurd rfl (h id e)
  | handed id length =>
    refine spares_modifyNode fun n _ => ?_
    split <;> exact ⟨rfl, rfl, List.Subset.refl _⟩
  | transmitted id t =>
    unfold apply transmit
    dsimp only
    split
    · exact Spares.refl net
    · split
      · exact spares_modifyNode_of_consumer_eq net id (fun _ => rfl) (fun _ => rfl) fun _ => rfl
      · refine Spares.trans ?_ (spares_modifyLink _ _ _)
        exact spares_modifyNode_of_consumer_eq net id (fun _ => rfl) (fun _ => rfl) fun _ => rfl
  | reported id fault =>
    refine spares_modifyNode fun n _ => ?_
    split <;> exact ⟨rfl, rfl, List.Subset.refl _⟩
  | received id =>
    exact spares_modifyNode_of_consumer_eq net id (fun _ => rfl) (fun _ => rfl) fun _ => rfl
  | dropped id =>
    exact spares_modifyNode_of_consumer_eq net id (fun _ => rfl) (fun _ => rfl) fun _ => rfl
  | relayed source target ingress recipient e broadcast =>
    exact spares_modifyNode_of_consumer_eq net source (fun _ => rfl) (fun _ => rfl) fun _ => rfl

/-- What waits after a job was queued waited before, or is what the job dispatches. -/
theorem of_waits_spawn {pool : PoolId} {owner : NodeId} {job : Nat × Job} {id' : NodeId}
    {e' : Envelope} (h : (net.spawn pool owner job).Waits id' e') :
    net.Waits id' e' ∨ id' = owner ∧ job.2 = .dispatch e' := by
  rcases h with hnode | ⟨k, p', hp', he⟩
  · exact Or.inl (Or.inl hnode)
  · simp only [pool?, spawn, modifyPool, List.getElem?_modify] at hp'
    obtain ⟨p, hp, rfl⟩ := Option.map_eq_some_iff.mp hp'
    have hwaited : p.Holds id' e' → net.Waits id' e' := fun he => Or.inr ⟨k, p, hp, he⟩
    split at he
    · unfold Pool.spawn at he
      split at he
      · rw [Pool.Holds, Mailbox.toList_push, List.mem_append, List.mem_singleton,
          Task.mk.injEq] at he
        exact he.imp hwaited fun he => ⟨he.1, he.2.symm⟩
      · exact Or.inl (hwaited he)
    · exact Or.inl (hwaited he)

/-- What waits after an envelope was handed to a consumer is the envelope or waited before. -/
theorem of_waits_consume {c : Consumer} {e e' : Envelope} {id' : NodeId}
    (hc : (net.node? id).bind (·.consumer) = some c) (h : (net.consume id e c).Waits id' e') :
    net.Waits id' e' ∨ id' = id ∧ e' = e := by
  cases c with
  | collector items =>
    have spares : net.Spares (net.note id e) :=
      spares_modifyNode_of_consumer_eq net id (fun _ => rfl) (fun _ => rfl) fun _ => rfl
    exact Or.inl (spares.waits h)
  | dedicated t =>
    rcases h with ⟨n', hn', he⟩ | hpool
    · rw [consume, setConsumer, node?_modifyNode] at hn'
      split at hn'
      · rename_i hid
        subst hid
        obtain ⟨n, hn, rfl⟩ := Option.map_eq_some_iff.mp hn'
        rw [hn, Option.bind_some] at hc
        have hwaited : e' ∈ t.incoming.toList → net.Waits id' e' := fun he =>
          Or.inl ⟨n, hn, by rw [Node.inbox, hc]; exact he⟩
        simp only [Node.inbox, Option.map_some, Option.getD_some, Consumer.inbox,
          Dedicated.deliver] at he
        split at he
        · exact Or.inl (hwaited he)
        · rw [Mailbox.toList_push, List.mem_append, List.mem_singleton] at he
          exact he.imp hwaited fun he => ⟨rfl, he⟩
      · exact Or.inl (Or.inl ⟨n', hn', he⟩)
    · exact Or.inl (Or.inr hpool)
  | shared pool t =>
    unfold consume at h
    dsimp only at h
    split at h
    · rename_i job hjob
      refine (of_waits_spawn h).imp_right fun he => ⟨he.1, ?_⟩
      obtain ⟨g, -, rfl⟩ := Option.map_eq_some_iff.mp hjob
      exact (Job.dispatch.inj he.2).symm
    · exact Or.inl h

/-- What waits after an envelope has arrived is the envelope or waited before. -/
theorem of_waits_arrive {e e' : Envelope} {id' : NodeId}
    (h : (net.apply (.arrived id e)).Waits id' e') : net.Waits id' e' ∨ id' = id ∧ e' = e := by
  have spares : ∀ f, net.Spares (net.count id f) := fun f =>
    spares_modifyNode_of_consumer_eq net id (fun _ => rfl) (fun _ => rfl) fun _ => rfl
  unfold apply arrive at h
  dsimp only at h
  split at h
  · exact Or.inl ((spares _).waits h)
  · rename_i c hc
    refine (of_waits_consume ?_ h).imp_left (spares _).waits
    rw [count, node?_modifyNode, if_pos rfl, Option.bind_map]
    exact hc

/-! ## What outsiders use a network for -/

/-- Ending requests makes nothing wait. -/
theorem spares_performAll_resolve (net : Network) (id : NodeId) {acts : List Act}
    (h : ∀ act ∈ acts, ∃ ticket outcome, act = .resolve ticket outcome) :
    net.Spares (net.performAll id acts) := by
  induction acts generalizing net with
  | nil => exact Spares.refl net
  | cons act rest ih =>
    obtain ⟨⟨ticket, outcome, rfl⟩, hrest⟩ := List.forall_mem_cons.mp h
    refine Spares.trans ?_ (ih (net.resolve id ticket outcome) hrest)
    exact spares_modifyNode_of_consumer_eq net id (fun _ => rfl) (fun _ => rfl) fun _ => rfl

/-- A transport with a worker that is terminated keeps no envelope. -/
theorem incoming_terminate_subset (t : Dedicated) :
    t.terminate.1.incoming.toList ⊆ t.incoming.toList := by
  unfold Dedicated.terminate
  split
  · exact List.Subset.refl _
  · exact List.nil_subset _

/-- A pool that jobs are withdrawn from or that is left keeps other jobs at most. -/
theorem holds_of_release {p : Pool} {owner id : NodeId} {e : Envelope} {joined : Bool}
    (h : (if joined then (p.withdraw owner).2.release else (p.withdraw owner).2).Holds id e) :
    p.Holds id e := by
  have hwithdraw : (p.withdraw owner).2.Holds id e → p.Holds id e := by
    intro h
    simp only [Pool.Holds, Pool.withdraw, List.partition_eq_filter_filter] at h
    exact (List.mem_filter.mp h).1
  split at h
  · refine hwithdraw ?_
    unfold Pool.release at h
    split at h
    · exact h
    · cases h
  · exact hwithdraw h

/-- A transport on a pool that is terminated leaves no new envelope there. -/
theorem holds_of_terminate {t : Shared} {owner id : NodeId} {p : Pool} {e : Envelope}
    (h : (t.terminate owner p).2.1.Holds id e) : p.Holds id e := by
  unfold Shared.terminate at h
  split at h
  · exact h
  · exact holds_of_release h

/-- The envelopes that wait at a node wait at its consumer. -/
theorem inbox_eq_of_consumer {n : Node} {c : Consumer}
    (hc : (net.node? id).bind (·.consumer) = some c) (hn : net.node? id = some n) :
    n.inbox = c.inbox := by
  rw [hn, Option.bind_some] at hc
  rw [Node.inbox, hc]
  rfl

theorem spares_stopTransport (net : Network) (id : NodeId) :
    net.Spares (net.stopTransport id) := by
  unfold stopTransport
  split
  · rename_i t hc
    refine Spares.trans (spares_setConsumer fun n hn => ?_)
      (spares_performAll_resolve _ id fun act h => Dedicated.exists_resolve_of_mem_terminate h)
    rw [inbox_eq_of_consumer hc hn]
    exact incoming_terminate_subset t
  · rename_i pool t hc
    split
    · exact Spares.refl net
    · rename_i p hp
      have hset : net.Spares (net.setConsumer id (some (.shared pool (t.terminate id p).1))) :=
        spares_setConsumer fun _ _ => List.nil_subset _
      refine (hset.trans (spares_modifyPool fun p' hp' => ?_)).trans
        (spares_performAll_resolve _ id fun act h => Shared.exists_resolve_of_mem_terminate h)
      cases hp.symm.trans hp'
      exact fun _ _ => holds_of_terminate
  · exact Spares.refl net

theorem spares_takeOutgoing {items : List Outgoing}
    (taken : net.takeOutgoing id = some (items, net')) : net.Spares net' := by
  unfold takeOutgoing at taken
  split at taken
  · cases taken
    refine Spares.trans (spares_setConsumer fun _ _ => List.nil_subset _)
      (spares_performAll_resolve _ id fun act h => ?_)
    obtain ⟨ticket, -, rfl⟩ := List.mem_map.mp h
    exact ⟨ticket, _, rfl⟩
  · cases taken

theorem spares_dropConsumer (net : Network) (id : NodeId) : net.Spares (net.dropConsumer id) := by
  have hgiven : ∀ net : Network, net.Spares
      (net.modifyNode id fun n => { n with consumer := none, noted := [] }) := fun net =>
    spares_modifyNode fun _ _ => ⟨rfl, rfl, List.nil_subset _⟩
  unfold dropConsumer
  dsimp only
  split
  · rename_i taken
    exact (spares_takeOutgoing taken).trans (hgiven _)
  · exact (spares_stopTransport net id).trans (hgiven _)

theorem spares_startTransport (net : Network) (id : NodeId) :
    net.Spares (net.startTransport id) := by
  unfold startTransport
  split
  · rename_i t hc
    refine spares_setConsumer fun n hn => ?_
    rw [inbox_eq_of_consumer hc hn]
    simp only [Option.map_some, Option.getD_some, Consumer.inbox, Dedicated.start]
    split <;> exact List.Subset.refl _
  · rename_i pool t hc
    split
    · exact Spares.refl net
    · rename_i p hp
      have hset : net.Spares (net.setConsumer id (some (.shared pool (t.start p).1))) :=
        spares_setConsumer fun _ _ => List.nil_subset _
      refine hset.trans (spares_modifyPool fun p' hp' id e h => ?_)
      cases hp.symm.trans hp'
      have h : (t.start p).2.Holds id e := h
      rwa [Pool.Holds, Shared.tasks_start] at h
  · exact Spares.refl net

theorem spares_submit (net : Network) (id : NodeId) (o : Outgoing) :
    net.Spares (net.submit id o) := by
  unfold submit
  split
  · exact Spares.refl net
  · exact spares_setConsumer fun _ _ => List.nil_subset _
  · rename_i t hc
    dsimp only
    unfold Dedicated.submit
    split
    · refine Spares.trans (spares_setConsumer fun n hn => ?_)
        (spares_performAll_resolve _ id fun act h => exists_resolve_of_mem_failAll h)
      rw [inbox_eq_of_consumer hc hn]
      exact List.Subset.refl _
    · refine spares_setConsumer fun n hn => ?_
      rw [inbox_eq_of_consumer hc hn]
      exact List.Subset.refl _
  · rename_i pool t hc
    unfold Shared.submit
    cases t.executors with
    | none => exact spares_performAll_resolve _ id fun act h => exists_resolve_of_mem_failAll h
    | some g =>
      refine ⟨Nat.le_refl _, fun hs => Or.inl ⟨_, hs, rfl, rfl⟩, fun h => ?_⟩
      exact (of_waits_spawn h).resolve_right fun he => nomatch he.2

theorem spares_addPool (net : Network) : net.Spares net.addPool.2 where
  length_le := Nat.le_refl _
  station hs := Or.inl ⟨_, hs, rfl, rfl⟩
  waits := by
    rintro id e (hnode | ⟨k, p, hp, he⟩)
    · exact Or.inl hnode
    · refine Or.inr ⟨k, p, ?_, he⟩
      simp only [pool?, addPool, List.getElem?_append] at hp ⊢
      split at hp
      · exact hp
      · -- Nothing waits in the new pool.
        rw [List.getElem?_singleton] at hp
        split at hp
        · cases hp
          cases he
        · cases hp

theorem spares_addNode {segment : Segment} {attachment : Attachment} {medium : Medium}
    {keepsFaults : Bool}
    (added : net.addNode segment attachment medium keepsFaults = .ok (id, net')) :
    net.Spares net' where
  length_le := by
    rw [(of_addNode added).2.1]
    exact Nat.le_succ _
  station hs := by
    rcases (of_addNode added).2.2 hs with hs | ⟨hle, rfl⟩
    · exact Or.inl ⟨_, hs, rfl, rfl⟩
    · exact Or.inr ⟨hle, rfl⟩
  waits := by
    obtain ⟨station, -, h⟩ := exists_of_map_eq_ok added
    cases h
    rintro id e (⟨n, hn, he⟩ | hpool)
    · refine Or.inl ⟨n, ?_, he⟩
      simp only [node?, List.getElem?_append] at hn ⊢
      split at hn
      · exact hn
      · -- The new node has no consumer.
        rw [List.getElem?_singleton] at hn
        split at hn
        · cases hn
          cases he
        · cases hn
    · exact Or.inr hpool

theorem spares_set_none (net : Network) (id : NodeId) :
    net.Spares { net with nodes := net.nodes.set id none } where
  length_le := Nat.le_of_eq List.length_set.symm
  station hs := Or.inl ⟨_, directory_of_set_none hs, rfl, rfl⟩
  waits := by
    rintro id' e (⟨n, hn, he⟩ | hpool)
    · refine Or.inl ⟨n, ?_, he⟩
      simp only [node?, List.getElem?_set] at hn ⊢
      split at hn
      · split at hn <;> cases hn
      · exact hn
    · exact Or.inr hpool

theorem spares_detach (net : Network) (id : NodeId) : net.Spares (net.detach id) := by
  unfold detach
  split
  · exact Spares.refl net
  · split
    · exact spares_modifyNode_of_consumer_eq net _ (fun _ => rfl) (fun _ => rfl) fun _ => rfl
    · exact spares_modifyLink net _ _

theorem spares_terminate (net : Network) (id : NodeId) : net.Spares (net.terminate id) := by
  unfold terminate
  split
  · exact Spares.refl net
  · split
    · exact Spares.refl net
    · refine Spares.trans ?_ (spares_detach _ id)
      exact spares_modifyNode_of_consumer_eq net _ (fun _ => rfl) (fun _ => rfl) fun _ => rfl

/-- A new transport has no envelope waiting. -/
theorem inbox_make (segment : Segment) (kind : ConsumerKind) :
    (Consumer.make segment kind).inbox = [] := by
  cases kind <;> rfl

theorem spares_replaceConsumer (net : Network) (id : NodeId) (kind : Option ConsumerKind) :
    net.Spares (net.replaceConsumer id kind) := by
  refine (spares_dropConsumer net id).trans (spares_modifyNode fun n _ => ⟨rfl, rfl, ?_⟩)
  cases kind with
  | none => exact List.nil_subset _
  | some kind =>
    simp only [Node.inbox, Option.map_some, Option.getD_some, inbox_make]
    exact List.nil_subset _

/-- Whatever outsiders use a network for makes no envelope wait and tells no station of a router. -/
theorem Uses.spares (uses : net.Uses net') : net.Spares net' := by
  cases uses with
  | addLink added =>
    obtain ⟨l, rfl⟩ := of_addLink added
    exact Spares.of_eq rfl rfl
  | addPool => exact spares_addPool net
  | startLink k => exact spares_modifyLink net k _
  | terminateLink k => exact spares_modifyLink net k _
  | addNode added => exact spares_addNode added
  | start started =>
    rcases of_start started with rfl | ⟨sent, rfl⟩ | ⟨k, l, rfl⟩
    · exact Spares.refl _
    · exact spares_modifyNode_of_consumer_eq net _ (fun _ => rfl) (fun _ => rfl) fun _ => rfl
    · exact spares_modifyLink net k _
  | terminate id => exact spares_terminate net id
  | addRoute added =>
    rcases of_addRoute added with rfl | ⟨s, t, routes, -, -, -, rfl⟩
    · exact Spares.refl _
    · exact spares_modifyNode_of_consumer_eq net _ (fun _ => rfl) (fun _ => rfl) fun _ => rfl
  | addRouteAt added =>
    rcases of_addRouteAt added with rfl | ⟨s, t, routes, -, -, -, rfl⟩
    · exact Spares.refl _
    · exact spares_modifyNode_of_consumer_eq net _ (fun _ => rfl) (fun _ => rfl) fun _ => rfl
  | replaceConsumer id kind => exact spares_replaceConsumer net id kind
  | startTransport id => exact spares_startTransport net id
  | stopTransport id => exact spares_stopTransport net id
  | takeOutgoing taken => exact spares_takeOutgoing taken
  | submit id o => exact spares_submit net id o
  | emit emitted =>
    rcases of_emit emitted with rfl | rfl
    · exact Spares.refl _
    · exact spares_apply net fun _ _ h => by cases h
  | drop id => exact (spares_dropConsumer net id).trans (spares_set_none _ id)

end Network

end Fieldbus
