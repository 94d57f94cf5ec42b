import Mathlib.Data.Multiset.DershowitzManna
import Fieldbus.Proofs.Ranks
import Fieldbus.Proofs.Steps

/-!
# The load of a network

The load of a network is the multiset of the ranks of all that waits in it: frames on links,
sends and deliveries at transports, jobs on pools and requests without a reply. A step takes one
of them and leaves only what has a lower rank, so it lowers the load in the multiset order
(`Step.load_lt`), as long as no application answers what it is handed (`Quiet`).
-/

namespace Fieldbus

/-- The ranks of the frames that wait on a link. -/
def Link.load (l : Link) : Multiset Nat := (l.queue.toList.map fun f => frameRank f.data : List Nat)

/-- A request without a reply has the lowest rank: it ends without leaving anything behind. -/
def Dispatcher.load (d : Dispatcher) : Multiset Nat := .replicate d.pending.entries.length 0

/-- The ranks of what waits at a transport with a worker of its own. -/
def Dedicated.load (t : Dedicated) : Multiset Nat :=
  .replicate t.outgoing.toList.length sendRank + (t.incoming.toList.map Envelope.rank : List Nat)
    + t.dispatcher.load

/-- The ranks of what waits at a consumer; a collector processes nothing. -/
def Consumer.load : Consumer → Multiset Nat
  | .collector _ => 0
  | .dedicated t => t.load
  | .shared _ t => t.dispatcher.load

/-- The ranks of what waits at a node. -/
def Node.load (n : Node) : Multiset Nat := (n.consumer.map Consumer.load).getD 0

/-- The rank of a job. -/
def Job.rank : Job → Nat
  | .execute _ => sendRank
  | .dispatch e => e.rank

/-- The ranks of the jobs that wait on a pool. -/
def Pool.load (p : Pool) : Multiset Nat := (p.tasks.toList.map fun t => t.job.rank : List Nat)

/-- The rank below which an act leaves something to be processed. -/
def Act.ceiling : Act → Nat
  | .send _ => sendRank
  | .answerRouterQuery _ => 2
  | .answerSegmentQuery _ => 2
  | _ => 0

theorem Act.ceiling_le (act : Act) : act.ceiling ≤ sendRank := by
  cases act <;> simp [ceiling, sendRank]

/-- What handing a frame to a station leaves to be processed is below the rank of the frame. -/
theorem Directory.below_handing {d : Directory} (h : d.Routed) (f : LinkFrame) (id : NodeId) :
    Below (frameRank f.data) (d.handing f id) := by
  refine Below.cons_of_ranks_eq_nil rfl ?_
  cases hm : d.member? id with
  | none => exact Below.nil
  | some m =>
    obtain ⟨s, hs, rfl⟩ := Option.map_eq_some_iff.mp hm
    exact below_receive h hs f.data f.origin

namespace Dispatcher

variable (d : Dispatcher)

theorem load_execute_le (attempt : Message → Except Failure Unit) (now : Nat) (o : Outgoing) :
    (d.execute attempt now o).1.load ≤ d.load + {0} := by
  have hle : ∀ pending : List (RequestKey × Waiting), pending.length ≤ d.pending.entries.length + 1 →
      Multiset.replicate pending.length 0 ≤ d.load + {0} := by
    intro pending hp
    rw [load, ← Multiset.replicate_one, ← Multiset.replicate_add]
    exact (Multiset.replicate_le_replicate 0).mpr hp
  cases o with
  | message msg => exact hle _ (Nat.le_succ _)
  | request r =>
    have herase : (d.pending.erase (d.key r)).entries.length ≤ d.pending.entries.length :=
      List.length_filter_le _ _
    simp only [execute, ask]
    split
    · exact hle _ (Nat.le_succ_of_le herase)
    · refine hle _ ?_
      simp only [Table.insert, List.length_append, List.length_singleton]
      exact Nat.succ_le_succ herase

theorem load_dispatch_le (e : Envelope) : (d.dispatch e).1.load ≤ d.load := by
  unfold dispatch
  split <;> (try exact le_refl _)
  split
  · exact (Multiset.replicate_le_replicate 0).mpr (List.length_filter_le _ _)
  · exact le_refl _

theorem load_sweep_add_le {now : Nat} (h : d.overdue now ≠ []) :
    (d.sweep now).1.load + {0} ≤ d.load := by
  obtain ⟨w, hw⟩ := List.exists_mem_of_ne_nil _ h
  simp only [overdue, Table.values, List.mem_filter, List.mem_map, decide_eq_true_eq] at hw
  obtain ⟨⟨entry, hentry, rfl⟩, hlate⟩ := hw
  have hlt : (d.pending.entries.filter fun e => now < e.2.deadline).length
      < d.pending.entries.length := by
    refine List.length_filter_lt_length_iff_exists.mpr ⟨entry, hentry, ?_⟩
    simpa using hlate
  rw [← Multiset.replicate_one, sweep, load, load, ← Multiset.replicate_add]
  exact (Multiset.replicate_le_replicate 0).mpr hlt

theorem ceiling_of_mem_sweep (now : Nat) : ∀ act ∈ (d.sweep now).2, act.ceiling ≤ 0 := by
  intro act hm
  obtain ⟨w, -, rfl⟩ := List.mem_map.mp hm
  exact Nat.le_refl 0

/-- Only queries are answered: what else is dispatched is taken note of or ends a request. -/
theorem ceiling_of_mem_dispatch (quiet : ∀ e, d.application.respond e = []) (e : Envelope) :
    ∀ act ∈ (d.dispatch e).2, act.ceiling ≤ e.rank := by
  unfold dispatch
  split
  · rename_i hm
    simp [Act.ceiling, Envelope.rank, hm, MessageKind.isQuery]
  · unfold learn
    split
    · simp [Act.ceiling]
    · simp
  · rename_i hm
    simp [Act.ceiling, Envelope.rank, hm, MessageKind.isQuery]
  · split
    · simp [Act.ceiling]
    · simp [handUp, quiet, Act.ceiling]

end Dispatcher

namespace Shared

variable (t : Shared) (attempt : Message → Except Failure Unit) (now : Nat)

theorem load_run_le (job : Job) : ∃ added : Multiset Nat, (∀ r ∈ added, r < job.rank) ∧
    (t.run attempt now job).1.dispatcher.load ≤ t.dispatcher.load + added := by
  cases job with
  | execute o =>
    exact ⟨{0}, by simp [Job.rank, sendRank], t.dispatcher.load_execute_le attempt now o⟩
  | dispatch e =>
    refine ⟨0, by simp, ?_⟩
    rw [add_zero]
    exact t.dispatcher.load_dispatch_le e

theorem ceiling_of_mem_run (quiet : ∀ e, t.dispatcher.application.respond e = []) (job : Job) :
    ∀ act ∈ (t.run attempt now job).2, act.ceiling ≤ job.rank := by
  cases job with
  | execute o => exact fun act _ => act.ceiling_le
  | dispatch e => exact t.dispatcher.ceiling_of_mem_dispatch quiet e

end Shared

namespace Network

/-- No application answers what it is handed. -/
def Quiet (net : Network) : Prop :=
  ∀ (id : NodeId) (setup : Setup) (application : Application) (running : Bool),
    net.setup? id = some setup → setup.application = some (application, running) →
    ∀ e, application.respond e = []

namespace Quiet

variable {net net' : Network} {id : NodeId}

theorem of_keepsSetup (h : net.Quiet) (keeps : net.KeepsSetup net') : net'.Quiet := by
  intro id setup application running hs
  rw [keeps.setup] at hs
  exact h id setup application running hs

theorem dedicated (h : net.Quiet) {t : Dedicated} (ht : net.dedicated? id = some t) :
    ∀ e, t.dispatcher.application.respond e = [] := by
  obtain ⟨n, hn, hc⟩ := dedicated?_eq_some_iff.mp ht
  refine h id n.setup _ t.running ?_ ?_
  · rw [setup?, hn, Option.map_some]
  · simp only [Node.setup, hc, Option.bind_some, Consumer.setup?]

theorem shared (h : net.Quiet) {pool : PoolId} {t : Shared} (ht : net.shared? id = some (pool, t)) :
    ∀ e, t.dispatcher.application.respond e = [] := by
  obtain ⟨n, hn, hc⟩ := shared?_eq_some_iff.mp ht
  refine h id n.setup _ false ?_ ?_
  · rw [setup?, hn, Option.map_some]
  · simp only [Node.setup, hc, Option.bind_some, Consumer.setup?]

end Quiet

/-- The ranks of all that waits in a network. -/
def load (net : Network) : Multiset Nat :=
  (net.links.map Link.load).sum + (net.nodes.map fun n => (n.map Node.load).getD 0).sum
    + (net.pools.map Pool.load).sum

/-! ## The load after a change -/

/-- Changing one member of a list changes the sum over it by what that member changes. -/
theorem sum_mapIdx_modify {α β : Type} [AddCommMonoid β] (g : Nat → α → β) {xs : List α} {i : Nat}
    {x : α} (h : xs[i]? = some x) (f : α → α) :
    ((xs.modify i f).mapIdx g).sum + g i x = (xs.mapIdx g).sum + g i (f x) := by
  induction xs generalizing i g with
  | nil => simp at h
  | cons y ys ih =>
    cases i with
    | zero =>
      cases h
      simp only [List.modify_zero_cons, List.mapIdx_cons, List.sum_cons]
      ac_rfl
    | succ i =>
      have hi := ih (fun j => g (j + 1)) h
      simp only [List.modify_succ_cons, List.mapIdx_cons, List.sum_cons, add_assoc, hi]

/-- What links, nodes and pools amount to in all. -/
def total {β : Type} [AddCommMonoid β] (net : Network) (link : LinkId → Link → β)
    (node : NodeId → Node → β) (pool : PoolId → Pool → β) : β :=
  (net.links.mapIdx link).sum + (net.nodes.mapIdx fun id n => (n.map (node id)).getD 0).sum
    + (net.pools.mapIdx pool).sum

section

variable {β : Type} [AddCommMonoid β] {link : LinkId → Link → β} {node : NodeId → Node → β}
  {pool : PoolId → Pool → β}

theorem total_modifyLink {net : Network} {k : LinkId} {l : Link} (h : net.link? k = some l)
    (f : Link → Link) : (net.modifyLink k f).total link node pool + link k l =
      net.total link node pool + link k (f l) := by
  have hs := sum_mapIdx_modify link h f
  have he : (net.modifyLink k f).total link node pool + link k l =
      (((net.links.modify k f).mapIdx link).sum + link k l)
        + (net.nodes.mapIdx fun id n => (n.map (node id)).getD 0).sum
        + (net.pools.mapIdx pool).sum := by
    simp only [total, modifyLink]
    ac_rfl
  rw [he, hs, total]
  ac_rfl

theorem total_modifyPool {net : Network} {id : PoolId} {p : Pool} (h : net.pool? id = some p)
    (f : Pool → Pool) : (net.modifyPool id f).total link node pool + pool id p =
      net.total link node pool + pool id (f p) := by
  have hs := sum_mapIdx_modify pool h f
  have he : (net.modifyPool id f).total link node pool + pool id p = (net.links.mapIdx link).sum
      + (net.nodes.mapIdx fun id n => (n.map (node id)).getD 0).sum
      + (((net.pools.modify id f).mapIdx pool).sum + pool id p) := by
    simp only [total, modifyPool]
    ac_rfl
  rw [he, hs, total]
  ac_rfl

theorem total_modifyNode {net : Network} {id : NodeId} {n : Node} (h : net.node? id = some n)
    (f : Node → Node) : (net.modifyNode id f).total link node pool + node id n =
      net.total link node pool + node id (f n) := by
  have hn : net.nodes[id]? = some (some n) := by simpa only [node?, Option.join_eq_some_iff] using h
  have hs := sum_mapIdx_modify (fun id n => (Option.map (node id) n).getD 0) hn (Option.map f)
  simp only [Option.map_some, Option.getD_some] at hs
  have he : (net.modifyNode id f).total link node pool + node id n = (net.links.mapIdx link).sum
      + (((net.nodes.modify id (Option.map f)).mapIdx fun id n => (n.map (node id)).getD 0).sum
        + node id n)
      + (net.pools.mapIdx pool).sum := by
    simp only [total, modifyNode]
    ac_rfl
  rw [he, hs, total]
  ac_rfl

end

theorem load_eq_total (net : Network) :
    net.load = net.total (fun _ => Link.load) (fun _ => Node.load) fun _ => Pool.load := by
  have hmap : ∀ {α : Type} (g : α → Multiset Nat) (xs : List α), xs.map g = xs.mapIdx fun _ => g :=
    fun g xs => List.ext_getElem? fun i => by simp
  simp only [load, total, hmap]

theorem load_modifyLink {net : Network} {k : LinkId} {l : Link} (h : net.link? k = some l)
    (f : Link → Link) : (net.modifyLink k f).load + l.load = net.load + (f l).load := by
  rw [load_eq_total, load_eq_total]
  exact total_modifyLink h f

theorem load_modifyPool {net : Network} {id : PoolId} {p : Pool} (h : net.pool? id = some p)
    (f : Pool → Pool) : (net.modifyPool id f).load + p.load = net.load + (f p).load := by
  rw [load_eq_total, load_eq_total]
  exact total_modifyPool h f

theorem load_modifyNode {net : Network} {id : NodeId} {n : Node} (h : net.node? id = some n)
    (f : Node → Node) : (net.modifyNode id f).load + n.load = net.load + (f n).load := by
  rw [load_eq_total, load_eq_total]
  exact total_modifyNode h f

/-- A change to a node that is not there changes nothing. -/
theorem modifyNode_of_none {net : Network} {id : NodeId} (h : net.node? id = none)
    (f : Node → Node) : net.modifyNode id f = net := by
  have hm : net.nodes.modify id (Option.map f) = net.nodes := by
    apply List.ext_getElem?
    intro i
    rw [List.getElem?_modify]
    split
    · rename_i hi
      subst hi
      simp only [node?] at h
      rcases hn : net.nodes[id]? with _ | (_ | n)
      · rfl
      · rfl
      · simp [hn] at h
    · exact id_map net.nodes[i]?
  simp only [modifyNode, hm]

/-- A change that keeps the consumer of a node keeps the load. -/
theorem load_modifyNode_of_consumer_eq (net : Network) (id : NodeId) {f : Node → Node}
    (h : ∀ n, (f n).consumer = n.consumer) : (net.modifyNode id f).load = net.load := by
  cases hn : net.node? id with
  | none => rw [modifyNode_of_none hn]
  | some n =>
    have hl := load_modifyNode hn f
    have hf : (f n).load = n.load := by rw [Node.load, h, Node.load]
    rw [hf] at hl
    exact add_right_cancel hl

/-- The load after a node was given another consumer. -/
theorem load_setConsumer {net : Network} {id : NodeId} {n : Node} {c : Consumer}
    (hn : net.node? id = some n) (hc : n.consumer = some c) (c' : Consumer) :
    (net.setConsumer id (some c')).load + c.load = net.load + c'.load := by
  have hl := load_modifyNode hn fun n => { n with consumer := some c' }
  have hn : n.load = c.load := by rw [Node.load, hc, Option.map_some, Option.getD_some]
  rw [hn] at hl
  exact hl

/-! ## What events and acts add -/

/-- The load grows by nothing but ranks below a given one. -/
def Gains (rank : Nat) (net net' : Network) : Prop :=
  ∃ added : Multiset Nat, (∀ r ∈ added, r < rank) ∧ net'.load ≤ net.load + added

theorem gains_of_load_eq {rank : Nat} {net net' : Network} (h : net'.load = net.load) :
    Gains rank net net' :=
  ⟨0, by simp, by rw [h, add_zero]⟩

theorem Gains.refl {rank : Nat} {net : Network} : Gains rank net net := gains_of_load_eq rfl

theorem Gains.trans {rank : Nat} {net net' net'' : Network} (h : Gains rank net net')
    (h' : Gains rank net' net'') : Gains rank net net'' := by
  obtain ⟨added, hr, hl⟩ := h
  obtain ⟨added', hr', hl'⟩ := h'
  refine ⟨added + added', ?_, ?_⟩
  · intro r hm
    exact (Multiset.mem_add.mp hm).elim (hr r) (hr' r)
  · calc net''.load ≤ net'.load + added' := hl'
      _ ≤ net.load + added + added' := add_le_add_left hl added'
      _ = net.load + (added + added') := add_assoc ..

theorem Gains.mono {rank rank' : Nat} {net net' : Network} (h : Gains rank net net')
    (hle : rank ≤ rank') : Gains rank' net net' := by
  obtain ⟨added, hr, hl⟩ := h
  exact ⟨added, fun r hm => Nat.lt_of_lt_of_le (hr r hm) hle, hl⟩

/-- A change that adds one rank. -/
theorem gains_of_load_eq_add {rank r : Nat} {net net' : Network} (h : net'.load = net.load + {r})
    (hr : r < rank) : Gains rank net net' :=
  ⟨{r}, by simpa using hr, le_of_eq h⟩

theorem gains_setConsumer {rank r : Nat} {net : Network} {id : NodeId} {n : Node} {c c' : Consumer}
    (hn : net.node? id = some n) (hc : n.consumer = some c) (h : c'.load = c.load + {r})
    (hr : r < rank) : Gains rank net (net.setConsumer id (some c')) := by
  refine gains_of_load_eq_add ?_ hr
  have hl := load_setConsumer hn hc c'
  rw [h, add_comm c.load, ← add_assoc] at hl
  exact add_right_cancel hl

/-- A job that is queued adds its rank, and one that is not adds nothing. -/
theorem gains_spawn {rank : Nat} (net : Network) (pool : PoolId) (owner : NodeId) {job : Nat × Job}
    (hr : job.2.rank < rank) : Gains rank net (net.spawn pool owner job) := by
  cases hp : net.pool? pool with
  | none =>
    have hm : net.pools.modify pool (fun p => p.spawn job.1 ⟨owner, job.2⟩) = net.pools := by
      apply List.modify_eq_self
      simpa [pool?] using hp
    have he : net.spawn pool owner job = net := by simp only [spawn, modifyPool, hm]
    rw [he]
    exact Gains.refl
  | some p =>
    have hl := load_modifyPool hp fun p => p.spawn job.1 ⟨owner, job.2⟩
    by_cases hs : p.executors = some job.1
    · have hload : (p.spawn job.1 ⟨owner, job.2⟩).load = p.load + {job.2.rank} := by
        simp [Pool.spawn, hs, Pool.load, ← Multiset.coe_add]
      rw [hload, add_comm p.load, ← add_assoc] at hl
      exact gains_of_load_eq_add (add_right_cancel hl) hr
    · have hload : p.spawn job.1 ⟨owner, job.2⟩ = p := by simp [Pool.spawn, hs]
      rw [hload] at hl
      exact gains_of_load_eq (add_right_cancel hl)

/-- A consumer that is handed an envelope has at most the envelope to work on. -/
theorem gains_consume {rank : Nat} {net : Network} {id : NodeId} {n : Node} {c : Consumer}
    {e : Envelope} (hn : net.node? id = some n) (hc : n.consumer = some c) (hr : e.rank < rank) :
    Gains rank net (net.consume id e c) := by
  cases c with
  | collector items => exact gains_of_load_eq (load_modifyNode_of_consumer_eq net id fun _ => rfl)
  | dedicated t =>
    by_cases hclosed : t.closed = true
    · have he : net.consume id e (.dedicated t) = net := by
        rw [consume, Dedicated.deliver_of_closed hclosed]
        exact setConsumer_self hn hc
      rw [he]
      exact Gains.refl
    · refine gains_setConsumer hn hc ?_ hr
      simp [Consumer.load, Dedicated.load, Dedicated.deliver, hclosed, ← Multiset.coe_add]
      ac_rfl
  | shared pool t =>
    unfold consume
    dsimp only
    split
    · rename_i job hj
      obtain ⟨g, -, rfl⟩ := Option.map_eq_some_iff.mp hj
      exact gains_spawn net pool id hr
    · exact Gains.refl

theorem load_count (net : Network) (id : NodeId) (f : FrameCounts → FrameCounts) :
    (net.count id f).load = net.load :=
  load_modifyNode_of_consumer_eq net id fun _ => rfl

/-- An envelope that reaches its node leaves at most itself to be processed. -/
theorem gains_arrive {rank : Nat} (net : Network) (id : NodeId) {e : Envelope} (hr : e.rank < rank) :
    Gains rank net (net.arrive id e) := by
  unfold arrive
  split
  · exact gains_of_load_eq (load_count net id _)
  · rename_i c hc
    obtain ⟨n, hn, hc⟩ := Option.bind_eq_some_iff.mp hc
    have hn' : (net.count id fun c => { c with delivered := c.delivered + 1 }).node? id = some
        { n with counts := { n.counts with delivered := n.counts.delivered + 1 } } := by
      rw [count, node?_modifyNode, if_pos rfl, hn, Option.map_some]
    exact (gains_of_load_eq (load_count net id _)).trans (gains_consume hn' hc hr)

/-- A frame that a link accepts adds its rank; without the link it is lost. -/
theorem gains_accept {rank : Nat} (net : Network) (k : LinkId) (origin : Bytes) {t : Transmission}
    (hr : frameRank t.frame < rank) :
    Gains rank net (net.modifyLink k fun l => l.accept origin t) := by
  cases hl : net.link? k with
  | none =>
    have hm : net.links.modify k (fun l => l.accept origin t) = net.links := by
      apply List.modify_eq_self
      simpa [link?] using hl
    have he : net.modifyLink k (fun l => l.accept origin t) = net := by simp only [modifyLink, hm]
    rw [he]
    exact Gains.refl
  | some l =>
    have hload := load_modifyLink hl fun l => l.accept origin t
    have ha : (l.accept origin t).load = l.load + {frameRank t.frame} := by
      simp [Link.load, ← Multiset.coe_add]
    rw [ha, add_comm l.load, ← add_assoc] at hload
    exact gains_of_load_eq_add (add_right_cancel hload) hr

/-- An event adds what it leaves to be processed. -/
theorem gains_apply {rank : Nat} (net : Network) {event : Event} (h : ∀ r ∈ event.ranks, r < rank) :
    Gains rank net (net.apply event) := by
  cases event with
  | handed id length =>
    refine gains_of_load_eq (load_modifyNode_of_consumer_eq net id fun n => ?_)
    split <;> rfl
  | received id => exact gains_of_load_eq (load_count net id _)
  | dropped id => exact gains_of_load_eq (load_count net id _)
  | arrived id e =>
    exact gains_arrive net id (h e.rank (List.mem_singleton_self _))
  | relayed source target ingress recipient e broadcast =>
    exact gains_of_load_eq (load_count net source _)
  | transmitted id t =>
    have hr : frameRank t.frame < rank := h _ (List.mem_singleton_self _)
    unfold apply transmit
    dsimp only
    split
    · exact Gains.refl
    · rename_i n hn
      split
      · exact gains_of_load_eq (load_modifyNode_of_consumer_eq net id fun _ => rfl)
      · rename_i k counts hm
        refine Gains.trans ?_ (gains_accept _ k n.station.attachment.mac hr)
        exact gains_of_load_eq (load_modifyNode_of_consumer_eq net id fun _ => rfl)
  | reported id fault =>
    refine gains_of_load_eq (load_modifyNode_of_consumer_eq net id fun n => ?_)
    split <;> rfl

/-- Events add what they leave to be processed. -/
theorem gains_applyAll {rank : Nat} (net : Network) {events : List Event} (h : Below rank events) :
    Gains rank net (net.applyAll events) := by
  induction events generalizing net with
  | nil => exact Gains.refl
  | cons event rest ih =>
    have hevent := h event List.mem_cons_self
    have hrest : Below rank rest := fun event' hm => h event' (List.mem_cons_of_mem _ hm)
    exact (gains_apply net hevent).trans (ih (net.apply event) hrest)

/-- A call adds what it leaves to be processed. -/
theorem gains_call {rank : Nat} {net : Network} {id : NodeId} {f : Directory → Member → Run}
    (h : ∀ m, net.directory m.id = some m.station → Below rank (f net.directory m).events) :
    Gains rank net (net.call id f).2 := by
  unfold call
  split
  · exact Gains.refl
  · rename_i m hm
    obtain ⟨s, hs, rfl⟩ := Option.map_eq_some_iff.mp hm
    exact gains_applyAll net (h _ hs)

/-- What an act leaves to be processed is below its ceiling. -/
theorem gains_perform {rank : Nat} {net : Network} (h : net.Routed) (id : NodeId) {act : Act}
    (hr : act.ceiling ≤ rank) : Gains rank net (net.perform id act) := by
  cases act with
  | send msg => exact (gains_call fun m _ => Below.sendRank _).mono hr
  | answerRouterQuery e =>
    exact (gains_call fun m hm => Directory.below_answerRouterQuery h.directory hm e).mono hr
  | answerSegmentQuery e =>
    exact (gains_call fun m hm => Directory.below_answerSegmentQuery h.directory hm e).mono hr
  | learn mac segments => exact gains_of_load_eq (load_modifyNode_of_consumer_eq net id fun _ => rfl)
  | note e => exact gains_of_load_eq (load_modifyNode_of_consumer_eq net id fun _ => rfl)
  | resolve ticket outcome =>
    exact gains_of_load_eq (load_modifyNode_of_consumer_eq net id fun _ => rfl)

theorem gains_performAll {rank : Nat} {net : Network} (h : net.Routed) (id : NodeId)
    {acts : List Act} (hr : ∀ act ∈ acts, act.ceiling ≤ rank) :
    Gains rank net (net.performAll id acts) := by
  induction acts generalizing net with
  | nil => exact Gains.refl
  | cons act rest ih =>
    have hkeeps := (keepsSetup_perform id net act).keepsRoutes
    have hrest : ∀ act ∈ rest, act.ceiling ≤ rank := fun act hm => hr act (List.mem_cons_of_mem _ hm)
    exact (gains_perform h id (hr act List.mem_cons_self)).trans (ih (h.of_keepsRoutes hkeeps) hrest)

/-! ## Steps lower the load -/

/-- One rank is replaced by lower ones. -/
def Spends (rank : Nat) (net net' : Network) : Prop :=
  ∃ added : Multiset Nat, (∀ r ∈ added, r < rank) ∧ net'.load + {rank} ≤ net.load + added

theorem Spends.trans_gains {rank : Nat} {net net' net'' : Network} (h : Spends rank net net')
    (h' : Gains rank net' net'') : Spends rank net net'' := by
  obtain ⟨added, hr, hl⟩ := h
  obtain ⟨added', hr', hl'⟩ := h'
  refine ⟨added + added', ?_, ?_⟩
  · intro r hm
    exact (Multiset.mem_add.mp hm).elim (hr r) (hr' r)
  · calc net''.load + {rank} ≤ net'.load + added' + {rank} := add_le_add_left hl' _
      _ = net'.load + {rank} + added' := by ac_rfl
      _ ≤ net.load + added + added' := add_le_add_left hl added'
      _ = net.load + (added + added') := add_assoc ..

/-- To replace a rank by lower ones lowers the load. -/
theorem Spends.load_lt {rank : Nat} {net net' : Network} (h : Spends rank net net') :
    Multiset.IsDershowitzMannaLT net'.load net.load := by
  obtain ⟨added, hr, hl⟩ := h
  have hcount (r : Nat) :
      net'.load.count r + Multiset.count r {rank} ≤ net.load.count r + added.count r := by
    simpa only [Multiset.count_add] using Multiset.le_iff_count.mp hl r
  -- The rank itself is none of those that are added, so there is one less of it.
  have hspent : rank ∈ net.load - net'.load := by
    have ha : added.count rank = 0 := Multiset.count_eq_zero.mpr fun hm => Nat.lt_irrefl _ (hr _ hm)
    have hc := hcount rank
    rw [Multiset.count_singleton_self] at hc
    rw [← Multiset.count_pos, Multiset.count_sub]
    omega
  have hadded : ∀ r ∈ net'.load - net.load, r < rank := by
    intro r hm
    have hc := hcount r
    rw [← Multiset.count_pos, Multiset.count_sub] at hm
    exact hr r (Multiset.count_pos.mp (by omega))
  refine ⟨net'.load ∩ net.load, net'.load - net.load, net.load - net'.load, ?_, ?_, ?_, ?_⟩
  · intro he
    rw [he] at hspent
    exact Multiset.notMem_zero _ hspent
  · rw [add_comm, Multiset.sub_add_inter]
  · rw [add_comm, Multiset.inter_comm, Multiset.sub_add_inter]
  · intro r hm
    exact ⟨rank, hspent, hadded r hm⟩

/-- What a transport does spends a rank if the transport itself does and acts below it. -/
theorem spends_stepDedicated {rank : Nat} {net : Network} (h : net.Routed) {id : NodeId}
    {t : Dedicated} {step : Dedicated → Dedicated × List Act}
    (transport : net.dedicated? id = some t)
    (setup : (Consumer.dedicated (step t).1).setup? = (Consumer.dedicated t).setup?)
    (added : Multiset Nat) (below : ∀ r ∈ added, r < rank)
    (load : (step t).1.load + {rank} ≤ t.load + added)
    (acts : ∀ act ∈ (step t).2, act.ceiling ≤ rank) :
    Spends rank net (net.stepDedicated id step) := by
  obtain ⟨n, hn, hc⟩ := dedicated?_eq_some_iff.mp transport
  have hkeeps : net.KeepsSetup (net.setConsumer id (some (.dedicated (step t).1))) :=
    keepsSetup_setConsumer (by rw [hn, Option.bind_some, hc]) setup
  have hl := load_setConsumer hn hc (.dedicated (step t).1)
  have hs : Spends rank net (net.setConsumer id (some (.dedicated (step t).1))) := by
    refine ⟨added, below, ?_⟩
    refine le_of_add_le_add_right (a := t.load) ?_
    calc (net.setConsumer id (some (.dedicated (step t).1))).load + {rank} + t.load
        = (net.setConsumer id (some (.dedicated (step t).1))).load + t.load + {rank} := by ac_rfl
      _ = net.load + (step t).1.load + {rank} := congrArg (· + {rank}) hl
      _ = net.load + ((step t).1.load + {rank}) := add_assoc ..
      _ ≤ net.load + (t.load + added) := add_le_add_right load _
      _ = net.load + added + t.load := by ac_rfl
  simp only [stepDedicated, transport]
  exact hs.trans_gains (gains_performAll (h.of_keepsRoutes hkeeps.keepsRoutes) id acts)

/-- A job does not need its rank any more. -/
theorem spends_doTask {net : Network} (h : net.Routed) (quiet : net.Quiet) {id : PoolId} {p : Pool}
    {before after : List Task} {task : Task} (now : Nat) (pool : net.pool? id = some p)
    (tasks : p.tasks.toList = before ++ task :: after) :
    Spends task.job.rank net
      ((net.modifyPool id fun p => { p with tasks := ⟨before ++ after⟩ }).doTask now task) := by
  have hl := load_modifyPool pool fun p => { p with tasks := ⟨before ++ after⟩ }
  have hp : p.load = Pool.load { p with tasks := ⟨before ++ after⟩ } + {task.job.rank} := by
    simp only [Pool.load, tasks, List.map_append, List.map_cons]
    rw [← Multiset.coe_singleton, Multiset.coe_add, Multiset.coe_eq_coe, List.append_assoc]
    exact List.Perm.append_left _ (List.perm_append_singleton _ _).symm
  have hkeeps := keepsSetup_modifyPool net id fun p => { p with tasks := ⟨before ++ after⟩ }
  generalize (net.modifyPool id fun p => { p with tasks := ⟨before ++ after⟩ }) = taken at hl hkeeps ⊢
  have hspent : Spends task.job.rank net taken := by
    refine ⟨0, by simp, le_of_eq ?_⟩
    rw [hp, add_comm (Pool.load _) {task.job.rank}, ← add_assoc] at hl
    rw [add_zero]
    exact add_right_cancel hl
  refine hspent.trans_gains ?_
  unfold doTask
  split
  · exact Gains.refl
  · rename_i pool' t ht
    obtain ⟨n, hn, hc⟩ := shared?_eq_some_iff.mp ht
    have hquiet : ∀ e, t.dispatcher.application.respond e = [] :=
      Quiet.shared (quiet.of_keepsSetup hkeeps) ht
    obtain ⟨added, hr, hadded⟩ := t.load_run_le (taken.attempt task.owner) now task.job
    have hacts := t.ceiling_of_mem_run (taken.attempt task.owner) now hquiet task.job
    have hsetup := t.application_run (taken.attempt task.owner) now task.job
    generalize t.run (taken.attempt task.owner) now task.job = done at hadded hacts hsetup ⊢
    have hset : Gains task.job.rank taken
        (taken.setConsumer task.owner (some (.shared pool' done.1))) := by
      refine ⟨added, hr, le_of_add_le_add_right (a := t.dispatcher.load) ?_⟩
      have hl := load_setConsumer hn hc (.shared pool' done.1)
      calc (taken.setConsumer task.owner (some (.shared pool' done.1))).load + t.dispatcher.load
          = taken.load + done.1.dispatcher.load := hl
        _ ≤ taken.load + (t.dispatcher.load + added) := add_le_add_right hadded _
        _ = taken.load + added + t.dispatcher.load := by ac_rfl
    have hkept : taken.KeepsSetup (taken.setConsumer task.owner (some (.shared pool' done.1))) :=
      keepsSetup_setConsumer (c := .shared pool' t) (by rw [hn, Option.bind_some, hc])
        (congrArg (fun a => some (a, false)) hsetup)
    exact hset.trans (gains_performAll ((h.of_keepsRoutes hkeeps.keepsRoutes).of_keepsRoutes
      hkept.keepsRoutes) task.owner hacts)

/-- A frame that is handed out is gone from its link, and leaves only what is below its rank. -/
theorem spends_handsOut {net net' : Network} (h : net.Routed) {k : LinkId} {events : List Event}
    (hs : net.HandsOut k events net') : ∃ rank, Spends rank net net' := by
  cases hs with
  | @intro l f queue order link running pop recipients =>
    refine ⟨frameRank f.data, ?_⟩
    have hl := load_modifyLink link fun l => { l with queue }
    have hq : l.load = Link.load { l with queue } + {frameRank f.data} := by
      simp only [Link.load, Mailbox.pop_eq_some_iff.mp pop, List.map_cons]
      rw [← Multiset.coe_singleton, Multiset.coe_add, Multiset.coe_eq_coe]
      exact (List.perm_append_singleton _ _).symm
    have hspent : Spends (frameRank f.data) net (net.modifyLink k fun l => { l with queue }) := by
      refine ⟨0, by simp, le_of_eq ?_⟩
      rw [hq, add_comm (Link.load _) {frameRank f.data}, ← add_assoc] at hl
      rw [add_zero]
      exact add_right_cancel hl
    have hbelow : Below (frameRank f.data) (order.flatMap (net.directory.handing f)) :=
      Below.flatMap fun id _ => Directory.below_handing h.directory f id
    exact hspent.trans_gains (gains_applyAll _ hbelow)

/-- A step takes something that waits and leaves only what has a lower rank. -/
theorem Step.exists_spends {net net' : Network} (hs : net.Step net') (h : net.Routed)
    (quiet : net.Quiet) : ∃ rank, Spends rank net net' := by
  cases hs with
  | handsOut hs => exact spends_handsOut h hs
  | @executes id t now transport running waits =>
    obtain ⟨o, rest, ho⟩ := List.exists_cons_of_ne_nil waits
    have hpop : t.outgoing.pop = some (o, ⟨rest⟩) := Mailbox.pop_eq_some_iff.mpr ho
    refine ⟨sendRank, spends_stepDedicated h transport (t.setup?_executeNext _ now)
      {0} (by simp [sendRank]) ?_ fun act _ => act.ceiling_le⟩
    have hd := t.dispatcher.load_execute_le (net.attempt id) now o
    simp only [Dedicated.executeNext, hpop, Dedicated.load, ho, List.length_cons,
      Multiset.replicate_succ, ← Multiset.singleton_add]
    calc Multiset.replicate rest.length sendRank + (t.incoming.toList.map Envelope.rank : List Nat)
          + (t.dispatcher.execute (net.attempt id) now o).1.load + {sendRank}
        ≤ Multiset.replicate rest.length sendRank + (t.incoming.toList.map Envelope.rank : List Nat)
          + (t.dispatcher.load + {0}) + {sendRank} := by gcongr
      _ = {sendRank} + Multiset.replicate rest.length sendRank
          + (t.incoming.toList.map Envelope.rank : List Nat) + t.dispatcher.load + {0} := by ac_rfl
  | @dispatches id t transport running waits =>
    obtain ⟨e, rest, he⟩ := List.exists_cons_of_ne_nil waits
    have hpop : t.incoming.pop = some (e, ⟨rest⟩) := Mailbox.pop_eq_some_iff.mpr he
    have hquiet : ∀ e, t.dispatcher.application.respond e = [] := quiet.dedicated transport
    refine ⟨e.rank, spends_stepDedicated h transport t.setup?_dispatchNext 0 (by simp)
      ?_ ?_⟩
    · have hd := t.dispatcher.load_dispatch_le e
      simp only [Dedicated.dispatchNext, hpop, Dedicated.load, he, List.map_cons,
        ← Multiset.cons_coe, ← Multiset.singleton_add, add_zero]
      calc Multiset.replicate t.outgoing.toList.length sendRank + (rest.map Envelope.rank : List Nat)
            + (t.dispatcher.dispatch e).1.load + {e.rank}
          ≤ Multiset.replicate t.outgoing.toList.length sendRank
            + (rest.map Envelope.rank : List Nat) + t.dispatcher.load + {e.rank} := by gcongr
        _ = Multiset.replicate t.outgoing.toList.length sendRank
            + ({e.rank} + (rest.map Envelope.rank : List Nat)) + t.dispatcher.load := by ac_rfl
    · simp only [Dedicated.dispatchNext, hpop]
      exact t.dispatcher.ceiling_of_mem_dispatch hquiet e
  | @sweeps id t now transport running overdue =>
    refine ⟨0, spends_stepDedicated h transport rfl 0 (by simp) ?_ ?_⟩
    · have hd := t.dispatcher.load_sweep_add_le overdue
      simp only [Dedicated.sweep, Dedicated.load, add_zero, add_assoc] at hd ⊢
      gcongr
    · exact t.dispatcher.ceiling_of_mem_sweep now
  | @runs id p before after task now pool tasks =>
    exact ⟨_, spends_doTask h quiet now pool tasks⟩

end Network

end Fieldbus
