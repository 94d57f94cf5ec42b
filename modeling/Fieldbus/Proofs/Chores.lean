import Mathlib.Logic.Function.Basic
import Fieldbus.Proofs.Wiring

/-!
# Chores

Whatever waits for a worker in a network is a chore: a frame on a link or a job of a transport.
Which chores an event leaves depends on the wiring and on who works for which node
(`Network.site`), none of which events change, and what a transport does is entered in the account
of its node. Main statements: events leave the chores that the site says and nothing else that
matters to chores (`posts_applyAll`), and acts do so too and are entered in the account of their
node (`performs_performAll`).
-/

namespace Fieldbus

/-- Something that waits for a worker. -/
inductive Chore where
  /-- A frame waits on a link. -/
  | frame (link : LinkId) (f : LinkFrame)
  /-- A job waits for a worker. -/
  | job (worker : Worker) (task : Task)

/-- The worker that a chore waits for. -/
def Chore.worker : Chore → Worker
  | frame link _ => .link link
  | job worker _ => worker

/-- The frames that wait on a link. -/
def Link.chores (k : LinkId) (l : Link) : Multiset Chore := ↑(l.queue.toList.map (Chore.frame k))

/-- The jobs that wait at a transport with a worker of its own. -/
def Dedicated.chores (id : NodeId) (t : Dedicated) : Multiset Chore :=
  ↑(t.outgoing.toList.map fun o => Chore.job (.transport id) ⟨id, .execute o⟩)
    + ↑(t.incoming.toList.map fun e => Chore.job (.transport id) ⟨id, .dispatch e⟩)

/-- The jobs that wait at a consumer. -/
def Consumer.chores (id : NodeId) : Consumer → Multiset Chore
  | .dedicated t => t.chores id
  | _ => 0

/-- The jobs that wait at a node. -/
def Node.chores (id : NodeId) (n : Node) : Multiset Chore :=
  (n.consumer.map (Consumer.chores id)).getD 0

/-- The jobs that wait on a pool. -/
def Pool.chores (id : PoolId) (p : Pool) : Multiset Chore := ↑(p.tasks.toList.map (Chore.job (.pool id)))

/-- The worker that does what is delivered to a consumer, if anybody does, given which executors
the pools have. -/
def Consumer.worker? (executors : PoolId → Option Nat) (id : NodeId) : Consumer → Option Worker
  | .collector _ => none
  | .dedicated t => if t.closed then none else some (.transport id)
  | .shared pool t =>
    if t.executors.isSome ∧ executors pool = t.executors then some (.pool pool) else none

/-- A worker of its own works for the consumer. -/
def Consumer.isRunning : Consumer → Bool
  | .dedicated t => t.running
  | _ => false

/-- What dispatches for a consumer; a collector has nothing that does. -/
def Consumer.dispatcher? : Consumer → Option Dispatcher
  | .collector _ => none
  | .dedicated t => some t.dispatcher
  | .shared _ t => some t.dispatcher

/-- What the chores of a network come to, apart from what transports await. -/
structure Site where
  /-- The wiring of the network. -/
  wiring : Wiring
  /-- The worker that does the jobs of a node. -/
  worker? : NodeId → Option Worker
  /-- The nodes for which a worker of their own works. -/
  isRunning : NodeId → Bool

namespace Site

/-- The chore that an event leaves. -/
def posted? (s : Site) : Event → Option Chore
  | .transmitted id t => (s.wiring.posted? (.transmitted id t)).map fun p => .frame p.1 p.2
  | .arrived id e => (s.worker? id).map fun w => .job w ⟨id, .dispatch e⟩
  | _ => none

/-- A worker is there. -/
def isStaffed (s : Site) : Worker → Bool
  | .link k => s.wiring.links[k]?.any Link.running
  | .transport id => s.isRunning id
  | .pool _ => true

/-- The chores that events leave. -/
def posted (s : Site) (events : List Event) : List Chore := events.filterMap s.posted?

/-- Events that leave nothing do not count. -/
theorem posted_cons_of_eq_none {s : Site} {event : Event} (h : s.posted? event = none)
    (events : List Event) : s.posted (event :: events) = s.posted events :=
  List.filterMap_cons_none h

end Site

/-- What the transport of a node has to answer for. -/
structure Account where
  /-- What awaits replies. -/
  dispatcher : Dispatcher
  /-- The outcomes of requests, in the order in which they became known. -/
  outcomes : List (Ticket × Outcome)
  /-- The envelopes that the application took note of. -/
  noted : List Envelope

namespace Account

/-- The account after an act of the transport. -/
def after (a : Account) : Act → Account
  | .note e => { a with noted := a.noted ++ [e] }
  | .resolve ticket outcome => { a with outcomes := a.outcomes ++ [(ticket, outcome)] }
  | _ => a

/-- The account after acts of the transport. -/
def afterAll (a : Account) (acts : List Act) : Account := acts.foldl after a

/-- Acts are no matter of the dispatcher. -/
@[simp] theorem dispatcher_afterAll (a : Account) (acts : List Act) :
    (a.afterAll acts).dispatcher = a.dispatcher := by
  induction acts generalizing a with
  | nil => rfl
  | cons act rest ih =>
    refine (ih (a.after act)).trans ?_
    cases act <;> rfl

/-- Other acts are no matter of the application. -/
theorem noted_afterAll {acts : List Act} (h : ∀ act ∈ acts, ∀ e, act ≠ .note e) (a : Account) :
    (a.afterAll acts).noted = a.noted := by
  induction acts generalizing a with
  | nil => rfl
  | cons act rest ih =>
    obtain ⟨hact, hrest⟩ := List.forall_mem_cons.mp h
    refine (ih hrest (a.after act)).trans ?_
    cases act with
    | note e => exact absurd rfl (hact e)
    | _ => rfl

end Account

/-- What a call at a node makes happen. -/
def Directory.callEvents (d : Directory) (id : NodeId) (f : Directory → Member → Run) : List Event :=
  ((d.member? id).map fun m => (f d m).events).getD []

/-- What an act of the transport at a node makes happen. -/
def Directory.caused (d : Directory) (id : NodeId) : Act → List Event
  | .send msg => d.callEvents id fun d m => d.send m msg
  | .answerRouterQuery e => d.callEvents id fun d m => d.answerRouterQuery m e
  | .answerSegmentQuery e => d.callEvents id fun d m => d.answerSegmentQuery m e
  | _ => []

/-- Sending what the transport of a node wants sent is a call of its station. -/
theorem Directory.caused_send {d : Directory} {m : Member} (hm : d.member? m.id = some m)
    (msg : Message) : d.caused m.id (.send msg) = (d.send m msg).events := by
  rw [caused, callEvents, hm, Option.map_some, Option.getD_some]

/-- The account of a node. -/
def Node.account? (n : Node) : Option Account :=
  (n.consumer.bind Consumer.dispatcher?).map fun dispatcher => ⟨dispatcher, n.outcomes, n.noted⟩

namespace Network

/-- All that waits for workers. -/
def chores (net : Network) : Multiset Chore := net.total Link.chores Node.chores Pool.chores

/-- The executors of a pool. -/
def executors? (net : Network) (pool : PoolId) : Option Nat := (net.pool? pool).bind Pool.executors

/-- The site of a network. -/
def site (net : Network) : Site where
  wiring := net.wiring
  worker? id := (net.node? id).bind fun n => n.consumer.bind (Consumer.worker? net.executors? id)
  isRunning id := (net.node? id).any fun n => n.consumer.any Consumer.isRunning

/-- The account of a node. -/
def account? (net : Network) (id : NodeId) : Option Account := (net.node? id).bind Node.account?

/-! ## What changes leave as it is -/

variable {net net' : Network} {id : NodeId}

theorem site_eq {net net' : Network} (wiring : net'.wiring = net.wiring)
    (worker : net'.site.worker? = net.site.worker?)
    (running : net'.site.isRunning = net.site.isRunning) : net'.site = net.site := by
  show Site.mk _ _ _ = Site.mk _ _ _
  simp only [Site.mk.injEq]
  exact ⟨wiring, worker, running⟩

/-- A change to a node keeps the site if the node stays where it is and keeps its workers. -/
theorem site_modifyNode {f : Node → Node} (station : ∀ n, (f n).station = n.station)
    (tap : ∀ n, net.node? id = some n → (f n).medium.link? = n.medium.link?)
    (worker : ∀ n, net.node? id = some n →
      (f n).consumer.bind (Consumer.worker? net.executors? id) =
        n.consumer.bind (Consumer.worker? net.executors? id))
    (running : ∀ n, net.node? id = some n →
      (f n).consumer.any Consumer.isRunning = n.consumer.any Consumer.isRunning) :
    (net.modifyNode id f).site = net.site := by
  refine site_eq (wiring_modifyNode net id station tap) ?_ ?_
  · funext id'
    simp only [site, node?_modifyNode]
    split
    · rename_i he
      subst he
      cases hn : net.node? id' with
      | none => rfl
      | some n => exact worker n hn
    · rfl
  · funext id'
    simp only [site, node?_modifyNode]
    split
    · rename_i he
      subst he
      cases hn : net.node? id' with
      | none => rfl
      | some n => exact running n hn
    · rfl

theorem account?_modifyNode (net : Network) (id : NodeId) (f : Node → Node) :
    (net.modifyNode id f).account? = Function.update net.account? id
      ((net.node? id).bind fun n => (f n).account?) := by
  funext id'
  simp only [account?, node?_modifyNode, Function.update_apply]
  split
  · rename_i he
    rw [he, Option.bind_map]
    rfl
  · rfl

/-- A change that keeps the account of a node keeps all accounts. -/
theorem account?_modifyNode_of_eq {f : Node → Node}
    (h : ∀ n, net.node? id = some n → (f n).account? = n.account?) :
    (net.modifyNode id f).account? = net.account? := by
  rw [account?_modifyNode, Function.update_eq_self_iff, account?]
  cases hn : net.node? id with
  | none => rfl
  | some n => exact h n hn

theorem chores_modifyLink {k : LinkId} {l : Link} (h : net.link? k = some l) (f : Link → Link) :
    (net.modifyLink k f).chores + l.chores k = net.chores + (f l).chores k := total_modifyLink h f

theorem chores_modifyPool {pool : PoolId} {p : Pool} (h : net.pool? pool = some p)
    (f : Pool → Pool) : (net.modifyPool pool f).chores + p.chores pool = net.chores + (f p).chores pool :=
  total_modifyPool h f

theorem chores_modifyNode {n : Node} (h : net.node? id = some n) (f : Node → Node) :
    (net.modifyNode id f).chores + n.chores id = net.chores + (f n).chores id := total_modifyNode h f

/-- A change that keeps the consumer of a node keeps what waits there. -/
theorem chores_modifyNode_of_consumer_eq (net : Network) (id : NodeId) {f : Node → Node}
    (h : ∀ n, (f n).consumer = n.consumer) : (net.modifyNode id f).chores = net.chores := by
  cases hn : net.node? id with
  | none => rw [modifyNode_of_none hn]
  | some n =>
    have hchores := chores_modifyNode hn f
    have hf : (f n).chores id = n.chores id := by rw [Node.chores, h, Node.chores]
    rw [hf] at hchores
    exact add_right_cancel hchores

/-- New chores wait, and nothing else that matters to chores has changed. -/
structure Posts (net : Network) (new : List Chore) (net' : Network) : Prop where
  /-- The site is as it was. -/
  site : net'.site = net.site
  /-- The accounts are as they were. -/
  account : net'.account? = net.account?
  /-- The new chores wait with the others. -/
  chores : net'.chores = net.chores + ↑new

theorem Posts.refl (net : Network) : net.Posts [] net := ⟨rfl, rfl, (add_zero _).symm⟩

theorem Posts.trans {net'' : Network} {new new' : List Chore} (h : net.Posts new net')
    (h' : net'.Posts new' net'') : net.Posts (new ++ new') net'' where
  site := h'.site.trans h.site
  account := h'.account.trans h.account
  chores := by rw [h'.chores, h.chores, add_assoc, Multiset.coe_add]

/-- A change to a node that its chores do not depend on. -/
theorem posts_modifyNode {f : Node → Node} (station : ∀ n, (f n).station = n.station)
    (tap : ∀ n, net.node? id = some n → (f n).medium.link? = n.medium.link?)
    (consumer : ∀ n, (f n).consumer = n.consumer)
    (account : ∀ n, net.node? id = some n → (f n).account? = n.account?) :
    net.Posts [] (net.modifyNode id f) where
  site := site_modifyNode station tap (fun n _ => by rw [consumer]) fun n _ => by rw [consumer]
  account := account?_modifyNode_of_eq account
  chores := (chores_modifyNode_of_consumer_eq net id consumer).trans (add_zero _).symm

theorem posts_count (net : Network) (id : NodeId) (f : FrameCounts → FrameCounts) :
    net.Posts [] (net.count id f) :=
  posts_modifyNode (fun _ => rfl) (fun _ _ => rfl) (fun _ => rfl) fun _ _ => rfl

/-! ## Events -/

/-- A frame waits on the link that accepts it; without the link it is lost. -/
theorem posts_accept (net : Network) (k : LinkId) (origin : Bytes) (t : Transmission) :
    net.Posts ((net.link? k).map fun l => Chore.frame k ⟨origin, l.target t, t.frame⟩).toList
      (net.modifyLink k fun l => l.accept origin t) where
  site := site_eq (wiring_modifyLink net k fun _ => rfl) rfl rfl
  account := rfl
  chores := by
    cases hl : net.link? k with
    | none =>
      have hm : net.links.modify k (fun l => l.accept origin t) = net.links := by
        apply List.modify_eq_self
        simpa [link?] using hl
      have he : net.modifyLink k (fun l => l.accept origin t) = net := by
        simp only [modifyLink, hm]
      rw [he]
      exact (add_zero _).symm
    | some l =>
      have ht := chores_modifyLink hl fun l => l.accept origin t
      have ha : (l.accept origin t).chores k =
          l.chores k + {Chore.frame k ⟨origin, l.target t, t.frame⟩} := by
        rw [Link.chores, Link.toList_queue_accept, List.map_append, ← Multiset.coe_add]
        rfl
      rw [ha, add_comm (l.chores k), ← add_assoc] at ht
      exact add_right_cancel ht

theorem posts_transmit (net : Network) (id : NodeId) (t : Transmission) :
    net.Posts (net.site.posted? (.transmitted id t)).toList (net.transmit id t) := by
  have hposted : net.site.posted? (.transmitted id t) = (net.node? id).bind fun n =>
      n.medium.link?.bind fun k => (net.link? k).map fun l =>
        Chore.frame k ⟨n.station.attachment.mac, l.target t, t.frame⟩ := by
    simp only [Site.posted?, site, posted?_transmitted, Option.map_bind, Option.map_map,
      Function.comp_def]
  rw [hposted]
  unfold transmit
  cases hn : net.node? id with
  | none => exact Posts.refl net
  | some n =>
    dsimp only [Option.bind_some]
    cases hm : n.medium with
    | wire attached sent =>
      refine posts_modifyNode (fun _ => rfl) (fun n' hn' => ?_) (fun _ => rfl) fun _ _ => rfl
      obtain rfl : n = n' := Option.some.inj (hn.symm.trans hn')
      rw [hm]
      rfl
    | tap k counts =>
      have hcounted : net.Posts [] (net.modifyNode id fun n =>
          { n with medium := .tap k { counts with bytesOut := counts.bytesOut + t.frame.length } }) := by
        refine posts_modifyNode (fun _ => rfl) (fun n' hn' => ?_) (fun _ => rfl) fun _ _ => rfl
        obtain rfl : n = n' := Option.some.inj (hn.symm.trans hn')
        rw [hm]
        rfl
      exact hcounted.trans (posts_accept _ k n.station.attachment.mac t)

/-- A job is queued on the executors that are there. -/
theorem posts_spawn (net : Network) (pool : PoolId) (owner : NodeId) (job : Nat × Job) :
    net.Posts (if net.executors? pool = some job.1 then [.job (.pool pool) ⟨owner, job.2⟩] else [])
      (net.spawn pool owner job) := by
  have hexecutors : (net.spawn pool owner job).executors? = net.executors? := by
    funext id
    simp only [executors?, spawn, modifyPool, pool?, List.getElem?_modify]
    split
    · cases net.pools[id]? with
      | none => rfl
      | some p =>
        show (p.spawn job.1 ⟨owner, job.2⟩).executors = p.executors
        unfold Pool.spawn
        split <;> rfl
    · cases net.pools[id]? <;> rfl
  refine ⟨site_eq rfl ?_ rfl, rfl, ?_⟩
  · funext id
    simp only [site, hexecutors]
    rfl
  · cases hp : net.pool? pool with
    | none =>
      have hm : net.pools.modify pool (fun p => p.spawn job.1 ⟨owner, job.2⟩) = net.pools := by
        apply List.modify_eq_self
        simpa [pool?] using hp
      have he : net.spawn pool owner job = net := by simp only [spawn, modifyPool, hm]
      rw [he, executors?, hp]
      exact (add_zero _).symm
    | some p =>
      have ht := chores_modifyPool hp fun p => p.spawn job.1 ⟨owner, job.2⟩
      rw [executors?, hp, Option.bind_some]
      by_cases hs : p.executors = some job.1
      · have hspawn : (p.spawn job.1 ⟨owner, job.2⟩).chores pool =
            p.chores pool + {.job (.pool pool) ⟨owner, job.2⟩} := by
          rw [Pool.spawn, if_pos hs, Pool.chores, Mailbox.toList_push, List.map_append,
            ← Multiset.coe_add]
          rfl
        rw [hspawn, add_comm (p.chores pool), ← add_assoc] at ht
        rw [if_pos hs]
        exact add_right_cancel ht
      · have hspawn : p.spawn job.1 ⟨owner, job.2⟩ = p := by rw [Pool.spawn, if_neg hs]
        rw [hspawn] at ht
        rw [if_neg hs]
        exact (add_right_cancel ht).trans (add_zero _).symm

/-- The chores after a node was given another consumer. -/
theorem chores_setConsumer {n : Node} {c : Consumer} (hn : net.node? id = some n)
    (hc : n.consumer = some c) (c' : Consumer) :
    (net.setConsumer id (some c')).chores + c.chores id = net.chores + c'.chores id := by
  have ht := chores_modifyNode hn fun n => { n with consumer := some c' }
  have hbefore : n.chores id = c.chores id := by rw [Node.chores, hc, Option.map_some, Option.getD_some]
  rw [hbefore] at ht
  exact ht

/-- A consumer that keeps its workers keeps the site. -/
theorem site_setConsumer {n : Node} {c : Consumer} (hn : net.node? id = some n)
    (hc : n.consumer = some c) (c' : Consumer)
    (worker : c'.worker? net.executors? id = c.worker? net.executors? id)
    (running : c'.isRunning = c.isRunning) : (net.setConsumer id (some c')).site = net.site := by
  refine site_modifyNode (fun _ => rfl) (fun _ _ => rfl) (fun n' hn' => ?_) fun n' hn' => ?_
  · obtain rfl : n = n' := Option.some.inj (hn.symm.trans hn')
    rw [hc]
    exact worker
  · obtain rfl : n = n' := Option.some.inj (hn.symm.trans hn')
    rw [hc]
    exact running

/-- A consumer that keeps its workers and its dispatcher and has more to do. -/
theorem posts_setConsumer {n : Node} {c c' : Consumer} {new : List Chore}
    (hn : net.node? id = some n) (hc : n.consumer = some c)
    (worker : c'.worker? net.executors? id = c.worker? net.executors? id)
    (running : c'.isRunning = c.isRunning) (dispatcher : c'.dispatcher? = c.dispatcher?)
    (chores : c'.chores id = c.chores id + ↑new) :
    net.Posts new (net.setConsumer id (some c')) where
  site := site_setConsumer hn hc c' worker running
  account := by
    refine account?_modifyNode_of_eq fun n' hn' => ?_
    obtain rfl : n = n' := Option.some.inj (hn.symm.trans hn')
    rw [Node.account?, Node.account?, hc, Option.bind_some, Option.bind_some, dispatcher]
  chores := by
    have hset := chores_setConsumer hn hc c'
    rw [chores, add_comm (c.chores id), ← add_assoc] at hset
    exact add_right_cancel hset

/-- A consumer that is handed an envelope has it dispatched by its worker, if there is one. -/
theorem posts_consume {n : Node} {c : Consumer} (hn : net.node? id = some n)
    (hc : n.consumer = some c) (e : Envelope) :
    net.Posts ((c.worker? net.executors? id).map fun w => Chore.job w ⟨id, .dispatch e⟩).toList
      (net.consume id e c) := by
  cases c with
  | collector items =>
    refine posts_modifyNode (fun _ => rfl) (fun _ _ => rfl) (fun _ => rfl) fun n' hn' => ?_
    obtain rfl : n = n' := Option.some.inj (hn.symm.trans hn')
    rw [Node.account?, Node.account?, hc]
    rfl
  | dedicated t =>
    by_cases hclosed : t.closed = true
    · rw [Consumer.worker?, if_pos hclosed, consume, Dedicated.deliver_of_closed hclosed,
        setConsumer_self hn hc]
      exact Posts.refl net
    · refine posts_setConsumer hn hc ?_ ?_ ?_ ?_
      · simp only [Consumer.worker?, Dedicated.deliver, hclosed, Bool.false_eq_true, ite_false]
      · simp only [Consumer.isRunning, Dedicated.deliver, hclosed, Bool.false_eq_true, ite_false]
      · simp only [Consumer.dispatcher?, Dedicated.deliver, hclosed, Bool.false_eq_true, ite_false]
      · rw [Bool.not_eq_true] at hclosed
        simp only [Consumer.chores, Dedicated.chores, Dedicated.toList_incoming_deliver hclosed,
          Consumer.worker?, hclosed, List.map_append, ← Multiset.coe_add]
        simp only [Dedicated.deliver, hclosed, Bool.false_eq_true, ite_false, add_assoc]
        rfl
  | shared pool t =>
    simp only [consume, Shared.deliver, Consumer.worker?]
    cases t.executors with
    | none => exact Posts.refl net
    | some g =>
      have hspawn := posts_spawn net pool id (g, .dispatch e)
      by_cases he : net.executors? pool = some g
      · simpa [he] using hspawn
      · simpa [he] using hspawn

theorem posts_arrive (net : Network) (id : NodeId) (e : Envelope) :
    net.Posts (net.site.posted? (.arrived id e)).toList (net.arrive id e) := by
  unfold arrive
  cases hn : net.node? id with
  | none =>
    have hnone : net.site.posted? (.arrived id e) = none := by
      simp only [Site.posted?, site, hn, Option.bind_none, Option.map_none]
    rw [hnone]
    exact posts_count net id _
  | some n =>
    cases hc : n.consumer with
    | none =>
      have hnone : net.site.posted? (.arrived id e) = none := by
        simp only [Site.posted?, site, hn, Option.bind_some, hc, Option.bind_none, Option.map_none]
      rw [hnone, Option.bind_some, hc]
      exact posts_count net id _
    | some c =>
      have hsome : net.site.posted? (.arrived id e) =
          (c.worker? net.executors? id).map fun w => Chore.job w ⟨id, .dispatch e⟩ := by
        simp only [Site.posted?, site, hn, Option.bind_some, hc]
      rw [hsome, Option.bind_some, hc]
      have hcounted : (net.count id fun c => { c with delivered := c.delivered + 1 }).node? id =
          some { n with counts := { n.counts with delivered := n.counts.delivered + 1 } } := by
        rw [count, node?_modifyNode, if_pos rfl, hn, Option.map_some]
      exact (posts_count net id _).trans (posts_consume hcounted hc e)

/-- An event leaves the chore that the site says. -/
theorem posts_apply (net : Network) (event : Event) :
    net.Posts (net.site.posted? event).toList (net.apply event) := by
  cases event with
  | handed id length =>
    refine posts_modifyNode (fun n => ?_) (fun n _ => ?_) (fun n => ?_) fun n _ => ?_
    · split <;> rfl
    · split
      · rfl
      · rename_i hm
        simp only [hm, Medium.link?]
    · split <;> rfl
    · split <;> rfl
  | received id => exact posts_count net id fun c => { c with received := c.received + 1 }
  | dropped id => exact posts_count net id fun c => { c with dropped := c.dropped + 1 }
  | arrived id e => exact posts_arrive net id e
  | relayed source target ingress recipient e broadcast =>
    exact posts_count net source fun c => { c with forwarded := c.forwarded + 1 }
  | transmitted id t => exact posts_transmit net id t
  | reported id fault =>
    refine posts_modifyNode (fun n => ?_) (fun n _ => ?_) (fun n => ?_) fun n _ => ?_ <;>
      split <;> rfl

/-- Events leave the chores that the site says. -/
theorem posts_applyAll (net : Network) (events : List Event) :
    net.Posts (net.site.posted events) (net.applyAll events) := by
  induction events generalizing net with
  | nil => exact Posts.refl net
  | cons event rest ih =>
    have hevent := posts_apply net event
    have hrest := ih (net.apply event)
    rw [hevent.site] at hrest
    have hposted : net.site.posted (event :: rest) =
        (net.site.posted? event).toList ++ net.site.posted rest := by
      cases h : net.site.posted? event <;> simp [Site.posted, h]
    rw [hposted]
    exact hevent.trans hrest

/-! ## Acts -/

/-- The transport of a node has carried out acts: they are entered in the account of the node, and
the chores that the site says wait with the others. -/
structure Performs (net : Network) (id : NodeId) (acts : List Act) (net' : Network) : Prop where
  /-- The site is as it was. -/
  site : net'.site = net.site
  /-- The acts are entered in the account of the node. -/
  account : net'.account? =
    Function.update net.account? id ((net.account? id).map fun a => a.afterAll acts)
  /-- What the acts leave waits with the other chores. -/
  chores : net'.chores =
    net.chores + ↑(net.site.posted (acts.flatMap (net.site.wiring.directory.caused id)))

/-- An act that changes no account leaves chores only. -/
theorem Posts.performs {act : Act} (h : net.Posts (net.site.posted (net.directory.caused id act)) net')
    (neutral : ∀ a : Account, a.after act = a) : net.Performs id [act] net' where
  site := h.site
  account := by
    have hsame : (net.account? id).map (fun a => a.afterAll [act]) = net.account? id := by
      cases net.account? id with
      | none => rfl
      | some a => exact congrArg some (neutral a)
    rw [h.account, hsame, Function.update_eq_self]
  chores := by
    rw [List.flatMap_singleton]
    exact h.chores

theorem posts_call (net : Network) (id : NodeId) (f : Directory → Member → Run) :
    net.Posts (net.site.posted (net.directory.callEvents id f)) (net.call id f).2 := by
  unfold call member? Directory.callEvents
  cases net.directory.member? id with
  | none => exact Posts.refl net
  | some m => exact posts_applyAll net (f net.directory m).events

/-- An act that is entered in the account of its node leaves no chores. -/
theorem performs_modifyNode {act : Act} {f : Node → Node} (station : ∀ n, (f n).station = n.station)
    (medium : ∀ n, (f n).medium = n.medium) (consumer : ∀ n, (f n).consumer = n.consumer)
    (account : ∀ n : Node, (f n).account? = n.account?.map fun a => a.after act)
    (quiet : net.directory.caused id act = []) : net.Performs id [act] (net.modifyNode id f) where
  site := site_modifyNode station (fun n _ => by rw [medium]) (fun n _ => by rw [consumer])
    fun n _ => by rw [consumer]
  account := by
    have hentered : ((net.node? id).bind fun n => (f n).account?) =
        (net.account? id).map fun a => a.afterAll [act] := by
      simp only [account, account?, Option.map_bind]
      rfl
    rw [account?_modifyNode, hentered]
  chores := by
    have hnone : net.site.wiring.directory.caused id act = [] := quiet
    rw [List.flatMap_singleton, hnone, chores_modifyNode_of_consumer_eq net id consumer]
    exact (add_zero _).symm

/-- What the transport of a node wants done, unless a router is learned. -/
theorem performs_perform {act : Act} (h : ∀ mac segments, act ≠ .learn mac segments) :
    net.Performs id [act] (net.perform id act) := by
  cases act with
  | send msg => exact (posts_call net id fun d m => d.send m msg).performs fun _ => rfl
  | answerRouterQuery e =>
    exact (posts_call net id fun d m => d.answerRouterQuery m e).performs fun _ => rfl
  | answerSegmentQuery e =>
    exact (posts_call net id fun d m => d.answerSegmentQuery m e).performs fun _ => rfl
  | learn mac segments => exact absurd rfl (h mac segments)
  | note e =>
    refine performs_modifyNode (fun _ => rfl) (fun _ => rfl) (fun _ => rfl) (fun n => ?_) rfl
    rw [Node.account?, Node.account?, Option.map_map]
    rfl
  | resolve ticket outcome =>
    refine performs_modifyNode (fun _ => rfl) (fun _ => rfl) (fun _ => rfl) (fun n => ?_) rfl
    rw [Node.account?, Node.account?, Option.map_map]
    rfl

theorem Performs.trans {net'' : Network} {acts acts' : List Act} (h : net.Performs id acts net')
    (h' : net'.Performs id acts' net'') : net.Performs id (acts ++ acts') net'' where
  site := h'.site.trans h.site
  account := by
    rw [h'.account, h.account, Function.update_idem, Function.update_self, Option.map_map]
    simp only [Function.comp_def, Account.afterAll, List.foldl_append]
  chores := by
    rw [h'.chores, h.chores, h.site, List.flatMap_append, Site.posted, Site.posted, Site.posted,
      List.filterMap_append, ← Multiset.coe_add, add_assoc]

theorem performs_performAll {acts : List Act}
    (h : ∀ act ∈ acts, ∀ mac segments, act ≠ .learn mac segments) :
    net.Performs id acts (net.performAll id acts) := by
  induction acts generalizing net with
  | nil =>
    refine ⟨rfl, ?_, (add_zero _).symm⟩
    have hsame : (net.account? id).map (fun a => a.afterAll []) = net.account? id :=
      Option.map_id'
    rw [hsame, Function.update_eq_self]
    rfl
  | cons act rest ih =>
    obtain ⟨hact, hrest⟩ := List.forall_mem_cons.mp h
    exact (performs_perform hact).trans (ih hrest)

/-- A node for which a worker of its own does what is delivered has an open transport. -/
theorem exists_dedicated_of_worker? (worker : net.site.worker? id = some (.transport id)) :
    ∃ t, net.dedicated? id = some t ∧ t.closed = false := by
  obtain ⟨n, hn, c, hc, hw⟩ : ∃ n, net.node? id = some n ∧ ∃ c, n.consumer = some c ∧
      c.worker? net.executors? id = some (.transport id) := by
    simpa only [site, Option.bind_eq_some_iff] using worker
  cases c with
  | collector items => cases hw
  | dedicated t =>
    refine ⟨t, dedicated?_eq_some_iff.mpr ⟨n, hn, hc⟩, ?_⟩
    by_contra hclosed
    rw [Bool.not_eq_false] at hclosed
    simp [Consumer.worker?, hclosed] at hw
  | shared pool t => simp [Consumer.worker?] at hw

/-- Whatever an open transport is handed to send waits behind what waits already. -/
theorem submit_eq_setConsumer {t : Dedicated} (transport : net.dedicated? id = some t)
    (opened : t.closed = false) (o : Outgoing) : net.submit id o =
      net.setConsumer id (some (.dedicated { t with outgoing := t.outgoing.push o })) := by
  obtain ⟨n, hn, hc⟩ := dedicated?_eq_some_iff.mp transport
  simp only [submit, hn, Option.bind_some, hc, Dedicated.submit, opened, Bool.false_eq_true, ite_false]
  rfl

/-- A request that an open transport is handed waits for its worker. -/
theorem posts_submit {t : Dedicated} (transport : net.dedicated? id = some t) (opened : t.closed = false)
    (o : Outgoing) : net.Posts [.job (.transport id) ⟨id, .execute o⟩] (net.submit id o) := by
  obtain ⟨n, hn, hc⟩ := dedicated?_eq_some_iff.mp transport
  rw [submit_eq_setConsumer transport opened]
  refine posts_setConsumer hn hc rfl rfl rfl ?_
  simp only [Consumer.chores, Dedicated.chores, Mailbox.toList_push, List.map_append,
    ← Multiset.coe_add]
  exact add_right_comm _ _ _

end Network

end Fieldbus
