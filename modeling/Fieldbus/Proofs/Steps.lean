import Mathlib.Logic.Relation
import Fieldbus.Proofs.Routes

/-!
# Steps of a network

`Network.Step` is one unit of work of anything that works on its own: a link hands out a frame,
to its recipients in any order; a transport with a worker executes one send, dispatches one
envelope or fails what is overdue; a pool runs any of its jobs. Time may pass between steps.
Main statements: the work of a worker is made of such steps (`transGen_step_of_work?`), and steps
leave routes and applications as they are (`Step.keepsSetup`).
-/

namespace Fieldbus

/-- What handing a frame to one station causes. -/
def Directory.handing (d : Directory) (f : LinkFrame) (id : NodeId) : List Event :=
  .handed id f.data.length ::
    ((d.member? id).map fun m => (d.receive m f.data f.origin).events).getD []

/-- The application above a consumer, and whether a worker of its own runs; a collector has
neither. -/
def Consumer.setup? : Consumer → Option (Application × Bool)
  | .collector _ => none
  | .dedicated t => some (t.dispatcher.application, t.running)
  | .shared _ t => some (t.dispatcher.application, false)

/-- A station without what it has learned. -/
def Station.unlearned (s : Station) : Station := { s with routers := {} }

/-- What work does not change at a node: its station, learned routers apart, and the application
above its consumer. -/
structure Setup where
  /-- The station without what it has learned. -/
  station : Station
  /-- The application, if there is one, and whether a worker runs. -/
  application : Option (Application × Bool)

/-- The setup of a node. -/
def Node.setup (n : Node) : Setup where
  station := n.station.unlearned
  application := n.consumer.bind Consumer.setup?

/-! ## Transports keep their application -/

namespace Dispatcher

@[simp] theorem application_execute (d : Dispatcher) (attempt : Message → Except Failure Unit)
    (now : Nat) (o : Outgoing) : (d.execute attempt now o).1.application = d.application := by
  cases o with
  | message msg => rfl
  | request r =>
    simp only [execute, ask]
    split <;> rfl

@[simp] theorem application_dispatch (d : Dispatcher) (e : Envelope) :
    (d.dispatch e).1.application = d.application := by
  unfold dispatch
  split <;> (try rfl)
  split <;> rfl

/-- A sweep when nothing is overdue changes nothing. -/
theorem sweep_eq_self {d : Dispatcher} {now : Nat} (h : d.overdue now = []) :
    d.sweep now = (d, []) := by
  have hp : d.pending.entries.filter (fun e => now < e.2.deadline) = d.pending.entries := by
    simp only [overdue, Table.values, List.filter_eq_nil_iff, List.forall_mem_map] at h
    simpa using h
  simp only [sweep, h, hp, List.map_nil]

end Dispatcher

namespace Dedicated

theorem setup?_executeNext (t : Dedicated) (attempt : Message → Except Failure Unit) (now : Nat) :
    (Consumer.dedicated (t.executeNext attempt now).1).setup? = (Consumer.dedicated t).setup? := by
  unfold executeNext
  split
  · rfl
  · simp only [Consumer.setup?, Dispatcher.application_execute]

theorem setup?_dispatchNext (t : Dedicated) :
    (Consumer.dedicated t.dispatchNext.1).setup? = (Consumer.dedicated t).setup? := by
  unfold dispatchNext
  split
  · rfl
  · simp only [Consumer.setup?, Dispatcher.application_dispatch]

end Dedicated

theorem Shared.application_run (t : Shared) (attempt : Message → Except Failure Unit) (now : Nat)
    (job : Job) : (t.run attempt now job).1.dispatcher.application = t.dispatcher.application := by
  cases job with
  | execute o => exact Dispatcher.application_execute _ _ _ _
  | dispatch e => exact Dispatcher.application_dispatch _ _

namespace Network

/-- Link `k` hands out its oldest frame, to its recipients in some order, which causes `events`. -/
inductive HandsOut (net : Network) (k : LinkId) : List Event → Network → Prop
  | intro {l : Link} {f : LinkFrame} {queue : Mailbox LinkFrame} {order : List NodeId}
      (link : net.link? k = some l) (running : l.running = true)
      (pop : l.queue.pop = some (f, queue))
      (recipients : order.Perm (l.recipients net.isAlive f)) :
      HandsOut net k (order.flatMap (net.directory.handing f))
        ((net.modifyLink k fun l => { l with queue }).applyAll
          (order.flatMap (net.directory.handing f)))

/-- Does a job of a shared transport at a given time. -/
def doTask (net : Network) (now : Nat) (task : Task) : Network :=
  match net.shared? task.owner with
  | none => net
  | some (pool, t) =>
    let (t, acts) := t.run (net.attempt task.owner) now task.job
    (net.setConsumer task.owner (some (.shared pool t))).performAll task.owner acts

/-- One unit of work. -/
inductive Step (net : Network) : Network → Prop
  /-- A link hands out a frame. -/
  | handsOut {k : LinkId} {events : List Event} {net' : Network} (h : net.HandsOut k events net') :
      Step net net'
  /-- A transport executes a send. -/
  | executes {id : NodeId} {t : Dedicated} (now : Nat) (transport : net.dedicated? id = some t)
      (running : t.running = true) (waits : t.outgoing.toList ≠ []) :
      Step net (net.stepDedicated id fun t => t.executeNext (net.attempt id) now)
  /-- A transport dispatches an envelope. -/
  | dispatches {id : NodeId} {t : Dedicated} (transport : net.dedicated? id = some t)
      (running : t.running = true) (waits : t.incoming.toList ≠ []) :
      Step net (net.stepDedicated id Dedicated.dispatchNext)
  /-- A transport fails the requests that are overdue. -/
  | sweeps {id : NodeId} {t : Dedicated} (now : Nat) (transport : net.dedicated? id = some t)
      (running : t.running = true) (overdue : t.dispatcher.overdue now ≠ []) :
      Step net (net.stepDedicated id fun t => t.sweep now)
  /-- A pool runs a job. -/
  | runs {id : PoolId} {p : Pool} {before after : List Task} {task : Task} (now : Nat)
      (pool : net.pool? id = some p) (tasks : p.tasks.toList = before ++ task :: after) :
      Step net ((net.modifyPool id fun p => { p with tasks := ⟨before ++ after⟩ }).doTask now task)

/-! ## The work of workers -/

/-- A link that hands out its oldest frame does one step. -/
theorem handsOut_handOut {net : Network} {k : LinkId} {l : Link} (link : net.link? k = some l)
    (busy : l.isBusy = true) : ∃ f, net.HandsOut k (net.deliveries l f) (net.handOut k) := by
  simp only [Link.isBusy, Bool.and_eq_true, Bool.not_eq_true'] at busy
  obtain ⟨running, hq⟩ := busy
  obtain ⟨f, queue, hp⟩ : ∃ f queue, l.queue.pop = some (f, queue) := by
    unfold Mailbox.isEmpty at hq
    unfold Mailbox.pop
    cases hl : l.queue.toList with
    | nil => simp [hl] at hq
    | cons f rest => exact ⟨f, ⟨rest⟩, rfl⟩
  have h := HandsOut.intro link running hp (List.Perm.refl _)
  refine ⟨f, ?_⟩
  simp only [handOut, link, hp]
  exact h

/-- A job that a pool runs is done on the pool without it. -/
theorem step_runTask {net : Network} {id : PoolId} {p : Pool} (pool : net.pool? id = some p)
    (busy : p.tasks.isEmpty = false) : net.Step (net.runTask id) := by
  unfold Mailbox.isEmpty at busy
  cases ht : p.tasks.toList with
  | nil => simp [ht] at busy
  | cons task rest =>
    have hs : p.tasks.toList = [] ++ task :: rest := ht
    have h := Step.runs net.now pool hs
    have hp : p.tasks.pop = some (task, ⟨rest⟩) := Mailbox.pop_eq_some_iff.mpr ht
    simp only [runTask, pool, Option.bind_some, hp]
    exact h

/-- Giving a node the consumer it has changes nothing. -/
theorem setConsumer_self {net : Network} {id : NodeId} {n : Node} {c : Option Consumer}
    (hn : net.node? id = some n) (hc : n.consumer = c) : net.setConsumer id c = net := by
  have hnodes : net.nodes.modify id (fun n => n.map fun n => { n with consumer := c }) = net.nodes := by
    apply List.ext_getElem?
    intro i
    rw [List.getElem?_modify]
    split
    · rename_i hi
      subst hi
      simp only [node?, Option.join_eq_some_iff] at hn
      rw [hn]
      subst hc
      rfl
    · cases net.nodes[i]? <;> rfl
  simp only [setConsumer, modifyNode, hnodes]

theorem dedicated?_eq_some_iff {net : Network} {id : NodeId} {t : Dedicated} :
    net.dedicated? id = some t ↔ ∃ n, net.node? id = some n ∧ n.consumer = some (.dedicated t) := by
  unfold dedicated?
  cases hn : net.node? id with
  | none => simp
  | some n =>
    rcases hc : n.consumer with _ | (_ | t' | _) <;> simp [hc]

/-- A step of a transport that has nothing to do changes nothing. -/
theorem stepDedicated_eq_self {net : Network} {id : NodeId} {t : Dedicated}
    {step : Dedicated → Dedicated × List Act} (transport : net.dedicated? id = some t)
    (h : step t = (t, [])) : net.stepDedicated id step = net := by
  obtain ⟨n, hn, hc⟩ := dedicated?_eq_some_iff.mp transport
  simp only [stepDedicated, transport, h, performAll, List.foldl_nil]
  exact setConsumer_self hn hc

/-! ## What steps leave as it is -/

/-- The setups of the nodes that exist. -/
def setup? (net : Network) (id : NodeId) : Option Setup := (net.node? id).map Node.setup

/-- Nodes have the setup they had. -/
structure KeepsSetup (net net' : Network) : Prop where
  /-- No node is added. -/
  length_eq : net'.nodes.length = net.nodes.length
  /-- Nodes have the setups they had. -/
  setup : net'.setup? = net.setup?

theorem KeepsSetup.trans {net net' net'' : Network} (h : net.KeepsSetup net')
    (h' : net'.KeepsSetup net'') : net.KeepsSetup net'' :=
  ⟨h'.length_eq.trans h.length_eq, h'.setup.trans h.setup⟩

/-- A change outside of nodes keeps setups. -/
theorem keepsSetup_of_nodes_eq {net net' : Network} (h : net'.nodes = net.nodes) :
    net.KeepsSetup net' where
  length_eq := congrArg List.length h
  setup := by funext id; simp only [setup?, node?, h]

theorem KeepsSetup.refl (net : Network) : net.KeepsSetup net := keepsSetup_of_nodes_eq rfl

theorem keepsSetup_modifyLink (net : Network) (k : LinkId) (f : Link → Link) :
    net.KeepsSetup (net.modifyLink k f) :=
  keepsSetup_of_nodes_eq rfl

theorem keepsSetup_modifyPool (net : Network) (id : PoolId) (f : Pool → Pool) :
    net.KeepsSetup (net.modifyPool id f) :=
  keepsSetup_of_nodes_eq rfl

/-- A change to one node keeps setups if the node keeps its own. -/
theorem keepsSetup_modifyNode (net : Network) (id : NodeId) {f : Node → Node}
    (h : ∀ n, net.node? id = some n → (f n).setup = n.setup) :
    net.KeepsSetup (net.modifyNode id f) where
  length_eq := length_nodes_modifyNode net id f
  setup := by
    funext id'
    simp only [setup?, node?_modifyNode]
    by_cases hid : id' = id
    · subst hid
      cases hn : net.node? id' with
      | none => simp
      | some n => simpa using h n hn
    · simp [hid]

/-- Counting keeps setups. -/
theorem keepsSetup_count (net : Network) (id : NodeId) (f : FrameCounts → FrameCounts) :
    net.KeepsSetup (net.count id f) :=
  keepsSetup_modifyNode net id fun _ _ => rfl

/-- A node whose consumer is replaced by one of the same setup keeps what it has. -/
theorem keepsSetup_setConsumer {net : Network} {id : NodeId} {c c' : Consumer}
    (hc : (net.node? id).bind (·.consumer) = some c) (h : c'.setup? = c.setup?) :
    net.KeepsSetup (net.setConsumer id (some c')) := by
  refine keepsSetup_modifyNode net id fun n hn => ?_
  rw [hn] at hc
  simp only [Option.bind_some] at hc
  simp only [Node.setup, hc, Option.bind_some, h]

theorem keepsSetup_consume {net : Network} {id : NodeId} {c : Consumer} (e : Envelope)
    (hc : (net.node? id).bind (·.consumer) = some c) : net.KeepsSetup (net.consume id e c) := by
  cases c with
  | collector items =>
    exact keepsSetup_modifyNode net id fun _ _ => rfl
  | dedicated t =>
    refine keepsSetup_setConsumer hc ?_
    simp only [Consumer.setup?, Dedicated.deliver]
    split <;> rfl
  | shared pool t =>
    unfold consume
    dsimp only
    split
    · exact keepsSetup_of_nodes_eq rfl
    · exact KeepsSetup.refl net

/-- Events keep setups. -/
theorem keepsSetup_apply (net : Network) (event : Event) : net.KeepsSetup (net.apply event) := by
  cases event with
  | handed id length =>
    refine keepsSetup_modifyNode net id fun n _ => ?_
    split <;> rfl
  | arrived id e =>
    unfold apply arrive
    dsimp only
    split
    · exact keepsSetup_count net id _
    · rename_i c hc
      refine (keepsSetup_count net id _).trans (keepsSetup_consume e ?_)
      rw [count, node?_modifyNode, if_pos rfl, Option.bind_map]
      exact hc
  | transmitted id t =>
    unfold apply transmit
    dsimp only
    split
    · exact KeepsSetup.refl net
    · split
      · exact keepsSetup_modifyNode net id fun _ _ => rfl
      · refine KeepsSetup.trans ?_ (keepsSetup_modifyLink _ _ _)
        exact keepsSetup_modifyNode net id fun _ _ => rfl
  | reported id fault =>
    refine keepsSetup_modifyNode net id fun n _ => ?_
    split <;> rfl
  | received id => exact keepsSetup_modifyNode net id fun _ _ => rfl
  | dropped id => exact keepsSetup_modifyNode net id fun _ _ => rfl
  | relayed source target ingress recipient e broadcast =>
    exact keepsSetup_modifyNode net source fun _ _ => rfl

theorem keepsSetup_applyAll (net : Network) (events : List Event) :
    net.KeepsSetup (net.applyAll events) := by
  induction events generalizing net with
  | nil => exact KeepsSetup.refl net
  | cons event rest ih => exact (keepsSetup_apply net event).trans (ih (net.apply event))

theorem keepsSetup_call (net : Network) (id : NodeId) (f : Directory → Member → Run) :
    net.KeepsSetup (net.call id f).2 := by
  unfold call
  split
  · exact KeepsSetup.refl net
  · exact keepsSetup_applyAll net _

/-- What a transport has done keeps setups. -/
theorem keepsSetup_perform (id : NodeId) (net : Network) (act : Act) :
    net.KeepsSetup (net.perform id act) := by
  cases act with
  | send msg => exact keepsSetup_call net id _
  | answerRouterQuery e => exact keepsSetup_call net id _
  | answerSegmentQuery e => exact keepsSetup_call net id _
  | learn mac segments =>
    exact keepsSetup_modifyNode net id fun _ _ => rfl
  | note e => exact keepsSetup_modifyNode net id fun _ _ => rfl
  | resolve ticket outcome =>
    exact keepsSetup_modifyNode net id fun _ _ => rfl

theorem keepsSetup_performAll (net : Network) (id : NodeId) (acts : List Act) :
    net.KeepsSetup (net.performAll id acts) := by
  induction acts generalizing net with
  | nil => exact KeepsSetup.refl net
  | cons act rest ih => exact (keepsSetup_perform id net act).trans (ih (net.perform id act))

/-- What a transport does keeps setups if the transport keeps its application and
its worker. -/
theorem keepsSetup_stepDedicated {net : Network} {id : NodeId} {t : Dedicated}
    {step : Dedicated → Dedicated × List Act} (transport : net.dedicated? id = some t)
    (h : (Consumer.dedicated (step t).1).setup? = (Consumer.dedicated t).setup?) :
    net.KeepsSetup (net.stepDedicated id step) := by
  obtain ⟨n, hn, hc⟩ := dedicated?_eq_some_iff.mp transport
  simp only [stepDedicated, transport]
  exact (keepsSetup_setConsumer (by rw [hn, Option.bind_some, hc]) h).trans
    (keepsSetup_performAll _ id _)

theorem shared?_eq_some_iff {net : Network} {id : NodeId} {pool : PoolId} {t : Shared} :
    net.shared? id = some (pool, t) ↔
      ∃ n, net.node? id = some n ∧ n.consumer = some (.shared pool t) := by
  unfold shared?
  cases hn : net.node? id with
  | none => simp
  | some n =>
    rcases hc : n.consumer with _ | (_ | _ | ⟨pool', t'⟩) <;> simp [hc]

theorem keepsSetup_doTask (net : Network) (now : Nat) (task : Task) :
    net.KeepsSetup (net.doTask now task) := by
  unfold doTask
  split
  · exact KeepsSetup.refl net
  · rename_i pool t ht
    obtain ⟨n, hn, hc⟩ := shared?_eq_some_iff.mp ht
    refine (keepsSetup_setConsumer (by rw [hn, Option.bind_some, hc]) ?_).trans
      (keepsSetup_performAll _ _ _)
    exact congrArg (fun a => some (a, false)) (Shared.application_run t _ now task.job)

/-- A step keeps setups. -/
theorem Step.keepsSetup {net net' : Network} (h : net.Step net') : net.KeepsSetup net' := by
  cases h with
  | handsOut h =>
    cases h with
    | intro => exact (keepsSetup_modifyLink net _ _).trans (keepsSetup_applyAll _ _)
  | executes now transport running waits =>
    exact keepsSetup_stepDedicated transport (Dedicated.setup?_executeNext _ _ now)
  | dispatches transport running waits =>
    exact keepsSetup_stepDedicated transport (Dedicated.setup?_dispatchNext _)
  | sweeps now transport running overdue => exact keepsSetup_stepDedicated transport rfl
  | runs now pool tasks =>
    exact (keepsSetup_modifyPool net _ _).trans (keepsSetup_doTask _ now _)

/-- A station that is there after a change was there before, up to what it has learned. -/
theorem KeepsSetup.station {net net' : Network} (h : net.KeepsSetup net') {id : NodeId}
    {s' : Station} (hs : net'.directory id = some s') :
    ∃ s, net.directory id = some s ∧ s'.unlearned = s.unlearned := by
  obtain ⟨n', hn', rfl⟩ := Option.map_eq_some_iff.mp hs
  have hsetup : net.setup? id = some n'.setup := by rw [← h.setup, setup?, hn', Option.map_some]
  obtain ⟨n, hn, he⟩ := Option.map_eq_some_iff.mp hsetup
  exact ⟨n.station, by rw [Network.directory, hn, Option.map_some],
    (congrArg Setup.station he).symm⟩

/-- A change that keeps setups keeps routes. -/
theorem KeepsSetup.keepsRoutes {net net' : Network} (h : net.KeepsSetup net') :
    net.KeepsRoutes net' where
  length_le := Nat.le_of_eq h.length_eq.symm
  station hs := by
    obtain ⟨s, hs, he⟩ := h.station hs
    exact ⟨s, hs, (congrArg Station.segment he :), (congrArg Station.routes he :)⟩

/-! ## Workers do steps -/

/-- The transport at a node whose worker runs stays one. -/
theorem KeepsSetup.dedicated? {net net' : Network} (h : net.KeepsSetup net') {id : NodeId}
    {t : Dedicated} (transport : net.dedicated? id = some t) (running : t.running = true) :
    ∃ t', net'.dedicated? id = some t' ∧ t'.running = true := by
  obtain ⟨n, hn, hc⟩ := dedicated?_eq_some_iff.mp transport
  have hs : net'.setup? id = some n.setup := by rw [h.setup, setup?, hn, Option.map_some]
  obtain ⟨n', hn', hs⟩ := Option.map_eq_some_iff.mp hs
  have happ : n'.consumer.bind Consumer.setup? = some (t.dispatcher.application, true) := by
    have hs := congrArg Setup.application hs
    simpa only [Node.setup, hc, Option.bind_some, Consumer.setup?, running] using hs
  obtain ⟨c', hc', hs⟩ := Option.bind_eq_some_iff.mp happ
  cases c' with
  | collector items => cases hs
  | dedicated t' =>
    simp only [Consumer.setup?, Option.some.injEq, Prod.mk.injEq] at hs
    exact ⟨t', dedicated?_eq_some_iff.mpr ⟨n', hn', hc'⟩, hs.2⟩
  | shared pool t' =>
    simp only [Consumer.setup?, Option.some.injEq, Prod.mk.injEq, Bool.false_eq_true,
      and_false] at hs

section

variable {net : Network} {id : NodeId} {t : Dedicated}

/-- The first step of a worker is a step of the network if something waits to be sent. -/
private theorem executeNext_or_step (transport : net.dedicated? id = some t)
    (running : t.running = true) (now : Nat) (attempt : Message → Except Failure Unit)
    (ha : attempt = net.attempt id) :
    t.outgoing.toList = [] ∧ (net.stepDedicated id fun t => t.executeNext attempt now) = net ∨
      net.Step (net.stepDedicated id fun t => t.executeNext attempt now) := by
  subst ha
  by_cases h : t.outgoing.toList = []
  · refine Or.inl ⟨h, stepDedicated_eq_self transport ?_⟩
    simp only [Dedicated.executeNext, Mailbox.pop, h]
  · exact Or.inr (Step.executes now transport running h)

/-- The second step of a worker is a step of the network if something waits to be dispatched. -/
private theorem dispatchNext_or_step (transport : net.dedicated? id = some t)
    (running : t.running = true) :
    t.incoming.toList = [] ∧ net.stepDedicated id Dedicated.dispatchNext = net ∨
      net.Step (net.stepDedicated id Dedicated.dispatchNext) := by
  by_cases h : t.incoming.toList = []
  · refine Or.inl ⟨h, stepDedicated_eq_self transport ?_⟩
    simp only [Dedicated.dispatchNext, Mailbox.pop, h]
  · exact Or.inr (Step.dispatches transport running h)

/-- The third step of a worker is a step of the network if something is overdue. -/
private theorem sweep_or_step (transport : net.dedicated? id = some t)
    (running : t.running = true) (now : Nat) :
    t.dispatcher.overdue now = [] ∧ (net.stepDedicated id fun t => t.sweep now) = net ∨
      net.Step (net.stepDedicated id fun t => t.sweep now) := by
  by_cases h : t.dispatcher.overdue now = []
  · refine Or.inl ⟨h, stepDedicated_eq_self transport ?_⟩
    rw [Dedicated.sweep, Dispatcher.sweep_eq_self h]
  · exact Or.inr (Step.sweeps now transport running h)

private theorem reflTransGen_sweep (transport : net.dedicated? id = some t)
    (running : t.running = true) (now : Nat) :
    Relation.ReflTransGen Step net (net.stepDedicated id fun t => t.sweep now) := by
  rcases sweep_or_step transport running now with ⟨-, he⟩ | hs
  · rw [he]
  · exact .single hs

private theorem reflTransGen_dispatchNext_sweep (transport : net.dedicated? id = some t)
    (running : t.running = true) (now : Nat) :
    Relation.ReflTransGen Step net
      ((net.stepDedicated id Dedicated.dispatchNext).stepDedicated id fun t => t.sweep now) := by
  rcases dispatchNext_or_step transport running with ⟨-, he⟩ | hs
  · rw [he]
    exact reflTransGen_sweep transport running now
  · obtain ⟨t', ht', hr'⟩ := hs.keepsSetup.dedicated? transport running
    exact .head hs (reflTransGen_sweep ht' hr' now)

/-- A worker with something to do goes once round its three steps by at least one step of the
network. -/
private theorem transGen_step_iterate (transport : net.dedicated? id = some t)
    (busy : t.isBusy net.now = true) : Relation.TransGen Step net (net.iterate id) := by
  simp only [Dedicated.isBusy, Bool.and_eq_true, Bool.not_eq_true', Mailbox.isEmpty] at busy
  obtain ⟨running, busy⟩ := busy
  have hsent := executeNext_or_step transport running net.now _ rfl
  unfold iterate
  generalize (net.stepDedicated id fun t => t.executeNext (net.attempt id) net.now) = sent at hsent ⊢
  -- The first of the three steps that does something makes the round count.
  rcases hsent with ⟨hout, rfl⟩ | hs
  · rcases dispatchNext_or_step transport running with ⟨hin, he⟩ | hs
    · dsimp only
      rw [he]
      rcases sweep_or_step transport running sent.now with ⟨hover, -⟩ | hs
      · simp [hout, hin, hover] at busy
      · exact .single hs
    · obtain ⟨t', ht', hr'⟩ := hs.keepsSetup.dedicated? transport running
      exact .head' hs (reflTransGen_sweep ht' hr' sent.now)
  · obtain ⟨t', ht', hr'⟩ := hs.keepsSetup.dedicated? transport running
    exact .head' hs (reflTransGen_dispatchNext_sweep ht' hr' net.now)

end

/-- The work of a worker is made of steps, of which there is at least one. -/
theorem transGen_step_of_work? {net net' : Network} {w : Worker} (h : net.work? w = some net') :
    Relation.TransGen Step net net' := by
  unfold work? at h
  split at h
  · rename_i busy
    cases h
    cases w with
    | link k =>
      obtain ⟨l, hl, hb⟩ : ∃ l, net.link? k = some l ∧ l.isBusy = true := by
        simpa only [isBusy, Option.any_eq_true] using busy
      obtain ⟨f, hf⟩ := handsOut_handOut hl hb
      exact .single (.handsOut hf)
    | transport id =>
      obtain ⟨t, ht, hb⟩ : ∃ t, net.dedicated? id = some t ∧ t.isBusy net.now = true := by
        simpa only [isBusy, Option.any_eq_true] using busy
      exact transGen_step_iterate ht hb
    | pool id =>
      obtain ⟨p, hp, hb⟩ : ∃ p, net.pool? id = some p ∧ (!p.tasks.isEmpty) = true := by
        simpa only [isBusy, Option.any_eq_true] using busy
      exact .single (step_runTask hp (by simpa using hb))
  · cases h

end Network

end Fieldbus
