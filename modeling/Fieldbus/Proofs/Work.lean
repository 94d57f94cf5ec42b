import Mathlib.Data.Multiset.Bind
import Fieldbus.Proofs.Chores

/-!
# Work

A worker takes one chore and leaves those that come of it (`Network.WorksOn`). Steps of a network
are such work, or fail requests that are overdue (`step_iff`). Main statements: a frame that is
handed out is replaced by what its recipients make of it (`WorksOn.of_frame`), a job is replaced by
what the dispatcher of its node wants done (`WorksOn.of_job`), what a worker does in time is made of
such work (`reflTransGen_works_of_work?`), and at rest nothing waits for a worker that is there
(`isStaffed_of_atRest`).
-/

namespace Fieldbus

/-- Does a job. -/
def Dispatcher.run (d : Dispatcher) (attempt : Message → Except Failure Unit) (now : Nat) :
    Job → Dispatcher × List Act
  | .execute o => d.execute attempt now o
  | .dispatch e => d.dispatch e

theorem Shared.run_eq (t : Shared) (attempt : Message → Except Failure Unit) (now : Nat) (job : Job) :
    t.run attempt now job =
      ({ t with dispatcher := (t.dispatcher.run attempt now job).1 },
        (t.dispatcher.run attempt now job).2) := by
  cases job <;> rfl

namespace Network

variable {net net' : Network} {id : NodeId}

/-! ## Work -/

/-- A worker that is there does a chore. -/
inductive WorksOn (net : Network) : Chore → Network → Prop
  /-- A link hands out its oldest frame, to its recipients in some order. -/
  | handsOut {k : LinkId} {l : Link} {f : LinkFrame} {queue : Mailbox LinkFrame} {order : List NodeId}
      (link : net.link? k = some l) (running : l.running = true)
      (pop : l.queue.pop = some (f, queue)) (recipients : order.Perm (l.recipients net.isAlive f)) :
      WorksOn net (.frame k f) ((net.modifyLink k fun l => { l with queue }).applyAll
        (order.flatMap (net.directory.handing f)))
  /-- A transport executes its oldest send. -/
  | executes {id : NodeId} {t : Dedicated} {o : Outgoing} {rest : List Outgoing} (now : Nat)
      (transport : net.dedicated? id = some t) (running : t.running = true)
      (waits : t.outgoing.toList = o :: rest) :
      WorksOn net (.job (.transport id) ⟨id, .execute o⟩)
        (net.stepDedicated id fun t => t.executeNext (net.attempt id) now)
  /-- A transport dispatches its oldest delivery. -/
  | dispatches {id : NodeId} {t : Dedicated} {e : Envelope} {rest : List Envelope}
      (transport : net.dedicated? id = some t) (running : t.running = true)
      (waits : t.incoming.toList = e :: rest) :
      WorksOn net (.job (.transport id) ⟨id, .dispatch e⟩) (net.stepDedicated id Dedicated.dispatchNext)
  /-- A pool runs a job. -/
  | runs {id : PoolId} {p : Pool} {before after : List Task} {task : Task} (now : Nat)
      (pool : net.pool? id = some p) (tasks : p.tasks.toList = before ++ task :: after) :
      WorksOn net (.job (.pool id) task)
        ((net.modifyPool id fun p => { p with tasks := ⟨before ++ after⟩ }).doTask now task)

/-- Some worker does a chore. -/
def Works (net net' : Network) : Prop := ∃ chore, net.WorksOn chore net'

/-- A step does a chore, or a transport fails requests that are overdue. -/
theorem step_iff : net.Step net' ↔ net.Works net' ∨
    ∃ id t now, net.dedicated? id = some t ∧ t.running = true ∧ t.dispatcher.overdue now ≠ [] ∧
      net' = net.stepDedicated id fun t => t.sweep now := by
  constructor
  · intro h
    cases h with
    | handsOut h =>
      obtain ⟨link, running, pop, recipients⟩ := h
      exact Or.inl ⟨_, .handsOut link running pop recipients⟩
    | executes now transport running waits =>
      obtain ⟨o, rest, ho⟩ := List.exists_cons_of_ne_nil waits
      exact Or.inl ⟨_, .executes now transport running ho⟩
    | dispatches transport running waits =>
      obtain ⟨e, rest, he⟩ := List.exists_cons_of_ne_nil waits
      exact Or.inl ⟨_, .dispatches transport running he⟩
    | sweeps now transport running overdue =>
      exact Or.inr ⟨_, _, now, transport, running, overdue, rfl⟩
    | runs now pool tasks => exact Or.inl ⟨_, .runs now pool tasks⟩
  · rintro (⟨chore, h⟩ | ⟨id, t, now, transport, running, overdue, rfl⟩)
    · cases h with
      | handsOut link running pop recipients => exact .handsOut (.intro link running pop recipients)
      | executes now transport running waits =>
        exact .executes now transport running (by rw [waits]; exact List.cons_ne_nil _ _)
      | dispatches transport running waits =>
        exact .dispatches transport running (by rw [waits]; exact List.cons_ne_nil _ _)
      | runs now pool tasks => exact .runs now pool tasks
    · exact .sweeps now transport running overdue

/-- A frame that is handed out is replaced by what its recipients make of it. -/
theorem WorksOn.of_frame {k : LinkId} {f : LinkFrame} (h : net.WorksOn (.frame k f) net') :
    net'.site = net.site ∧ net'.account? = net.account? ∧
      net'.chores + {.frame k f} = net.chores + ↑(net.site.posted (net.site.wiring.handed (k, f))) := by
  cases h with
  | @handsOut _ l _ queue order link running pop recipients =>
    have hsite : (net.modifyLink k fun l => { l with queue }).site = net.site :=
      site_eq (wiring_modifyLink net k fun _ => rfl) rfl rfl
    have hposts := posts_applyAll (net.modifyLink k fun l => { l with queue })
      (order.flatMap (net.directory.handing f))
    have htaken := chores_modifyLink link fun l => { l with queue }
    have hqueue : l.chores k = Link.chores k { l with queue } + {.frame k f} := by
      simp only [Link.chores, Mailbox.pop_eq_some_iff.mp pop, List.map_cons]
      rw [← Multiset.coe_singleton, Multiset.coe_add, Multiset.coe_eq_coe]
      exact (List.perm_append_singleton _ _).symm
    rw [hqueue, add_comm (Link.chores k _), ← add_assoc] at htaken
    have hperm : (order.flatMap (net.directory.handing f)).Perm (net.site.wiring.handed (k, f)) := by
      have hl := links_wiring net k
      have halive : net.wiring.isAlive = net.isAlive := by
        funext id
        simp [Wiring.isAlive, wiring, directory, isAlive]
      rw [link] at hl
      simp only [site, Wiring.handed, hl, Option.map_some, halive]
      exact recipients.flatMap_right _
    refine ⟨hposts.site.trans hsite, hposts.account, ?_⟩
    have hposted : (net.site.posted (order.flatMap (net.directory.handing f)) : Multiset Chore) =
        ↑(net.site.posted (net.site.wiring.handed (k, f))) :=
      Multiset.coe_eq_coe.mpr (hperm.filterMap _)
    rw [hposts.chores, hsite, hposted, add_right_comm]
    exact congrArg (· + _) (add_right_cancel htaken)

/-- A transport that has taken a job and what its dispatcher has made of it. -/
structure Takes (net : Network) (chore : Chore) (id : NodeId) (a : Account) (net' : Network) : Prop where
  /-- The site is as it was. -/
  site : net'.site = net.site
  /-- The account of the node is a new one. -/
  account : net'.account? = Function.update net.account? id (some a)
  /-- The chore is gone. -/
  chores : net'.chores + {chore} = net.chores

/-- A consumer that has taken a chore. -/
theorem takes_setConsumer {n : Node} {c : Consumer} {d : Dispatcher} {chore : Chore}
    (hn : net.node? id = some n) (hc : n.consumer = some c) (c' : Consumer)
    (worker : c'.worker? net.executors? id = c.worker? net.executors? id)
    (running : c'.isRunning = c.isRunning) (dispatcher : c'.dispatcher? = some d)
    (chores : c.chores id = c'.chores id + {chore}) :
    net.Takes chore id ⟨d, n.outcomes, n.noted⟩ (net.setConsumer id (some c')) where
  site := site_setConsumer hn hc c' worker running
  account := by
    refine (account?_modifyNode net id _).trans (congrArg _ ?_)
    rw [hn, Option.bind_some, Node.account?, Option.bind_some, dispatcher, Option.map_some]
  chores := by
    have hset := chores_setConsumer hn hc c'
    rw [chores, add_comm (c'.chores id), ← add_assoc] at hset
    exact add_right_cancel hset

theorem account?_of_consumer {n : Node} {c : Consumer} {d : Dispatcher} (hn : net.node? id = some n)
    (hc : n.consumer = some c) (hd : c.dispatcher? = some d) :
    net.account? id = some ⟨d, n.outcomes, n.noted⟩ := by
  rw [account?, hn, Option.bind_some, Node.account?, hc, Option.bind_some, hd, Option.map_some]

/-- A node for which a worker works has an account. -/
theorem exists_account_of_worker? {w : Worker} (worker : net.site.worker? id = some w) :
    ∃ a, net.account? id = some a := by
  obtain ⟨n, hn, c, hc, hw⟩ : ∃ n, net.node? id = some n ∧ ∃ c, n.consumer = some c ∧
      c.worker? net.executors? id = some w := by
    simpa only [site, Option.bind_eq_some_iff] using worker
  cases c with
  | collector items => cases hw
  | dedicated t => exact ⟨_, account?_of_consumer hn hc rfl⟩
  | shared pool t => exact ⟨_, account?_of_consumer hn hc rfl⟩

/-- A pool without one of its jobs. -/
theorem of_modifyPool {pool : PoolId} {p : Pool} {before after : List Task} {task : Task}
    (hp : net.pool? pool = some p) (tasks : p.tasks.toList = before ++ task :: after) :
    (net.modifyPool pool fun p => { p with tasks := ⟨before ++ after⟩ }).executors? = net.executors? ∧
      (net.modifyPool pool fun p => { p with tasks := ⟨before ++ after⟩ }).chores
        + {.job (.pool pool) task} = net.chores := by
  constructor
  · funext id
    simp only [executors?, modifyPool, pool?, List.getElem?_modify]
    split
    · cases net.pools[id]? <;> rfl
    · cases net.pools[id]? <;> rfl
  · have ht := chores_modifyPool hp fun p => { p with tasks := ⟨before ++ after⟩ }
    have hchores : p.chores pool =
        Pool.chores pool { p with tasks := ⟨before ++ after⟩ } + {.job (.pool pool) task} := by
      simp only [Pool.chores, tasks, List.map_append, List.map_cons]
      rw [← Multiset.coe_singleton, Multiset.coe_add, Multiset.coe_eq_coe, List.append_assoc]
      exact List.Perm.append_left _ (List.perm_append_singleton _ _).symm
    rw [hchores, add_comm (Pool.chores pool _), ← add_assoc] at ht
    exact add_right_cancel ht

/-- A shared transport whose pool has taken one of its jobs. -/
theorem takes_task {pool pool' : PoolId} {p : Pool} {before after : List Task} {task : Task} {n : Node}
    {t : Shared} (hp : net.pool? pool = some p) (tasks : p.tasks.toList = before ++ task :: after)
    (hn : net.node? task.owner = some n) (hc : n.consumer = some (.shared pool' t)) (d : Dispatcher) :
    net.Takes (.job (.pool pool) task) task.owner ⟨d, n.outcomes, n.noted⟩
      ((net.modifyPool pool fun p => { p with tasks := ⟨before ++ after⟩ }).setConsumer task.owner
        (some (.shared pool' { t with dispatcher := d }))) := by
  obtain ⟨hexecutors, hchores⟩ := of_modifyPool hp tasks
  generalize hq : (net.modifyPool pool fun p => { p with tasks := ⟨before ++ after⟩ }) = queued
    at hexecutors hchores ⊢
  have hnode : queued.node? = net.node? := by
    rw [← hq]
    rfl
  have hwiring : queued.wiring = net.wiring := by
    rw [← hq]
    rfl
  have hsite : queued.site = net.site := by
    refine site_eq hwiring ?_ ?_
    · simp only [site, hnode, hexecutors]
    · simp only [site, hnode]
  rw [← hnode] at hn
  have hset := site_setConsumer hn hc (.shared pool' { t with dispatcher := d }) rfl rfl
  refine ⟨hset.trans hsite, ?_, ?_⟩
  · have haccount : queued.account? = net.account? := by
      funext id
      simp only [account?, hnode]
    refine (account?_modifyNode queued task.owner _).trans ?_
    rw [haccount, hn]
    rfl
  · have hset := chores_setConsumer hn hc (.shared pool' { t with dispatcher := d })
    rw [add_right_cancel hset, hchores]

/-- A worker that does a job for a node takes the job and carries out what the dispatcher of the node
wants done. -/
theorem WorksOn.of_job {w : Worker} {job : Job} (h : net.WorksOn (.job w ⟨id, job⟩) net')
    (worker : net.site.worker? id = some w) : ∃ a now taken, net.account? id = some a ∧
      net.Takes (.job w ⟨id, job⟩) id
        { a with dispatcher := (a.dispatcher.run (net.attempt id) now job).1 } taken ∧
      net' = taken.performAll id (a.dispatcher.run (net.attempt id) now job).2 := by
  cases h with
  | @executes _ t o rest now transport running waits =>
    obtain ⟨n, hn, hc⟩ := dedicated?_eq_some_iff.mp transport
    have hpop : t.outgoing.pop = some (o, ⟨rest⟩) := Mailbox.pop_eq_some_iff.mpr waits
    refine ⟨_, now, _, account?_of_consumer hn hc rfl, takes_setConsumer hn hc
      (.dedicated { t with
        dispatcher := (t.dispatcher.run (net.attempt id) now (.execute o)).1, outgoing := ⟨rest⟩ })
      rfl rfl rfl ?_, ?_⟩
    · simp only [Consumer.chores, Dedicated.chores, waits, List.map_cons, ← Multiset.cons_coe,
        ← Multiset.singleton_add]
      ac_rfl
    · simp only [stepDedicated, transport, Dedicated.executeNext, hpop]
      rfl
  | @dispatches _ t e rest transport running waits =>
    obtain ⟨n, hn, hc⟩ := dedicated?_eq_some_iff.mp transport
    have hpop : t.incoming.pop = some (e, ⟨rest⟩) := Mailbox.pop_eq_some_iff.mpr waits
    refine ⟨_, 0, _, account?_of_consumer hn hc rfl, takes_setConsumer hn hc
      (.dedicated { t with
        dispatcher := (t.dispatcher.run (net.attempt id) 0 (.dispatch e)).1, incoming := ⟨rest⟩ })
      rfl rfl rfl ?_, ?_⟩
    · simp only [Consumer.chores, Dedicated.chores, waits, List.map_cons, ← Multiset.cons_coe,
        ← Multiset.singleton_add]
      ac_rfl
    · simp only [stepDedicated, transport, Dedicated.dispatchNext, hpop]
      rfl
  | @runs pool p before after _ now hp tasks =>
    obtain ⟨n, hn, c, hc, hw⟩ : ∃ n, net.node? id = some n ∧ ∃ c, n.consumer = some c ∧
        c.worker? net.executors? id = some (.pool pool) := by
      simpa only [site, Option.bind_eq_some_iff] using worker
    obtain ⟨t, rfl⟩ : ∃ t, c = .shared pool t := by
      unfold Consumer.worker? at hw
      split at hw
      · cases hw
      · split at hw <;> cases hw
      · split at hw
        · cases hw
          exact ⟨_, rfl⟩
        · cases hw
    refine ⟨_, now, _, account?_of_consumer hn hc rfl,
      takes_task hp tasks hn hc (t.dispatcher.run (net.attempt id) now job).1, ?_⟩
    have hshared : (net.modifyPool pool fun p => { p with tasks := ⟨before ++ after⟩ }).shared? id =
        some (pool, t) := shared?_eq_some_iff.mpr ⟨n, hn, hc⟩
    simp only [doTask, hshared, Shared.run_eq]
    rfl

/-- A job is replaced by what the dispatcher of its node wants done, which is entered in the account of
the node, unless a router is learned. -/
theorem WorksOn.exists_run {w : Worker} {id : NodeId} {job : Job} {a : Account}
    (h : net.WorksOn (.job w ⟨id, job⟩) net') (worker : net.site.worker? id = some w)
    (account : net.account? id = some a) : ∃ now, ∀ d acts,
      a.dispatcher.run (net.attempt id) now job = (d, acts) →
      (∀ act ∈ acts, ∀ mac segments, act ≠ .learn mac segments) →
      net'.site = net.site ∧
      net'.account? =
        Function.update net.account? id (some ({ a with dispatcher := d }.afterAll acts)) ∧
      net'.chores + {.job w ⟨id, job⟩} =
        net.chores + ↑(net.site.posted (acts.flatMap (net.site.wiring.directory.caused id))) := by
  obtain ⟨a', now, taken, ha, takes, rfl⟩ := h.of_job worker
  obtain rfl : a = a' := Option.some.inj (account.symm.trans ha)
  refine ⟨now, fun d acts hrun plain => ?_⟩
  rw [hrun] at takes ⊢
  have performs : taken.Performs id acts (taken.performAll id acts) := performs_performAll plain
  refine ⟨performs.site.trans takes.site, ?_, ?_⟩
  · rw [performs.account, takes.account, Function.update_idem, Function.update_self, Option.map_some]
  · rw [performs.chores, takes.site, add_right_comm, takes.chores]

/-! ## Workers -/

theorem HandsOut.works {k : LinkId} {events : List Event} (h : net.HandsOut k events net') :
    net.Works net' := by
  cases h with
  | intro link running pop recipients => exact ⟨_, .handsOut link running pop recipients⟩

/-- What the worker of a node does before it sweeps: it executes a send and dispatches a delivery. -/
def beforeSweep (net : Network) (id : NodeId) : Network :=
  (net.stepDedicated id fun t => t.executeNext (net.attempt id) net.now).stepDedicated id
    Dedicated.dispatchNext

/-- A worker has no request to fail once it has done its other work. -/
def isInTime (net : Network) : Worker → Bool
  | .transport id =>
    ((net.beforeSweep id).dedicated? id).all fun t => (t.dispatcher.overdue net.now).isEmpty
  | _ => true

/-- A worker in time fails no request. -/
theorem iterate_eq_beforeSweep (h : net.isInTime (.transport id) = true) :
    net.iterate id = net.beforeSweep id := by
  show (net.beforeSweep id).stepDedicated id (fun t => t.sweep net.now) = net.beforeSweep id
  cases ht : (net.beforeSweep id).dedicated? id with
  | none => simp only [stepDedicated, ht]
  | some t =>
    rw [isInTime, ht, Option.all_some, List.isEmpty_iff] at h
    refine stepDedicated_eq_self ht ?_
    rw [Dedicated.sweep, Dispatcher.sweep_eq_self h]

theorem reflTransGen_dispatchNext {t : Dedicated} (transport : net.dedicated? id = some t)
    (running : t.running = true) :
    Relation.ReflTransGen Works net (net.stepDedicated id Dedicated.dispatchNext) := by
  cases waits : t.incoming.toList with
  | nil =>
    rw [stepDedicated_eq_self transport (by simp only [Dedicated.dispatchNext, Mailbox.pop, waits])]
  | cons e rest => exact .single ⟨_, .dispatches transport running waits⟩

/-- Executing a send and dispatching a delivery are two chores at most. -/
theorem reflTransGen_beforeSweep {t : Dedicated} (transport : net.dedicated? id = some t)
    (running : t.running = true) : Relation.ReflTransGen Works net (net.beforeSweep id) := by
  unfold beforeSweep
  cases waits : t.outgoing.toList with
  | nil =>
    rw [stepDedicated_eq_self transport (by simp only [Dedicated.executeNext, Mailbox.pop, waits])]
    exact reflTransGen_dispatchNext transport running
  | cons o rest =>
    have hexecutes := WorksOn.executes net.now transport running waits
    obtain ⟨t', ht', hr'⟩ :=
      (step_iff.mpr (Or.inl ⟨_, hexecutes⟩)).keepsSetup.dedicated? transport running
    exact .head ⟨_, hexecutes⟩ (reflTransGen_dispatchNext ht' hr')

/-- What a worker does in time is made of chores. -/
theorem reflTransGen_works_of_work? {w : Worker} (work : net.work? w = some net')
    (inTime : net.isInTime w = true) : Relation.ReflTransGen Works net net' := by
  simp only [work?, Option.ite_none_right_eq_some, Option.some.injEq] at work
  obtain ⟨busy, rfl⟩ := work
  cases w with
  | link k =>
    obtain ⟨l, hl, hb⟩ : ∃ l, net.link? k = some l ∧ l.isBusy = true := by
      simpa only [isBusy, Option.any_eq_true] using busy
    obtain ⟨f, hf⟩ := handsOut_handOut hl hb
    exact .single hf.works
  | transport id =>
    obtain ⟨t, ht, hb⟩ : ∃ t, net.dedicated? id = some t ∧ t.isBusy net.now = true := by
      simpa only [isBusy, Option.any_eq_true] using busy
    rw [Dedicated.isBusy, Bool.and_eq_true] at hb
    show Relation.ReflTransGen Works net (net.iterate id)
    rw [iterate_eq_beforeSweep inTime]
    exact reflTransGen_beforeSweep ht hb.1
  | pool id =>
    obtain ⟨p, hp, hb⟩ : ∃ p, net.pool? id = some p ∧ (!p.tasks.isEmpty) = true := by
      simpa only [isBusy, Option.any_eq_true] using busy
    cases ht : p.tasks.toList with
    | nil => simp [Mailbox.isEmpty, ht] at hb
    | cons task rest =>
      have hpop : p.tasks.pop = some (task, ⟨rest⟩) := Mailbox.pop_eq_some_iff.mpr ht
      have hs : p.tasks.toList = [] ++ task :: rest := ht
      have hruns := WorksOn.runs net.now hp hs
      simp only [work, runTask, hp, Option.bind_some, hpop]
      exact .single ⟨_, hruns⟩

/-! ## Rest -/

/-- What waits for workers waits on a link, at a node or on a pool. -/
theorem mem_chores_iff {chore : Chore} : chore ∈ net.chores ↔
    (∃ k l, net.link? k = some l ∧ chore ∈ l.chores k) ∨
    (∃ id n, net.node? id = some n ∧ chore ∈ n.chores id) ∨
    ∃ id p, net.pool? id = some p ∧ chore ∈ p.chores id := by
  have hsum : ∀ {α : Type} (xs : List α) (g : Nat → α → Multiset Chore),
      chore ∈ (xs.mapIdx g).sum ↔ ∃ i x, xs[i]? = some x ∧ chore ∈ g i x := by
    intro α xs g
    rw [← Multiset.sum_coe]
    refine Multiset.mem_join.trans ?_
    simp only [Multiset.mem_coe, List.mem_mapIdx]
    constructor
    · rintro ⟨-, ⟨i, hi, rfl⟩, hm⟩
      exact ⟨i, xs[i], List.getElem?_eq_getElem hi, hm⟩
    · rintro ⟨i, x, hx, hm⟩
      obtain ⟨hi, rfl⟩ := List.getElem?_eq_some_iff.mp hx
      exact ⟨_, ⟨i, hi, rfl⟩, hm⟩
  have hnodes : (∃ id n, net.nodes[id]? = some n ∧ chore ∈ (Option.map (Node.chores id) n).getD 0) ↔
      ∃ id n, net.node? id = some n ∧ chore ∈ n.chores id := by
    simp only [node?, Option.join_eq_some_iff]
    constructor
    · rintro ⟨id, _ | n, hn, hm⟩
      · exact absurd hm (Multiset.notMem_zero _)
      · exact ⟨id, n, hn, hm⟩
    · rintro ⟨id, n, hn, hm⟩
      exact ⟨id, some n, hn, hm⟩
  simp only [chores, total, Multiset.mem_add, hsum, or_assoc]
  rw [hnodes]
  rfl

/-- A chore that is worked on has waited. -/
theorem WorksOn.mem_chores {chore : Chore} (h : net.WorksOn chore net') : chore ∈ net.chores := by
  rw [mem_chores_iff]
  cases h with
  | @handsOut k l f queue order link running pop recipients =>
    refine Or.inl ⟨k, l, link, List.mem_map_of_mem ?_⟩
    rw [Mailbox.pop_eq_some_iff.mp pop]
    exact List.mem_cons_self
  | @executes id t o rest now transport running waits =>
    obtain ⟨n, hn, hc⟩ := dedicated?_eq_some_iff.mp transport
    refine Or.inr (Or.inl ⟨id, n, hn, ?_⟩)
    rw [Node.chores, hc]
    refine Multiset.mem_add.mpr (Or.inl (List.mem_map.mpr ⟨o, ?_, rfl⟩))
    rw [waits]
    exact List.mem_cons_self
  | @dispatches id t e rest transport running waits =>
    obtain ⟨n, hn, hc⟩ := dedicated?_eq_some_iff.mp transport
    refine Or.inr (Or.inl ⟨id, n, hn, ?_⟩)
    rw [Node.chores, hc]
    refine Multiset.mem_add.mpr (Or.inr (List.mem_map.mpr ⟨e, ?_, rfl⟩))
    rw [waits]
    exact List.mem_cons_self
  | @runs id p before after task now pool tasks =>
    refine Or.inr (Or.inr ⟨id, p, pool, List.mem_map_of_mem ?_⟩)
    rw [tasks]
    exact List.mem_append_right _ List.mem_cons_self

/-- Whoever works on a chore is there. -/
theorem WorksOn.isStaffed {chore : Chore} (h : net.WorksOn chore net') :
    net.site.isStaffed chore.worker = true := by
  have htransport : ∀ {id : NodeId} {t : Dedicated}, net.dedicated? id = some t →
      t.running = true → net.site.isRunning id = true := by
    intro id t transport running
    obtain ⟨n, hn, hc⟩ := dedicated?_eq_some_iff.mp transport
    simp only [site, hn, Option.any_some, hc, Consumer.isRunning, running]
  cases h with
  | @handsOut k l f queue order link running pop recipients =>
    have hlink := links_wiring net k
    rw [link] at hlink
    simp only [Chore.worker, Site.isStaffed, site, hlink, Option.map_some, Option.any_some]
    exact running
  | executes now transport running waits => exact htransport transport running
  | dispatches transport running waits => exact htransport transport running
  | runs now pool tasks => rfl

/-- A transport that fails overdue requests hands its application nothing and leaves no chores. -/
theorem of_sweep {t : Dedicated} (transport : net.dedicated? id = some t) (now : Nat) :
    ∃ a a', net.account? id = some a ∧ a.dispatcher = t.dispatcher ∧
      a'.dispatcher = (t.dispatcher.sweep now).1 ∧ a'.noted = a.noted ∧
      (net.stepDedicated id fun t => t.sweep now).account? =
        Function.update net.account? id (some a') ∧
      (net.stepDedicated id fun t => t.sweep now).site = net.site ∧
      (net.stepDedicated id fun t => t.sweep now).chores = net.chores := by
  obtain ⟨n, hn, hc⟩ := dedicated?_eq_some_iff.mp transport
  have hswept : net.stepDedicated id (fun t => t.sweep now) =
      (net.setConsumer id (some (.dedicated { t with dispatcher := (t.dispatcher.sweep now).1 }))).performAll
        id (t.dispatcher.sweep now).2 := by
    simp only [stepDedicated, transport]
    rfl
  generalize hcalled : net.setConsumer id
    (some (.dedicated { t with dispatcher := (t.dispatcher.sweep now).1 })) = called at hswept
  have hsite : called.site = net.site := by
    rw [← hcalled]
    exact site_setConsumer hn hc _ rfl rfl
  have haccount : called.account? = Function.update net.account? id
      (some ⟨(t.dispatcher.sweep now).1, n.outcomes, n.noted⟩) := by
    rw [← hcalled]
    refine (account?_modifyNode net id _).trans ?_
    rw [hn]
    rfl
  have hchores : called.chores = net.chores := by
    have hset := chores_setConsumer hn hc
      (.dedicated { t with dispatcher := (t.dispatcher.sweep now).1 })
    rw [hcalled] at hset
    exact add_right_cancel hset
  have hresolves : ∀ act ∈ (t.dispatcher.sweep now).2, ∃ ticket outcome, act = .resolve ticket outcome := by
    intro act hact
    obtain ⟨w, -, rfl⟩ := List.mem_map.mp hact
    exact ⟨_, _, rfl⟩
  have hperforms : called.Performs id (t.dispatcher.sweep now).2
      (called.performAll id (t.dispatcher.sweep now).2) := by
    refine performs_performAll fun act hact mac segments => ?_
    obtain ⟨ticket, outcome, rfl⟩ := hresolves act hact
    exact Act.noConfusion
  have hcaused : (t.dispatcher.sweep now).2.flatMap (called.site.wiring.directory.caused id) = [] := by
    refine List.flatMap_eq_nil_iff.mpr fun act hact => ?_
    obtain ⟨ticket, outcome, rfl⟩ := hresolves act hact
    rfl
  refine ⟨_, Account.afterAll ⟨(t.dispatcher.sweep now).1, n.outcomes, n.noted⟩
      (t.dispatcher.sweep now).2, account?_of_consumer hn hc rfl, rfl, ?_, ?_, ?_⟩
  · rw [Account.dispatcher_afterAll]
  · refine Account.noted_afterAll (fun act hact e => ?_) _
    obtain ⟨ticket, outcome, rfl⟩ := hresolves act hact
    exact Act.noConfusion
  · rw [hswept]
    refine ⟨?_, hperforms.site.trans hsite, ?_⟩
    · rw [hperforms.account, haccount, Function.update_idem, Function.update_self, Option.map_some]
    · rw [hperforms.chores, hcaused, hchores]
      exact add_zero _

/-- At rest no worker has anything to do. -/
theorem isBusy_of_atRest (rest : net.atRest = true) (w : Worker) : net.isBusy w = false := by
  have hworkers : ∀ w ∈ net.workers, net.isBusy w = false := by
    simpa only [atRest, List.all_eq_true, Bool.not_eq_true'] using rest
  by_cases hw : w ∈ net.workers
  · exact hworkers w hw
  · -- Whoever is not among the workers does not exist.
    simp only [workers, List.mem_append, List.mem_map, List.mem_range, not_or, not_exists, not_and] at hw
    cases w with
    | link k =>
      have hk : ¬ k < net.links.length := fun hk => hw.1.1 k hk rfl
      rw [isBusy, link?, List.getElem?_eq_none (Nat.not_lt.mp hk), Option.any_none]
    | transport id =>
      have hid : ¬ id < net.nodes.length := fun hid => hw.1.2 id hid rfl
      rw [isBusy, dedicated?, node?, List.getElem?_eq_none (Nat.not_lt.mp hid)]
      rfl
    | pool id =>
      have hid : ¬ id < net.pools.length := fun hid => hw.2 id hid rfl
      rw [isBusy, pool?, List.getElem?_eq_none (Nat.not_lt.mp hid), Option.any_none]

/-- At rest nothing waits for a worker that is there. -/
theorem isStaffed_of_atRest {chore : Chore} (rest : net.atRest = true) (h : chore ∈ net.chores) :
    net.site.isStaffed chore.worker = false := by
  rcases mem_chores_iff.mp h with ⟨k, l, hl, hm⟩ | ⟨id, n, hn, hm⟩ | ⟨id, p, hp, hm⟩
  · obtain ⟨f, hf, rfl⟩ := List.mem_map.mp hm
    have hbusy := isBusy_of_atRest rest (.link k)
    have hne : l.queue.isEmpty = false := List.isEmpty_eq_false_iff_exists_mem.mpr ⟨f, hf⟩
    rw [isBusy, hl, Option.any_some, Link.isBusy, hne, Bool.not_false, Bool.and_true] at hbusy
    have hlink := links_wiring net k
    rw [hl] at hlink
    simp only [Chore.worker, Site.isStaffed, site, hlink, Option.map_some, Option.any_some]
    exact hbusy
  · rcases hc : n.consumer with _ | (_ | t | _) <;>
      simp only [Node.chores, hc, Option.map_none, Option.map_some, Option.getD_none, Option.getD_some,
        Consumer.chores, Multiset.notMem_zero] at hm
    have hbusy := isBusy_of_atRest rest (.transport id)
    rw [isBusy, dedicated?_eq_some_iff.mpr ⟨n, hn, hc⟩, Option.any_some, Dedicated.isBusy] at hbusy
    have hwaits : (t.outgoing.isEmpty && t.incoming.isEmpty) = false ∧ chore.worker = .transport id := by
      rcases Multiset.mem_add.mp hm with hm | hm
      · obtain ⟨o, ho, rfl⟩ := List.mem_map.mp hm
        have hne : t.outgoing.isEmpty = false := List.isEmpty_eq_false_iff_exists_mem.mpr ⟨o, ho⟩
        exact ⟨by rw [hne, Bool.false_and], rfl⟩
      · obtain ⟨e, he, rfl⟩ := List.mem_map.mp hm
        have hne : t.incoming.isEmpty = false := List.isEmpty_eq_false_iff_exists_mem.mpr ⟨e, he⟩
        exact ⟨by rw [hne, Bool.and_false], rfl⟩
    obtain ⟨hwaits, hworker⟩ := hwaits
    rw [hwaits, Bool.false_and, Bool.not_false, Bool.and_true] at hbusy
    simp only [hworker, Site.isStaffed, site, hn, Option.any_some, hc, Consumer.isRunning, hbusy]
  · obtain ⟨task, htask, rfl⟩ := List.mem_map.mp hm
    have hbusy := isBusy_of_atRest rest (.pool id)
    have hne : p.tasks.isEmpty = false := List.isEmpty_eq_false_iff_exists_mem.mpr ⟨task, htask⟩
    rw [isBusy, hp, Option.any_some, hne] at hbusy
    cases hbusy

end Network

end Fieldbus
