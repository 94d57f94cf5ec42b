import Fieldbus.Proofs.Breakdowns
import Fieldbus.Proofs.Work

/-!
# Jobs in order

A pool with one executor runs its jobs in the order in which they were queued.
`Network.WorksInTurn` is one unit of work in a network where one pool has one executor, together
with the events that come of it; meanwhile no deadline passes, and no worker breaks off. Main
statements: what is done in turn is work (`WorksInTurn.works`), and where sub-addresses fit it goes on
exactly as long as something waits for a worker that is there (`FitsThroughout.rests_iff`).
-/

namespace Fieldbus

namespace Network

variable {net net' : Network} {id : NodeId} {k : PoolId} {events : List Event}

/-! ## What happens meanwhile -/

/-- What happens while that is done which the transport of a node wants done. -/
def performed (net : Network) (id : NodeId) : List Act → List Event
  | [] => []
  | act :: rest => net.directory.caused id act ++ (net.perform id act).performed id rest

/-- What a shared transport wants done for a job at a given time. -/
def taskActs (net : Network) (now : Nat) (task : Task) : List Act :=
  match net.shared? task.owner with
  | none => []
  | some (_, t) => (t.run (net.attempt task.owner) now task.job).2

/-- A call at a node does nothing but what it makes happen. -/
theorem call_eq_applyAll (net : Network) (id : NodeId) (f : Directory → Member → Run) :
    (net.call id f).2 = net.applyAll (net.directory.callEvents id f) := by
  unfold call Directory.callEvents member?
  cases net.directory.member? id <;> rfl

/-! ## Work in turn -/

/-- One unit of work where the pool `k` has one executor: its jobs are run in the order in which they
were queued. The worker does not break off over it. -/
inductive WorksInTurn (k : PoolId) (net : Network) : List Event → Network → Prop
  /-- A link hands out its oldest frame, to its recipients in some order. -/
  | handsOut {j : LinkId} {l : Link} {f : LinkFrame} {queue : Mailbox LinkFrame} {order : List NodeId}
      (link : net.link? j = some l) (running : l.running = true)
      (pop : l.queue.pop = some (f, queue)) (recipients : order.Perm (l.recipients net.isAlive f))
      (done : ∀ id ∈ order, net.directory.breaksOffOver f id = false) :
      WorksInTurn k net (order.flatMap (net.directory.handing f))
        ((net.modifyLink j fun l => { l with queue }).applyAll
          (order.flatMap (net.directory.handing f)))
  /-- A transport executes its oldest send. -/
  | executes {id : NodeId} {t : Dedicated} {o : Outgoing} {rest : List Outgoing} (now : Nat)
      (transport : net.dedicated? id = some t) (running : t.running = true)
      (waits : t.outgoing.toList = o :: rest)
      (done : net.finishes id (t.dispatcher.execute (net.attempt id) now o).2 = true) :
      WorksInTurn k net (net.performed id (t.dispatcher.execute (net.attempt id) now o).2)
        (net.stepDedicated id fun t => t.executeNext (net.attempt id) now)
  /-- A transport dispatches its oldest delivery. -/
  | dispatches {id : NodeId} {t : Dedicated} {e : Envelope} {rest : List Envelope}
      (transport : net.dedicated? id = some t) (running : t.running = true)
      (waits : t.incoming.toList = e :: rest)
      (done : net.finishes id (t.dispatcher.dispatch e).2 = true) :
      WorksInTurn k net (net.performed id (t.dispatcher.dispatch e).2)
        (net.stepDedicated id Dedicated.dispatchNext)
  /-- A pool runs a job, the pool `k` its oldest one. -/
  | runs {q : PoolId} {p : Pool} {before after : List Task} {task : Task} (now : Nat)
      (pool : net.pool? q = some p) (tasks : p.tasks.toList = before ++ task :: after)
      (inTurn : q = k → before = [])
      (done : net.finishes task.owner (net.taskActs now task) = true) :
      WorksInTurn k net (net.performed task.owner (net.taskActs now task))
        ((net.modifyPool q fun p => { p with tasks := ⟨before ++ after⟩ }).doTask now task)

/-- Work in turn, one unit after the other, with all that comes of it. -/
inductive RunsInTurn (k : PoolId) : Network → List Event → Network → Prop
  | refl (net : Network) : RunsInTurn k net [] net
  | head {net net' net'' : Network} {events rest : List Event}
      (first : net.WorksInTurn k events net') (run : RunsInTurn k net' rest net'') :
      RunsInTurn k net (events ++ rest) net''

/-- Nothing waits for a worker that is there. -/
structure Rests (net : Network) : Prop where
  /-- No frame waits on a link that runs. -/
  link : ∀ j l, net.link? j = some l → l.running = true → l.queue.toList = []
  /-- Nothing waits at a transport whose worker runs. -/
  transport : ∀ id t, net.dedicated? id = some t → t.running = true →
    t.outgoing.toList = [] ∧ t.incoming.toList = []
  /-- No job waits on a pool. -/
  pool : ∀ q p, net.pool? q = some p → p.tasks.toList = []

/-- What is done in turn is work. -/
theorem WorksInTurn.works (h : net.WorksInTurn k events net') : net.Works net' := by
  cases h with
  | handsOut link running pop recipients done => exact ⟨_, .handsOut link running pop recipients⟩
  | executes now transport running waits done => exact ⟨_, .executes now transport running waits⟩
  | dispatches transport running waits done => exact ⟨_, .dispatches transport running waits⟩
  | runs now pool tasks inTurn done => exact ⟨_, .runs now pool tasks⟩

/-- Where nothing waits nothing is done. -/
theorem Rests.not_worksInTurn (rests : net.Rests) : ¬ net.WorksInTurn k events net' := by
  intro h
  cases h with
  | handsOut link running pop recipients done =>
    cases (rests.link _ _ link running).symm.trans (Mailbox.pop_eq_some_iff.mp pop)
  | executes now transport running waits done =>
    cases (rests.transport _ _ transport running).1.symm.trans waits
  | dispatches transport running waits done =>
    cases (rests.transport _ _ transport running).2.symm.trans waits
  | runs now pool tasks inTurn done =>
    have hnone := (rests.pool _ _ pool).symm.trans tasks
    simp at hnone

/-! ## Where sub-addresses fit -/

/-- Sub-addresses fit throughout what is done in turn. -/
theorem FitsThroughout.of_worksInTurn (fits : net.FitsThroughout)
    (work : net.WorksInTurn k events net') : net'.FitsThroughout := by
  cases work with
  | handsOut link running pop recipients done => exact (fits.handOut link pop).applyAll _
  | executes now transport running waits done => exact fits.stepDedicated _ _
  | dispatches transport running waits done => exact fits.stepDedicated _ _
  | @runs q p before after task now pool tasks inTurn done =>
    exact (fits.of_keepsPorts (overlooksTransports_keepsPorts.modifyPool net q _)).doTask now task

theorem FitsThroughout.of_runsInTurn (fits : net.FitsThroughout)
    (run : net.RunsInTurn k events net') : net'.FitsThroughout := by
  induction run with
  | refl net => exact fits
  | head first run ih => exact ih (fits.of_worksInTurn first)

/-- Where sub-addresses fit work in turn goes on exactly as long as something waits. -/
theorem FitsThroughout.rests_iff (fits : net.FitsThroughout) :
    net.Rests ↔ ∀ events net', ¬ net.WorksInTurn k events net' := by
  constructor
  · exact fun rests events net' => rests.not_worksInTurn
  · intro h
    refine ⟨fun j l link running => ?_, fun id t transport running => ⟨?_, ?_⟩, fun q p pool => ?_⟩
    · cases hq : l.queue.toList with
      | nil => rfl
      | cons f rest =>
        have hpop : l.queue.pop = some (f, ⟨rest⟩) := Mailbox.pop_eq_some_iff.mpr hq
        have hf : f.origin.length ≤ maxMacLength :=
          fits.frames j l link running f (by rw [hq]; exact List.mem_cons_self)
        exact absurd (.handsOut link running hpop (.refl _) fun id _ =>
          Directory.breaksOffOver_of_fits hf id) (h _ _)
    · cases ho : t.outgoing.toList with
      | nil => rfl
      | cons o rest =>
        exact absurd (.executes 0 transport running ho (fits.nodes.finishes id _)) (h _ _)
    · cases hi : t.incoming.toList with
      | nil => rfl
      | cons e rest =>
        exact absurd (.dispatches transport running hi (fits.nodes.finishes id _)) (h _ _)
    · cases ht : p.tasks.toList with
      | nil => rfl
      | cons task rest =>
        have htasks : p.tasks.toList = [] ++ task :: rest := ht
        exact absurd (.runs 0 pool htasks (fun _ => rfl) (fits.nodes.finishes _ _)) (h _ _)

/-! ## Rest -/

end Network

end Fieldbus
