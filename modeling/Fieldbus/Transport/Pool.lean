import Fieldbus.Mailbox
import Fieldbus.Station.Basic
import Fieldbus.Transport.Dispatcher

/-!
# Transports on a common pool

A shared transport runs every send and every dispatch as a job on the executors of a pool. The
executors are built when the first transport joins and shut down when the last one leaves; a
later transport gets new ones. Nothing is processed before a transport joins: deliveries are
dropped and requests fail. A transport that leaves takes the jobs it has not run off the pool.
-/

namespace Fieldbus

/-- The name of a pool in its network. -/
abbrev PoolId := Nat

/-- One send or one dispatch. -/
inductive Job where
  /-- Executes what the application sends. -/
  | execute (outgoing : Outgoing)
  /-- Dispatches what the station delivered. -/
  | dispatch (envelope : Envelope)
  deriving DecidableEq, Repr

/-- The send a job executes. -/
def Job.outgoing? : Job → Option Outgoing
  | execute o => some o
  | dispatch _ => none

/-- A job of the transport at a node. -/
structure Task where
  /-- The node whose transport the job belongs to. -/
  owner : NodeId
  /-- What is to be done. -/
  job : Job
  deriving DecidableEq, Repr

/-- Executors shared by transports. -/
structure Pool where
  /-- How many transports have joined and not left. -/
  active : Nat := 0
  /-- Which executors exist, counted from zero over the life of the pool. -/
  executors : Option Nat := none
  /-- How many executors have been built. -/
  built : Nat := 0
  /-- Jobs that wait for an executor. -/
  tasks : Mailbox Task := ∅
  deriving DecidableEq, Repr

namespace Pool

/-- The executors exist. -/
def isRunning (p : Pool) : Bool := p.executors.isSome

/-- Joins the pool and says on which executors; the first to join has them built. -/
def acquire (p : Pool) : Nat × Pool :=
  match p.executors with
  | some g => (g, { p with active := p.active + 1 })
  | none =>
    (p.built, { p with active := p.active + 1, executors := some p.built, built := p.built + 1 })

/-- Leaves the pool; the last to leave has the executors shut down. -/
def release (p : Pool) : Pool :=
  if p.active - 1 > 0 then { p with active := p.active - 1 }
  else { p with active := 0, executors := none, tasks := ∅ }

/-- Queues a job, unless the executors it is meant for have been shut down. -/
def spawn (p : Pool) (executors : Nat) (task : Task) : Pool :=
  if p.executors = some executors then { p with tasks := p.tasks.push task } else p

/-- Takes the jobs of one node off the pool. -/
def withdraw (p : Pool) (owner : NodeId) : List Job × Pool :=
  let (mine, others) := p.tasks.toList.partition fun t => t.owner == owner
  (mine.map (·.job), { p with tasks := ⟨others⟩ })

@[simp] theorem active_acquire (p : Pool) : p.acquire.2.active = p.active + 1 := by
  unfold acquire
  split <;> rfl

/-- Whoever joins is on the executors that exist from then on. -/
theorem executors_acquire (p : Pool) : p.acquire.2.executors = some p.acquire.1 := by
  unfold acquire
  split
  · assumption
  · rfl

@[simp] theorem active_release (p : Pool) : p.release.active = p.active - 1 := by
  by_cases h : p.active - 1 > 0
  · simp [release, h]
  · have h0 : p.active - 1 = 0 := by omega
    simp [release, h0]

/-- The executors stay as long as somebody is left. -/
theorem isRunning_release (p : Pool) :
    p.release.isRunning = (decide (1 < p.active) && p.isRunning) := by
  by_cases h : p.active - 1 > 0
  · have h1 : 1 < p.active := by omega
    simp [release, h, h1, isRunning]
  · have h1 : ¬ 1 < p.active := by omega
    simp [release, h, h1, isRunning]

end Pool

/-- A transport whose work is done by the executors of a pool. -/
structure Shared where
  /-- What executes sends and sorts deliveries. -/
  dispatcher : Dispatcher
  /-- The executors the transport has joined. -/
  executors : Option Nat := none
  /-- The transport has been terminated. -/
  closed : Bool := false

namespace Shared

/-- The job of a delivery; a transport that has not joined drops it. -/
def deliver (t : Shared) (e : Envelope) : Option (Nat × Job) :=
  t.executors.map fun g => (g, .dispatch e)

/-- The job of a send; on a transport that has not joined a request fails at once. -/
def submit (t : Shared) (o : Outgoing) : Option (Nat × Job) × List Act :=
  match t.executors with
  | some g => (some (g, .execute o), [])
  | none => (none, Outgoing.failAll [o] .closed)

/-- Joins the pool, unless the transport is closed or has joined before. -/
def start (t : Shared) (p : Pool) : Shared × Pool :=
  if t.executors.isSome || t.closed then (t, p)
  else
    let (g, p) := p.acquire
    ({ t with executors := some g }, p)

/-- Leaves the pool for good and fails what is unresolved. -/
def terminate (t : Shared) (owner : NodeId) (p : Pool) : Shared × Pool × List Act :=
  if t.closed then (t, p, [])
  else
    let (dispatcher, pending) := t.dispatcher.close
    let (jobs, p) := p.withdraw owner
    let left := if t.executors.isSome then p.release else p
    ({ t with dispatcher, executors := none, closed := true }, left,
      pending ++ Outgoing.failAll (jobs.filterMap Job.outgoing?) .closed)

/-- Does a job. -/
def run (t : Shared) (attempt : Message → Except Failure Unit) (now : Nat) (job : Job) :
    Shared × List Act :=
  match job with
  | .execute o =>
    let (dispatcher, acts) := t.dispatcher.execute attempt now o
    ({ t with dispatcher }, acts)
  | .dispatch e =>
    let (dispatcher, acts) := t.dispatcher.dispatch e
    ({ t with dispatcher }, acts)

/-- Fails the requests that are overdue. -/
def sweep (t : Shared) (now : Nat) : Shared × List Act :=
  let (dispatcher, acts) := t.dispatcher.sweep now
  ({ t with dispatcher }, acts)

end Shared

end Fieldbus
