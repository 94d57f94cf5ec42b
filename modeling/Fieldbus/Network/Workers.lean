import Fieldbus.Network.Operations

/-!
# Workers

Links hand out frames, transports with a worker of their own work through their queues, and
pools run jobs. `Network.work?` is one unit of work of one worker, and `Network.settle` lets
all of them work in turn until none has anything left to do. Workers are taken to get through
what they do: where sub-addresses fit no call breaks off, and what a worker leaves undone that
breaks off over one is told apart from this (`Directory.reached`, `Network.finishes`). Main
statement: a network is at rest exactly if no worker can do anything (`atRest_iff`).
-/

namespace Fieldbus

/-- Something in a network that works on its own. -/
inductive Worker where
  /-- The worker of a link. -/
  | link (id : LinkId)
  /-- The worker of the dedicated transport at a node. -/
  | transport (id : NodeId)
  /-- The executors of a pool. -/
  | pool (id : PoolId)
  deriving DecidableEq, Repr

namespace Network

/-- What handing out a frame of a link causes: its recipients take it in, one after the
other, and none of them breaks off. -/
def deliveries (net : Network) (l : Link) (f : LinkFrame) : List Event :=
  (l.recipients net.isAlive f).flatMap fun id =>
    .handed id f.data.length ::
      ((net.member? id).map fun m => (net.directory.receive m f.data f.origin).events).getD []

/-- A link hands out its oldest frame. -/
def handOut (net : Network) (id : LinkId) : Network :=
  match net.link? id with
  | none => net
  | some l =>
    match l.queue.pop with
    | none => net
    | some (f, queue) =>
      (net.modifyLink id fun l => { l with queue }).applyAll (net.deliveries l f)

/-- The dedicated transport of a node. -/
def dedicated? (net : Network) (id : NodeId) : Option Dedicated :=
  match (net.node? id).bind (·.consumer) with
  | some (.dedicated t) => some t
  | _ => none

/-- The shared transport of a node. -/
def shared? (net : Network) (id : NodeId) : Option (PoolId × Shared) :=
  match (net.node? id).bind (·.consumer) with
  | some (.shared pool t) => some (pool, t)
  | _ => none

/-- The dedicated transport of a node does one step, and gets through with it. -/
def stepDedicated (net : Network) (id : NodeId) (step : Dedicated → Dedicated × List Act) :
    Network :=
  match net.dedicated? id with
  | none => net
  | some t =>
    let (t, acts) := step t
    (net.setConsumer id (some (.dedicated t))).performAll id acts

/-- The worker of a dedicated transport goes once round its three steps, and gets through. -/
def iterate (net : Network) (id : NodeId) : Network :=
  let sent := net.stepDedicated id fun t => t.executeNext (net.attempt id) net.now
  let sorted := sent.stepDedicated id Dedicated.dispatchNext
  sorted.stepDedicated id fun t => t.sweep net.now

/-- A pool runs its oldest job. -/
def runTask (net : Network) (id : PoolId) : Network :=
  match (net.pool? id).bind (·.tasks.pop) with
  | none => net
  | some (task, tasks) =>
    let net := net.modifyPool id fun p => { p with tasks }
    match net.shared? task.owner with
    | none => net
    | some (pool, t) =>
      let (t, acts) := t.run (net.attempt task.owner) net.now task.job
      (net.setConsumer task.owner (some (.shared pool t))).performAll task.owner acts

/-- A worker has something to do. -/
def isBusy (net : Network) : Worker → Bool
  | .link id => (net.link? id).any Link.isBusy
  | .transport id => (net.dedicated? id).any fun t => t.isBusy net.now
  | .pool id => (net.pool? id).any fun p => !p.tasks.isEmpty

/-- One unit of work of one worker. -/
def work (net : Network) : Worker → Network
  | .link id => net.handOut id
  | .transport id => net.iterate id
  | .pool id => net.runTask id

/-- One unit of work of one worker, if it has something to do. -/
def work? (net : Network) (w : Worker) : Option Network :=
  if net.isBusy w then some (net.work w) else none

/-- Everything that works on its own. -/
def workers (net : Network) : List Worker :=
  (List.range net.links.length).map .link ++ (List.range net.nodes.length).map .transport
    ++ (List.range net.pools.length).map .pool

/-- No worker has anything to do. -/
def atRest (net : Network) : Bool :=
  net.workers.all fun w => !net.isBusy w

/-- Every worker that has something to do does one unit of work, in turn. -/
def round (net : Network) : Network :=
  net.workers.foldl (fun net w => (net.work? w).getD net) net

/-- Lets the workers work until none has anything left to do, for at most `rounds` rounds. -/
def settle : (rounds : Nat) → Network → Network
  | 0, net => net
  | rounds + 1, net => if net.atRest then net else settle rounds net.round

/-- The requests on shared transports that are overdue fail. -/
def sweepShared (net : Network) : Network :=
  (List.range net.nodes.length).foldl (fun net id =>
    match net.shared? id with
    | none => net
    | some (pool, t) =>
      let (t, acts) := t.sweep net.now
      (net.setConsumer id (some (.shared pool t))).performAll id acts) net

/-- Lets the network come to rest, after which overdue requests have failed. -/
def rest (rounds : Nat) (net : Network) : Network :=
  (net.settle rounds).sweepShared

/-- A network is at rest exactly if no worker can do anything. -/
theorem atRest_iff {net : Network} : net.atRest = true ↔ ∀ w ∈ net.workers, net.work? w = none := by
  simp [atRest, work?]

end Network

end Fieldbus
