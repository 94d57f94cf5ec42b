import Fieldbus.Network.Apply

/-!
# Building and using a network

These are the operations that somebody outside the network carries out on it: adding links,
pools and nodes, starting and terminating them, choosing routes and consumers, and making
stations and transports send, receive and answer. An operation on something that is gone
changes nothing.
-/

namespace Fieldbus

namespace Network

/-! ## Links and pools -/

/-- Adds a link and gives it a name. -/
def addLink (net : Network) (segment : Segment) (broadcastMac : Bytes) (maxFrameLength : Nat) :
    Except Fault (LinkId × Network) :=
  (Link.make segment broadcastMac maxFrameLength).map fun l =>
    (net.links.length, { net with links := net.links ++ [l] })

/-- Adds a pool and gives it a name. -/
def addPool (net : Network) : PoolId × Network :=
  (net.pools.length, { net with pools := net.pools ++ [{}] })

/-- Starts the worker of a link. -/
def startLink (net : Network) (id : LinkId) : Network := net.modifyLink id Link.start

/-- Stops the worker of a link. -/
def terminateLink (net : Network) (id : LinkId) : Network := net.modifyLink id Link.terminate

/-- How many stations are registered on a link. -/
def registered (net : Network) (id : LinkId) : Nat :=
  ((net.link? id).map fun l => l.registered net.isAlive).getD 0

/-! ## Nodes -/

/-- Adds a node and gives it a name. -/
def addNode (net : Network) (segment : Segment) (attachment : Attachment) (medium : Medium)
    (keepsFaults : Bool) : Except Fault (NodeId × Network) :=
  (Station.make segment attachment).map fun station =>
    (net.nodes.length,
      { net with nodes := net.nodes ++ [some { station, medium, keepsFaults }] })

/-- The attachment of a station to a wire of its own, which takes frames of any length. -/
def wireAttachment (mac : Bytes) (macs : Option (List Bytes)) : Attachment where
  mac
  macs := macs.getD [mac]
  broadcastMac := [0xFF]
  maxFrameLength := none

/-- Adds a node on a wire of its own. -/
def addWireNode (net : Network) (segment : Segment) (mac : Bytes) (macs : Option (List Bytes))
    (keepsFaults : Bool) : Except Fault (NodeId × Network) :=
  net.addNode segment (wireAttachment mac macs) (.wire false []) keepsFaults

/-- Adds a node on a link, as a rule on the segment of the link. -/
def addLinkNode (net : Network) (link : LinkId) (segment : Option Segment) (mac : Bytes)
    (macs : Option (List Bytes)) (keepsFaults : Bool) : Except Fault (NodeId × Network) :=
  match net.link? link with
  | none => .ok (net.nodes.length, net)
  | some l =>
    net.addNode (segment.getD l.segment) (l.attachment mac macs) (.tap link {}) keepsFaults

/-- Attaches the station of a node to its medium. -/
def start (net : Network) (id : NodeId) : Except Fault Network :=
  match net.node? id with
  | none => .ok net
  | some n =>
    match n.medium with
    | .wire _ sent => .ok (net.modifyNode id fun n => { n with medium := .wire true sent })
    | .tap link _ =>
      match net.link? link with
      | none => .ok net
      | some l =>
        (l.register net.isAlive n.station.segment n.station.attachment.mac id).map fun l =>
          net.modifyLink link fun _ => l

/-- Detaches the station of a node from its medium; on a link this frees its sub-address,
whoever holds it. -/
def detach (net : Network) (id : NodeId) : Network :=
  match net.node? id with
  | none => net
  | some n =>
    match n.medium with
    | .wire _ sent => net.modifyNode id fun n => { n with medium := .wire false sent }
    | .tap link _ => net.modifyLink link fun l => l.unregister n.station.attachment.mac

/-- Terminates the station of a node; only the first time has any effect. -/
def terminate (net : Network) (id : NodeId) : Network :=
  match net.node? id with
  | none => net
  | some n =>
    if n.station.terminated then net
    else (net.modifyStation id fun s => { s with terminated := true }).detach id

/-- The station of a node is attached to its wire; on a link there is no answer. -/
def isAttached? (net : Network) (id : NodeId) : Option Bool :=
  match net.node? id with
  | none => none
  | some n =>
    match n.medium with
    | .wire attached _ => some attached
    | .tap .. => none

/-- Adds a route from one node to another and says its slot. -/
def addRoute (net : Network) (id target : NodeId) : Except Fault (Nat × Network) :=
  match net.node? id, net.node? target with
  | some n, some neighbor =>
    (n.station.routes.add neighbor.station.segment target).map fun (slot, routes) =>
      (slot, net.modifyStation id fun s => { s with routes })
  | _, _ => .ok (0, net)

/-- Adds a route from one node to another at a slot. -/
def addRouteAt (net : Network) (id : NodeId) (slot : Nat) (target : NodeId) :
    Except Fault Network :=
  match net.node? id, net.node? target with
  | some n, some neighbor =>
    (n.station.routes.addAt slot neighbor.station.segment target).map fun routes =>
      net.modifyStation id fun s => { s with routes }
  | _, _ => .ok net

/-! ## Stations -/

/-- The station of a node sends a message. -/
def send (net : Network) (id : NodeId) (msg : Message) : Except Failure Unit × Network :=
  net.call id fun d m => d.send m msg

/-- The medium hands a frame of the node `origin` to the station of a node. -/
def receive (net : Network) (id : NodeId) (frame origin : Bytes) :
    Except Failure Unit × Network :=
  net.call id fun d m => d.receive m frame origin

/-- A neighbor hands an envelope to the station of a node. -/
def relay (net : Network) (id : NodeId) (ingress : Segment) (recipient : Address) (e : Envelope)
    (broadcast : Bool) : Network :=
  (net.call id fun d m => { events := d.relay m ingress recipient e broadcast }).2

/-- The station of a node answers a query for a router. -/
def answerRouterQuery (net : Network) (id : NodeId) (query : Envelope) :
    Except Failure Unit × Network :=
  net.call id fun d m => d.answerRouterQuery m query

/-- The station of a node answers a query for the number of its segment. -/
def answerSegmentQuery (net : Network) (id : NodeId) (query : Envelope) :
    Except Failure Unit × Network :=
  net.call id fun d m => d.answerSegmentQuery m query

/-- The station of a node notes which segments a node of its medium routes to. -/
def learn (net : Network) (id : NodeId) (mac : Bytes) (segments : List Segment) : Network :=
  net.modifyStation id fun s => s.learn mac segments

/-- A frame is put straight onto the medium of a node. -/
def emit (net : Network) (id : NodeId) (t : Transmission) : Except Fault Network :=
  match net.member? id with
  | none => .ok net
  | some m => (m.emit t).map net.apply

/-- Hands the last frame on the wire of a node to other nodes, one after the other. -/
def carry (net : Network) (id : NodeId) (targets : List NodeId) :
    Option (Except Failure Unit × Network) :=
  match net.node? id with
  | none => none
  | some n =>
    match n.medium with
    | .tap .. => none
    | .wire _ sent => sent.getLast?.map fun t =>
      targets.foldl (fun (result, net) target =>
        match result with
        | .error failure => (.error failure, net)
        | .ok () => net.receive target t.frame n.station.attachment.mac) (.ok (), net)

/-! ## Transports -/

/-- Ends the requests a collector still keeps. -/
def cancelAll (net : Network) (id : NodeId) (items : List Outgoing) : Network :=
  net.performAll id ((Outgoing.tickets items).map fun ticket => .resolve ticket .canceled)

/-- Starts the transport of a node. -/
def startTransport (net : Network) (id : NodeId) : Network :=
  match (net.node? id).bind (·.consumer) with
  | some (.dedicated t) => net.setConsumer id (some (.dedicated t.start))
  | some (.shared pool t) =>
    match net.pool? pool with
    | none => net
    | some p =>
      let (t, p) := t.start p
      (net.setConsumer id (some (.shared pool t))).modifyPool pool fun _ => p
  | _ => net

/-- Terminates the transport of a node. -/
def stopTransport (net : Network) (id : NodeId) : Network :=
  match (net.node? id).bind (·.consumer) with
  | some (.dedicated t) =>
    let (t, acts) := t.terminate
    (net.setConsumer id (some (.dedicated t))).performAll id acts
  | some (.shared pool t) =>
    match net.pool? pool with
    | none => net
    | some p =>
      let (t, p, acts) := t.terminate id p
      ((net.setConsumer id (some (.shared pool t))).modifyPool pool fun _ => p).performAll id acts
  | _ => net

/-- Takes what is queued on the collector of a node; requests among it are given up. -/
def takeOutgoing (net : Network) (id : NodeId) : Option (List Outgoing × Network) :=
  match (net.node? id).bind (·.consumer) with
  | some (.collector items) =>
    some (items, (net.setConsumer id (some (.collector []))).cancelAll id items)
  | _ => none

/-- Gives up the consumer of a node. -/
def dropConsumer (net : Network) (id : NodeId) : Network :=
  let net := match net.takeOutgoing id with
    | some (_, net) => net
    | none => net.stopTransport id
  net.modifyNode id fun n => { n with consumer := none, noted := [] }

/-- Gives a node another consumer, or none. -/
def replaceConsumer (net : Network) (id : NodeId) (kind : Option ConsumerKind) : Network :=
  (net.dropConsumer id).modifyNode id fun n =>
    { n with consumer := kind.map (Consumer.make n.station.segment) }

/-- Hands an envelope straight to the consumer of a node. -/
def deliver (net : Network) (id : NodeId) (e : Envelope) : Network :=
  match (net.node? id).bind (·.consumer) with
  | none => net
  | some consumer => net.consume id e consumer

/-- Hands something to be sent to the consumer of a node. -/
def submit (net : Network) (id : NodeId) (o : Outgoing) : Network :=
  match (net.node? id).bind (·.consumer) with
  | none => net
  | some (.collector items) => net.setConsumer id (some (.collector (items ++ [o])))
  | some (.dedicated t) =>
    let (t, acts) := t.submit o
    (net.setConsumer id (some (.dedicated t))).performAll id acts
  | some (.shared pool t) =>
    match t.submit o with
    | (some job, acts) => (net.spawn pool id job).performAll id acts
    | (none, acts) => net.performAll id acts

/-- A node ceases to exist. -/
def drop (net : Network) (id : NodeId) : Network :=
  let net := net.dropConsumer id
  { net with nodes := net.nodes.set id none }

/-! ## Visits -/

/-- What is seen of a station that joins a link and leaves it at once. -/
structure Visit where
  /-- The address of the station. -/
  address : Address
  /-- The segment of the link. -/
  segment : Segment
  /-- Whether the station could start. -/
  started : Except Fault Unit
  /-- How many stations were registered while it was there. -/
  during : Nat
  /-- How many stations were registered after it left. -/
  afterwards : Nat

/-- A station is made on a link, started, terminated and forgotten.

It frees its sub-address when it leaves, even if it could not start. -/
def visit (net : Network) (link : LinkId) (mac : Bytes) :
    Except Failure (Visit × Network) := do
  let (id, joined) ← (net.addLinkNode link none mac none false).mapError .fault
  let station := joined.directory id
  let address ← ((station.map Station.address).getD (.ok default)).mapError .overlong
  let started := joined.start id
  let present := started.toOption.getD joined
  let left := present.terminate id
  let visit : Visit := {
    address
    segment := (station.map Station.segment).getD Segment.here
    started := started.map fun _ => ()
    during := present.registered link
    afterwards := left.registered link }
  return (visit, left.drop id)

end Network

end Fieldbus
