import Fieldbus.Table
import Fieldbus.Transport.Outgoing

/-!
# Dispatching between a station and its application

A dispatcher executes what the application sends and sorts what the station delivers: queries
of the network layer are answered, announcements are learned, replies go to the requests they
answer and all else to the application. It keeps the requests whose reply is awaited, by peer
and invoke id, and says what is to be done as a list of acts. Whether a request can be sent is
looked up in `attempt`, which foretells the result of sending a message. Main statements: a
sweep ends the requests that are overdue and leaves none of them (`resolved_sweep`,
`overdue_sweep`).
-/

namespace Fieldbus

/-- An application above a transport. -/
structure Application where
  /-- The invoke id of an envelope that answers a request. -/
  correlate : Envelope → Option UInt8
  /-- What the application sends when it is handed an envelope. -/
  respond : Envelope → List Message

namespace Application

/-- Takes the first byte of a payload for an invoke id. -/
def firstByte (e : Envelope) : Option UInt8 := e.payload.head?

/-- Takes note of envelopes and answers nothing. -/
def recorder (correlates : Bool) : Application where
  correlate e := if correlates then firstByte e else none
  respond _ := []

/-- Sends every payload back to its sender, through the router it came by. -/
def echo (correlates : Bool) : Application where
  correlate := (recorder correlates).correlate
  respond e :=
    match e.link.map Address.onLink with
    | none => [{ recipient := e.sender, payload := e.payload }]
    | some (.ok router) => [{ recipient := e.sender, router := some router, payload := e.payload }]
    | some (.error _) => []

end Application

/-- What tells the reply to a request from others. -/
structure RequestKey where
  /-- Who is asked; on segment zero for a node of the asker's segment. -/
  peer : Address
  /-- The number that the reply carries. -/
  invokeId : UInt8
  deriving DecidableEq, Repr

/-- A request whose reply is awaited. -/
structure Waiting where
  /-- The name under which the outcome is given back. -/
  ticket : Ticket
  /-- The time from which the reply comes too late. -/
  deadline : Nat
  deriving DecidableEq, Repr

/-- What a transport wants done. -/
inductive Act where
  /-- The station sends a message; nobody is told of a fault. -/
  | send (message : Message)
  /-- The station answers a query for a router. -/
  | answerRouterQuery (query : Envelope)
  /-- The station answers a query for the number of its segment. -/
  | answerSegmentQuery (query : Envelope)
  /-- The station notes which segments a node of its medium routes to. -/
  | learn (mac : Bytes) (segments : List Segment)
  /-- The application takes note of an envelope. -/
  | note (envelope : Envelope)
  /-- A request ends. -/
  | resolve (ticket : Ticket) (outcome : Outcome)
  deriving DecidableEq, Repr

/-- The ticket of the request that an act ends. -/
def Act.resolved? : Act → Option Ticket
  | resolve ticket _ => some ticket
  | _ => none

/-- The tickets of the requests that a list of acts ends, in order. -/
def Act.resolved (acts : List Act) : List Ticket := acts.filterMap Act.resolved?

/-- Ends the requests among what waits to be sent. -/
def Outgoing.failAll (items : List Outgoing) (fault : Fault) : List Act :=
  (Outgoing.tickets items).map fun ticket => .resolve ticket (.failed fault)

/-- The state of a dispatcher. -/
structure Dispatcher where
  /-- The segment of the station it works for. -/
  segment : Segment
  /-- The application it works for. -/
  application : Application
  /-- The requests whose reply is awaited. -/
  pending : Table RequestKey Waiting := ∅

namespace Dispatcher

/-- An address as it is kept in keys: the station's own segment is written as zero. -/
def peer (d : Dispatcher) (a : Address) : Address :=
  if a.isHere || a.segment == d.segment then a.withSegment Segment.here else a

/-- The key of the reply to a request. -/
def key (d : Dispatcher) (r : Request) : RequestKey := ⟨d.peer r.recipient, r.invokeId⟩

/-- Executes a request at a given time.

The reply is awaited before the message goes out. A request of the same key that is still
awaited is given up, and one that cannot be sent fails at once. A request stays awaited if the
send breaks off. -/
def ask (d : Dispatcher) (attempt : Message → Except Failure Unit) (now : Nat) (r : Request) :
    Dispatcher × List Act :=
  let key := d.key r
  let displaced : List Act :=
    (d.pending.get? key).toList.map fun w => .resolve w.ticket .canceled
  match attempt r.message with
  | .error (.fault fault) =>
    ({ d with pending := d.pending.erase key },
      displaced ++ [.send r.message, .resolve r.ticket (.failed fault)])
  | _ =>
    ({ d with pending := d.pending.insert key ⟨r.ticket, now + r.timeout⟩ },
      displaced ++ [.send r.message])

/-- Executes what the application sends. -/
def execute (d : Dispatcher) (attempt : Message → Except Failure Unit) (now : Nat) :
    Outgoing → Dispatcher × List Act
  | .message m => (d, [.send m])
  | .request r => d.ask attempt now r

/-- Hands an envelope to the application, which may answer it before taking note of it. -/
def handUp (d : Dispatcher) (e : Envelope) : List Act :=
  (d.application.respond e).map .send ++ [.note e]

/-- The key and the request that an envelope replies to. -/
def awaited? (d : Dispatcher) (e : Envelope) : Option (RequestKey × Waiting) := do
  let invokeId ← d.application.correlate e
  let key : RequestKey := ⟨d.peer e.sender, invokeId⟩
  let waiting ← d.pending.get? key
  return (key, waiting)

/-- Learns the routers an envelope announces, behind the node it came by. -/
def learn (e : Envelope) : List Act :=
  match RouterAnnouncement.reader.exactly e.payload, e.link <|> e.sender.mac with
  | .ok announcement, some mac => [.learn mac announcement.segments]
  | _, _ => []

/-- Sorts an envelope that the station delivered. -/
def dispatch (d : Dispatcher) (e : Envelope) : Dispatcher × List Act :=
  match e.message with
  | some .whoIsRouterToNetwork => (d, [.answerRouterQuery e])
  | some .iAmRouterToNetwork => (d, learn e)
  | some .whatIsNetworkNumber => (d, [.answerSegmentQuery e])
  | _ =>
    match d.awaited? e with
    | some (key, waiting) =>
      ({ d with pending := d.pending.erase key }, [.resolve waiting.ticket (.replied e)])
    | none => (d, d.handUp e)

/-- The requests whose deadline has passed. -/
def overdue (d : Dispatcher) (now : Nat) : List Waiting :=
  d.pending.values.filter fun w => w.deadline ≤ now

/-- Fails every request whose deadline has passed. -/
def sweep (d : Dispatcher) (now : Nat) : Dispatcher × List Act :=
  ({ d with pending := ⟨d.pending.entries.filter fun e => now < e.2.deadline⟩ },
    (d.overdue now).map fun w => .resolve w.ticket (.failed .timeout))

/-- How many requests a sweep fails. -/
def expired (d : Dispatcher) (now : Nat) : Nat := (d.overdue now).length

/-- Fails every request. -/
def close (d : Dispatcher) : Dispatcher × List Act :=
  ({ d with pending := ∅ },
    d.pending.values.map fun w => .resolve w.ticket (.failed .closed))

/-- After a sweep nothing is overdue. -/
theorem overdue_sweep (d : Dispatcher) (now : Nat) : (d.sweep now).1.overdue now = [] := by
  simp [sweep, overdue, Table.values, List.filter_eq_nil_iff]

end Dispatcher

end Fieldbus
