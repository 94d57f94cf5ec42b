import Fieldbus.Message.Basic
import Fieldbus.Station.Basic

/-!
# What sending and routing cause

Handling a frame changes nothing that routing looks at, so it is described by the list of
events it causes, in the order in which they happen, at all stations it touches. A `Run` adds
how the call ended.
-/

namespace Fieldbus

/-- Something that happens at a node while a message or frame is handled. -/
inductive Event where
  /-- A link handed a frame of so many bytes to the tap of the node. -/
  | handed (node : NodeId) (length : Nat)
  /-- The station took a frame in. -/
  | received (node : NodeId)
  /-- A frame was discarded. -/
  | dropped (node : NodeId)
  /-- An envelope for the node was handed to its consumer. -/
  | arrived (node : NodeId) (envelope : Envelope)
  /-- The node at `source` handed an envelope on to its neighbor at `target`. -/
  | relayed (source target : NodeId) (ingress : Segment) (recipient : Address)
      (envelope : Envelope) (broadcast : Bool)
  /-- The medium took a frame. -/
  | transmitted (node : NodeId) (transmission : Transmission)
  /-- A fault that no caller can be told of was reported. -/
  | reported (node : NodeId) (fault : Fault)
  deriving DecidableEq, Repr

/-- What a call caused and how it ended. -/
structure Run where
  /-- What happened, in order. -/
  events : List Event := []
  /-- How the call ended. -/
  result : Except Failure Unit := .ok ()

namespace Run

/-- A call that is refused before it causes anything. -/
def refused (fault : Fault) : Run := { result := .error (.fault fault) }

/-- A call that breaks off before it causes anything. -/
def brokenOff (overlong : Overlong) : Run := { result := .error (.overlong overlong) }

/-- A call in front of which other things happened. -/
def after (events : List Event) (r : Run) : Run := { r with events := events ++ r.events }

end Run

/-- The transmission of a message under a header. -/
def Message.transmission (msg : Message) (header : Header) (router : Option Bytes) :
    Transmission where
  recipient := msg.recipient
  router
  frame := header.bytes ++ msg.payload
  broadcast := msg.broadcast
  expectsReply := msg.expectsReply

/-- The transmission of an envelope to a node of the medium, or to all of them. -/
def Envelope.transmission (e : Envelope) (recipient : Address) (broadcast : Bool) :
    Transmission where
  recipient
  router := none
  frame := e.frame
  broadcast
  expectsReply := e.expectsReply

/-- The envelope as it is put onto the station's segment: there it needs no destination if
the segment is its last. -/
def Station.landing (s : Station) (e : Envelope) : Envelope :=
  { e with recipient := e.recipient.filter fun a => !s.shares a }

namespace Member

/-- Hands a frame to the medium, which refuses one that is too long. -/
def emit (m : Member) (t : Transmission) : Except Fault Event :=
  if m.station.attachment.Takes t.frame.length then .ok (.transmitted m.id t)
  else .error (.frameTooLarge t.frame.length)

/-- Puts a message onto the medium and tells the caller if the medium refuses it. -/
def put (m : Member) (msg : Message) (header : Header) (router : Option Bytes) : Run :=
  match m.emit (msg.transmission header router) with
  | .ok event => { events := [event] }
  | .error fault => .refused fault

/-- Puts an envelope onto the medium and reports the fault if the medium refuses it. -/
def putEnvelope (m : Member) (recipient : Address) (e : Envelope) (broadcast : Bool) :
    List Event :=
  match m.emit ((m.station.landing e).transmission recipient broadcast) with
  | .ok event => [event]
  | .error fault => [.reported m.id fault]

end Member

end Fieldbus
