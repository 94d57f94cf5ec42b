import Fieldbus.Station.Relay

/-!
# Receiving

A frame from the medium is taken apart, and discarded if it is a frame of the station itself.
Otherwise it is handed to the station's consumer, passed on to the neighbor that leads to its
destination, or, as a global broadcast, both. Frames that cannot be read are reported and
never returned to the medium.
-/

namespace Fieldbus

namespace Directory

/-- A header that calls for nothing from a station: the announcement of a segment's number
that was routed, or a destination on a segment nobody here leads to. -/
def ignores (d : Directory) (s : Station) (h : Header) : Bool :=
  match h.destination with
  | none => false
  | some destination =>
    h.message == some .networkNumberIs
      || !(destination.segment == Segment.here || destination.segment == Segment.everywhere
        || destination.segment == s.segment
        || (d.neighborOn? s destination.segment).isSome)

/-- The recipient a header names; a destination on the station's own segment is for the nodes
of the segment. -/
def recipientOf (s : Station) (h : Header) : Except Overlong (Option Address) :=
  match h.destination with
  | none => .ok none
  | some destination =>
    if destination.segment = s.segment then .ok none else some <$> destination.address

/-- The sender a header names, or else the node that put the frame on the medium. -/
def senderOf (h : Header) (origin : Bytes) : Except Overlong Address :=
  match h.source with
  | some source => source.address
  | none => Address.onLink origin

/-- Takes a frame apart; there is no envelope for a frame that calls for nothing. -/
def parse (d : Directory) (s : Station) (frame origin : Bytes) :
    Except Failure (Option Envelope) := do
  let (header, payload) ← (decode frame).mapError fun cause => Failure.fault (.codec cause)
  if d.ignores s header then return none
  let recipient ← (recipientOf s header).mapError .overlong
  let sender ← (senderOf header origin).mapError .overlong
  return some {
    sender
    recipient
    link := if s.shares sender then none else some origin
    payload
    hopCount := (header.destination.map (·.hopCount)).getD fullHopCount
    expectsReply := header.expectsReply
    priority := header.priority
    message := header.message }

/-- The frame of an envelope is one the station put on the medium itself: it is the sender,
or it passed a global broadcast on. -/
def isOwn (s : Station) (e : Envelope) (origin : Bytes) : Bool :=
  s.answersTo e.sender
    || (e.recipient.any Address.isGlobal && s.attachment.macs.contains origin)

/-- The envelope as it is handed to a neighbor on its way to one segment. -/
def forwarded (s : Station) (e : Envelope) : Envelope :=
  { e with sender := s.departing e.sender, link := none }

/-- What a station does with an envelope from its medium. -/
def route (d : Directory) (m : Member) (e : Envelope) (origin : Bytes) : List Event :=
  if isOwn m.station e origin then [.dropped m.id]
  else
    match e.recipient.filter fun a => !m.station.answersTo a with
    | none => [.arrived m.id e]
    | some recipient =>
      if recipient.isGlobal then
        d.flood e.hopCount.toNat m e [e.sender.segment] ++ [.arrived m.id e]
      else
        match d.neighborOn? m.station recipient.segment with
        | none => [.dropped m.id]
        | some n =>
          let e := forwarded m.station e
          .relayed m.id n.id m.station.segment recipient e false ::
            d.relay n m.station.segment recipient e false

/-- What a station does with a frame that the node `origin` put on its medium. -/
def receive (d : Directory) (m : Member) (frame origin : Bytes) : Run :=
  if m.station.terminated then {}
  else
    match d.parse m.station frame origin with
    | .ok (some e) => { events := .received m.id :: d.route m e origin }
    | .ok none => { events := [.received m.id, .dropped m.id] }
    | .error (.fault fault) =>
      { events := [.received m.id, .dropped m.id, .reported m.id fault] }
    | .error (.overlong overlong) => (Run.brokenOff overlong).after [.received m.id]

/-- A terminated station ignores its medium. -/
theorem receive_of_terminated {d : Directory} {m : Member} (h : m.station.terminated = true)
    (frame origin : Bytes) : d.receive m frame origin = {} := by
  simp only [receive, h, ite_true]

end Directory

end Fieldbus
