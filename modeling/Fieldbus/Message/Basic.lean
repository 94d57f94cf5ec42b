import Fieldbus.Envelope
import Fieldbus.Message.Body

/-!
# Messages

A message is what somebody asks a station to send: for whom, through which router, and with
which payload. It goes out under one of two headers, or travels in an envelope to the
neighbors of the station.
-/

namespace Fieldbus

/-- What a station is asked to send. -/
structure Message where
  /-- Who the message is for. -/
  recipient : Address
  /-- A node of the sender's segment that knows the way to a remote recipient. -/
  router : Option Address := none
  /-- What a network-layer message is about; absent above the network layer. -/
  kind : Option MessageKind := none
  /-- The message itself, or the body of a network-layer message. -/
  payload : Bytes
  /-- Every node of the recipient's segment gets the message. -/
  broadcast : Bool := false
  /-- The sender waits for an answer. -/
  expectsReply : Bool := false
  deriving DecidableEq, Repr

namespace Message

/-- The header of a message for the sender's own segment. -/
def header (m : Message) : Header := Header.onLink m.kind m.expectsReply

/-- The header of a message that an external router takes to its segment. -/
def routedHeader (m : Message) : Header :=
  { m.header with destination := some (Destination.to m.recipient fullHopCount) }

/-- The envelope in which a message is handed to a neighbor. -/
def envelope (m : Message) (sender : Address) : Envelope where
  sender
  recipient := some m.recipient
  payload := m.payload
  expectsReply := m.expectsReply
  message := m.kind

/-- Asks which router reaches a segment, or every router for its segments. -/
def routerQuery (recipient : Address) (segment : Option Segment) (broadcast : Bool) : Message where
  recipient
  kind := some .whoIsRouterToNetwork
  payload := RouterQuery.bytes ⟨segment⟩
  broadcast

/-- Tells every node of a segment which segments the sender reaches. -/
def routerAnnouncement (recipient : Address) (segments : List Segment) : Message where
  recipient
  kind := some .iAmRouterToNetwork
  payload := RouterAnnouncement.bytes ⟨segments⟩
  broadcast := true

/-- Tells every node of a segment the number of the segment. -/
def segmentAnnouncement (recipient : Address) (segment : Segment) : Message where
  recipient
  kind := some .networkNumberIs
  payload := SegmentAnnouncement.bytes ⟨segment, true⟩
  broadcast := true

/-- Neither header of a message has an overlong sub-address. -/
theorem header_fits (m : Message) : m.header.Fits := by
  intro mac h
  simp [Header.macs, header, Header.onLink] at h

theorem routedHeader_fits (m : Message) : m.routedHeader.Fits := by
  intro mac h
  simp only [Header.macs, routedHeader, header, Header.onLink, Destination.to, List.mem_append,
    Option.mem_toList, Option.bind_some, Option.bind_none, reduceCtorEq, or_false] at h
  exact m.recipient.mac_length_le mac h

end Message

end Fieldbus
