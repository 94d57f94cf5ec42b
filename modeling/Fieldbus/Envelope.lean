import Fieldbus.Header.Codec

/-!
# Envelopes

An envelope is a frame taken apart for routing: sender and recipient are addresses, and the
sub-address of the node that put it on the medium is kept as a hint for the way back. An
envelope can always be written, since addresses fit their written form (`header_fits`).
-/

namespace Fieldbus

/-- A frame taken apart for routing. -/
structure Envelope where
  /-- Who sent it; on segment zero until it leaves the segment it was sent on. -/
  sender : Address
  /-- Who it is for; absent for the nodes of the segment it is received on. -/
  recipient : Option Address
  /-- The node that put it on the medium, if that is not the sender. -/
  link : Option Bytes := none
  /-- The message, or the body of a network-layer message. -/
  payload : Bytes
  /-- How many more routers may pass a copy on. -/
  hopCount : UInt8 := fullHopCount
  /-- The sender waits for an answer. -/
  expectsReply : Bool := false
  /-- How urgent the message is. -/
  priority : Priority := .normal
  /-- What a network-layer message is about; absent above the network layer. -/
  message : Option MessageKind := none
  deriving DecidableEq, Repr

namespace Envelope

/-- The envelope belongs to the network layer itself. -/
def isNetworkMessage (e : Envelope) : Bool := e.message.isSome

/-- The header under which an envelope is put on a medium.

A sender on segment zero is left out: who receives the frame knows it from the medium. -/
def header (e : Envelope) : Header where
  expectsReply := e.expectsReply
  priority := e.priority
  destination := e.recipient.map fun a => Destination.to a e.hopCount
  source := if e.sender.isHere then none else some (Source.of e.sender)
  message := e.message

/-- The frame of an envelope. -/
def frame (e : Envelope) : Bytes := e.header.bytes ++ e.payload

/-- The header of an envelope can always be written. -/
theorem header_fits (e : Envelope) : e.header.Fits := by
  intro m hm
  simp only [Header.macs, header, List.mem_append, Option.mem_toList, Option.bind_eq_some_iff,
    Option.map_eq_some_iff] at hm
  rcases hm with ⟨d, ⟨a, _, rfl⟩, hd⟩ | ⟨s, hs, hm⟩
  · exact a.mac_length_le m hd
  · split at hs
    · cases hs
    · cases hs
      exact e.sender.mac_length_le m hm

/-- Writing an envelope never fails and yields its frame. -/
theorem encode_header (e : Envelope) : encode e.header e.payload = .ok e.frame :=
  encode_of_fits e.header_fits e.payload

end Envelope

end Fieldbus
