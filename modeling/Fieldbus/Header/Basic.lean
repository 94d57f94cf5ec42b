import Fieldbus.Address
import Fieldbus.Message.Kind

/-!
# Headers

A header says where a frame is headed, where it came from, how urgent it is and, for a
network-layer message, of what kind it is. Its sub-addresses are kept as they were read or
given: an empty one is not the same as an absent one until an address is made of it.
-/

namespace Fieldbus

/-- The only version of the protocol that is understood. -/
def protocolVersion : UInt8 := 1

/-- The hop count of a frame that enters the routed network. -/
def fullHopCount : UInt8 := 0xFF

/-- How urgent a message is, from the least to the most. -/
inductive Priority where
  | normal
  | urgent
  | criticalEquipment
  | lifeSafety
  deriving DecidableEq, Repr, Inhabited

namespace Priority

/-- The two bits that spell a priority. -/
def bits : Priority → UInt8
  | normal => 0
  | urgent => 1
  | criticalEquipment => 2
  | lifeSafety => 3

/-- The priority spelled by the two low bits of a byte. -/
def ofBits (control : UInt8) : Priority :=
  match control &&& 0x03 with
  | 0 => normal
  | 1 => urgent
  | 2 => criticalEquipment
  | _ => lifeSafety

/-- The less urgent one comes first. -/
instance : Ord Priority := ⟨fun p q => compare p.bits q.bits⟩

/-- Priorities from the least to the most urgent. -/
def sort (priorities : List Priority) : List Priority :=
  priorities.mergeSort fun p q => (compare p q).isLE

end Priority

/-- Where a routed frame is headed. -/
structure Destination where
  /-- The segment of the recipient. -/
  segment : Segment
  /-- The sub-address of the recipient on that segment. -/
  mac : Option Bytes
  /-- How many more routers may pass a copy on. -/
  hopCount : UInt8
  deriving DecidableEq, Repr

/-- Where a routed frame came from. -/
structure Source where
  /-- The segment of the sender. -/
  segment : Segment
  /-- The sub-address of the sender on that segment. -/
  mac : Option Bytes
  deriving DecidableEq, Repr

/-- The destination that leads to an address. -/
def Destination.to (recipient : Address) (hopCount : UInt8) : Destination :=
  ⟨recipient.segment, recipient.mac, hopCount⟩

/-- The address a destination leads to. -/
def Destination.address (d : Destination) : Except Overlong Address :=
  Address.of d.segment d.mac

/-- The source that names an address. -/
def Source.of (sender : Address) : Source :=
  ⟨sender.segment, sender.mac⟩

/-- The address a source names. -/
def Source.address (s : Source) : Except Overlong Address :=
  Address.of s.segment s.mac

/-- What is written in front of a payload. -/
structure Header where
  /-- The sender waits for an answer. -/
  expectsReply : Bool := false
  /-- How urgent the message is. -/
  priority : Priority := .normal
  /-- Where the frame is headed; absent on the segment of the recipient. -/
  destination : Option Destination := none
  /-- Where the frame came from; absent on the segment of the sender. -/
  source : Option Source := none
  /-- What a network-layer message is about; absent above the network layer. -/
  message : Option MessageKind := none
  deriving DecidableEq, Repr

namespace Header

/-- The header of a frame that stays on the segment it is sent on. -/
def onLink (message : Option MessageKind) (expectsReply : Bool) : Header :=
  { expectsReply, message }

/-- The frame belongs to the network layer itself. -/
def isNetworkMessage (h : Header) : Bool := h.message.isSome

/-- The sub-addresses a header spells out, destination first. -/
def macs (h : Header) : List Bytes :=
  (h.destination.bind (·.mac)).toList ++ (h.source.bind (·.mac)).toList

/-- Every sub-address of the header fits behind a length byte. -/
def Fits (h : Header) : Prop := ∀ m ∈ h.macs, m.length ≤ maxMacLength

instance : DecidablePred Fits := fun h => by unfold Fits; infer_instance

end Header

@[simp] theorem Destination.address_to (a : Address) (hopCount : UInt8) :
    (Destination.to a hopCount).address = .ok a :=
  Address.of_parts a

@[simp] theorem Source.address_of (a : Address) : (Source.of a).address = .ok a :=
  Address.of_parts a

end Fieldbus
