import Fieldbus.Address

/-!
# Faults of sending and routing

`Fault` names every cause for which a station, a link or a transport refuses or gives up
something it was asked to do; `Fault.message` words it. `Failure` adds the one way a call
can break off: an address was needed that cannot be made.
-/

namespace Fieldbus

/-- Why something was refused or given up. -/
inductive Fault where
  /-- The number is none that a segment, or a route to one, can have. -/
  | invalidSegment (segment : Segment)
  /-- The number is none that a slot of a route table can have. -/
  | invalidSlot (slot : Nat)
  /-- Every slot of the route table is taken. -/
  | noRoomForRoutes
  /-- A router was named for a recipient on the sender's own segment. -/
  | routerForLocalRecipient (recipient : Address)
  /-- The station is on another segment than the link it wants to join. -/
  | wrongSegment (expected actual : Segment)
  /-- Another station of the link has the sub-address. -/
  | duplicateMac (mac : Bytes)
  /-- No neighbor leads to the segment. -/
  | unroutable (segment : Segment)
  /-- A frame or body could not be read. -/
  | codec (cause : FrameError)
  /-- The frame is longer than the medium takes. -/
  | frameTooLarge (length : Nat)
  /-- The transport has been closed. -/
  | closed
  /-- No reply came before the deadline. -/
  | timeout
  deriving DecidableEq, Repr

/-- The wording of a fault. -/
def Fault.message : Fault → String
  | invalidSegment segment => s!"invalid segment: {segment.toNat}"
  | invalidSlot slot => s!"invalid port: {slot}"
  | noRoomForRoutes => "no room for more routes"
  | routerForLocalRecipient recipient =>
    s!"router provided for local recipient {recipient.text}"
  | wrongSegment expected actual =>
    s!"medium serves segment {expected.toNat}, not {actual.toNat}"
  | duplicateMac mac => s!"sub-address already attached: {Bytes.hex mac}"
  | unroutable segment => s!"no route to segment {segment.toNat}"
  | codec cause => s!"codec error: {cause.message}"
  | frameTooLarge length => s!"frame too large: {length}"
  | closed => "closed"
  | timeout => "request timed out"

/-- How a call ends that does not succeed. -/
inductive Failure where
  /-- The call is refused for a cause the caller is told. -/
  | fault (cause : Fault)
  /-- The call breaks off because a sub-address makes no address. -/
  | overlong (cause : Overlong)
  deriving DecidableEq, Repr

end Fieldbus
