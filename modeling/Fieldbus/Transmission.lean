import Fieldbus.Address

/-!
# Transmissions

What a station hands to its medium: a frame and for whom on the medium it is. How the station
is attached there is fixed when the station is made.
-/

namespace Fieldbus

/-- A frame on its way onto a medium. -/
structure Transmission where
  /-- Who the frame is for; only the sub-address matters to the medium. -/
  recipient : Address
  /-- The router that gets the frame in place of the recipient. -/
  router : Option Bytes
  /-- The frame itself. -/
  frame : Bytes
  /-- Every node of the medium gets the frame. -/
  broadcast : Bool
  /-- The sender waits for an answer. -/
  expectsReply : Bool
  deriving DecidableEq, Repr

/-- How a station is attached to its medium. -/
structure Attachment where
  /-- The sub-address of the station. -/
  mac : Bytes
  /-- Every sub-address the station answers to. -/
  macs : List Bytes
  /-- The sub-address that reaches every node of the medium. -/
  broadcastMac : Bytes
  /-- The longest frame the medium takes; absent if it takes any. -/
  maxFrameLength : Option Nat
  deriving DecidableEq, Repr

/-- The medium takes frames of the length. -/
def Attachment.Takes (a : Attachment) (length : Nat) : Prop :=
  ∀ limit ∈ a.maxFrameLength, length ≤ limit

instance (a : Attachment) (length : Nat) : Decidable (a.Takes length) := by
  unfold Attachment.Takes
  infer_instance

end Fieldbus
