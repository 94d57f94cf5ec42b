/-!
# Why bytes are refused

`CodecError` names the causes for which a reader refuses its bytes, `FrameError` those for
which a whole frame is refused, and `Overlong` the one value that cannot be written: a
sub-address longer than its length byte can say. Each has one function that words it.
-/

namespace Fieldbus

/-- Why a reader refused its bytes. -/
inductive CodecError where
  /-- The bytes end before the value does. -/
  | endOfBuffer
  /-- Bytes are left behind a value that should have used them all. -/
  | extraData (left : Nat)
  /-- A flag byte is neither zero nor one. -/
  | invalidBool
  /-- A header starts with a version other than the one understood. -/
  | unsupportedVersion
  /-- A list of segment numbers has an odd number of bytes. -/
  | oddBodyLength
  deriving DecidableEq, Repr

/-- The wording of a reader's refusal. -/
def CodecError.message : CodecError → String
  | endOfBuffer => "Unexpected End-of-Buffer: Not enough bytes remaining to read data"
  | extraData left => s!"Extra Data: {left} bytes remained in buffer after decoding"
  | invalidBool => "Invalid Bool: Expected 0 or 1, found different value"
  | unsupportedVersion => "Validation Error: Context(Header), Message(unsupported version)"
  | oddBodyLength => "Validation Error: Context(IAmRouterToNetwork), Message(odd body length)"

/-- Why a frame was refused. -/
inductive FrameError where
  /-- The header could not be read. -/
  | codec (cause : CodecError)
  /-- The first byte is not the version understood. -/
  | invalidVersion (version : UInt8)
  deriving DecidableEq, Repr

/-- The wording of a frame's refusal. -/
def FrameError.message : FrameError → String
  | codec cause => s!"codec error: {cause.message}"
  | invalidVersion version => s!"invalid protocol version: {version.toNat}"

/-- A sub-address longer than a length byte can say. -/
structure Overlong where
  /-- How long the sub-address is. -/
  length : Nat
  deriving DecidableEq, Repr

/-- The wording of an overlong sub-address. -/
def Overlong.message (o : Overlong) : String :=
  s!"sub-address too long: {o.length}"

end Fieldbus
