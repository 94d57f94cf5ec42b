import Fieldbus.Header.Basic

/-!
# The written form of headers and frames

A header is written as the version, a control byte, the destination's address, the source,
the destination's hop count and the kind of a network-layer message; the control byte says
which of them are there. A frame is a header with a payload behind it. Only a header with an
overlong sub-address cannot be written (`encode_eq_error_iff`), and what is written has the
announced size (`length_bytes`).
-/

namespace Fieldbus

namespace Control

/-- A network-layer message follows. -/
def networkMessage : UInt8 := 0x80

/-- The destination follows. -/
def destination : UInt8 := 0x20

/-- The source follows. -/
def source : UInt8 := 0x08

/-- The sender waits for an answer. -/
def expectsReply : UInt8 := 0x04

end Control

/-- A length byte and the sub-address; an absent one has length zero. -/
def macBytes (mac : Option Bytes) : Bytes :=
  (mac.getD []).length.toUInt8 :: mac.getD []

/-- How many bytes a sub-address takes with its length byte. -/
def macSize (mac : Option Bytes) : Nat :=
  1 + (mac.map List.length).getD 0

@[simp] theorem length_macBytes (mac : Option Bytes) : (macBytes mac).length = macSize mac := by
  cases mac <;> simp [macBytes, macSize, Nat.add_comm]

namespace Header

/-- The byte of flags that says which parts a header has. -/
def control (h : Header) : UInt8 :=
  h.priority.bits
    ||| (if h.message.isSome then Control.networkMessage else 0)
    ||| (if h.destination.isSome then Control.destination else 0)
    ||| (if h.source.isSome then Control.source else 0)
    ||| (if h.expectsReply then Control.expectsReply else 0)

/-- The written form of a header whose sub-addresses fit. -/
def bytes (h : Header) : Bytes :=
  protocolVersion :: h.control
    :: ((h.destination.map fun d => Bytes.word d.segment ++ macBytes d.mac).getD []
      ++ (h.source.map fun s => Bytes.word s.segment ++ macBytes s.mac).getD []
      ++ (h.destination.map fun d => [d.hopCount]).getD []
      ++ (h.message.map MessageKind.bytes).getD [])

/-- How many bytes a header takes. -/
def size (h : Header) : Nat :=
  2 + (h.destination.map fun d => 2 + macSize d.mac + 1).getD 0
    + (h.source.map fun s => 2 + macSize s.mac).getD 0
    + (h.message.map MessageKind.size).getD 0

/-- A part that is read only if its flag is set. -/
def optional {α : Type} (present : Bool) (r : Reader α) : Reader (Option α) :=
  if present then some <$> r else pure none

/-- Reads a segment number and a sub-address. -/
def placeReader : Reader (Segment × Option Bytes) := do
  let segment ← Reader.word
  let mac ← Reader.counted
  return (segment, mac)

/-- Reads a header; another version is refused before anything else is looked at. -/
def reader : Reader Header := do
  let version ← Reader.byte
  if version ≠ protocolVersion then throw .unsupportedVersion
  let control ← Reader.byte
  let place ← optional (control &&& Control.destination != 0) placeReader
  let source ← optional (control &&& Control.source != 0) placeReader
  let hopCount ← optional (control &&& Control.destination != 0) Reader.byte
  let message ← optional (control &&& Control.networkMessage != 0) MessageKind.reader
  return {
    expectsReply := control &&& Control.expectsReply != 0
    priority := .ofBits control
    destination := place.bind fun (segment, mac) => hopCount.map (Destination.mk segment mac)
    source := source.map fun (segment, mac) => ⟨segment, mac⟩
    message }

/-- What is written has the announced size. -/
@[simp] theorem length_bytes (h : Header) : h.bytes.length = h.size := by
  obtain ⟨_, _, destination, source, message⟩ := h
  cases destination <;> cases source <;> cases message <;>
    simp [bytes, size] <;> omega

end Header

/-- The first sub-address of a header that does not fit behind its length byte. -/
def Header.overlong? (h : Header) : Option Overlong :=
  (h.macs.find? fun m => maxMacLength < m.length).map fun m => ⟨m.length⟩

/-- A frame: the header and the payload behind it. -/
def encode (h : Header) (payload : Bytes) : Except Overlong Bytes :=
  match h.overlong? with
  | some o => .error o
  | none => .ok (h.bytes ++ payload)

/-- Takes a frame apart into its header and its payload.

A frame that does not start with the understood version is refused as such before its header
is read. -/
def decode (frame : Bytes) : Except FrameError (Header × Bytes) :=
  match frame with
  | version :: _ =>
    if version ≠ protocolVersion then .error (.invalidVersion version) else read frame
  | [] => read frame
where
  /-- Reads the header of a frame that may be of the understood version. -/
  read (frame : Bytes) : Except FrameError (Header × Bytes) :=
    match Header.reader.run frame with
    | .ok header payload => .ok (header, payload)
    | .error cause _ => .error (.codec cause)

/-- A header whose sub-addresses all fit is written in front of the payload. -/
theorem encode_of_fits {h : Header} (fits : h.Fits) (payload : Bytes) :
    encode h payload = .ok (h.bytes ++ payload) := by
  have hn : h.overlong? = none := by
    simp only [Header.overlong?, Option.map_eq_none_iff, List.find?_eq_none, decide_eq_true_eq,
      Nat.not_lt]
    exact fits
  simp only [encode, hn]

/-- Only an overlong sub-address keeps a frame from being written. -/
theorem encode_eq_error_iff {h : Header} {payload : Bytes} :
    (∃ o, encode h payload = .error o) ↔ ¬ h.Fits := by
  constructor
  · rintro ⟨o, ho⟩ fits
    rw [encode_of_fits fits] at ho
    cases ho
  · intro fits
    cases hf : h.overlong? with
    | some o => exact ⟨o, by simp only [encode, hf]⟩
    | none =>
      refine absurd (fun m hm => ?_) fits
      simp only [Header.overlong?, Option.map_eq_none_iff, List.find?_eq_none, decide_eq_true_eq,
        Nat.not_lt] at hf
      exact hf m hm

end Fieldbus
