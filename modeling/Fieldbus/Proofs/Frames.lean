import Fieldbus.Envelope
import Fieldbus.Message.Basic

/-!
# Reading back what was written

A frame is read back as the header it was written with and the payload behind it, except that
an empty sub-address is read as an absent one and a reserved code as the kind it names
(`decode_bytes_append`). Whatever the kind of a message is, a frame that can be read has the
destination it was written with (`destination_of_decode`). Addresses have no empty
sub-addresses, so envelopes and messages are read back as they are (`Envelope.decode_frame`).
-/

namespace Fieldbus

/-- The sub-address that its written form is read as: an empty one counts as absent. -/
def readMac (mac : Option Bytes) : Option Bytes := mac.filter fun m => !m.isEmpty

namespace Reader

/-- A sub-address behind its length byte is read back. -/
theorem counted_macBytes_append {mac : Option Bytes} (h : ∀ m ∈ mac, m.length ≤ maxMacLength)
    (rest : Bytes) : counted (macBytes mac ++ rest) = .ok (readMac mac) rest := by
  rcases mac with _ | ⟨_ | ⟨b, m⟩⟩
  · rfl
  · rfl
  · have hl : (b :: m).length ≤ 255 := h _ rfl
    have hn : (b :: m).length.toUInt8.toNat = (b :: m).length := by
      simp only [Nat.toUInt8_eq, UInt8.toNat_ofNat', List.length_cons] at hl ⊢
      omega
    have hz : (b :: m).length.toUInt8 ≠ 0 := by
      intro he
      rw [he] at hn
      simp at hn
    have ht := take_append (b :: m) rest
    simp only [List.cons_append] at ht
    simp only [counted, macBytes, Option.getD_some, List.cons_append, bind, EStateM.bind, byte, hz,
      ite_false, pure, EStateM.pure]
    rw [hn, ht]
    rfl

end Reader

namespace Header

/-- The bits of a control byte say which parts a header has and how urgent it is. -/
private theorem control_flags (priority : Priority) (message destination source reply : Bool)
    (c : UInt8)
    (hc : c = priority.bits ||| (if message then Control.networkMessage else 0)
      ||| (if destination then Control.destination else 0)
      ||| (if source then Control.source else 0)
      ||| (if reply then Control.expectsReply else 0)) :
    (c &&& Control.networkMessage != 0) = message ∧ (c &&& Control.destination != 0) = destination
      ∧ (c &&& Control.source != 0) = source ∧ (c &&& Control.expectsReply != 0) = reply
      ∧ Priority.ofBits c = priority := by
  subst hc
  cases priority <;> revert message destination source reply <;> decide

/-- The header that a written header is read as. -/
def asRead (h : Header) : Header :=
  { h with
    destination := h.destination.map fun d => { d with mac := readMac d.mac }
    source := h.source.map fun s => { s with mac := readMac s.mac }
    message := h.message.map MessageKind.named }

/-- A segment number and a sub-address are read back. -/
theorem placeReader_append {segment : Segment} {mac : Option Bytes}
    (h : ∀ m ∈ mac, m.length ≤ maxMacLength) (rest : Bytes) :
    placeReader (Bytes.word segment ++ macBytes mac ++ rest) = .ok (segment, readMac mac) rest := by
  rw [List.append_assoc]
  simp only [placeReader, bind, EStateM.bind, Reader.word_append,
    Reader.counted_macBytes_append h, pure, EStateM.pure]

/-- A part whose written form is read back is read back whether or not it is there. -/
theorem optional_append {α β : Type} {part : Option α} (r : Reader β) (write : α → Bytes)
    (read : α → β) (h : ∀ a ∈ part, ∀ rest, r (write a ++ rest) = .ok (read a) rest)
    (rest : Bytes) :
    optional part.isSome r ((part.map write).getD [] ++ rest) = .ok (part.map read) rest := by
  cases part with
  | none => rfl
  | some a =>
    simp only [optional, Option.isSome_some, ite_true, Option.map_some, Option.getD_some,
      Functor.map, EStateM.map, h a rfl rest]

/-- Reading a written header up to the kind of its message. -/
theorem reader_bytes_append {h : Header} (fits : h.Fits) (rest : Bytes) :
    reader (h.bytes ++ rest) = (do
      let message ← optional h.message.isSome MessageKind.reader
      return { h.asRead with message } : Reader Header)
        ((h.message.map MessageKind.bytes).getD [] ++ rest) := by
  obtain ⟨hn, hd, hs, he, hp⟩ := control_flags h.priority h.message.isSome h.destination.isSome
    h.source.isSome h.expectsReply h.control rfl
  have hdst := optional_append placeReader
    (fun d : Destination => Bytes.word d.segment ++ macBytes d.mac)
    (fun d => (d.segment, readMac d.mac))
    (fun d (hd : d ∈ h.destination) rest =>
      placeReader_append (fun m hm => fits m (by simp_all [macs])) rest)
  have hsrc := optional_append placeReader
    (fun s : Source => Bytes.word s.segment ++ macBytes s.mac)
    (fun s => (s.segment, readMac s.mac))
    (fun s (hs : s ∈ h.source) rest =>
      placeReader_append (fun m hm => fits m (by simp_all [macs])) rest)
  have hhop := optional_append Reader.byte (fun d : Destination => [d.hopCount])
    (fun d => d.hopCount) (fun d (_ : d ∈ h.destination) rest => rfl)
  have hv : ¬ protocolVersion ≠ protocolVersion := fun hne => hne rfl
  simp only [reader, bytes, List.cons_append, bind, EStateM.bind, Reader.byte, hv, ite_false,
    pure, EStateM.pure, hn, hd, hs, he, hp, List.append_assoc, hdst, hsrc, hhop]
  -- Both sides read the kind now; the parts in front of it are those of `asRead`.
  cases h with
  | mk expectsReply priority destination source message =>
    cases destination <;> cases source <;> rfl

end Header

/-- A frame with a written header is read past the version. -/
private theorem decode_bytes_append_eq_read (h : Header) (payload : Bytes) :
    decode (h.bytes ++ payload) = decode.read (h.bytes ++ payload) := by
  simp [decode, Header.bytes]

/-- A frame is read back as its header and its payload. -/
theorem decode_bytes_append {h : Header} (fits : h.Fits)
    (consistent : ∀ kind ∈ h.message, kind.Consistent) (payload : Bytes) :
    decode (h.bytes ++ payload) = .ok (h.asRead, payload) := by
  have hk := Header.optional_append MessageKind.reader MessageKind.bytes MessageKind.named
    (fun kind (hkind : kind ∈ h.message) rest =>
      MessageKind.reader_bytes_append (consistent kind hkind) rest) payload
  rw [decode_bytes_append_eq_read, decode.read, EStateM.run, Header.reader_bytes_append fits]
  simp only [bind, EStateM.bind, hk, pure, EStateM.pure]
  rfl

/-- A frame that can be read has the header it was written with, up to the kind of its message,
which is read from where it was written. -/
theorem exists_message_of_decode {h h' : Header} {payload payload' : Bytes} (fits : h.Fits)
    (hd : decode (h.bytes ++ payload) = .ok (h', payload')) :
    ∃ message, h' = { h.asRead with message } ∧
      Header.optional h.message.isSome MessageKind.reader
        ((h.message.map MessageKind.bytes).getD [] ++ payload) = .ok message payload' := by
  rw [decode_bytes_append_eq_read, decode.read, EStateM.run, Header.reader_bytes_append fits] at hd
  simp only [bind, EStateM.bind, pure, EStateM.pure] at hd
  cases hk : Header.optional h.message.isSome MessageKind.reader
      ((h.message.map MessageKind.bytes).getD [] ++ payload) with
  | ok message rest =>
    rw [hk] at hd
    cases hd
    exact ⟨message, rfl, rfl⟩
  | error cause rest =>
    rw [hk] at hd
    cases hd

/-- A frame that can be read has the destination it was written with, whatever the kind of its
message is. -/
theorem destination_of_decode {h h' : Header} {payload payload' : Bytes} (fits : h.Fits)
    (hd : decode (h.bytes ++ payload) = .ok (h', payload')) :
    h'.destination = h.asRead.destination := by
  obtain ⟨message, rfl, -⟩ := exists_message_of_decode fits hd
  rfl

/-- The sub-address of an address is read as it is. -/
@[simp] theorem readMac_mac (a : Address) : readMac a.mac = a.mac := by
  cases h : a.mac with
  | none => rfl
  | some m => simpa [readMac, Option.filter_some] using a.mac_ne_nil m h

private theorem map_named_eq_self {kind : Option MessageKind} (h : ∀ k ∈ kind, k.named = k) :
    kind.map MessageKind.named = kind := by
  cases kind with
  | none => rfl
  | some k => rw [Option.map_some, h k rfl]

/-- The header of an envelope is read as it is, up to the name of its kind. -/
theorem Envelope.asRead_header {e : Envelope} (named : ∀ kind ∈ e.message, kind.named = kind) :
    e.header.asRead = e.header := by
  simp only [Header.asRead, header, map_named_eq_self named, Option.map_map, Function.comp_def,
    Destination.to, readMac_mac]
  split <;> simp [Source.of]

/-- The frame of an envelope above the network layer is read back as its header and payload. -/
theorem Envelope.decode_frame {e : Envelope} (plain : e.message = none) :
    decode e.frame = .ok (e.header, e.payload) := by
  rw [frame, decode_bytes_append e.header_fits (by simp [header, plain]),
    asRead_header (by simp [plain])]

/-- The frame of a message for the sender's own segment is read back if its kind is a standard
one. -/
theorem Message.decode_header {msg : Message} (consistent : ∀ kind ∈ msg.kind, kind.Consistent)
    (named : ∀ kind ∈ msg.kind, kind.named = kind) :
    decode (msg.header.bytes ++ msg.payload) = .ok (msg.header, msg.payload) := by
  rw [decode_bytes_append msg.header_fits consistent]
  simp only [Header.asRead, header, Header.onLink, map_named_eq_self named, Option.map_none]

/-- The frame of a network message of a standard kind for the sender's own segment is read back. -/
theorem Message.decode_header_of_kind {msg : Message} {kind : MessageKind} (h : msg.kind = some kind)
    (consistent : kind.Consistent) (named : kind.named = kind) :
    decode (msg.header.bytes ++ msg.payload) = .ok (msg.header, msg.payload) := by
  refine decode_header ?_ ?_
  · rintro _ hk
    obtain rfl := Option.some.inj (h.symm.trans hk)
    exact consistent
  · rintro _ hk
    obtain rfl := Option.some.inj (h.symm.trans hk)
    exact named

end Fieldbus
