import Fieldbus.Proofs.Frames

/-!
# One spelling for every header

Two bits of the control byte mean nothing. Apart from them a header is spelled in one way: what
is read is canonical (`Header.Canonical`), and its written form is what it was read off
(`Reader.Yields`, `Header.yields_reader`). Main statements: decoding undoes encoding for every
header that can be written (`decode_encode`), and encoding undoes decoding for every frame that
can be read (`encode_decode`).
-/

namespace Fieldbus

namespace MessageKind

/-- The kind has a name of its own. -/
def HasName : MessageKind → Prop
  | reserved _ | proprietary _ _ => False
  | _ => True

/-- The kind is one that can be read: a vendor's number follows exactly if its code says so, and
its code has no other name. -/
structure Canonical (kind : MessageKind) : Prop where
  /-- The code and the form agree. -/
  consistent : kind.Consistent
  /-- A code that has a name is not reserved. -/
  nameless : ∀ other : MessageKind, other.HasName → kind ≠ reserved other.code

@[simp] theorem code_standard (code : UInt8) : (standard code).code = code := by
  unfold standard
  split <;> rfl

/-- The name of a kind is found by its code. -/
theorem standard_code {kind : MessageKind} (h : kind.HasName) : standard kind.code = kind := by
  cases kind with
  | reserved code => exact h.elim
  | proprietary code vendor => exact h.elim
  | _ => rfl

/-- A code that needs no vendor's number is read as a canonical kind. -/
theorem canonical_standard {code : UInt8} (h : code < proprietaryBase) :
    (standard code).Canonical where
  consistent := by
    unfold standard
    split
    case h_13 => exact h
    all_goals trivial
  nameless other ho he := by
    have hc : code = other.code := (code_standard code).symm.trans (by rw [he]; rfl)
    rw [hc, standard_code ho] at he
    rw [he] at ho
    exact ho

/-- Reading a kind after writing it gives a canonical kind. -/
theorem canonical_named {kind : MessageKind} (h : kind.Consistent) : kind.named.Canonical := by
  cases kind with
  | reserved code => exact canonical_standard h
  | proprietary code vendor => exact ⟨h, by simp [named]⟩
  | _ => exact ⟨trivial, by simp [named]⟩

/-- A kind whose code needs no vendor's number is written as its code. -/
theorem bytes_of_code_lt {kind : MessageKind} (h : kind.Consistent)
    (hc : kind.code < proprietaryBase) : kind.bytes = [kind.code] := by
  cases kind with
  | proprietary code vendor => exact absurd h (UInt8.not_le.mpr hc)
  | _ => rfl

/-- The name that a kind is read under has its code. -/
@[simp] theorem code_named (kind : MessageKind) : kind.named.code = kind.code := by
  cases kind with
  | reserved code => exact code_standard code
  | _ => rfl

/-- A kind whose code has no other name keeps the name it has. -/
theorem Canonical.named_eq {kind : MessageKind} (h : kind.Canonical) : kind.named = kind := by
  cases kind with
  | reserved code =>
    have hn := h.nameless (standard code)
    rw [code_standard] at hn
    have hnamed : ¬ (standard code).HasName := fun ho => hn ho rfl
    show standard code = reserved code
    unfold standard at hnamed ⊢
    split at hnamed
    case h_13 => rfl
    all_goals exact absurd trivial hnamed
  | _ => rfl

/-- A kind that can be read is known by its code, if that has a name. -/
theorem Canonical.eq_of_code {kind other : MessageKind} (h : kind.Canonical) (ho : other.HasName)
    (hc : kind.code = other.code) : kind = other := by
  have hnamed : kind.HasName := by
    cases kind with
    | reserved code => exact absurd (congrArg reserved hc) (h.nameless other ho)
    | proprietary code vendor =>
      have hlt : other.code < proprietaryBase := by
        cases other <;> first | exact ho.elim | decide
      exact absurd (hc ▸ h.consistent : proprietaryBase ≤ other.code) (UInt8.not_le.mpr hlt)
    | _ => trivial
  rw [← standard_code hnamed, hc, standard_code ho]

end MessageKind

/-- A sub-address is read as it is unless it is present but empty. -/
theorem readMac_eq_some_iff {mac : Option Bytes} {m : Bytes} :
    readMac mac = some m ↔ mac = some m ∧ m ≠ [] := by
  simp [readMac, Option.filter_eq_some_iff]

namespace Header

/-- The header is one that can be read. -/
structure Canonical (h : Header) : Prop where
  /-- Sub-addresses fit behind their length byte. -/
  fits : h.Fits
  /-- A present sub-address is not empty. -/
  ne_nil : ∀ m ∈ h.macs, m ≠ []
  /-- The kind of a message can be read. -/
  message : ∀ kind ∈ h.message, kind.Canonical

/-- A header that was written and read has the sub-addresses it had, except for the empty ones. -/
theorem mem_macs_asRead_iff {h : Header} {m : Bytes} :
    m ∈ h.asRead.macs ↔ m ∈ h.macs ∧ m ≠ [] := by
  obtain ⟨_, _, destination, source, _⟩ := h
  cases destination <;> cases source <;> simp [asRead, macs, readMac_eq_some_iff, or_and_right]

variable {h : Header}

/-- A header does not fit if one of its sub-addresses is overlong. -/
theorem not_fits_iff : ¬ h.Fits ↔ ∃ m ∈ h.macs, maxMacLength < m.length := by
  simp [Fits]

/-- What a header is read as is canonical. -/
theorem canonical_asRead (fits : h.Fits) (consistent : ∀ kind ∈ h.message, kind.Consistent) :
    h.asRead.Canonical where
  fits m hm := fits m (mem_macs_asRead_iff.mp hm).1
  ne_nil m hm := (mem_macs_asRead_iff.mp hm).2
  message := by
    intro kind hkind
    obtain ⟨written, hw, rfl⟩ := Option.map_eq_some_iff.mp hkind
    exact MessageKind.canonical_named (consistent written hw)

/-- A header is canonical if its destination, its source and its message are. -/
theorem canonical_of_parts
    (destination : ∀ d ∈ h.destination, ∀ m ∈ d.mac, m ≠ [] ∧ m.length ≤ maxMacLength)
    (source : ∀ s ∈ h.source, ∀ m ∈ s.mac, m ≠ [] ∧ m.length ≤ maxMacLength)
    (message : ∀ kind ∈ h.message, kind.Canonical) : h.Canonical := by
  have hmacs : ∀ m ∈ h.macs, m ≠ [] ∧ m.length ≤ maxMacLength := by
    intro m hm
    simp only [macs, List.mem_append, Option.mem_toList, Option.bind_eq_some_iff] at hm
    rcases hm with ⟨d, hd, hm⟩ | ⟨s, hs, hm⟩
    · exact destination d hd m hm
    · exact source s hs m hm
  exact ⟨fun m hm => (hmacs m hm).2, fun m hm => (hmacs m hm).1, message⟩

/-- A canonical header is read as it was written. -/
theorem Canonical.asRead_eq (canonical : h.Canonical) : h.asRead = h := by
  have hmac : ∀ mac : Option Bytes, (∀ m ∈ mac, m ∈ h.macs) → readMac mac = mac := by
    intro mac hm
    cases mac with
    | none => rfl
    | some m => exact readMac_eq_some_iff.mpr ⟨rfl, canonical.ne_nil m (hm m rfl)⟩
  have hdestination : (h.destination.map fun d => { d with mac := readMac d.mac }) =
      h.destination := by
    cases hd : h.destination with
    | none => rfl
    | some d => rw [Option.map_some, hmac d.mac fun m hm => by simp_all [macs]]
  have hsource : (h.source.map fun s => { s with mac := readMac s.mac }) = h.source := by
    cases hs : h.source with
    | none => rfl
    | some s => rw [Option.map_some, hmac s.mac fun m hm => by simp_all [macs]]
  have hmessage : h.message.map MessageKind.named = h.message := by
    cases hk : h.message with
    | none => rfl
    | some kind => rw [Option.map_some, (canonical.message kind hk).named_eq]
  rw [asRead, hdestination, hsource, hmessage]

/-- Only a canonical header is read as it was written. -/
theorem asRead_eq_self_iff (fits : h.Fits) (consistent : ∀ kind ∈ h.message, kind.Consistent) :
    h.asRead = h ↔ h.Canonical :=
  ⟨fun he => he ▸ canonical_asRead fits consistent, Canonical.asRead_eq⟩

end Header

/-- A frame is read back with the header it was written with, except that empty sub-addresses
count as absent and a reserved code as the kind it names. Only an overlong sub-address keeps a
header from being written. -/
theorem decode_encode (h : Header) (payload : Bytes) :
    ((∃ o, encode h payload = .error o) ↔ ∃ m ∈ h.macs, maxMacLength < m.length) ∧
      (h.Fits → (∀ kind ∈ h.message, kind.Consistent) →
        ∃ frame, encode h payload = .ok frame ∧ frame.length = h.size + payload.length ∧
          decode frame = .ok (h.asRead, payload) ∧
          h.asRead.message.map MessageKind.code = h.message.map MessageKind.code ∧
          h.asRead.Canonical ∧ (h.asRead = h ↔ h.Canonical)) := by
  refine ⟨?_, fun fits consistent => ⟨h.bytes ++ payload, encode_of_fits fits payload, ?_,
    decode_bytes_append fits consistent payload, ?_, Header.canonical_asRead fits consistent,
    Header.asRead_eq_self_iff fits consistent⟩⟩
  · rw [encode_eq_error_iff, Header.not_fits_iff]
  · rw [List.length_append, Header.length_bytes]
  · simp only [Header.asRead, Option.map_map, Function.comp_def, MessageKind.code_named]

theorem decode_encode_empty_mac :
    let h : Header := {
      destination := some ⟨5, some [], 7⟩
      source := some ⟨0, some [1, 2]⟩
      message := some (.reserved 0x13) }
    h.Fits ∧ (∀ kind ∈ h.message, kind.Consistent) ∧ ∃ frame, encode h [9] = .ok frame ∧
      decode frame = .ok ({ h with
        destination := some ⟨5, none, 7⟩
        message := some .networkNumberIs }, [9]) := by
  intro h
  have hfits : h.Fits := by decide
  have hconsistent : ∀ kind ∈ h.message, kind.Consistent := by
    intro kind hkind
    cases hkind
    decide
  obtain ⟨frame, hencode, -, hdecode, -⟩ := (decode_encode h [9]).2 hfits hconsistent
  exact ⟨hfits, hconsistent, frame, hencode, hdecode⟩

/-! ## What is read has one spelling -/

namespace Reader

variable {α β : Type}

/-- Whatever the reader reads is related to the bytes it was read off. -/
def Yields (r : Reader α) (spelled : Bytes → α → Prop) : Prop :=
  ∀ (bytes rest : Bytes) (a : α), r bytes = .ok a rest →
    ∃ front, bytes = front ++ rest ∧ spelled front a

variable {r : Reader α} {spelled : Bytes → α → Prop}

theorem yields_pure {a : α} (h : spelled [] a) : (pure a : Reader α).Yields spelled := by
  intro bytes rest a' ha
  cases ha
  exact ⟨[], rfl, h⟩

theorem yields_throw (cause : CodecError) : (throw cause : Reader α).Yields spelled := by
  intro bytes rest a ha
  cases ha

theorem Yields.bind {f : α → Reader β} {spelled' : Bytes → β → Prop} (h : r.Yields spelled)
    (hf : ∀ front a, spelled front a → (f a).Yields fun behind b => spelled' (front ++ behind) b) :
    (r >>= f).Yields spelled' := by
  intro bytes rest b hb
  simp only [Bind.bind, EStateM.bind] at hb
  split at hb
  · rename_i a left ha
    obtain ⟨front, rfl, hfront⟩ := h bytes left a ha
    obtain ⟨behind, rfl, hbehind⟩ := hf front a hfront left rest b hb
    exact ⟨front ++ behind, (List.append_assoc ..).symm, hbehind⟩
  · cases hb

theorem Yields.map {f : α → β} {spelled' : Bytes → β → Prop} (h : r.Yields spelled)
    (hf : ∀ front a, spelled front a → spelled' front (f a)) : (f <$> r).Yields spelled' := by
  intro bytes rest b hb
  simp only [Functor.map, EStateM.map] at hb
  split at hb
  · rename_i a left ha
    obtain ⟨front, hbytes, hfront⟩ := h bytes left a ha
    cases hb
    exact ⟨front, hbytes, hf front a hfront⟩
  · cases hb

theorem yields_byte : byte.Yields fun front b => front = [b] := by
  intro bytes rest b hb
  cases bytes with
  | nil => cases hb
  | cons c left =>
    cases hb
    exact ⟨[b], rfl, rfl⟩

theorem yields_word : word.Yields fun front n => front = Bytes.word n := by
  intro bytes rest n hn
  rcases bytes with _ | ⟨h, _ | ⟨l, left⟩⟩
  · cases hn
  · cases hn
  · cases hn
    exact ⟨[h, l], rfl, (Bytes.word_join h l).symm⟩

theorem yields_take (n : Nat) :
    (take n).Yields fun front bytes => front = bytes ∧ bytes.length = n := by
  intro bytes rest taken ht
  unfold take at ht
  split at ht
  · cases ht
  · rename_i hn
    cases ht
    exact ⟨bytes.take n, (List.take_append_drop n bytes).symm, rfl,
      List.length_take_of_le (Nat.not_lt.mp hn)⟩

/-- A sub-address is read off its length byte and its bytes. -/
theorem yields_counted : counted.Yields fun front mac =>
    front = macBytes mac ∧ ∀ m ∈ mac, m ≠ [] ∧ m.length ≤ maxMacLength := by
  refine yields_byte.bind ?_
  rintro front length rfl
  split
  · rename_i hz
    exact yields_pure ⟨by rw [hz]; rfl, by simp⟩
  · rename_i hz
    refine (yields_take _).bind ?_
    rintro front m ⟨rfl, hm⟩
    have hlen : 0 < length.toNat :=
      Nat.pos_of_ne_zero fun h => hz (UInt8.toNat_inj.mp h)
    have hlt := length.toNat_lt
    refine yields_pure ⟨?_, ?_⟩
    · simp [macBytes, hm]
    · intro m hmac
      cases hmac
      refine ⟨?_, by unfold maxMacLength; omega⟩
      rintro rfl
      rw [List.length_nil] at hm
      omega

end Reader

/-- The kind of a message is read off its code and the vendor's number. -/
theorem MessageKind.yields_reader :
    MessageKind.reader.Yields fun front kind => front = kind.bytes ∧ kind.Canonical := by
  refine Reader.yields_byte.bind ?_
  rintro front code rfl
  split
  · rename_i hc
    refine Reader.yields_word.bind ?_
    rintro front vendor rfl
    exact Reader.yields_pure ⟨rfl, hc, by simp⟩
  · rename_i hc
    have hcanonical := canonical_standard (UInt8.not_le.mp hc)
    refine Reader.yields_pure ⟨?_, hcanonical⟩
    rw [bytes_of_code_lt hcanonical.consistent (by rw [code_standard]; exact UInt8.not_le.mp hc),
      code_standard]
    rfl

/-- The bits of a control byte that mean something. -/
def Control.used : UInt8 := 0xAF

/-- The bits of a control byte that mean nothing. -/
def Control.unused : UInt8 := 0x50

namespace Header

theorem yields_placeReader : placeReader.Yields fun front place =>
    front = Bytes.word place.1 ++ macBytes place.2 ∧
      ∀ m ∈ place.2, m ≠ [] ∧ m.length ≤ maxMacLength := by
  refine Reader.yields_word.bind ?_
  rintro front segment rfl
  refine Reader.yields_counted.bind ?_
  rintro front mac ⟨rfl, hm⟩
  exact Reader.yields_pure ⟨by simp, hm⟩

theorem yields_optional {α : Type} {r : Reader α} {write : α → Bytes} {good : α → Prop}
    (h : r.Yields fun front a => front = write a ∧ good a) (present : Bool) :
    (optional present r).Yields fun front part =>
      front = (part.map write).getD [] ∧ part.isSome = present ∧ ∀ a ∈ part, good a := by
  cases present with
  | false => exact Reader.yields_pure (by simp)
  | true => exact h.map (by simp)

/-- The flags of a control byte spell the bits of the byte that mean something. -/
private theorem flags_eq_and_used (c : UInt8) :
    (Priority.ofBits c).bits
      ||| (if (c &&& Control.networkMessage != 0) = true then Control.networkMessage else 0)
      ||| (if (c &&& Control.destination != 0) = true then Control.destination else 0)
      ||| (if (c &&& Control.source != 0) = true then Control.source else 0)
      ||| (if (c &&& Control.expectsReply != 0) = true then Control.expectsReply else 0)
      = c &&& Control.used := by
  -- There are 256 control bytes.
  obtain ⟨⟨c⟩⟩ := c
  revert c
  decide +kernel

/-- A header with the parts that a control byte calls for has that control byte, up to the bits that
mean nothing. -/
theorem control_eq_and_used {h : Header} {c : UInt8} (priority : h.priority = .ofBits c)
    (expectsReply : h.expectsReply = (c &&& Control.expectsReply != 0))
    (destination : h.destination.isSome = (c &&& Control.destination != 0))
    (source : h.source.isSome = (c &&& Control.source != 0))
    (message : h.message.isSome = (c &&& Control.networkMessage != 0)) :
    h.control = c &&& Control.used := by
  rw [control, priority, expectsReply, destination, source, message, flags_eq_and_used]

/-- A place and a hop count that are there together are parts of one destination. -/
private theorem exists_destination {place : Option (Segment × Option Bytes)}
    {hopCount : Option UInt8} (h : place.isSome = hopCount.isSome) :
    ∃ destination : Option Destination, place = destination.map (fun d => (d.segment, d.mac)) ∧
      hopCount = destination.map (·.hopCount) := by
  match place, hopCount, h with
  | none, none, _ => exact ⟨none, rfl, rfl⟩
  | some (segment, mac), some hops, _ => exact ⟨some ⟨segment, mac, hops⟩, rfl, rfl⟩

private theorem exists_source (place : Option (Segment × Option Bytes)) :
    ∃ source : Option Source, place = source.map fun s => (s.segment, s.mac) := by
  cases place with
  | none => exact ⟨none, rfl⟩
  | some place => exact ⟨some ⟨place.1, place.2⟩, rfl⟩

/-- A header is read off its written form, up to the control bits that mean nothing. -/
theorem yields_reader : reader.Yields fun front h =>
    (∃ control behind, front = protocolVersion :: control :: behind ∧
      h.bytes = protocolVersion :: (control &&& Control.used) :: behind) ∧ h.Canonical := by
  refine Reader.yields_byte.bind ?_
  rintro front version rfl
  split
  · have hthrow : (throw .unsupportedVersion : Reader PUnit).Yields fun _ _ => False :=
      Reader.yields_throw _
    exact hthrow.bind fun _ _ h => h.elim
  rename_i hv
  obtain rfl := Decidable.not_not.mp hv
  refine Reader.yields_byte.bind ?_
  rintro front control rfl
  refine (yields_optional yields_placeReader _).bind ?_
  rintro front place ⟨rfl, hplace, hmac⟩
  refine (yields_optional yields_placeReader _).bind ?_
  rintro front place' ⟨rfl, hplace', hmac'⟩
  have hbyte : Reader.byte.Yields fun front b => front = [b] ∧ True := by
    simpa using Reader.yields_byte
  refine (yields_optional hbyte _).bind ?_
  rintro front hopCount ⟨rfl, hhop, -⟩
  refine (yields_optional MessageKind.yields_reader _).bind ?_
  rintro front message ⟨rfl, hmessage, hkind⟩
  obtain ⟨destination, rfl, rfl⟩ := exists_destination (hplace.trans hhop.symm)
  obtain ⟨source, rfl⟩ := exists_source place'
  rw [Option.isSome_map] at hplace hplace'
  apply Reader.yields_pure
  have hd : ((destination.map fun d => (d.segment, d.mac)).bind fun place =>
      (destination.map (·.hopCount)).map (Destination.mk place.1 place.2)) = destination := by
    cases destination <;> rfl
  have hs : ((source.map fun s => (s.segment, s.mac)).map fun place =>
      Source.mk place.1 place.2) = source := by
    cases source <;> rfl
  rw [hd, hs]
  refine ⟨⟨control, _, rfl, ?_⟩, canonical_of_parts
    (fun d hd => hmac _ (Option.mem_map_of_mem _ hd))
    (fun s hs => hmac' _ (Option.mem_map_of_mem _ hs)) hkind⟩
  rw [bytes, control_eq_and_used rfl rfl hplace hplace' hmessage]
  simp only [Option.map_map, Function.comp_def, List.append_assoc, List.append_nil]
  rfl

end Header

/-- What is decoded is read off the frame past the version. -/
theorem reader_of_decode {frame payload : Bytes} {h : Header}
    (hd : decode frame = .ok (h, payload)) : Header.reader frame = .ok h payload := by
  have hread : decode.read frame = .ok (h, payload) := by
    unfold decode at hd
    split at hd
    · split at hd
      · cases hd
      · exact hd
    · exact hd
  unfold decode.read at hread
  split at hread
  · rename_i header rest hr
    cases hread
    exact hr
  · cases hread

/-- A frame that can be read is its header in written form and its payload, up to the control
bits that mean nothing. -/
theorem modify_of_decode {frame payload : Bytes} {h : Header}
    (hd : decode frame = .ok (h, payload)) :
    (∃ control, frame[1]? = some control ∧
      frame.modify 1 (· &&& Control.used) = h.bytes ++ payload ∧
      (h.bytes ++ payload = frame ↔ control &&& Control.used = control)) ∧ h.Canonical := by
  obtain ⟨front, rfl, ⟨control, behind, rfl, hbytes⟩, hcanonical⟩ :=
    Header.yields_reader _ _ _ (reader_of_decode hd)
  refine ⟨⟨control, rfl, ?_, ?_⟩, hcanonical⟩
  · rw [hbytes]
    rfl
  · rw [hbytes]
    simp

/-- A frame that can be read has a header that fits. -/
theorem fits_of_decode {frame payload : Bytes} {h : Header} (hd : decode frame = .ok (h, payload)) :
    h.Fits :=
  (modify_of_decode hd).2.fits

/-- A kind is read with the code it was written with. -/
theorem MessageKind.code_of_reader {kind kind' : MessageKind} {rest rest' : Bytes}
    (h : reader (kind.bytes ++ rest) = .ok kind' rest') : kind'.code = kind.code := by
  have hhead : ∀ (k : MessageKind) (behind : Bytes), (k.bytes ++ behind).head? = some k.code := by
    intro k behind
    cases k <;> rfl
  obtain ⟨front, hbytes, rfl, -⟩ := yields_reader _ _ _ h
  have hsame := congrArg List.head? hbytes
  rw [hhead, hhead] at hsame
  exact (Option.some.inj hsame).symm

/-- A message is read with a kind of the code that it was written with, whatever else becomes of the
kind. -/
theorem code_of_decode {h h' : Header} {payload payload' : Bytes} (fits : h.Fits)
    (hd : decode (h.bytes ++ payload) = .ok (h', payload')) :
    h'.message.map MessageKind.code = h.message.map MessageKind.code := by
  obtain ⟨message, rfl, hr⟩ := exists_message_of_decode fits hd
  cases hm : h.message with
  | none =>
    rw [hm] at hr
    cases hr
    rfl
  | some kind =>
    rw [hm] at hr
    simp only [Header.optional, Option.isSome_some, ite_true, Functor.map, EStateM.map] at hr
    split at hr
    · rename_i kind' rest hkind
      cases hr
      exact congrArg some (MessageKind.code_of_reader hkind)
    · cases hr

/-- A byte has no bits besides those of a mask exactly if the others are clear. -/
private theorem and_used_eq_self_iff (c : UInt8) :
    c &&& Control.used = c ↔ c &&& Control.unused = 0 := by
  obtain ⟨⟨c⟩⟩ := c
  revert c
  decide +kernel

/-- A frame that can be read is what its header and payload are written as, except that the
control bits that mean nothing are cleared. Headers that are read are canonical. -/
theorem encode_decode {frame payload : Bytes} {h : Header}
    (hd : decode frame = .ok (h, payload)) :
    encode h payload = .ok (frame.modify 1 (· &&& Control.used)) ∧
      (∃ control, frame[1]? = some control ∧
        (encode h payload = .ok frame ↔ control &&& Control.unused = 0)) ∧
      decode (frame.modify 1 (· &&& Control.used)) = .ok (h, payload) ∧ h.Canonical := by
  obtain ⟨⟨control, hcontrol, hmodify, hsame⟩, hcanonical⟩ := modify_of_decode hd
  have hencode := encode_of_fits hcanonical.fits payload
  refine ⟨by rw [hencode, hmodify], ⟨control, hcontrol, ?_⟩, ?_, hcanonical⟩
  · rw [hencode, Except.ok.injEq, hsame, and_used_eq_self_iff]
  · rw [hmodify, decode_bytes_append hcanonical.fits
      (fun kind hk => (hcanonical.message kind hk).consistent), hcanonical.asRead_eq]

theorem encode_decode_unused_bits :
    let frame : Bytes := [1, 0xF8, 0, 5, 1, 7, 0, 0, 2, 1, 2, 6, 0x85, 1, 4, 9]
    let h : Header := {
      destination := some ⟨5, some [7], 6⟩
      source := some ⟨0, some [1, 2]⟩
      message := some (.proprietary 0x85 0x0104) }
    decode frame = .ok (h, [9]) ∧
      encode h [9] = .ok [1, 0xA8, 0, 5, 1, 7, 0, 0, 2, 1, 2, 6, 0x85, 1, 4, 9] := by
  intro frame h
  have hdecode : decode frame = .ok (h, [9]) := by rfl
  exact ⟨hdecode, (encode_decode hdecode).1⟩

end Fieldbus
