import Fieldbus.Proofs.Spelling

/-!
# How far a header reaches

A header says itself how long it is: the control byte says which parts it has, length bytes say
how long its sub-addresses are, and the code of a message says whether a vendor's number follows.
`Header.extent` adds that up. A reader delimits what it reads (`Reader.Delimits`) if it reads as
many bytes as those bytes call for, whatever is behind them, and fails for want of bytes if fewer
are there. Main statement: a frame is refused for its version, or because it ends before its
header does, and for nothing else; the header of every other frame is read alike from every string
that starts with it and from none that ends before it does (`decode_delimits`).
-/

namespace Fieldbus

namespace Reader

variable {α β : Type}

/-- The reader reads as many bytes as the bytes call for, whatever is behind them, and fails for
want of bytes if fewer are there. -/
structure Delimits (r : Reader α) (extent : Bytes → Nat) : Prop where
  /-- What is there in full is read off its own bytes. -/
  read : ∀ {bytes : Bytes}, extent bytes ≤ bytes.length → ∃ a,
    r bytes = .ok a (bytes.drop (extent bytes)) ∧
      ∀ more, r (bytes.take (extent bytes) ++ more) = .ok a more
  /-- What is cut short is refused for that. -/
  cut : ∀ {bytes : Bytes}, bytes.length < extent bytes → ∃ left, r bytes = .error .endOfBuffer left

variable {r : Reader α} {extent : Bytes → Nat}

namespace Delimits

theorem congr {extent' : Bytes → Nat} (h : r.Delimits extent)
    (he : ∀ bytes, extent bytes = extent' bytes) : r.Delimits extent' :=
  funext he ▸ h

/-- Two readers in a row read what they read one after the other. -/
theorem bind {f : α → Reader β} {extent' : Bytes → Nat} (h : r.Delimits extent)
    (hf : ∀ a, (f a).Delimits extent') :
    (r >>= f).Delimits fun bytes => extent bytes + extent' (bytes.drop (extent bytes)) where
  read := by
    intro bytes hlen
    obtain ⟨a, ha, hmore⟩ := h.read (Nat.le_of_add_right_le hlen)
    have hbehind : extent' (bytes.drop (extent bytes)) ≤ (bytes.drop (extent bytes)).length := by
      rw [List.length_drop]
      omega
    obtain ⟨b, hb, hmore'⟩ := (hf a).read hbehind
    refine ⟨b, ?_, fun more => ?_⟩
    · simp only [Bind.bind, EStateM.bind, ha, hb, List.drop_drop]
    · rw [List.take_add, List.append_assoc]
      simp only [Bind.bind, EStateM.bind, hmore, hmore']
  cut := by
    intro bytes hlen
    by_cases hshort : bytes.length < extent bytes
    · obtain ⟨left, hleft⟩ := h.cut hshort
      exact ⟨left, by simp only [Bind.bind, EStateM.bind, hleft]⟩
    · obtain ⟨a, ha, -⟩ := h.read (Nat.not_lt.mp hshort)
      have hbehind : (bytes.drop (extent bytes)).length < extent' (bytes.drop (extent bytes)) := by
        rw [List.length_drop]
        omega
      obtain ⟨left, hleft⟩ := (hf a).cut hbehind
      exact ⟨left, by simp only [Bind.bind, EStateM.bind, ha, hleft]⟩

theorem map (h : r.Delimits extent) (f : α → β) : (f <$> r).Delimits extent where
  read := by
    intro bytes hlen
    obtain ⟨a, ha, hmore⟩ := h.read hlen
    exact ⟨f a, by simp only [Functor.map, EStateM.map, ha],
      fun more => by simp only [Functor.map, EStateM.map, hmore]⟩
  cut := by
    intro bytes hlen
    obtain ⟨left, hleft⟩ := h.cut hlen
    exact ⟨left, by simp only [Functor.map, EStateM.map, hleft]⟩

variable {bytes rest : Bytes} {a : α}

/-- What was read is as long as the bytes call for. -/
theorem of_ok (h : r.Delimits extent) (hr : r bytes = .ok a rest) :
    extent bytes ≤ bytes.length ∧ rest = bytes.drop (extent bytes) ∧
      ∀ more, r (bytes.take (extent bytes) ++ more) = .ok a more := by
  by_cases hlen : extent bytes ≤ bytes.length
  · obtain ⟨b, hb, hmore⟩ := h.read hlen
    rw [hr] at hb
    cases hb
    exact ⟨hlen, rfl, hmore⟩
  · obtain ⟨left, hleft⟩ := h.cut (Nat.not_le.mp hlen)
    rw [hr] at hleft
    cases hleft

/-- What is behind the bytes that were read is left as it is. -/
theorem append (h : r.Delimits extent) (hr : r bytes = .ok a rest) (more : Bytes) :
    r (bytes ++ more) = .ok a (rest ++ more) := by
  obtain ⟨-, rfl, hmore⟩ := h.of_ok hr
  rw [← hmore, ← List.append_assoc, List.take_append_drop]

/-- Bytes that are cut behind what is read do not matter. -/
theorem take_of_le (h : r.Delimits extent) (hr : r bytes = .ok a rest) {n : Nat}
    (hn : extent bytes ≤ n) : r (bytes.take n) = .ok a (rest.take (n - extent bytes)) := by
  obtain ⟨-, rfl, hmore⟩ := h.of_ok hr
  obtain ⟨k, rfl⟩ := Nat.exists_eq_add_of_le hn
  rw [List.take_add, Nat.add_sub_cancel_left, hmore]

/-- Bytes that are cut within what is read are too few. -/
theorem take_of_lt (h : r.Delimits extent) (hr : r bytes = .ok a rest) {n : Nat}
    (hn : n < extent bytes) : ∃ left, r (bytes.take n) = .error .endOfBuffer left := by
  obtain ⟨hlen, hrest, -⟩ := h.of_ok hr
  -- Otherwise the shorter string would be read, and the longer one then in the same way.
  refine h.cut (Nat.lt_of_not_le fun hshort => ?_)
  obtain ⟨b, hb, -⟩ := h.read hshort
  have hlonger := h.append hb (bytes.drop n)
  rw [List.take_append_drop, hr] at hlonger
  have hlengths := congrArg List.length (EStateM.Result.ok.inj hlonger).2
  rw [hrest] at hlengths
  simp only [List.length_append, List.length_drop, List.length_take] at hlengths hshort
  omega

end Delimits

theorem delimits_pure (a : α) : (pure a : Reader α).Delimits fun _ => 0 where
  read _ := ⟨a, rfl, fun _ => rfl⟩
  cut h := absurd h (Nat.not_lt_zero _)

/-- What follows a byte may call for a length that depends on the byte. -/
theorem delimits_byte_bind (extent : UInt8 → Bytes → Nat) {f : UInt8 → Reader β}
    (h : ∀ b, (f b).Delimits (extent b)) :
    (byte >>= f).Delimits fun bytes => extent (bytes.getD 0 0) (bytes.drop 1) + 1 where
  read := by
    intro bytes hlen
    cases bytes with
    | nil => exact absurd hlen (Nat.not_succ_le_zero _)
    | cons b behind => exact (h b).read (Nat.le_of_succ_le_succ hlen)
  cut := by
    intro bytes hlen
    cases bytes with
    | nil => exact ⟨[], rfl⟩
    | cons b behind => exact (h b).cut (Nat.lt_of_succ_lt_succ hlen)

theorem delimits_byte : byte.Delimits fun _ => 1 := by
  simpa using delimits_byte_bind (fun _ _ => 0) delimits_pure

theorem delimits_word : word.Delimits fun _ => 2 where
  read := by
    intro bytes hlen
    rcases bytes with _ | ⟨h, _ | ⟨l, rest⟩⟩
    · cases hlen
    · exact absurd hlen (Nat.not_succ_le_self 1)
    · exact ⟨Bytes.join h l, rfl, fun _ => rfl⟩
  cut := by
    intro bytes hlen
    rcases bytes with _ | ⟨h, _ | ⟨l, rest⟩⟩
    · exact ⟨[], rfl⟩
    · exact ⟨[h], rfl⟩
    · simp only [List.length_cons] at hlen
      omega

theorem delimits_take (n : Nat) : (take n).Delimits fun _ => n where
  read := by
    intro bytes hlen
    refine ⟨bytes.take n, if_neg (Nat.not_lt.mpr hlen), fun more => ?_⟩
    have ht := take_append (bytes.take n) more
    rwa [List.length_take_of_le hlen] at ht
  cut h := ⟨_, if_pos h⟩

/-- A sub-address takes its length byte and as many bytes as that says. -/
theorem delimits_counted : counted.Delimits fun bytes => (bytes.getD 0 0).toNat + 1 := by
  refine delimits_byte_bind (fun length _ => length.toNat) fun length => ?_
  split
  · rename_i hz
    rw [hz]
    exact delimits_pure none
  · exact (delimits_take _).map some

end Reader

namespace MessageKind

/-- How many bytes a kind takes that starts the bytes: its code, and a vendor's number if the code
calls for one. -/
def extent (bytes : Bytes) : Nat :=
  if bytes.getD 0 0 ≥ proprietaryBase then 3 else 1

theorem delimits_reader : reader.Delimits extent := by
  refine (Reader.delimits_byte_bind
    (fun code _ => if code ≥ proprietaryBase then 2 else 0) fun code => ?_).congr ?_
  · split
    · exact Reader.delimits_word.bind fun vendor => Reader.delimits_pure _
    · exact Reader.delimits_pure _
  · intro bytes
    unfold extent
    split <;> rfl

end MessageKind

namespace Header

/-- How many bytes a place takes that starts the bytes: a segment number, a length byte and as
many bytes as that says. -/
def placeExtent (bytes : Bytes) : Nat :=
  3 + (bytes.getD 2 0).toNat

/-- How many bytes the parts take that a control byte calls for. -/
def partsExtent (control : UInt8) (bytes : Bytes) : Nat :=
  let headed := control &&& Control.destination != 0
  let destination := if headed then placeExtent bytes else 0
  let source :=
    if control &&& Control.source != 0 then placeExtent (bytes.drop destination) else 0
  let hops := if headed then 1 else 0
  let message :=
    if control &&& Control.networkMessage != 0 then
      MessageKind.extent (bytes.drop (destination + source + hops))
    else 0
  destination + source + hops + message

/-- How many bytes the header of a frame takes; what a byte calls for that is not there counts as
nothing. -/
def extent (frame : Bytes) : Nat :=
  2 + partsExtent (frame.getD 1 0) (frame.drop 2)

theorem delimits_placeReader : placeReader.Delimits placeExtent := by
  refine (Reader.delimits_word.bind fun segment => Reader.delimits_counted.bind fun mac =>
    Reader.delimits_pure _).congr fun bytes => ?_
  rw [List.getD_eq_getElem?_getD, List.getElem?_drop, ← List.getD_eq_getElem?_getD]
  show 2 + ((bytes.getD 2 0).toNat + 1 + 0) = 3 + (bytes.getD 2 0).toNat
  omega

theorem delimits_optional {α : Type} {r : Reader α} {extent : Bytes → Nat} (h : r.Delimits extent)
    (present : Bool) :
    (optional present r).Delimits fun bytes => if present then extent bytes else 0 := by
  cases present with
  | false => exact Reader.delimits_pure none
  | true => exact h.map some

/-- Behind the version a header is as long as its parts call for. -/
theorem delimits_reader : Reader.Delimits (fun behind => reader (protocolVersion :: behind))
    fun behind => partsExtent (behind.getD 0 0) (behind.drop 1) + 1 := by
  refine Reader.delimits_byte_bind partsExtent fun control => ?_
  refine Reader.Delimits.congr
    ((delimits_optional delimits_placeReader _).bind fun place =>
      (delimits_optional delimits_placeReader _).bind fun source =>
        (delimits_optional Reader.delimits_byte _).bind fun hopCount =>
          (delimits_optional MessageKind.delimits_reader _).bind fun message =>
            Reader.delimits_pure _) fun bytes => ?_
  unfold partsExtent
  simp only [List.drop_drop]
  omega

end Header

/-! ## What becomes of a frame -/

variable {frame behind payload : Bytes} {h : Header}

/-- A frame of another version is refused as such. -/
theorem decode_cons_of_ne {version : UInt8} (hv : version ≠ protocolVersion) (behind : Bytes) :
    decode (version :: behind) = .error (.invalidVersion version) :=
  if_pos hv

/-- A frame of the understood version has the header that is read off it. -/
theorem decode_version_cons_eq_ok_iff : decode (protocolVersion :: behind) = .ok (h, payload) ↔
    Header.reader (protocolVersion :: behind) = .ok h payload := by
  refine ⟨reader_of_decode, fun hr => ?_⟩
  have hread : decode.read (protocolVersion :: behind) = .ok (h, payload) := by
    simp only [decode.read, EStateM.run, hr]
  exact hread

/-- A frame of the understood version is refused for what its header is refused for. -/
theorem decode_version_cons_of_error {cause : CodecError} {left : Bytes}
    (hr : Header.reader (protocolVersion :: behind) = .error cause left) :
    decode (protocolVersion :: behind) = .error (.codec cause) := by
  have hread : decode.read (protocolVersion :: behind) = .error (.codec cause) := by
    simp only [decode.read, EStateM.run, hr]
  exact hread

/-- A header reaches two bytes less far behind its version and control byte. -/
theorem Header.extent_cons (version : UInt8) (behind : Bytes) :
    extent (version :: behind) = partsExtent (behind.getD 0 0) (behind.drop 1) + 1 + 1 :=
  Nat.add_comm ..

/-- A frame is of another version, ends before its header does, or is taken apart behind its
header. -/
theorem decode_cases (frame : Bytes) :
    (∃ v, frame.head? = some v ∧ v ≠ protocolVersion ∧
      decode frame = .error (.invalidVersion v)) ∨
    ((∀ v ∈ frame.head?, v = protocolVersion) ∧ frame.length < Header.extent frame ∧
      decode frame = .error (.codec .endOfBuffer)) ∨
    ((∀ v ∈ frame.head?, v = protocolVersion) ∧ Header.extent frame ≤ frame.length ∧
      ∃ h, decode frame = .ok (h, frame.drop (Header.extent frame))) := by
  cases frame with
  | nil => exact Or.inr (Or.inl ⟨by simp, by decide, rfl⟩)
  | cons version behind =>
    by_cases hv : version = protocolVersion
    · subst hv
      have hfirst : ∀ v ∈ (protocolVersion :: behind).head?, v = protocolVersion := by simp
      rw [Header.extent_cons, List.length_cons, List.drop_succ_cons]
      by_cases hlen : behind.length <
          Header.partsExtent (behind.getD 0 0) (behind.drop 1) + 1
      · obtain ⟨left, hleft⟩ := Header.delimits_reader.cut hlen
        exact Or.inr (Or.inl ⟨hfirst, Nat.succ_lt_succ hlen, decode_version_cons_of_error hleft⟩)
      · obtain ⟨h, hh, -⟩ := Header.delimits_reader.read (Nat.not_lt.mp hlen)
        exact Or.inr (Or.inr ⟨hfirst, Nat.succ_le_succ (Nat.not_lt.mp hlen), h,
          decode_version_cons_eq_ok_iff.mpr hh⟩)
    · exact Or.inl ⟨version, rfl, hv, decode_cons_of_ne hv behind⟩

/-- A frame that can be read is of the understood version. -/
theorem exists_cons_of_decode (hd : decode frame = .ok (h, payload)) :
    ∃ behind, frame = protocolVersion :: behind := by
  cases frame with
  | nil => cases hd
  | cons version behind =>
    by_cases hv : version = protocolVersion
    · exact ⟨behind, by rw [hv]⟩
    · rw [decode_cons_of_ne hv] at hd
      cases hd

/-- What is behind a frame becomes part of its payload. -/
theorem decode_append (hd : decode frame = .ok (h, payload)) (more : Bytes) :
    decode (frame ++ more) = .ok (h, payload ++ more) := by
  obtain ⟨behind, rfl⟩ := exists_cons_of_decode hd
  exact decode_version_cons_eq_ok_iff.mpr
    (Header.delimits_reader.append (decode_version_cons_eq_ok_iff.mp hd) more)

/-- A frame that is cut behind its header loses part of its payload. -/
theorem decode_take_of_le (hd : decode frame = .ok (h, payload)) {n : Nat}
    (hn : Header.extent frame ≤ n) :
    decode (frame.take n) = .ok (h, payload.take (n - Header.extent frame)) := by
  obtain ⟨behind, rfl⟩ := exists_cons_of_decode hd
  rw [Header.extent_cons] at hn ⊢
  cases n with
  | zero => cases hn
  | succ n =>
    rw [Nat.add_sub_add_right]
    exact decode_version_cons_eq_ok_iff.mpr (Header.delimits_reader.take_of_le
      (decode_version_cons_eq_ok_iff.mp hd) (Nat.le_of_succ_le_succ hn))

/-- A frame that is cut within its header cannot be read. -/
theorem decode_take_of_lt (hd : decode frame = .ok (h, payload)) {n : Nat}
    (hn : n < Header.extent frame) : decode (frame.take n) = .error (.codec .endOfBuffer) := by
  obtain ⟨behind, rfl⟩ := exists_cons_of_decode hd
  cases n with
  | zero => rfl
  | succ n =>
    rw [Header.extent_cons] at hn
    obtain ⟨left, hleft⟩ := Header.delimits_reader.take_of_lt
      (decode_version_cons_eq_ok_iff.mp hd) (Nat.lt_of_succ_lt_succ hn)
    exact decode_version_cons_of_error hleft

/-- The header of a frame that can be read is as long as it says. -/
theorem extent_of_decode (hd : decode frame = .ok (h, payload)) :
    Header.extent frame = h.size ∧ h.size + payload.length = frame.length := by
  obtain ⟨⟨control, -, hmodify, -⟩, -⟩ := modify_of_decode hd
  have hlen := congrArg List.length hmodify
  rw [List.length_modify, List.length_append, Header.length_bytes] at hlen
  refine ⟨?_, hlen.symm⟩
  rcases decode_cases frame with ⟨v, -, -, hv⟩ | ⟨-, -, hcut⟩ | ⟨-, hle, h', hh⟩
  · rw [hd] at hv
    cases hv
  · rw [hd] at hcut
    cases hcut
  · rw [hd] at hh
    cases hh
    rw [List.length_drop] at hlen
    omega

/-- A header that was read is read alike from every string that starts with it, and from no string
that ends before it does. -/
theorem delimited_of_decode (hd : decode frame = .ok (h, payload)) :
    Header.extent frame = h.size ∧ h.size + payload.length = frame.length ∧
      (∀ n < h.size, decode (frame.take n) = .error (.codec .endOfBuffer)) ∧
      (∀ n, h.size ≤ n → decode (frame.take n) = .ok (h, payload.take (n - h.size))) ∧
      ∀ more, decode (frame ++ more) = .ok (h, payload ++ more) := by
  obtain ⟨hextent, hlen⟩ := extent_of_decode hd
  rw [← hextent] at hlen ⊢
  exact ⟨rfl, hlen, fun n => decode_take_of_lt hd, fun n => decode_take_of_le hd, decode_append hd⟩

/-- A frame is refused for its version, or because it ends before its header does, and for
nothing else. The header of every other frame delimits itself. -/
theorem decode_delimits (frame : Bytes) :
    (∀ v, decode frame = .error (.invalidVersion v) ↔
      frame.head? = some v ∧ v ≠ protocolVersion) ∧
    (decode frame = .error (.codec .endOfBuffer) ↔
      (∀ v ∈ frame.head?, v = protocolVersion) ∧ frame.length < Header.extent frame) ∧
    ((∃ h payload, decode frame = .ok (h, payload)) ↔
      (∀ v ∈ frame.head?, v = protocolVersion) ∧ Header.extent frame ≤ frame.length) ∧
    (∀ e, decode frame = .error e → e = .codec .endOfBuffer ∨ ∃ v, e = .invalidVersion v) ∧
    ∀ h payload, decode frame = .ok (h, payload) →
      Header.extent frame = h.size ∧ h.size + payload.length = frame.length ∧
      (∀ n < h.size, decode (frame.take n) = .error (.codec .endOfBuffer)) ∧
      (∀ n, h.size ≤ n → decode (frame.take n) = .ok (h, payload.take (n - h.size))) ∧
      ∀ more, decode (frame ++ more) = .ok (h, payload ++ more) := by
  rcases decode_cases frame with ⟨v, hfirst, hv, hd⟩ | ⟨hfirst, hlen, hd⟩ | ⟨hfirst, hlen, h, hd⟩
  · -- The frame is of another version.
    have hother : ¬ ∀ v ∈ frame.head?, v = protocolVersion := fun hall => hv (hall v hfirst)
    refine ⟨fun v' => ?_, iff_of_false (by simp [hd]) fun h => hother h.1,
      iff_of_false (by simp [hd]) fun h => hother h.1, by simp [hd], fun _ _ => delimited_of_decode⟩
    rw [hd, hfirst]
    constructor
    · intro he
      cases he
      exact ⟨rfl, hv⟩
    · rintro ⟨he, -⟩
      rw [Option.some.inj he]
  · -- The frame ends before its header does.
    exact ⟨fun v => iff_of_false (by simp [hd]) fun h => h.2 (hfirst v h.1),
      iff_of_true hd ⟨hfirst, hlen⟩, iff_of_false (by simp [hd]) fun h => Nat.not_lt.mpr h.2 hlen,
      by simp [hd], fun _ _ => delimited_of_decode⟩
  · -- The frame is taken apart behind its header.
    exact ⟨fun v => iff_of_false (by simp [hd]) fun h => h.2 (hfirst v h.1),
      iff_of_false (by simp [hd]) fun h => Nat.not_lt.mpr hlen h.2,
      iff_of_true ⟨h, _, hd⟩ ⟨hfirst, hlen⟩, by simp [hd], fun _ _ => delimited_of_decode⟩

theorem decode_delimits_routed :
    let frame : Bytes := [1, 0x28, 0, 5, 1, 7, 0, 3, 0, 6, 0xAA, 0xBB]
    let h : Header := { destination := some ⟨5, some [7], 6⟩, source := some ⟨3, none⟩ }
    decode frame = .ok (h, [0xAA, 0xBB]) ∧
      decode [1, 0x28, 0, 5, 1, 7, 0, 3, 0] = .error (.codec .endOfBuffer) ∧
      decode [1, 0x28, 0, 5, 1, 7, 0, 3, 0, 6, 0xAA] = .ok (h, [0xAA]) ∧
      ∀ more, decode (frame ++ more) = .ok (h, [0xAA, 0xBB] ++ more) := by
  intro frame h
  have hdecode : decode frame = .ok (h, [0xAA, 0xBB]) := by rfl
  obtain ⟨-, -, hshort, hlong, hmore⟩ := (decode_delimits frame).2.2.2.2 h _ hdecode
  exact ⟨hdecode, hshort 9 (by decide), hlong 11 (by decide), hmore⟩

end Fieldbus
