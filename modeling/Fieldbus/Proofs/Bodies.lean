import Fieldbus.Proofs.Announcements
import Fieldbus.Proofs.Spelling

/-!
# One spelling for every message body

The bodies of the messages a router answers are read as whole strings. A router query and a router
announcement have no length of their own, so that what is read is decided by where the string ends;
an announcement is read by a loop (`RouterAnnouncement.Ends`). Main statement: each body has one
spelling, the strings that are taken are known by their length and their last byte, and the loop
ends without failing on every string that passes the check in front of it (`spells_bodies`).
-/

namespace Fieldbus

namespace Reader

variable {α : Type}

theorem exactly_eq_ok_iff {r : Reader α} {bytes : Bytes} {a : α} :
    r.exactly bytes = .ok a ↔ r bytes = .ok a [] := by
  constructor
  · intro h
    simp only [exactly] at h
    split at h
    · rename_i value hrun
      cases h
      exact hrun
    · cases h
    · cases h
  · intro h
    have hrun : r.run bytes = .ok a [] := h
    rw [exactly, hrun]

/-- Every value is spelled in one way, as many bytes as its size says, and the strings that are
read as a whole are the accepted ones. -/
structure Spells (r : Reader α) (spelling : α → Bytes) (size : α → Nat)
    (Accepted : Bytes → Prop) : Prop where
  /-- The size is the number of bytes. -/
  length_spelling : ∀ a, (spelling a).length = size a
  /-- A value is read back from its spelling. -/
  exactly_spelling : ∀ a, r.exactly (spelling a) = .ok a
  /-- What is read off a string has that string for its spelling. -/
  spelling_of_exactly : ∀ bytes a, r.exactly bytes = .ok a → spelling a = bytes
  /-- Every accepted string is read. -/
  accepts : ∀ bytes, Accepted bytes → ∃ a, r.exactly bytes = .ok a
  /-- Every other string is refused. -/
  refuses : ∀ bytes, ¬ Accepted bytes → ∃ cause, r.exactly bytes = .error cause

variable {r : Reader α} {spelling : α → Bytes} {size : α → Nat} {Accepted : Bytes → Prop}

/-- What is read off a whole string has it for its spelling if what the reader consumes is the
spelling of what it reads. -/
theorem Yields.spelling_of_exactly (yields : r.Yields fun front a => front = spelling a)
    {bytes : Bytes} {a : α} (h : r.exactly bytes = .ok a) : spelling a = bytes := by
  obtain ⟨front, hbytes, rfl⟩ := yields bytes [] a (exactly_eq_ok_iff.mp h)
  rw [hbytes, List.append_nil]

/-- The accepted strings are the spellings of values. -/
theorem Spells.of_yields (length : ∀ a, (spelling a).length = size a)
    (back : ∀ a, r.exactly (spelling a) = .ok a)
    (yields : r.Yields fun front a => front = spelling a)
    (accepted : ∀ bytes, Accepted bytes ↔ ∃ a, spelling a = bytes) :
    r.Spells spelling size Accepted where
  length_spelling := length
  exactly_spelling := back
  spelling_of_exactly _ _ := yields.spelling_of_exactly
  accepts bytes h := by
    obtain ⟨a, rfl⟩ := (accepted bytes).mp h
    exact ⟨a, back a⟩
  refuses bytes h := by
    cases hread : r.exactly bytes with
    | error cause => exact ⟨cause, rfl⟩
    | ok a => exact absurd ((accepted bytes).mpr ⟨a, yields.spelling_of_exactly hread⟩) h

theorem yields_flag : flag.Yields fun front b => front = [if b then 1 else 0] := by
  refine yields_byte.bind ?_
  rintro front b rfl
  split
  · exact yields_pure rfl
  · exact yields_pure rfl
  · exact yields_throw _

@[simp] theorem flag_append (b : Bool) (rest : Bytes) :
    flag ((if b then 1 else 0) :: rest) = .ok b rest := by
  cases b <;> rfl

end Reader

/-! ## Router queries -/

namespace RouterQuery

@[simp] theorem exactly_bytes (q : RouterQuery) : reader.exactly q.bytes = .ok q :=
  Reader.exactly_eq_ok_iff.mpr q.run_bytes

theorem yields_reader : reader.Yields fun front q => front = q.bytes := by
  intro bytes rest q h
  unfold reader at h
  split at h
  · rename_i hempty
    cases h
    exact ⟨[], rfl, rfl⟩
  · have hyields : (do return ⟨some (← Reader.word)⟩ : Reader RouterQuery).Yields
        fun front q => front = q.bytes := by
      refine Reader.yields_word.bind ?_
      rintro front segment rfl
      exact Reader.yields_pure (List.append_nil _)
    exact hyields bytes rest q h

/-- A query is spelled in two bytes or none. -/
theorem exists_bytes_eq_iff {bytes : Bytes} :
    (∃ q : RouterQuery, q.bytes = bytes) ↔ bytes.length = 0 ∨ bytes.length = 2 := by
  constructor
  · rintro ⟨⟨_ | segment⟩, rfl⟩
    · exact .inl rfl
    · exact .inr rfl
  · rintro (h | h)
    · exact ⟨⟨none⟩, (List.eq_nil_of_length_eq_zero h).symm⟩
    · obtain ⟨high, low, rfl⟩ := List.length_eq_two.mp h
      exact ⟨⟨some (Bytes.join high low)⟩, Bytes.word_join high low⟩

theorem spells : reader.Spells bytes size fun bytes => bytes.length = 0 ∨ bytes.length = 2 :=
  .of_yields length_bytes exactly_bytes yields_reader fun _ => exists_bytes_eq_iff.symm

end RouterQuery

/-! ## Router announcements -/

namespace RouterAnnouncement

/-- The loop that reads an announcement ends after some turns. It stops when no bytes are left;
a turn reads a number and puts it behind those read before, or fails. -/
inductive Ends : List Segment → Bytes → Nat →
    EStateM.Result CodecError Bytes RouterAnnouncement → Prop
  /-- Nothing is left. -/
  | stop (segments : List Segment) : Ends segments [] 0 (.ok ⟨segments⟩ [])
  /-- A number is read. -/
  | turn {segments : List Segment} {bytes rest : Bytes} {n : Segment} {turns : Nat}
      {result : EStateM.Result CodecError Bytes RouterAnnouncement} (left : bytes ≠ [])
      (read : Reader.word bytes = .ok n rest) (ends : Ends (segments ++ [n]) rest turns result) :
      Ends segments bytes (turns + 1) result
  /-- What is left is not a number. -/
  | fail {segments : List Segment} {bytes rest : Bytes} {cause : CodecError} (left : bytes ≠ [])
      (read : Reader.word bytes = .error cause rest) : Ends segments bytes 1 (.error cause rest)

variable {segments : List Segment} {bytes : Bytes} {turns turns' : Nat}
  {result result' : EStateM.Result CodecError Bytes RouterAnnouncement}

/-- The loop ends in one way. -/
theorem Ends.unique (h : Ends segments bytes turns result)
    (h' : Ends segments bytes turns' result') : turns = turns' ∧ result = result' := by
  induction h generalizing turns' with
  | stop segments =>
    cases h' with
    | stop => exact ⟨rfl, rfl⟩
    | turn left => exact absurd rfl left
    | fail left => exact absurd rfl left
  | turn left read ends ih =>
    cases h' with
    | stop => exact absurd rfl left
    | turn _ read' ends' =>
      cases read.symm.trans read'
      obtain ⟨rfl, rfl⟩ := ih ends'
      exact ⟨rfl, rfl⟩
    | fail _ read' => cases read.symm.trans read'
  | fail left read =>
    cases h' with
    | stop => exact absurd rfl left
    | turn _ read' => cases read.symm.trans read'
    | fail _ read' =>
      cases read.symm.trans read'
      exact ⟨rfl, rfl⟩

theorem length_mod_two (high low : UInt8) (rest : Bytes) :
    (high :: low :: rest).length % 2 = rest.length % 2 := by
  rw [List.length_cons, List.length_cons]
  omega

theorem length_div_two (high low : UInt8) (rest : Bytes) :
    (high :: low :: rest).length / 2 = rest.length / 2 + 1 := by
  rw [List.length_cons, List.length_cons]
  omega

/-- A turn takes two bytes, so that an even number of them stays even and none is left over. -/
theorem ends_of_even : ∀ (bytes : Bytes) (segments : List Segment), bytes.length % 2 = 0 →
    Ends segments bytes (bytes.length / 2) (.ok ⟨segments ++ words bytes⟩ [])
  | [], segments, _ => by simpa [words] using Ends.stop segments
  | high :: low :: rest, segments, even => by
    rw [length_mod_two] at even
    have hends := ends_of_even rest (segments ++ [Bytes.join high low]) even
    rw [List.append_assoc] at hends
    rw [length_div_two]
    exact .turn (List.cons_ne_nil _ _) rfl hends

/-- The bytes of an announcement are those its numbers were read off. -/
theorem bytes_words : ∀ bytes : Bytes, bytes.length % 2 = 0 →
    RouterAnnouncement.bytes ⟨words bytes⟩ = bytes
  | [], _ => rfl
  | high :: low :: rest, even => by
    rw [length_mod_two] at even
    show Bytes.word (Bytes.join high low) ++ RouterAnnouncement.bytes ⟨words rest⟩ = _
    rw [bytes_words rest even, Bytes.word_join]
    rfl

theorem reader_of_even (even : bytes.length % 2 = 0) : reader bytes = .ok ⟨words bytes⟩ [] := by
  rw [reader, if_pos even]

theorem reader_of_odd (odd : bytes.length % 2 ≠ 0) :
    reader bytes = .error .oddBodyLength bytes := by
  rw [reader, if_neg odd]

theorem yields_reader : reader.Yields fun front a => front = a.bytes := by
  intro bytes rest a h
  by_cases even : bytes.length % 2 = 0
  · rw [reader_of_even even] at h
    cases h
    exact ⟨bytes, (List.append_nil bytes).symm, (bytes_words bytes even).symm⟩
  · rw [reader_of_odd even] at h
    cases h

/-- An announcement is spelled in an even number of bytes. -/
theorem exists_bytes_eq_iff :
    (∃ a : RouterAnnouncement, a.bytes = bytes) ↔ bytes.length % 2 = 0 := by
  constructor
  · rintro ⟨a, rfl⟩
    rw [length_bytes, size]
    omega
  · intro even
    exact ⟨⟨words bytes⟩, bytes_words bytes even⟩

theorem spells : reader.Spells RouterAnnouncement.bytes size fun bytes => bytes.length % 2 = 0 :=
  .of_yields length_bytes exactly_bytes yields_reader fun _ => exists_bytes_eq_iff.symm

end RouterAnnouncement

/-! ## Segment announcements -/

namespace SegmentAnnouncement

@[simp] theorem exactly_bytes (a : SegmentAnnouncement) : reader.exactly a.bytes = .ok a := by
  apply Reader.exactly_eq_ok_iff.mpr
  show reader (Bytes.word a.segment ++ [if a.configured then 1 else 0]) = _
  simp only [reader, bind, EStateM.bind, Reader.word_append, Reader.flag_append, pure,
    EStateM.pure]

theorem yields_reader : reader.Yields fun front a => front = a.bytes := by
  refine Reader.yields_word.bind ?_
  rintro front segment rfl
  refine Reader.yields_flag.bind ?_
  rintro front configured rfl
  exact Reader.yields_pure (by rw [List.append_nil]; rfl)

/-- An announcement is spelled in three bytes, the last of which is a flag. -/
theorem exists_bytes_eq_iff {bytes : Bytes} : (∃ a : SegmentAnnouncement, a.bytes = bytes) ↔
    bytes.length = 3 ∧ (bytes.getLast? = some 0 ∨ bytes.getLast? = some 1) := by
  constructor
  · rintro ⟨⟨segment, _ | _⟩, rfl⟩
    · exact ⟨rfl, .inl rfl⟩
    · exact ⟨rfl, .inr rfl⟩
  · rintro ⟨hlength, hlast⟩
    obtain ⟨high, low, last, rfl⟩ := List.length_eq_three.mp hlength
    rcases hlast with h | h <;> cases h
    · exact ⟨⟨Bytes.join high low, false⟩, by rw [bytes, Bytes.word_join]; rfl⟩
    · exact ⟨⟨Bytes.join high low, true⟩, by rw [bytes, Bytes.word_join]; rfl⟩

theorem spells : reader.Spells bytes size fun bytes =>
    bytes.length = 3 ∧ (bytes.getLast? = some 0 ∨ bytes.getLast? = some 1) :=
  .of_yields length_bytes exactly_bytes yields_reader fun _ => exists_bytes_eq_iff.symm

end SegmentAnnouncement

/-- Every value of the three bodies is spelled in one way, and a string is read as one of them
exactly if it has no or two bytes, an even number of bytes, or three bytes of which the last is a
flag. The loop that reads a router announcement takes a turn for every two bytes; after its check it
never fails, and what it ends with is what is read. -/
theorem spells_bodies :
    RouterQuery.reader.Spells RouterQuery.bytes RouterQuery.size
      (fun bytes => bytes.length = 0 ∨ bytes.length = 2) ∧
    RouterAnnouncement.reader.Spells RouterAnnouncement.bytes RouterAnnouncement.size
      (fun bytes => bytes.length % 2 = 0) ∧
    SegmentAnnouncement.reader.Spells SegmentAnnouncement.bytes SegmentAnnouncement.size
      (fun bytes => bytes.length = 3 ∧ (bytes.getLast? = some 0 ∨ bytes.getLast? = some 1)) ∧
    ∀ bytes : Bytes,
      (bytes.length % 2 ≠ 0 → RouterAnnouncement.reader bytes = .error .oddBodyLength bytes) ∧
      (bytes.length % 2 = 0 → ∃ announcement,
        RouterAnnouncement.Ends [] bytes (bytes.length / 2) (.ok announcement []) ∧
        (∀ turns result, RouterAnnouncement.Ends [] bytes turns result →
          result = .ok announcement []) ∧
        RouterAnnouncement.reader bytes = .ok announcement []) := by
  refine ⟨RouterQuery.spells, RouterAnnouncement.spells, SegmentAnnouncement.spells,
    fun bytes => ⟨RouterAnnouncement.reader_of_odd, fun even => ?_⟩⟩
  have hends := RouterAnnouncement.ends_of_even bytes [] even
  refine ⟨⟨RouterAnnouncement.words bytes⟩, hends, fun turns result h => ?_,
    RouterAnnouncement.reader_of_even even⟩
  exact (h.unique hends).2

end Fieldbus
