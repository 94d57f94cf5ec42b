/-!
# Finite tables

A table keeps one value for each of finitely many keys, in the order in which the keys were
last written. Main statements say what a lookup finds after an insertion and an erasure, and
that both keep every key single (`nodup_keys_insert`, `nodup_keys_erase`).
-/

namespace Fieldbus

/-- One value for each of finitely many keys. -/
structure Table (κ ν : Type) where
  /-- The keys with their values, last written last. -/
  entries : List (κ × ν) := []
  deriving DecidableEq, Repr

namespace Table

variable {κ ν : Type} [DecidableEq κ]

instance : EmptyCollection (Table κ ν) := ⟨⟨[]⟩⟩

instance : Inhabited (Table κ ν) := ⟨∅⟩

/-- The value of a key. -/
def get? (t : Table κ ν) (k : κ) : Option ν :=
  (t.entries.find? fun e => decide (e.1 = k)).map (·.2)

/-- The same table without a key. -/
def erase (t : Table κ ν) (k : κ) : Table κ ν :=
  ⟨t.entries.filter fun e => decide (e.1 ≠ k)⟩

/-- The same table with a value for a key, in place of the one it had. -/
def insert (t : Table κ ν) (k : κ) (v : ν) : Table κ ν :=
  ⟨(t.erase k).entries ++ [(k, v)]⟩

/-- The keys of a table. -/
def keys (t : Table κ ν) : List κ := t.entries.map (·.1)

/-- The values of a table. -/
def values (t : Table κ ν) : List ν := t.entries.map (·.2)

omit [DecidableEq κ] in
@[simp] theorem entries_empty : (∅ : Table κ ν).entries = [] := rfl

@[simp] theorem get?_empty (k : κ) : (∅ : Table κ ν).get? k = none := rfl

@[simp] theorem get?_erase_self (t : Table κ ν) (k : κ) : (t.erase k).get? k = none := by
  simp [get?, erase]

theorem get?_erase_of_ne (t : Table κ ν) {k k' : κ} (h : k' ≠ k) :
    (t.erase k).get? k' = t.get? k' := by
  unfold get? erase
  rw [List.find?_filter]
  congr 2
  funext e
  by_cases he : e.1 = k'
  · simp [he, h]
  · simp [he]

@[simp] theorem get?_insert_self (t : Table κ ν) (k : κ) (v : ν) :
    (t.insert k v).get? k = some v := by
  have hn : ((t.erase k).entries.find? fun e => decide (e.1 = k)) = none := by
    simpa [get?] using t.get?_erase_self k
  simp [get?, insert, List.find?_append, hn]

theorem get?_insert_of_ne (t : Table κ ν) {k k' : κ} (v : ν) (h : k' ≠ k) :
    (t.insert k v).get? k' = t.get? k' := by
  rw [← t.get?_erase_of_ne h]
  simp [get?, insert, List.find?_append, h.symm]

/-- What a lookup finds after an insertion. -/
theorem get?_insert (t : Table κ ν) (k k' : κ) (v : ν) :
    (t.insert k v).get? k' = if k' = k then some v else t.get? k' := by
  by_cases h : k' = k
  · simp [h]
  · simp [h, get?_insert_of_ne t v h]

/-- The keys of a table are those it has a value for. -/
theorem mem_keys_iff {t : Table κ ν} {k : κ} : k ∈ t.keys ↔ ∃ v, t.get? k = some v := by
  simp only [keys, get?, List.mem_map, Option.map_eq_some_iff]
  constructor
  · rintro ⟨e, he, rfl⟩
    have hs : (t.entries.find? fun e' => decide (e'.1 = e.1)).isSome :=
      List.find?_isSome.mpr ⟨e, he, by simp⟩
    obtain ⟨e', hf⟩ := Option.isSome_iff_exists.mp hs
    exact ⟨e'.2, e', hf, rfl⟩
  · rintro ⟨v, e, hf, rfl⟩
    exact ⟨e, List.mem_of_find?_eq_some hf, by simpa using List.find?_some hf⟩

/-- What is found under a key is listed with it. -/
theorem mem_of_get?_eq_some {t : Table κ ν} {k : κ} {v : ν} (h : t.get? k = some v) :
    (k, v) ∈ t.entries := by
  obtain ⟨e, hf, rfl⟩ := Option.map_eq_some_iff.mp h
  have hk : e.1 = k := by simpa using List.find?_some hf
  exact hk ▸ List.mem_of_find?_eq_some hf

/-- A single key is found with the value it is listed with. -/
theorem get?_eq_some_of_mem {t : Table κ ν} {k : κ} {v : ν} (single : t.keys.Nodup)
    (h : (k, v) ∈ t.entries) : t.get? k = some v := by
  obtain ⟨entries⟩ := t
  unfold get? keys at *
  dsimp only at single h ⊢
  induction entries with
  | nil => cases h
  | cons e rest ih =>
    rw [List.map_cons, List.nodup_cons] at single
    rcases List.mem_cons.mp h with rfl | hrest
    · simp
    · have hne : e.1 ≠ k := by
        rintro rfl
        exact single.1 (List.mem_map.mpr ⟨_, hrest, rfl⟩)
      rw [List.find?_cons_of_neg (by simpa using hne)]
      exact ih single.2 hrest

/-- Erasing a key keeps the others single. -/
theorem nodup_keys_erase {t : Table κ ν} (h : t.keys.Nodup) (k : κ) : (t.erase k).keys.Nodup :=
  List.Nodup.sublist (List.filter_sublist.map _) h

/-- Inserting a key keeps every key single. -/
theorem nodup_keys_insert {t : Table κ ν} (h : t.keys.Nodup) (k : κ) (v : ν) :
    (t.insert k v).keys.Nodup := by
  have he := nodup_keys_erase h k
  simp only [keys, insert, List.map_append, List.map_cons, List.map_nil] at he ⊢
  refine List.nodup_append.mpr ⟨he, by simp, ?_⟩
  intro a ha b hb
  simp only [List.mem_singleton] at hb
  obtain ⟨e, hm, rfl⟩ := List.mem_map.mp ha
  simp only [erase, List.mem_filter, ne_eq, decide_not, Bool.not_eq_eq_eq_not, Bool.not_true,
    decide_eq_false_iff_not] at hm
  simpa [hb] using hm.2

end Table

end Fieldbus
