import Fieldbus.Proofs.Calls

/-!
# What becomes of a frame

A station that takes a frame in discards it, keeps it, spreads it or passes it on, unless its handling
breaks off. `Directory.fate` says which, and with it what the station itself does and which neighbors
it calls. Main statement: this is all that comes of a frame (`Directory.events_receive`).
-/

namespace Fieldbus

/-- What a station makes of a frame from its medium. -/
inductive Fate where
  /-- The frame is discarded, and a fault is reported if it cannot be read. -/
  | discarded (fault : Option Fault)
  /-- The handling breaks off at an address that is too long. -/
  | brokenOff (overlong : Overlong)
  /-- The envelope is for the node. -/
  | kept (e : Envelope)
  /-- The envelope is for everybody, the node included. -/
  | spread (e : Envelope)
  /-- The envelope is for another segment, which a neighbor leads to. -/
  | passed (e : Envelope) (recipient : Address) (n : Member)

namespace Fate

/-- The neighbors that the station calls. -/
def calls (d : Directory) (m : Member) : Fate → List Call
  | spread e => d.copies e.hopCount.toNat m e [e.sender.segment]
  | passed e recipient n => [⟨m, n, recipient, Directory.forwarded m.station e, false⟩]
  | _ => []

/-- What happens at the node last. -/
def last (id : NodeId) : Fate → List Event
  | discarded fault => .dropped id :: (fault.map (Event.reported id)).toList
  | kept e => [.arrived id e]
  | spread e => [.arrived id e]
  | _ => []

/-- What happens at the node last is that the frame is discarded or the envelope kept. -/
theorem of_mem_last {fate : Fate} {id : NodeId} {event : Event} (h : event ∈ fate.last id) :
    event = .dropped id ∨ (∃ fault, event = .reported id fault) ∨ ∃ e, event = .arrived id e := by
  cases fate with
  | discarded fault =>
    rcases List.mem_cons.mp h with h | h
    · exact Or.inl h
    · obtain ⟨fault, -, rfl⟩ := Option.map_eq_some_iff.mp (Option.mem_toList.mp h)
      exact Or.inr (Or.inl ⟨fault, rfl⟩)
  | kept e => exact Or.inr (Or.inr ⟨e, List.mem_singleton.mp h⟩)
  | spread e => exact Or.inr (Or.inr ⟨e, List.mem_singleton.mp h⟩)
  | brokenOff | passed => cases h

end Fate

namespace Directory

variable {d : Directory} {m : Member}

/-- What a station that is active makes of a frame that the node `origin` put on its medium. -/
def fate (d : Directory) (m : Member) (frame origin : Bytes) : Fate :=
  match d.parse m.station frame origin with
  | .error (.fault fault) => .discarded (some fault)
  | .error (.overlong overlong) => .brokenOff overlong
  | .ok none => .discarded none
  | .ok (some e) =>
    if isOwn m.station e origin then .discarded none
    else
      match e.recipient.filter fun a => !m.station.answersTo a with
      | none => .kept e
      | some recipient =>
        if recipient.isGlobal then .spread e
        else
          match d.neighborOn? m.station recipient.segment with
          | none => .discarded none
          | some n => .passed e recipient n

/-- The calls that a station makes itself for a frame. -/
def handedOn (d : Directory) (m : Member) (frame origin : Bytes) : List Call :=
  if m.station.terminated then [] else (d.fate m frame origin).calls d m

/-- What comes of a frame is that it is taken in, what comes of the calls that the station makes, and
what happens at its node last. -/
theorem events_receive (active : m.station.terminated = false) (frame origin : Bytes) :
    (d.receive m frame origin).events = .received m.id ::
      (((d.fate m frame origin).calls d m).flatMap (Call.events d) ++
        (d.fate m frame origin).last m.id) := by
  unfold receive fate
  rw [active]
  simp only [Bool.false_eq_true, ite_false]
  rcases d.parse m.station frame origin with (fault | overlong) | (_ | e)
  · rfl
  · rfl
  · rfl
  · dsimp only
    unfold route
    split
    · rfl
    · cases he : e.recipient.filter fun a => !m.station.answersTo a with
      | none => rfl
      | some recipient =>
        dsimp only
        split
        · rw [flood_eq_flatMap_events (Nat.le_of_lt e.hopCount.toNat_lt)]
          rfl
        · cases hn : d.neighborOn? m.station recipient.segment with
          | none => rfl
          | some n =>
            simp only [Fate.calls, Fate.last, List.flatMap_cons, List.flatMap_nil, List.append_nil]
            rfl

theorem events_receive_handedOn (active : m.station.terminated = false) (frame origin : Bytes) :
    (d.receive m frame origin).events = .received m.id ::
      ((d.handedOn m frame origin).flatMap (Call.events d) ++
        (d.fate m frame origin).last m.id) := by
  rw [events_receive active, handedOn, active]
  rfl

variable {frame origin : Bytes} {e : Envelope}

/-- What is spread is not the station's own, and for everybody. -/
theorem of_fate_eq_spread (h : d.fate m frame origin = .spread e) :
    d.parse m.station frame origin = .ok (some e) ∧ isOwn m.station e origin = false ∧
      e.recipient = some Address.everywhere := by
  unfold fate at h
  split at h <;> try cases h
  rename_i e' he
  split at h
  · cases h
  rename_i hown
  split at h
  · cases h
  rename_i a ha
  split at h
  · rename_i hglobal
    cases h
    obtain ⟨hrecipient, -⟩ := Option.filter_eq_some_iff.mp ha
    exact ⟨he, eq_false_of_ne_true hown, Address.isGlobal_iff.mp hglobal ▸ hrecipient⟩
  · split at h <;> cases h

/-- What is passed on is not the station's own, and for an address on the segment that the neighbor
leads to. -/
theorem of_fate_eq_passed {a : Address} {n : Member} (h : d.fate m frame origin = .passed e a n) :
    d.parse m.station frame origin = .ok (some e) ∧ isOwn m.station e origin = false ∧
      e.recipient = some a ∧ a.isGlobal = false ∧
      d.neighborOn? m.station a.segment = some n := by
  unfold fate at h
  split at h <;> try cases h
  rename_i e' he
  split at h
  · cases h
  rename_i hown
  split at h
  · cases h
  rename_i a' ha
  split at h
  · cases h
  rename_i hglobal
  split at h <;> cases h
  rename_i hneighbor
  obtain ⟨hrecipient, -⟩ := Option.filter_eq_some_iff.mp ha
  exact ⟨he, eq_false_of_ne_true hown, hrecipient, eq_false_of_ne_true hglobal, hneighbor⟩

/-- A station that makes calls for a frame is active. -/
theorem active_of_mem_handedOn {c : Call} (h : c ∈ d.handedOn m frame origin) :
    m.station.terminated = false := by
  unfold handedOn at h
  split at h
  · cases h
  · exact eq_false_of_ne_true ‹_›

/-- A station makes calls itself to hand an envelope on. -/
theorem mem_onward_of_mem_handedOn {c : Call} (h : c ∈ d.handedOn m frame origin) :
    ∃ e, d.parse m.station frame origin = .ok (some e) ∧ c ∈ d.onward m e := by
  rw [handedOn, active_of_mem_handedOn h] at h
  cases hfate : d.fate m frame origin with
  | spread e =>
    obtain ⟨he, -, hrecipient⟩ := of_fate_eq_spread hfate
    rw [hfate] at h
    refine ⟨e, he, ?_⟩
    rw [onward, hrecipient]
    exact h
  | passed e a n =>
    obtain ⟨he, -, hrecipient, hsingle, hneighbor⟩ := of_fate_eq_passed hfate
    rw [hfate] at h
    refine ⟨e, he, ?_⟩
    simp only [onward, hrecipient, hsingle, hneighbor, Bool.false_eq_true, ite_false]
    exact h
  | _ =>
    rw [hfate] at h
    cases h

end Directory

end Fieldbus
