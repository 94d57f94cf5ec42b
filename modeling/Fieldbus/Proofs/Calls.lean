import Mathlib.Logic.Relation
import Fieldbus.Proofs.Routes

/-!
# Calls between neighbors

A station that hands an envelope on calls a neighbor, and if the envelope is a global broadcast the
neighbor calls neighbors of its own in turn. What comes of a call is what every station does that
is called in its course (`Call.mem_events_iff`). Sending and receiving are described by the calls
they begin with (`Directory.exists_calls_send`, `Directory.exists_calls_receive`).
-/

namespace Fieldbus

/-- A station hands an envelope on to a neighbor. -/
structure Call where
  /-- The station that calls. -/
  source : Member
  /-- The neighbor that is called. -/
  target : Member
  /-- Who the envelope is for. -/
  recipient : Address
  /-- The envelope as it is handed on. -/
  envelope : Envelope
  /-- Every node of the neighbor's segment gets the envelope. -/
  broadcast : Bool

/-- The call in which a message is handed to a neighbor. -/
def Message.call (msg : Message) (m : Member) (sender : Address) (n : Member) : Call :=
  ⟨m, n, msg.recipient, msg.envelope sender, msg.broadcast⟩

namespace Directory

/-- The calls in which a station passes a global broadcast on. -/
def copies (d : Directory) (hops : Nat) (m : Member) (e : Envelope) (skip : List Segment) :
    List Call :=
  match hops with
  | 0 => []
  | hops + 1 => ((d.neighbors m.station).filter fun n => !skip.contains n.station.segment).map
      fun n => ⟨m, n, Address.everywhere, e.copyFrom m.station hops, true⟩

/-- The calls that a station makes for an envelope from its medium that it does not keep to
itself. -/
def onward (d : Directory) (m : Member) (e : Envelope) : List Call :=
  match e.recipient with
  | none => []
  | some a =>
    if a.isGlobal then d.copies e.hopCount.toNat m e [e.sender.segment]
    else (d.neighborOn? m.station a.segment).toList.map
      fun n => ⟨m, n, a, forwarded m.station e, false⟩

end Directory

namespace Call

/-- The call itself, as it is counted where it comes from. -/
def event (c : Call) : Event :=
  .relayed c.source.id c.target.id c.source.station.segment c.recipient c.envelope c.broadcast

/-- The call and all that comes of it. -/
def events (d : Directory) (c : Call) : List Event :=
  c.event ::
    d.relay c.target c.source.station.segment c.recipient c.envelope c.broadcast

/-- What the neighbor that is called does itself. -/
def own (c : Call) : List Event :=
  if c.target.station.terminated then []
  else (if c.recipient.isGlobal then [.arrived c.target.id c.envelope] else []) ++
    c.target.putEnvelope c.recipient c.envelope c.broadcast

/-- The calls that the neighbor makes in turn. -/
def next (d : Directory) (c : Call) : List Call :=
  if c.target.station.terminated || !c.recipient.isGlobal then []
  else d.copies c.envelope.hopCount.toNat c.target c.envelope
    [c.source.station.segment, c.envelope.sender.segment]

/-- A call is made in the course of another one, if only in its own. -/
def Leads (d : Directory) : Call → Call → Prop := Relation.ReflTransGen fun c c' => c' ∈ c.next d

end Call

namespace Directory

variable {d : Directory} {m : Member} {e : Envelope}

/-- What is known of a call in which a global broadcast is passed on. -/
theorem of_mem_copies {hops : Nat} {skip : List Segment} {c : Call}
    (h : c ∈ d.copies hops m e skip) :
    ∃ left, hops = left + 1 ∧ c.target ∈ d.neighbors m.station ∧
      c.target.station.segment ∉ skip ∧
      c = ⟨m, c.target, Address.everywhere, e.copyFrom m.station left, true⟩ := by
  cases hops with
  | zero => cases h
  | succ left =>
    obtain ⟨n, hn, rfl⟩ := List.mem_map.mp h
    obtain ⟨hneighbor, hskip⟩ := List.mem_filter.mp hn
    exact ⟨left, rfl, hneighbor, by simpa using hskip, rfl⟩

/-- An envelope that a station does not keep to itself is passed on as a global broadcast or handed
to one neighbor. -/
theorem of_mem_onward {c : Call} (h : c ∈ d.onward m e) :
    (e.recipient = some Address.everywhere ∧
        c ∈ d.copies e.hopCount.toNat m e [e.sender.segment]) ∨
      ∃ a n, e.recipient = some a ∧ a.isGlobal = false ∧
        d.neighborOn? m.station a.segment = some n ∧
        c = ⟨m, n, a, forwarded m.station e, false⟩ := by
  unfold onward at h
  split at h
  · cases h
  · rename_i a ha
    split at h
    · rename_i hg
      exact Or.inl ⟨Address.isGlobal_iff.mp hg ▸ ha, h⟩
    · rename_i hg
      obtain ⟨n, hn, rfl⟩ := List.mem_map.mp h
      exact Or.inr ⟨a, n, ha, eq_false_of_ne_true hg, Option.mem_toList.mp hn, rfl⟩

/-- A flood consists of the calls in which the broadcast is passed on. -/
theorem flood_eq_flatMap_events {hops : Nat} (h : hops ≤ 256) (m : Member) (e : Envelope)
    (skip : List Segment) :
    d.flood hops m e skip = (d.copies hops m e skip).flatMap (Call.events d) := by
  cases hops with
  | zero => rfl
  | succ left =>
    rw [flood_eq_flatMap_relay d (by omega), copies, List.flatMap_map]
    rfl

end Directory

namespace Member

variable {m : Member} {event : Event}

/-- A station that puts a message onto its segment transmits it if the medium takes it. -/
theorem mem_put_iff {msg : Message} {header : Header} {router : Option Bytes} :
    event ∈ (m.put msg header router).events ↔
      event = .transmitted m.id (msg.transmission header router) ∧
        m.station.attachment.Takes (msg.transmission header router).frame.length := by
  unfold put emit
  by_cases takes : m.station.attachment.Takes (msg.transmission header router).frame.length
  · rw [if_pos takes]
    exact List.mem_singleton.trans (and_iff_left takes).symm
  · rw [if_neg takes]
    exact iff_of_false List.not_mem_nil fun h => takes h.2

/-- A station that puts an envelope onto its segment transmits it, or reports that it cannot. -/
theorem of_mem_putEnvelope {recipient : Address} {e : Envelope} {broadcast : Bool}
    (h : event ∈ m.putEnvelope recipient e broadcast) :
    event = .transmitted m.id ((m.station.landing e).transmission recipient broadcast) ∨
      ∃ fault, event = .reported m.id fault := by
  unfold putEnvelope emit at h
  by_cases takes : m.station.attachment.Takes
      ((m.station.landing e).transmission recipient broadcast).frame.length
  · rw [if_pos takes] at h
    exact Or.inl (List.mem_singleton.mp h)
  · rw [if_neg takes] at h
    exact Or.inr ⟨_, List.mem_singleton.mp h⟩

end Member

namespace Call

variable {d : Directory} {c c' : Call} {event : Event}

/-- What comes of a call is what comes of the calls made in turn and what the neighbor does
itself. -/
theorem events_eq (d : Directory) (c : Call) :
    c.events d = c.event :: ((c.next d).flatMap (events d) ++ c.own) := by
  have hle : c.envelope.hopCount.toNat ≤ 256 := Nat.le_of_lt c.envelope.hopCount.toNat_lt
  unfold events next own Directory.relay
  cases c.target.station.terminated with
  | true => rfl
  | false =>
    cases c.recipient.isGlobal with
    | false => rfl
    | true =>
      simp only [Directory.flood_eq_flatMap_events hle, Bool.false_eq_true, Bool.not_true,
        Bool.or_self, ite_false, ite_true, List.append_assoc]
      rfl

/-- What is known of a call that is made in turn. -/
theorem of_mem_next (h : c' ∈ c.next d) :
    c.recipient = Address.everywhere ∧ c'.target ∈ d.neighbors c.target.station ∧
      c'.target.station.segment ≠ c.source.station.segment ∧
      c'.target.station.segment ≠ c.envelope.sender.segment ∧
      ∃ left, c.envelope.hopCount.toNat = left + 1 ∧ c' = ⟨c.target, c'.target,
        Address.everywhere, c.envelope.copyFrom c.target.station left, true⟩ := by
  unfold next at h
  split at h
  · cases h
  · rename_i hcalls
    have hglobal : c.recipient.isGlobal = true := by
      cases hg : c.recipient.isGlobal with
      | true => rfl
      | false => simp [hg] at hcalls
    obtain ⟨left, hleft, hneighbor, hskip, hc⟩ := Directory.of_mem_copies h
    simp only [List.mem_cons, List.not_mem_nil, or_false, not_or] at hskip
    exact ⟨Address.isGlobal_iff.mp hglobal, hneighbor, hskip.1, hskip.2, left, hleft, hc⟩

/-- A call that is made in turn has one hop less. -/
theorem hopCount_of_mem_next (h : c' ∈ c.next d) :
    c'.envelope.hopCount.toNat + 1 = c.envelope.hopCount.toNat := by
  obtain ⟨-, -, -, -, left, hleft, hc⟩ := of_mem_next h
  have hlt := c.envelope.hopCount.toNat_lt
  rw [hc, Envelope.toNat_hopCount_copyFrom (by omega)]
  exact hleft.symm

/-- What comes of a call is made up of the calls made in its course and of what the neighbors do
themselves that are called. -/
theorem mem_events_iff :
    event ∈ c.events d ↔ ∃ c', c.Leads d c' ∧ (event = c'.event ∨ event ∈ c'.own) := by
  constructor
  · -- Every call that is made in turn has fewer hops left.
    induction hn : c.envelope.hopCount.toNat using Nat.strongRecOn generalizing c with
    | ind n ih =>
      intro h
      rw [events_eq, List.mem_cons, List.mem_append, List.mem_flatMap] at h
      rcases h with rfl | ⟨c', hnext, h⟩ | h
      · exact ⟨c, .refl, Or.inl rfl⟩
      · have hhops := hopCount_of_mem_next hnext
        obtain ⟨c'', hleads, h⟩ := ih _ (by omega) rfl h
        exact ⟨c'', .head hnext hleads, h⟩
      · exact ⟨c, .refl, Or.inr h⟩
  · rintro ⟨c', hleads, h⟩
    induction hleads using Relation.ReflTransGen.head_induction_on with
    | refl =>
      rw [events_eq, List.mem_cons, List.mem_append]
      exact h.imp_right Or.inr
    | head hnext _ ih =>
      rw [events_eq, List.mem_cons, List.mem_append, List.mem_flatMap]
      exact Or.inr (Or.inl ⟨_, hnext, ih⟩)

/-- A neighbor that is called takes note of a global broadcast, and transmits the envelope or
reports that it cannot. -/
theorem of_mem_own (h : event ∈ c.own) :
    c.recipient.isGlobal = true ∧ event = .arrived c.target.id c.envelope ∨
      event = .transmitted c.target.id
        ((c.target.station.landing c.envelope).transmission c.recipient c.broadcast) ∨
      ∃ fault, event = .reported c.target.id fault := by
  unfold own at h
  split at h
  · cases h
  rcases List.mem_append.mp h with h | h
  · split at h
    · rename_i hg
      exact Or.inl ⟨hg, List.mem_singleton.mp h⟩
    · cases h
  · exact Or.inr (Member.of_mem_putEnvelope h)

end Call

namespace Directory

variable {d : Directory} {m : Member} {e : Envelope} {event : Event}

/-! ## The calls that sending and receiving begin with -/

/-- Handing a message over is calling the neighbors. -/
theorem handOver_eq_flatMap_events (d : Directory) (m : Member) (msg : Message) (sender : Address)
    (neighbors : List Member) :
    d.handOver m msg sender neighbors =
      (neighbors.map (msg.call m sender)).flatMap (Call.events d) := by
  rw [handOver, List.flatMap_map]
  rfl

/-- The neighbors that a station calls to send a message. -/
def called (d : Directory) (s : Station) (msg : Message) : List Member :=
  if msg.recipient.isGlobal then d.audience s msg
  else if s.shares msg.recipient then []
  else
    match msg.router.filter fun r => !s.answersTo r with
    | none => (d.neighborOn? s msg.recipient.segment).toList
    | some _ => []

/-- The header under which a station puts a message onto its segment, and the router that it is
for there; a message that only neighbors are called for is not put there. -/
def spoken (s : Station) (msg : Message) : Option (Header × Option Bytes) :=
  if msg.recipient.isGlobal || s.shares msg.recipient then some (msg.header, none)
  else (msg.router.filter fun r => !s.answersTo r).map fun r => (msg.routedHeader, r.mac)

/-- A station that sends a message calls neighbors and puts the message onto its segment. -/
theorem exists_calls_send (d : Directory) (m : Member) (msg : Message) :
    ∃ (calls : List Call) (own : List Event),
      (d.send m msg).events = calls.flatMap (Call.events d) ++ own ∧
      (∀ c ∈ calls, ∃ sender n, m.station.address = .ok sender ∧ n ∈ d.called m.station msg ∧
        c = msg.call m sender n) ∧
      ∀ event ∈ own, ∃ header router, spoken m.station msg = some (header, router) ∧
        event ∈ (m.put msg header router).events := by
  by_cases hg : msg.recipient.isGlobal = true
  · have hspoken : spoken m.station msg = some (msg.header, none) := by simp [spoken, hg]
    have hcalled : d.called m.station msg = d.audience m.station msg := if_pos hg
    have hsend : d.send m msg = d.sendEverywhere m msg := if_pos hg
    rw [hsend, hspoken, hcalled]
    unfold sendEverywhere
    split
    · exact ⟨[], _, rfl, by simp, fun event he => ⟨_, _, rfl, he⟩⟩
    · rename_i neighbors hne
      cases ha : m.station.address with
      | error overlong => exact ⟨[], [], rfl, by simp, by simp⟩
      | ok sender =>
        refine ⟨(d.audience m.station msg).map (msg.call m sender),
          (m.put msg msg.header none).events, ?_, ?_, fun event he => ⟨_, _, rfl, he⟩⟩
        · simp only [Run.after, handOver_eq_flatMap_events]
        · intro c hc
          obtain ⟨n, hn, rfl⟩ := List.mem_map.mp hc
          exact ⟨sender, n, rfl, hn, rfl⟩
  by_cases hs : m.station.shares msg.recipient = true
  · have hspoken : spoken m.station msg = some (msg.header, none) := by simp [spoken, hs]
    rw [hspoken]
    simp only [send, hg, hs, Bool.false_eq_true, ite_false, ite_true]
    split
    · exact ⟨[], [], rfl, by simp, by simp⟩
    · exact ⟨[], (m.put msg msg.header none).events, rfl, by simp, fun event he => ⟨_, _, rfl, he⟩⟩
  simp only [send, spoken, called, hg, hs, Bool.false_eq_true, ite_false, Bool.or_self]
  cases msg.router.filter fun r => !m.station.answersTo r with
  | some router =>
    exact ⟨[], (m.put msg msg.routedHeader router.mac).events, rfl, by simp,
      fun event he => ⟨_, _, rfl, he⟩⟩
  | none =>
    unfold sendAcross
    dsimp only
    cases hn : d.neighborOn? m.station msg.recipient.segment with
    | none => exact ⟨[], [], rfl, by simp, by simp⟩
    | some n =>
      cases ha : m.station.address with
      | error overlong => exact ⟨[], [], rfl, by simp, by simp⟩
      | ok sender =>
        refine ⟨[msg.call m sender n], [], ?_, ?_, by simp⟩
        · rw [List.append_nil]
          exact handOver_eq_flatMap_events d m msg sender [n]
        · intro c hc
          exact ⟨sender, n, rfl, by simp, List.mem_singleton.mp hc⟩

/-- A station that takes in a frame keeps the envelope in it or discards it, and calls neighbors
unless the envelope is for its own segment. -/
theorem exists_calls_receive (d : Directory) (m : Member) (frame origin : Bytes) :
    ∃ (calls : List Call) (own : List Event),
      (∀ event, event ∈ (d.receive m frame origin).events ↔
        event ∈ calls.flatMap (Call.events d) ∨ event ∈ own) ∧
      (∀ c ∈ calls, ∃ e, d.parse m.station frame origin = .ok (some e) ∧ c ∈ d.onward m e) ∧
      ∀ event ∈ own, event = .received m.id ∨ event = .dropped m.id ∨
        (∃ fault, event = .reported m.id fault) ∨
        ∃ e, d.parse m.station frame origin = .ok (some e) ∧ event = .arrived m.id e := by
  unfold receive
  split
  · exact ⟨[], [], by simp, by simp, by simp⟩
  split
  · rename_i e he
    simp only [he]
    unfold route
    split
    · exact ⟨[], [.received m.id, .dropped m.id], by simp, by simp, by simp⟩
    split
    · exact ⟨[], [.received m.id, .arrived m.id e], by simp, by simp, by simp⟩
    · rename_i a ha
      obtain ⟨hr, -⟩ := Option.filter_eq_some_iff.mp ha
      split
      · rename_i hg
        refine ⟨d.onward m e, [.received m.id, .arrived m.id e], fun event => ?_, by simp, by simp⟩
        have hle : e.hopCount.toNat ≤ 256 := Nat.le_of_lt e.hopCount.toNat_lt
        simp only [onward, hr, hg, ite_true, flood_eq_flatMap_events hle, List.mem_cons,
          List.mem_append, List.not_mem_nil, or_false]
        exact or_left_comm
      · rename_i hg
        split
        · exact ⟨[], [.received m.id, .dropped m.id], by simp, by simp, by simp⟩
        · rename_i n hn
          refine ⟨d.onward m e, [.received m.id], fun event => ?_, by simp, by simp⟩
          simp only [onward, hr, hg, hn, Bool.false_eq_true, ite_false, Option.toList_some,
            List.map_cons, List.map_nil, List.flatMap_cons, List.flatMap_nil, List.append_nil,
            List.mem_singleton]
          exact List.mem_cons.trans or_comm
  · exact ⟨[], [.received m.id, .dropped m.id], by simp, by simp, by simp⟩
  · rename_i fault _
    exact ⟨[], [.received m.id, .dropped m.id, .reported m.id fault], by simp, by simp, by simp⟩
  · exact ⟨[], [.received m.id], by simp [Run.brokenOff, Run.after], by simp, by simp⟩

end Directory

end Fieldbus
