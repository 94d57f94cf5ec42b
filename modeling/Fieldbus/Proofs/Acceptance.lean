import Fieldbus.Network.Operations
import Fieldbus.Proofs.Calls
import Fieldbus.Proofs.Termination

/-!
# What a station takes in

A frame is for the node of a station if it has no destination, or one that reaches everywhere or
names the node on its segment (`Station.IsNamedBy`). A station finds out in two steps: taking the
frame apart it forgets a destination on its own segment, and routing the envelope it looks at the
destinations that are left. Main statement: which frames reach the node (`exists_arrived_iff`). A
destination that is spelled with segment zero has to name the node, and one that is spelled with
the number of the segment does not (`arrived_for_another`).
-/

namespace Fieldbus

/-- A sub-address that is there is kept by an address on a single segment. -/
theorem Address.mac_of {segment : Segment} {mac : Option Bytes} {a : Address}
    (h : Address.of segment mac = .ok a) (single : segment ≠ Segment.everywhere)
    (ne : ∀ m ∈ mac, m ≠ []) : a.mac = mac := by
  cases mac with
  | none =>
    cases h
    rfl
  | some m =>
    simp only [Address.of, single, ne m rfl, dite_false] at h
    split at h <;> cases h
    rfl

namespace Station

/-- A destination names the node of a station: it reaches everywhere, or it is on the station's
segment and for every node there or for a sub-address of the node. -/
def IsNamedBy (s : Station) (dst : Destination) : Prop :=
  dst.segment = Segment.everywhere ∨
    (dst.segment = Segment.here ∨ dst.segment = s.segment) ∧
      ∀ mac ∈ dst.mac, mac = s.attachment.broadcastMac ∨ mac ∈ s.attachment.macs

/-- A station keeps what the node `origin` put on the medium for a destination: any on the segment
that is spelled with its number, one on segment zero that names the node, and everywhere, unless it
was the station that passed the broadcast on. -/
def Keeps (s : Station) (origin : Bytes) (dst : Destination) : Prop :=
  dst.segment = s.segment ∨
    dst.segment = Segment.here ∧ (∀ mac ∈ dst.mac, mac ∈ s.attachment.macs) ∨
    dst.segment = Segment.everywhere ∧ origin ∉ s.attachment.macs

variable {s : Station} {origin : Bytes} {dst : Destination}

/-- What a station keeps names its node or is spelled with the number of its segment. -/
theorem Keeps.isNamedBy (h : s.Keeps origin dst) (ne : dst.segment ≠ s.segment) :
    s.IsNamedBy dst := by
  rcases h with own | ⟨here, named⟩ | ⟨everywhere, -⟩
  · exact absurd own ne
  · exact Or.inr ⟨Or.inl here, fun mac hmac => Or.inr (named mac hmac)⟩
  · exact Or.inl everywhere

/-- A station answers to an address on segment zero if that is for every node or for a sub-address
of the node. -/
theorem answersTo_of_isHere {a : Address} (here : a.isHere = true) :
    s.answersTo a = true ↔ ∀ mac ∈ a.mac, mac ∈ s.attachment.macs := by
  have hshares : s.shares a = true := by rw [shares, here, Bool.true_or]
  simp only [answersTo, hshares, Bool.true_and]
  cases a.mac <;> simp

end Station

namespace Directory

variable {d : Directory} {m : Member} {e : Envelope} {frame origin : Bytes}

/-- What is relayed to one segment reaches no node besides those of the segment. -/
theorem arrived_not_mem_relay {a : Address} (single : a.isGlobal = false) (n : Member) (id : NodeId)
    (ingress : Segment) (e e' : Envelope) (broadcast : Bool) :
    .arrived id e' ∉ d.relay n ingress a e broadcast := by
  intro h
  unfold relay at h
  simp only [single, Bool.false_eq_true, ite_false, List.nil_append] at h
  split at h
  · cases h
  · rcases Member.of_mem_putEnvelope h with h | ⟨fault, h⟩ <;> cases h

/-- An envelope that is not the station's own reaches the node if it has no recipient left or one
that the station answers to or that reaches everywhere. -/
theorem exists_arrived_route_iff :
    (∃ e', .arrived m.id e' ∈ d.route m e origin) ↔ isOwn m.station e origin = false ∧
      ∀ a ∈ e.recipient, m.station.answersTo a = true ∨ a.isGlobal = true := by
  unfold route
  cases hown : isOwn m.station e origin with
  | true => simp
  | false =>
    simp only [Bool.false_eq_true, ite_false, true_and]
    cases hr : e.recipient.filter fun a => !m.station.answersTo a with
    | none =>
      have hanswers : ∀ a ∈ e.recipient, m.station.answersTo a = true := by
        simpa [Option.filter_eq_none_iff] using hr
      exact iff_of_true ⟨e, List.mem_singleton_self _⟩ fun a ha => Or.inl (hanswers a ha)
    | some a =>
      obtain ⟨ha, hanswers⟩ := Option.filter_eq_some_iff.mp hr
      rw [Bool.not_eq_true'] at hanswers
      dsimp only
      by_cases hg : a.isGlobal = true
      · have harrived : .arrived m.id e ∈
            d.flood e.hopCount.toNat m e [e.sender.segment] ++ [.arrived m.id e] :=
          List.mem_append_right _ (List.mem_singleton_self _)
        simp only [hg, ite_true]
        refine iff_of_true ⟨e, harrived⟩ fun a' ha' => Or.inr ?_
        obtain rfl := Option.some.inj (ha.symm.trans ha')
        exact hg
      · simp only [hg, Bool.false_eq_true, ite_false]
        refine iff_of_false ?_ fun h => ?_
        · rintro ⟨e', h⟩
          split at h
          · cases List.mem_singleton.mp h
          · rcases List.mem_cons.mp h with h | h
            · cases h
            · exact arrived_not_mem_relay (eq_false_of_ne_true hg) _ _ _ _ _ _ h
        · rcases h a ha with h | h
          · rw [hanswers] at h
            cases h
          · exact hg h

/-- A frame reaches the node if the envelope does that it is taken apart into. -/
theorem exists_arrived_receive_iff :
    (∃ e, .arrived m.id e ∈ (d.receive m frame origin).events) ↔ m.station.terminated = false ∧
      ∃ e, d.parse m.station frame origin = .ok (some e) ∧
        ∃ e', .arrived m.id e' ∈ d.route m e origin := by
  unfold receive
  cases m.station.terminated with
  | true => simp
  | false =>
    simp only [Bool.false_eq_true, ite_false, true_and]
    cases hp : d.parse m.station frame origin with
    | ok parsed => cases parsed <;> simp
    | error failure => cases failure <;> simp [Run.brokenOff, Run.after]

/-- A destination that can be read is left with an envelope unless it is spelled with the number of
the segment. -/
theorem recipientOf_eq {s : Station} {header : Header} {payload : Bytes} {dst : Destination}
    (hd : decode frame = .ok (header, payload)) (hdst : header.destination = some dst)
    (foreign : dst.segment ≠ s.segment) : ∃ a, recipientOf s header = .ok (some a) ∧
      a.segment = dst.segment ∧ (dst.segment ≠ Segment.everywhere → a.mac = dst.mac) := by
  obtain ⟨a, ha⟩ := Destination.exists_address (fits_of_decode hd) hdst
  have hmacs : ∀ mac ∈ dst.mac, mac ≠ [] := fun mac hmac =>
    (modify_of_decode hd).2.ne_nil mac (by simp [Header.macs, hdst, Option.mem_def.mp hmac])
  refine ⟨a, ?_, Address.segment_of ha, fun single => Address.mac_of ha single hmacs⟩
  simp only [recipientOf, hdst, foreign, ite_false, ha]
  rfl

/-- An envelope is the station's own exactly if the station is the sender, or if it passed the
broadcast on. -/
theorem isOwn_eq_false_iff {s : Station} : isOwn s e origin = false ↔ s.answersTo e.sender = false ∧
    ∀ a ∈ e.recipient, a.isGlobal = true → origin ∉ s.attachment.macs := by
  simp only [isOwn, Bool.or_eq_false_iff, Bool.and_eq_false_iff, Option.any_eq_false]
  refine and_congr_right fun _ => ?_
  cases e.recipient with
  | none => simp
  | some a =>
    by_cases hg : a.isGlobal = true <;> simp [hg]

/-- A station takes notice of what it keeps, unless that announces the number of a segment. -/
theorem ignores_of_keeps {s : Station} {header : Header} {dst : Destination}
    (hdst : header.destination = some dst) (keeps : s.Keeps origin dst) :
    d.ignores s header = false ↔ header.message ≠ some .networkNumberIs := by
  have hsegment : (dst.segment == Segment.here || dst.segment == Segment.everywhere ||
      dst.segment == s.segment) = true := by
    rcases keeps with h | ⟨h, -⟩ | ⟨h, -⟩ <;> simp [h]
  simp only [ignores, hdst, hsegment, Bool.true_or, Bool.not_true, Bool.or_false,
    beq_eq_false_iff_ne]

/-- A frame reaches the node of a station that is active and not its sender, if it can be read and
has no destination or one that the station keeps, in which case it announces no number of a
segment. -/
theorem exists_arrived_iff :
    (∃ e, .arrived m.id e ∈ (d.receive m frame origin).events) ↔
      m.station.terminated = false ∧ ∃ header payload sender,
        decode frame = .ok (header, payload) ∧ senderOf header origin = .ok sender ∧
        m.station.answersTo sender = false ∧ ∀ dst ∈ header.destination,
          header.message ≠ some .networkNumberIs ∧ m.station.Keeps origin dst := by
  simp only [exists_arrived_receive_iff, exists_arrived_route_iff, isOwn_eq_false_iff]
  refine and_congr_right fun _ => ⟨?_, ?_⟩
  · rintro ⟨e, hparse, ⟨hsender, hglobal⟩, hanswers⟩
    obtain ⟨header, payload, recipient, sender, hd, hignores, hr, hs, rfl⟩ := of_parse hparse
    refine ⟨header, payload, sender, hd, hs, hsender, fun dst hdst => ?_⟩
    suffices hkeeps : m.station.Keeps origin dst from
      ⟨(ignores_of_keeps hdst hkeeps).mp hignores, hkeeps⟩
    by_cases own : dst.segment = m.station.segment
    · exact Or.inl own
    · obtain ⟨a, ha, hsegment, hmac⟩ := recipientOf_eq hd hdst own
      obtain rfl : some a = recipient := Except.ok.inj (ha.symm.trans hr)
      by_cases hg : a.isGlobal = true
      · have heverywhere : dst.segment = Segment.everywhere := by
          simpa [Address.isGlobal, hsegment] using hg
        exact Or.inr (Or.inr ⟨heverywhere, hglobal a rfl hg⟩)
      · have hanswer := (hanswers a rfl).resolve_right hg
        have hsingle : dst.segment ≠ Segment.everywhere := by
          simpa [Address.isGlobal, hsegment] using hg
        have hhere : a.isHere = true := by
          have hshares : m.station.shares a = true := (Bool.and_eq_true_iff.mp hanswer).1
          simpa [Station.shares, hsegment, own] using hshares
        have hsegment' : dst.segment = Segment.here := by
          simpa [Address.isHere, hsegment] using hhere
        rw [Station.answersTo_of_isHere hhere, hmac hsingle] at hanswer
        exact Or.inr (Or.inl ⟨hsegment', hanswer⟩)
  · rintro ⟨header, payload, sender, hd, hs, hsender, hkeeps⟩
    suffices hparse : d.ignores m.station header = false ∧ ∃ recipient,
        recipientOf m.station header = .ok recipient ∧ ∀ a ∈ recipient,
          (a.isGlobal = true → origin ∉ m.station.attachment.macs) ∧
            (m.station.answersTo a = true ∨ a.isGlobal = true) by
      obtain ⟨hignores, recipient, hr, hrecipient⟩ := hparse
      obtain ⟨e, he, rfl, rfl, -⟩ := exists_parse_eq hd hignores hr hs
      exact ⟨e, he, ⟨hsender, fun a ha => (hrecipient a ha).1⟩, fun a ha => (hrecipient a ha).2⟩
    cases hdst : header.destination with
    | none => exact ⟨by simp only [ignores, hdst], none, by simp only [recipientOf, hdst], by simp⟩
    | some dst =>
      obtain ⟨hmessage, hkeep⟩ := hkeeps dst hdst
      refine ⟨(ignores_of_keeps hdst hkeep).mpr hmessage, ?_⟩
      by_cases own : dst.segment = m.station.segment
      · exact ⟨none, by simp only [recipientOf, hdst, own, ite_true], by simp⟩
      obtain ⟨a, ha, hsegment, hmac⟩ := recipientOf_eq hd hdst own
      refine ⟨some a, ha, fun a' ha' => ?_⟩
      obtain rfl := Option.some.inj ha'
      rcases hkeep with h | ⟨here, named⟩ | ⟨everywhere, other⟩
      · exact absurd h own
      · have hhere : a.isHere = true := by simp [Address.isHere, hsegment, here]
        have hsingle : dst.segment ≠ Segment.everywhere := by
          rw [here]
          decide
        have hg : a.isGlobal = false := by simpa [Address.isGlobal, hsegment] using hsingle
        refine ⟨fun h => by simp [hg] at h, Or.inl ?_⟩
        rwa [Station.answersTo_of_isHere hhere, hmac hsingle]
      · exact ⟨fun _ => other, Or.inr (by simp [Address.isGlobal, hsegment, everywhere])⟩

/-- A frame that reaches the node of a station has no destination, or one that is spelled with the
number of the station's segment or names the node. Which frames reach the node is told by what the
station keeps. -/
theorem arrived_names_node :
    ((∃ e, .arrived m.id e ∈ (d.receive m frame origin).events) →
      ∃ header payload, decode frame = .ok (header, payload) ∧ ∀ dst ∈ header.destination,
        dst.segment ≠ m.station.segment → m.station.IsNamedBy dst) ∧
    ((∃ e, .arrived m.id e ∈ (d.receive m frame origin).events) ↔
      m.station.terminated = false ∧ ∃ header payload sender,
        decode frame = .ok (header, payload) ∧ senderOf header origin = .ok sender ∧
        m.station.answersTo sender = false ∧ ∀ dst ∈ header.destination,
          header.message ≠ some .networkNumberIs ∧ m.station.Keeps origin dst) := by
  refine ⟨fun h => ?_, exists_arrived_iff⟩
  obtain ⟨-, header, payload, -, hd, -, -, hkeeps⟩ := exists_arrived_iff.mp h
  exact ⟨header, payload, hd, fun dst hdst => (hkeeps dst hdst).2.isNamedBy⟩

/-- A station of segment one without routes. -/
private def solitary : Member :=
  ⟨0, { segment := 1, attachment := Network.wireAttachment [1] none, routes := { home := 1 } }⟩

theorem arrived_names_node_solitary :
    (∃ e, .arrived 0 e ∈ (receive (fun _ => none) solitary [1, 0x20, 0, 0, 1, 1, 255, 9] [3]).events) ∧
      solitary.station.IsNamedBy ⟨0, some [1], 255⟩ := by
  have harrived : ∃ e, .arrived 0 e ∈
      (receive (fun _ => none) solitary [1, 0x20, 0, 0, 1, 1, 255, 9] [3]).events :=
    ⟨_, List.mem_cons_of_mem _ List.mem_cons_self⟩
  obtain ⟨header, payload, hd, hnamed⟩ := arrived_names_node.1 harrived
  cases hd
  exact ⟨harrived, hnamed _ rfl (by decide)⟩

/-- A destination for another node reaches the node if it is spelled with the number of the segment,
and does not if it is spelled with zero. -/
theorem arrived_for_another :
    ¬ solitary.station.IsNamedBy ⟨1, some [7], 255⟩ ∧
      (∃ header, decode [1, 0x20, 0, 1, 1, 7, 255, 9] = .ok (header, [9]) ∧
        header.destination = some ⟨1, some [7], 255⟩) ∧
      (∃ e, (receive (fun _ => none) solitary [1, 0x20, 0, 1, 1, 7, 255, 9] [3]).events =
        [.received 0, .arrived 0 e]) ∧
      (receive (fun _ => none) solitary [1, 0x20, 0, 0, 1, 7, 255, 9] [3]).events =
        [.received 0, .dropped 0] := by
  refine ⟨?_, ⟨_, rfl, rfl⟩, ⟨_, rfl⟩, rfl⟩
  rintro (h | ⟨-, h⟩)
  · cases h
  · rcases h [7] rfl with h | h <;> revert h <;> decide

end Directory

end Fieldbus
