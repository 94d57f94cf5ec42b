import Fieldbus.Proofs.Calls
import Fieldbus.Proofs.Histories
import Fieldbus.Proofs.Ranks
import Fieldbus.Proofs.Spelling

/-!
# How far the number of a segment is announced

The announcement of a segment's number is meant for the nodes of the segment. Stations never take
one off its segment by themselves: they do not pass on what they read as one, and they announce
their own number on their own segment only. Main statements: an announcement is taken off its
segment exactly if somebody asks a station to send it to another segment, through the neighbor
there or through a router (`Network.exports_iff`), and a station that is asked does it
(`Network.exported_through_neighbor`).
-/

namespace Fieldbus

/-- The announcement of a segment's number leaves the segment: a neighbor is handed one, or a
medium gets one that has a destination. -/
def Event.Exports : Event → Prop
  | .relayed _ _ _ _ e _ => e.message = some .networkNumberIs
  | .transmitted _ t => ∃ header payload, decode t.frame = .ok (header, payload) ∧
      header.message = some .networkNumberIs ∧ header.destination.isSome = true
  | _ => False

/-- The message goes out as the announcement of a segment's number, under that name or another
one. -/
def MessageKind.Announces (kind : Option MessageKind) : Prop :=
  kind.map code = some networkNumberIs.code

/-- A frame leaves the segment with the announcement of its number only if it was written as one
that has a destination. -/
theorem of_exports_transmitted {h : Header} {payload : Bytes} (fits : h.Fits) {id : NodeId}
    {t : Transmission} (ht : t.frame = h.bytes ++ payload)
    (exports : (Event.transmitted id t).Exports) :
    MessageKind.Announces h.message ∧ h.destination.isSome = true := by
  obtain ⟨header, payload', hd, hmessage, hdestination⟩ := exports
  rw [ht] at hd
  have hcode := code_of_decode fits hd
  rw [hmessage] at hcode
  rw [destination_of_decode fits hd, Header.asRead, Option.isSome_map] at hdestination
  exact ⟨hcode.symm, hdestination⟩

/-- A frame that is written as the announcement of a segment's number and has a destination leaves
the segment with it. -/
theorem exports_transmitted {h : Header} {payload : Bytes} (fits : h.Fits) {id : NodeId}
    {t : Transmission} (ht : t.frame = h.bytes ++ payload)
    (message : h.message = some .networkNumberIs) (destination : h.destination.isSome = true) :
    (Event.transmitted id t).Exports := by
  refine ⟨h.asRead, payload, ?_, ?_, ?_⟩
  · rw [ht]
    refine decode_bytes_append fits ?_ payload
    rw [message]
    rintro kind ⟨rfl⟩
    trivial
  · simp only [Header.asRead, message, Option.map_some, MessageKind.named]
  · simpa only [Header.asRead, Option.isSome_map] using destination

namespace Call

variable {d : Directory} {c c' : Call} {event : Event}

/-- A message that is handed on keeps its kind. -/
theorem message_of_leads (h : c.Leads d c') : c'.envelope.message = c.envelope.message := by
  induction h with
  | refl => rfl
  | tail _ hnext ih =>
    obtain ⟨-, -, -, -, left, -, he⟩ := of_mem_next hnext
    rw [he]
    exact ih

/-- What comes of a call is no announcement of a segment's number unless the envelope is. -/
theorem announces_of_exports (h : event ∈ c.events d) (exports : event.Exports) :
    MessageKind.Announces c.envelope.message := by
  obtain ⟨c', hleads, rfl | h⟩ := mem_events_iff.mp h
  · have hmessage : c'.envelope.message = some .networkNumberIs := exports
    rw [← message_of_leads hleads, hmessage]
    rfl
  · rcases of_mem_own h with ⟨-, rfl⟩ | rfl | ⟨fault, rfl⟩
    · exact exports.elim
    · have hwritten := of_exports_transmitted
        (c'.target.station.landing c'.envelope).header_fits rfl exports
      exact message_of_leads hleads ▸ hwritten.1
    · exact exports.elim

end Call

namespace Directory

variable {d : Directory} {m : Member} {msg : Message} {event : Event}

/-- The header under which a message goes out fits and has the kind of the message. -/
theorem of_spoken {s : Station} {header : Header} {router : Option Bytes}
    (h : spoken s msg = some (header, router)) : header.Fits ∧ header.message = msg.kind := by
  unfold spoken at h
  split at h
  · cases h
    exact ⟨msg.header_fits, rfl⟩
  · obtain ⟨r, -, hr⟩ := Option.map_eq_some_iff.mp h
    cases hr
    exact ⟨msg.routedHeader_fits, rfl⟩

/-- The message is for the segment of the station, or announces the number of that segment to
everybody. -/
def Stays (s : Station) (msg : Message) : Prop :=
  s.shares msg.recipient = true ∨
    msg.recipient.isGlobal = true ∧ msg.kind = some .networkNumberIs

/-- A message that stays on the segment is handed to nobody and has no destination. -/
theorem called_eq_nil_of_stays (routed : d.Routed) (station : d m.id = some m.station)
    (stays : Stays m.station msg) :
    d.called m.station msg = [] ∧ spoken m.station msg = some (msg.header, none) := by
  rcases stays with shares | ⟨everywhere, number⟩
  · have hsingle : msg.recipient.isGlobal = false := by
      cases hg : msg.recipient.isGlobal with
      | false => rfl
      | true =>
        rw [Address.isGlobal_iff.mp hg, Station.shares, Bool.or_eq_true, beq_iff_eq] at shares
        exact absurd (shares.resolve_left (by decide)).symm (routed.segment_ne station)
    simp [called, spoken, shares, hsingle]
  · simp [called, spoken, audience, everywhere, number]

/-- What a station sends leaves its segment as the announcement of the number only if it is one and
is not a message that stays there. -/
theorem of_exports_send (routed : d.Routed) (station : d m.id = some m.station)
    (h : event ∈ (d.send m msg).events) (exports : event.Exports) :
    MessageKind.Announces msg.kind ∧ ¬ Stays m.station msg := by
  obtain ⟨calls, own, hevents, hcalls, hown⟩ := d.exists_calls_send m msg
  rw [hevents, List.mem_append, List.mem_flatMap] at h
  rcases h with ⟨c, hc, h⟩ | h
  · obtain ⟨sender, n, -, hn, rfl⟩ := hcalls c hc
    refine ⟨Call.announces_of_exports h exports, fun stays => ?_⟩
    rw [(called_eq_nil_of_stays routed station stays).1] at hn
    cases hn
  · obtain ⟨header, router, hspoken, hput⟩ := hown event h
    obtain ⟨hfits, hkind⟩ := of_spoken hspoken
    obtain ⟨rfl, -⟩ := Member.mem_put_iff.mp hput
    obtain ⟨hannounces, hdestination⟩ := of_exports_transmitted hfits rfl exports
    refine ⟨hkind ▸ hannounces, fun stays => ?_⟩
    rw [(called_eq_nil_of_stays routed station stays).2] at hspoken
    cases hspoken
    cases hdestination

/-- A message for another segment that gets through to the neighbor there or to a router. -/
def GetsAcross (d : Directory) (s : Station) (msg : Message) : Prop :=
  match msg.router.filter fun r => !s.answersTo r with
  | none => (∃ n, d.neighborOn? s msg.recipient.segment = some n) ∧ ∃ sender, s.address = .ok sender
  | some r => s.attachment.Takes (msg.transmission msg.routedHeader r.mac).frame.length

/-- The announcement of a segment's number that is sent to another segment leaves its segment if it
gets through. -/
theorem exists_exports_send_iff (routed : d.Routed) (station : d m.id = some m.station)
    (number : msg.kind = some .networkNumberIs) :
    (∃ event ∈ (d.send m msg).events, event.Exports) ↔
      msg.recipient.isGlobal = false ∧ m.station.shares msg.recipient = false ∧
        d.GetsAcross m.station msg := by
  constructor
  · rintro ⟨event, h, exports⟩
    obtain ⟨-, hstays⟩ := of_exports_send routed station h exports
    have hsingle : msg.recipient.isGlobal = false :=
      eq_false_of_ne_true fun hg => hstays (Or.inr ⟨hg, number⟩)
    have hforeign : m.station.shares msg.recipient = false :=
      eq_false_of_ne_true fun hs => hstays (Or.inl hs)
    refine ⟨hsingle, hforeign, ?_⟩
    obtain ⟨calls, own, hevents, hcalls, hown⟩ := d.exists_calls_send m msg
    rw [hevents, List.mem_append, List.mem_flatMap] at h
    unfold GetsAcross
    rcases h with ⟨c, hc, -⟩ | h
    · obtain ⟨sender, n, haddress, hn, -⟩ := hcalls c hc
      simp only [called, hsingle, hforeign, Bool.false_eq_true, ite_false] at hn
      cases hrouter : msg.router.filter fun r => !m.station.answersTo r with
      | none =>
        rw [hrouter] at hn
        exact ⟨⟨n, Option.mem_toList.mp hn⟩, sender, haddress⟩
      | some r =>
        rw [hrouter] at hn
        cases hn
    · obtain ⟨header, router, hspoken, hput⟩ := hown event h
      simp only [spoken, hsingle, hforeign, Bool.or_self, Bool.false_eq_true, ite_false] at hspoken
      obtain ⟨r, hr, hheader⟩ := Option.map_eq_some_iff.mp hspoken
      cases hheader
      rw [hr]
      exact (Member.mem_put_iff.mp hput).2
  · rintro ⟨hsingle, hforeign, across⟩
    unfold GetsAcross at across
    unfold send
    simp only [hsingle, hforeign, Bool.false_eq_true, ite_false]
    cases hrouter : msg.router.filter fun r => !m.station.answersTo r with
    | none =>
      rw [hrouter] at across
      obtain ⟨⟨n, hn⟩, sender, haddress⟩ := across
      refine ⟨.relayed m.id n.id m.station.segment msg.recipient (msg.envelope sender)
        msg.broadcast, ?_, number⟩
      simp only [sendAcross, hn, haddress, handOver, List.flatMap_singleton, List.mem_cons_self]
    | some r =>
      rw [hrouter] at across
      exact ⟨_, Member.mem_put_iff.mpr ⟨rfl, across⟩,
        exports_transmitted msg.routedHeader_fits rfl number rfl⟩

/-- A station answers queries on its segment only. -/
theorem not_exports_answer (routed : d.Routed) (station : d m.id = some m.station) {e : Envelope}
    (h : event ∈ (d.answerRouterQuery m e).events ∨ event ∈ (d.answerSegmentQuery m e).events) :
    ¬ event.Exports := by
  intro exports
  obtain ⟨msg, hput⟩ := exists_put_of_mem_answer routed station h
  obtain ⟨rfl, -⟩ := Member.mem_put_iff.mp hput
  cases (of_exports_transmitted msg.header_fits rfl exports).2

/-- An envelope that is for somebody is not read as the announcement of a segment's number. -/
theorem not_announces_of_parse {s : Station} {frame origin : Bytes} {e : Envelope} {a : Address}
    (he : d.parse s frame origin = .ok (some e)) (ha : e.recipient = some a) :
    ¬ MessageKind.Announces e.message := by
  intro announces
  obtain ⟨header, payload, recipient, sender, hd, hignores, hrecipient, -, rfl⟩ := of_parse he
  cases ha
  obtain ⟨kind, hkind, hcode⟩ := Option.map_eq_some_iff.mp announces
  have hnumber : kind = .networkNumberIs :=
    ((modify_of_decode hd).2.message kind hkind).eq_of_code trivial hcode
  obtain ⟨dst, hdst, -⟩ := destination_of_recipientOf hrecipient
  have hmessage : header.message = some .networkNumberIs := hnumber ▸ hkind
  simp [ignores, hdst, hmessage] at hignores

/-- The calls that a station makes for an envelope are for somebody and keep the kind of the
message. -/
theorem message_of_mem_onward {e : Envelope} {c : Call} (h : c ∈ d.onward m e) :
    (∃ a, e.recipient = some a) ∧ c.envelope.message = e.message := by
  rcases of_mem_onward h with ⟨ha, hc⟩ | ⟨a, n, ha, -, -, rfl⟩
  · obtain ⟨left, -, -, -, hc⟩ := of_mem_copies hc
    rw [hc]
    exact ⟨⟨_, ha⟩, rfl⟩
  · exact ⟨⟨a, ha⟩, rfl⟩

/-- A station does not pass the announcement of a segment's number on. -/
theorem not_exports_receive {frame origin : Bytes}
    (h : event ∈ (d.receive m frame origin).events) : ¬ event.Exports := by
  intro exports
  obtain ⟨calls, own, hevents, hcalls, hown⟩ := d.exists_calls_receive m frame origin
  rw [hevents, List.mem_flatMap] at h
  rcases h with ⟨c, hc, h⟩ | h
  · obtain ⟨e, he, hc⟩ := hcalls c hc
    obtain ⟨⟨a, ha⟩, hmessage⟩ := message_of_mem_onward hc
    exact not_announces_of_parse he ha (hmessage ▸ Call.announces_of_exports h exports)
  · rcases hown event h with rfl | rfl | ⟨fault, rfl⟩ | ⟨e, -, rfl⟩ <;> exact exports

end Directory

namespace Network

variable {net : Network} {id : NodeId} {m : Member}

/-- No station takes the announcement of a segment's number off its segment by itself, neither for a
frame nor to answer a query. It sends one to another segment if it is asked to and there is a
neighbor or a router to take it, whereas to everybody, under the name of such announcements, it
sends none beyond its own segment. -/
theorem exports_iff (reachable : net.Reachable) (hm : net.member? id = some m) :
    (∀ frame origin, ∀ event ∈ (net.directory.receive m frame origin).events, ¬ event.Exports) ∧
    (∀ e, ∀ event ∈ (net.directory.answerSegmentQuery m e).events, ¬ event.Exports) ∧
    (∀ e, ∀ event ∈ (net.directory.answerRouterQuery m e).events, ¬ event.Exports) ∧
    ∀ msg : Message,
      (∀ event ∈ (net.directory.send m msg).events, event.Exports →
        MessageKind.Announces msg.kind ∧ ¬ Directory.Stays m.station msg) ∧
      (msg.kind = some .networkNumberIs →
        ((∃ event ∈ (net.directory.send m msg).events, event.Exports) ↔
          msg.recipient.isGlobal = false ∧ m.station.shares msg.recipient = false ∧
            net.directory.GetsAcross m.station msg)) := by
  obtain ⟨s, hs, rfl⟩ := Option.map_eq_some_iff.mp hm
  have hrouted := reachable.routed.directory
  exact ⟨fun _ _ _ h => Directory.not_exports_receive h,
    fun e event h => Directory.not_exports_answer hrouted hs (Or.inr h),
    fun e event h => Directory.not_exports_answer hrouted hs (Or.inl h),
    fun msg => ⟨fun _ h exports => Directory.of_exports_send hrouted hs h exports,
      Directory.exists_exports_send_iff hrouted hs⟩⟩

/-- Node seven of a segment. -/
private def nodeSeven (segment : Segment) (h : segment ≠ Segment.everywhere) : Address where
  segment
  mac := some [7]
  mac_ne_nil := by simp
  mac_length_le := by simp [maxMacLength]
  mac_everywhere everywhere := absurd everywhere h

/-- The announcement that the number of the sender's segment is one, for another segment. -/
private def farNumber (segment : Segment) (h : segment ≠ Segment.everywhere)
    (router : Option Address) : Message where
  recipient := nodeSeven segment h
  router
  kind := some .networkNumberIs
  payload := [0, 1, 1]

theorem exports_iff_pair :
    ∃ event ∈ (pair.directory.send pairRouter (farNumber 2 (by decide) none)).events,
      event.Exports := by
  have hmember : pair.member? 0 = some pairRouter := rfl
  exact (((exports_iff lives_pair.reachable hmember).2.2.2 _).2 rfl).mpr
    ⟨rfl, rfl, ⟨_, rfl⟩, _, rfl⟩

/-- The router of `pair` hands an announcement to its neighbor, and it puts one with a
destination onto its own segment for another router. -/
theorem number_crosses_router :
    pair.Reachable ∧ pair.member? 0 = some pairRouter ∧
      (∃ target e, .relayed 0 target 1 (nodeSeven 2 (by decide)) e false ∈
        (pair.directory.send pairRouter (farNumber 2 (by decide) none)).events ∧
        e.message = some .networkNumberIs) ∧
      ∃ t header, .transmitted 0 t ∈ (pair.directory.send pairRouter
          (farNumber 5 (by decide) (some (nodeSeven 0 (by decide))))).events ∧
        decode t.frame = .ok (header, [0, 1, 1]) ∧ header.message = some .networkNumberIs ∧
        header.destination = some ⟨5, some [7], 255⟩ := by
  refine ⟨lives_pair.reachable, rfl, ⟨1, _, List.mem_cons_self, rfl⟩, ?_⟩
  exact ⟨_, _, List.mem_singleton_self _, rfl, rfl, rfl⟩

end Network

end Fieldbus
