import Fieldbus.Proofs.Acceptance
import Fieldbus.Proofs.Fates
import Fieldbus.Proofs.SegmentNumbers

/-!
# Echoes

A medium may hand a frame back to the station that put it there. A station discards such an echo if
it finds itself to be the sender or the one that passed a global broadcast on. Main statements: which
echoes of what a neighbor handed over are discarded (`Directory.discards_landed_iff`), and that all
those of messages and of global broadcasts are (`Network.discards_echoes`).
-/

namespace Fieldbus

/-- The only sub-address that an address can have is the one that it is made of. -/
theorem Address.eq_of_mem_mac {w : Segment} {m x : Bytes} {a : Address}
    (h : of w (some m) = .ok a) (hx : x ∈ a.mac) : x = m := by
  unfold of at h
  dsimp only at h
  split at h
  · cases h
    cases hx
  · split at h
    · cases h
      cases hx
    · split at h <;> cases h
      exact (Option.some.inj hx).symm

/-- A station takes its own sub-address for itself. -/
theorem Station.answersTo_onLink {s : Station} {mac : Bytes} {a : Address}
    (listed : mac ∈ s.attachment.macs) (h : Address.onLink mac = .ok a) : s.answersTo a = true := by
  have here : a.isHere = true := by
    rw [Address.isHere, Address.segment_of h]
    rfl
  refine (Station.answersTo_of_isHere here).mpr fun x hx => ?_
  rw [Address.eq_of_mem_mac h hx]
  exact listed

/-- The header of an envelope is read as it is, except that its kind is read by its code. -/
theorem Envelope.asRead_eq (e : Envelope) :
    e.header.asRead = { e.header with message := e.message.map MessageKind.named } := by
  simp only [Header.asRead, header, Option.map_map, Function.comp_def, Destination.to, readMac_mac]
  split <;> simp [Source.of]

/-! ## What a station put onto its segment, as it is read -/

section

variable (s : Station) {e : Envelope}

theorem Station.source_asRead_landing (here : e.sender.isHere = true) :
    (s.landing e).header.asRead.source = none := by
  rw [Envelope.asRead_eq]
  simp only [Envelope.header, landing, here, ite_true]

theorem Station.senderOf_landing (foreign : e.sender.isHere = false) (origin : Bytes) :
    Directory.senderOf (s.landing e).header.asRead origin = .ok e.sender := by
  rw [Directory.senderOf, Envelope.asRead_eq]
  simp only [Envelope.header, landing, foreign, Bool.false_eq_true, ite_false, Source.address_of]

/-- Whom it is for it says if that is somebody on another segment. -/
theorem Station.destination_asRead_landing : (s.landing e).header.asRead.destination =
    (e.recipient.filter fun a => !s.shares a).map (Destination.to · e.hopCount) := by
  rw [Envelope.asRead_eq]
  rfl

theorem Station.message_asRead_landing :
    (s.landing e).header.asRead.message = e.message.map MessageKind.named := by
  rw [Envelope.asRead_eq]
  rfl

end

/-! ## Which frames are discarded -/

namespace Directory

variable {d : Directory} {m : Member} {frame origin payload : Bytes} {header : Header}
  {sender : Address}

/-- The station takes the frame in and discards it, and nothing else comes of the frame. -/
def Discards (d : Directory) (m : Member) (frame origin : Bytes) : Prop :=
  d.receive m frame origin = { events := [.received m.id, .dropped m.id] }

/-- A frame is discarded if that is its fate. -/
theorem discards_iff (active : m.station.terminated = false) :
    d.Discards m frame origin ↔ d.fate m frame origin = .discarded none := by
  constructor
  · intro h
    have hevents := d.events_receive active frame origin
    rw [h] at hevents
    obtain ⟨-, hrest⟩ := List.cons.inj hevents
    cases hfate : d.fate m frame origin with
    | discarded fault =>
      cases fault with
      | none => rfl
      | some fault => rw [hfate] at hrest; cases hrest
    | brokenOff overlong => rw [hfate] at hrest; cases hrest
    | kept e => rw [hfate] at hrest; cases hrest
    | spread e =>
      rw [hfate] at hrest
      have hlast := congrArg List.getLast? hrest
      rw [Fate.last, List.getLast?_concat] at hlast
      cases hlast
    | passed e a n => rw [hfate] at hrest; cases hrest
  · intro h
    have hevents := d.events_receive active frame origin
    rw [h] at hevents
    unfold fate at h
    unfold Discards
    unfold receive at hevents ⊢
    rw [active] at hevents ⊢
    simp only [Bool.false_eq_true, ite_false] at hevents ⊢
    generalize d.parse m.station frame origin = parsed at h hevents ⊢
    rcases parsed with (fault | overlong) | (_ | e)
    · cases h
    · cases h
    · rfl
    · exact congrArg (Run.mk · (.ok ())) hevents

/-- A frame that calls for nothing is discarded. -/
theorem fate_of_ignores (hd : decode frame = .ok (header, payload))
    (ignores : d.ignores m.station header = true) :
    d.fate m frame origin = .discarded none := by
  have hparse : d.parse m.station frame origin = .ok none := by
    unfold parse
    simp only [hd, Except.mapError, bind, Except.bind, ignores, ite_true]
    rfl
  rw [fate, hparse]

/-- A frame of the station's own is discarded. -/
theorem fate_of_answersTo (hd : decode frame = .ok (header, payload))
    (hs : senderOf header origin = .ok sender) (own : m.station.answersTo sender = true) :
    d.fate m frame origin = .discarded none := by
  cases hi : d.ignores m.station header with
  | true => exact fate_of_ignores hd hi
  | false =>
    obtain ⟨recipient, hr⟩ := exists_recipientOf m.station hd
    obtain ⟨e, he, hsender, -⟩ := exists_parse_eq hd hi hr hs
    have hown : isOwn m.station e origin = true := by rw [isOwn, hsender, own, Bool.true_or]
    rw [fate, he]
    simp only [hown, ite_true]

/-- A global broadcast that the station passed on is discarded. -/
theorem fate_of_passedOn (single : m.station.segment ≠ Segment.everywhere)
    (hd : decode frame = .ok (header, payload)) (hs : senderOf header origin = .ok sender)
    {dst : Destination} (hdst : header.destination = some dst)
    (everywhere : dst.segment = Segment.everywhere) (listed : origin ∈ m.station.attachment.macs) :
    d.fate m frame origin = .discarded none := by
  cases hi : d.ignores m.station header with
  | true => exact fate_of_ignores hd hi
  | false =>
    obtain ⟨a, hr, hsegment, -⟩ :=
      recipientOf_eq (s := m.station) hd hdst (fun h => single (h.symm.trans everywhere))
    obtain ⟨e, he, -, hrecipient, -⟩ := exists_parse_eq hd hi hr hs
    have hown : isOwn m.station e origin = true := by
      rw [isOwn, hrecipient]
      simp [Address.isGlobal, hsegment, everywhere, listed]
    rw [fate, he]
    simp only [hown, ite_true]

/-- A frame that does not say who it is from is discarded by the station that put it on the medium. -/
theorem fate_of_unsigned (listed : m.station.attachment.mac ∈ m.station.attachment.macs)
    (short : m.station.attachment.mac.length ≤ maxMacLength)
    (hd : decode frame = .ok (header, payload)) (unsigned : header.source = none) :
    d.fate m frame m.station.attachment.mac = .discarded none := by
  obtain ⟨a, ha⟩ := Address.of_eq_ok Segment.here (some m.station.attachment.mac) (by simpa using short)
  have hs : senderOf header m.station.attachment.mac = .ok a := by
    rw [senderOf, unsigned]
    exact ha
  exact fate_of_answersTo hd hs (Station.answersTo_onLink listed ha)

/-- A frame without destination that is from another station is kept. -/
theorem exists_fate_eq_kept (hd : decode frame = .ok (header, payload))
    (hs : senderOf header origin = .ok sender) (foreign : m.station.answersTo sender = false)
    (undirected : header.destination = none) : ∃ e, d.fate m frame origin = .kept e := by
  have hi : d.ignores m.station header = false := by rw [ignores, undirected]
  have hr : recipientOf m.station header = .ok none := by rw [recipientOf, undirected]
  obtain ⟨e, he, hsender, hrecipient, -⟩ := exists_parse_eq hd hi hr hs
  have hown : isOwn m.station e origin = false := by
    rw [isOwn, hsender, hrecipient, foreign]
    rfl
  refine ⟨e, ?_⟩
  rw [fate, he]
  simp only [hown, hrecipient, Bool.false_eq_true, ite_false, Option.filter_none]

/-- A frame for another segment that is from another station is discarded if there is no route to the
segment, or if it announces the number of its own. -/
theorem fate_of_foreign {a : Address} {hopCount : UInt8} (hd : decode frame = .ok (header, payload))
    (hs : senderOf header origin = .ok sender) (foreign : m.station.answersTo sender = false)
    (destination : header.destination = some (.to a hopCount)) (remote : m.station.shares a = false)
    (single : a.isGlobal = false) : d.fate m frame origin = .discarded none ↔
      d.neighborOn? m.station a.segment = none ∨ header.message = some .networkNumberIs := by
  simp only [Station.shares, Address.isHere, Bool.or_eq_false_iff] at remote
  have hignores : d.ignores m.station header = (header.message == some .networkNumberIs ||
      !(d.neighborOn? m.station a.segment).isSome) := by
    have hglobal : (a.segment == Segment.everywhere) = false := single
    simp only [ignores, destination, Destination.to, remote.1, remote.2, hglobal, Bool.false_or]
  cases hi : d.ignores m.station header with
  | true =>
    refine iff_of_true (fate_of_ignores hd hi) ?_
    rw [hignores, Bool.or_eq_true, beq_iff_eq, Bool.not_eq_true', Option.isSome_eq_false_iff,
      Option.isNone_iff_eq_none] at hi
    exact hi.symm
  | false =>
    have hr : recipientOf m.station header = .ok (some a) := by
      have hsegment : ¬ a.segment = m.station.segment := beq_eq_false_iff_ne.mp remote.2
      simp only [recipientOf, destination, Destination.to, hsegment, ite_false]
      exact congrArg (some <$> ·) (Destination.address_to a hopCount)
    obtain ⟨e, he, hsender, hrecipient, -⟩ := exists_parse_eq hd hi hr hs
    rw [hignores, Bool.or_eq_false_iff, beq_eq_false_iff_ne, Bool.not_eq_false'] at hi
    obtain ⟨n, hn⟩ := Option.isSome_iff_exists.mp hi.2
    have hown : isOwn m.station e origin = false := by
      rw [isOwn, hsender, hrecipient, foreign, Option.any_some, single]
      rfl
    have hanswers : m.station.answersTo a = false := by
      simp [Station.answersTo, Station.shares, Address.isHere, remote]
    refine iff_of_false ?_ fun h => h.elim (fun h => ?_) hi.1
    · rw [fate, he]
      simp only [hown, hrecipient, Option.filter_some, hanswers, single, hn, Bool.false_eq_true,
        ite_false, Bool.not_false, ite_true]
      exact Fate.noConfusion
    · rw [hn] at h
      cases h

/-- Which echoes of what a station was handed and put onto its segment it discards: those from itself
or from a segment without a number, those of global broadcasts, and those for another segment that it
has no route to or that may not leave its segment. -/
theorem discards_landed_iff (active : m.station.terminated = false)
    (single : m.station.segment ≠ Segment.everywhere)
    (listed : m.station.attachment.mac ∈ m.station.attachment.macs)
    (short : m.station.attachment.mac.length ≤ maxMacLength) {e : Envelope}
    (consistent : ∀ kind ∈ e.message, kind.Consistent) :
    d.Discards m (m.station.landing e).frame m.station.attachment.mac ↔
      e.sender.isHere = true ∨ m.station.answersTo e.sender = true ∨
        ∃ a, e.recipient = some a ∧ m.station.shares a = false ∧
          (a.isGlobal = true ∨ d.neighborOn? m.station a.segment = none ∨
            e.message.map MessageKind.named = some .networkNumberIs) := by
  have hd : decode (m.station.landing e).frame =
      .ok ((m.station.landing e).header.asRead, e.payload) :=
    decode_bytes_append (m.station.landing e).header_fits consistent e.payload
  rw [discards_iff active]
  cases hhere : e.sender.isHere with
  | true =>
    have hunsigned := m.station.source_asRead_landing hhere
    exact iff_of_true (fate_of_unsigned listed short hd hunsigned) (Or.inl rfl)
  | false =>
    have hs := m.station.senderOf_landing hhere m.station.attachment.mac
    cases hown : m.station.answersTo e.sender with
    | true => exact iff_of_true (fate_of_answersTo hd hs hown) (Or.inr (Or.inl rfl))
    | false =>
      simp only [Bool.false_eq_true, false_or]
      have hdestination := m.station.destination_asRead_landing (e := e)
      cases hrecipient : e.recipient.filter fun a => !m.station.shares a with
      | none =>
        rw [hrecipient] at hdestination
        obtain ⟨e', he'⟩ := exists_fate_eq_kept (d := d) hd hs hown hdestination
        refine iff_of_false (by rw [he']; exact Fate.noConfusion) ?_
        rintro ⟨a, ha, hremote, -⟩
        simp [ha, Option.filter_some, hremote] at hrecipient
      | some a =>
        obtain ⟨ha, hremote⟩ := Option.filter_eq_some_iff.mp hrecipient
        rw [Bool.not_eq_true'] at hremote
        rw [hrecipient] at hdestination
        simp only [ha, Option.some.injEq, exists_eq_left', hremote, true_and]
        cases hglobal : a.isGlobal with
        | true =>
          have heverywhere : (Destination.to a e.hopCount).segment = Segment.everywhere :=
            congrArg Address.segment (Address.isGlobal_iff.mp hglobal)
          refine iff_of_true ?_ (Or.inl rfl)
          exact fate_of_passedOn single hd hs hdestination heverywhere listed
        | false =>
          rw [fate_of_foreign hd hs hown hdestination hremote hglobal,
            m.station.message_asRead_landing]
          simp only [Bool.false_eq_true, false_or]

end Directory

namespace Call

variable {d : Directory} {c c' : Call}

/-- Whatever a call leads to besides itself is for everybody, and so is the envelope if it names whom
the call is for. -/
theorem recipient_of_leads (named : c.envelope.recipient = some c.recipient) (h : c.Leads d c') :
    c'.envelope.recipient = some c'.recipient ∧ (c' = c ∨ c'.recipient = Address.everywhere) := by
  induction h with
  | refl => exact ⟨named, Or.inl rfl⟩
  | tail _ hnext ih =>
    obtain ⟨heverywhere, -, -, -, left, -, hc⟩ := of_mem_next hnext
    rw [hc]
    exact ⟨ih.1.trans (congrArg some heverywhere), Or.inr rfl⟩

/-- A neighbor that is called is one of the directory, if the first one that is called is. -/
theorem station_of_leads (station : d c.target.id = some c.target.station) (h : c.Leads d c') :
    d c'.target.id = some c'.target.station := by
  cases h with
  | refl => exact station
  | tail _ hnext => exact Directory.apply_of_mem_neighbors (of_mem_next hnext).2.1

/-- What a neighbor that is called transmits is the envelope, on its own segment. -/
theorem of_transmitted_mem_own {id : NodeId} {t : Transmission} (h : .transmitted id t ∈ c.own) :
    id = c.target.id ∧ t.frame = (c.target.station.landing c.envelope).frame := by
  rcases of_mem_own h with ⟨-, h⟩ | h | ⟨fault, h⟩ <;> cases h
  exact ⟨rfl, rfl⟩

end Call

/-- A station is later on where it was: on the same segment, attached as before, and active. -/
structure Member.Remains (m m' : Member) : Prop where
  id : m'.id = m.id
  segment : m'.station.segment = m.station.segment
  attachment : m'.station.attachment = m.station.attachment
  active : m'.station.terminated = false

namespace Member

variable {m m' : Member} {d : Directory} {e : Envelope}

/-- What a station was handed and put onto its segment comes back to it later on. -/
theorem Remains.discards_landed_iff (remains : m.Remains m')
    (single : m.station.segment ≠ Segment.everywhere)
    (listed : m.station.attachment.mac ∈ m.station.attachment.macs)
    (short : m.station.attachment.mac.length ≤ maxMacLength)
    (consistent : ∀ kind ∈ e.message, kind.Consistent) :
    d.Discards m' (m.station.landing e).frame m.station.attachment.mac ↔
      e.sender.isHere = true ∨ m.station.answersTo e.sender = true ∨
        ∃ a, e.recipient = some a ∧ m.station.shares a = false ∧
          (a.isGlobal = true ∨ d.neighborOn? m'.station a.segment = none ∨
            e.message.map MessageKind.named = some .networkNumberIs) := by
  have h := Directory.discards_landed_iff (d := d) remains.active (remains.segment ▸ single)
    (remains.attachment ▸ listed) (remains.attachment ▸ short) consistent
  simpa only [Station.landing, Station.answersTo, Station.shares, remains.segment,
    remains.attachment] using h

/-- The echo of a global broadcast is discarded. -/
theorem Remains.discards_everywhere (remains : m.Remains m')
    (single : m.station.segment ≠ Segment.everywhere)
    (listed : m.station.attachment.mac ∈ m.station.attachment.macs)
    (short : m.station.attachment.mac.length ≤ maxMacLength)
    (consistent : ∀ kind ∈ e.message, kind.Consistent)
    (everywhere : e.recipient = some Address.everywhere) :
    d.Discards m' (m.station.landing e).frame m.station.attachment.mac := by
  have hforeign : m.station.shares Address.everywhere = false := by
    rw [Station.shares, Address.segment_everywhere, Bool.or_eq_false_iff]
    exact ⟨rfl, beq_eq_false_iff_ne.mpr single.symm⟩
  exact (remains.discards_landed_iff single listed short consistent).mpr
    (Or.inr (Or.inr ⟨_, everywhere, hforeign, Or.inl rfl⟩))

/-- What a station puts onto its segment last when it is handed an envelope is the envelope. -/
theorem frame_of_getLast?_relay {id : NodeId} {t : Transmission} {ingress : Segment}
    {recipient : Address} {broadcast : Bool}
    (h : (d.relay m ingress recipient e broadcast).getLast? = some (.transmitted id t)) :
    t.frame = (m.station.landing e).frame := by
  obtain ⟨event, hput⟩ : ∃ event, m.putEnvelope recipient e broadcast = [event] := by
    unfold putEnvelope
    split
    · exact ⟨_, rfl⟩
    · exact ⟨_, rfl⟩
  unfold Directory.relay at h
  split at h
  · cases h
  · rw [hput, List.getLast?_concat, Option.some.injEq] at h
    subst h
    rcases of_mem_putEnvelope (hput ▸ List.mem_singleton_self _) with h | ⟨fault, h⟩ <;> cases h
    rfl

end Member

namespace Directory

variable {d : Directory} {m : Member} {msg : Message}

/-- A neighbor that is called to send a message is one that a route leads to. -/
theorem exists_route_of_mem_called {s : Station} {n : Member} (h : n ∈ d.called s msg) :
    ∃ segment, d.neighborOn? s segment = some n := by
  unfold called at h
  split at h
  · unfold audience at h
    split at h
    · cases h
    · obtain ⟨segment, -, hn⟩ := mem_neighbors_iff.mp h
      exact ⟨segment, hn⟩
  · split at h
    · cases h
    · split at h
      · exact ⟨_, Option.mem_toList.mp h⟩
      · cases h

/-- Whatever a station transmits when it sends a message says nothing of a sender, or is a global
broadcast that has come back to it. -/
theorem of_transmitted_send (routed : d.Routed) (station : d m.id = some m.station)
    {t : Transmission} (h : .transmitted m.id t ∈ (d.send m msg).events) :
    (∃ header : Header, header.Fits ∧ header.message = msg.kind ∧ header.source = none ∧
        t.frame = header.bytes ++ msg.payload) ∨
      ∃ e : Envelope, e.recipient = some Address.everywhere ∧ e.message = msg.kind ∧
        t.frame = (m.station.landing e).frame := by
  obtain ⟨calls, own, hevents, hcalls, hown⟩ := d.exists_calls_send m msg
  rw [hevents, List.mem_append, List.mem_flatMap] at h
  rcases h with ⟨c, hc, h⟩ | h
  · obtain ⟨sender, n, -, hn, rfl⟩ := hcalls c hc
    obtain ⟨segment, hn⟩ := exists_route_of_mem_called hn
    obtain ⟨c', hleads, h | h⟩ := Call.mem_events_iff.mp h
    · cases h
    obtain ⟨hid, hframe⟩ := Call.of_transmitted_mem_own h
    have htarget : c'.target.station = m.station := by
      have hstation := Call.station_of_leads (neighborOn?_eq_some_iff.mp hn).2 hleads
      rw [← hid, station] at hstation
      exact (Option.some.inj hstation).symm
    obtain ⟨hrecipient, rfl | heverywhere⟩ := Call.recipient_of_leads rfl hleads
    · -- A neighbor that a route leads to is on another segment, so it is not the station itself.
      have hsegment := routed.segment_neighborOn? station hn
      exact absurd (hsegment.symm.trans (congrArg Station.segment htarget))
        (routed.segment_ne_of_neighborOn? station hn).2.2
    · refine Or.inr ⟨c'.envelope, hrecipient.trans (congrArg some heverywhere),
        Call.message_of_leads hleads, ?_⟩
      rw [hframe, htarget]
  · obtain ⟨header, router, hspoken, hput⟩ := hown _ h
    obtain ⟨hfits, hkind⟩ := of_spoken hspoken
    obtain ⟨heq, -⟩ := Member.mem_put_iff.mp hput
    cases heq
    refine Or.inl ⟨header, hfits, hkind, ?_, rfl⟩
    unfold spoken at hspoken
    split at hspoken
    · cases hspoken
      rfl
    · obtain ⟨r, -, hr⟩ := Option.map_eq_some_iff.mp hspoken
      cases hr
      rfl

/-- What comes of a message of a kind that can be read that a station sends, or of a frame that it
takes in. -/
inductive Stirs (d : Directory) : List Event → Prop
  | sends (m : Member) {msg : Message} (consistent : ∀ kind ∈ msg.kind, kind.Consistent) :
      Stirs d (d.send m msg).events
  | receives (m : Member) (frame origin : Bytes) : Stirs d (d.receive m frame origin).events

/-- A neighbor is handed an envelope that names whom the call is for, and whose kind can be read. -/
theorem Stirs.of_relayed {events : List Event} (stirs : d.Stirs events) {source target : NodeId}
    {ingress : Segment} {recipient : Address} {e : Envelope} {broadcast : Bool}
    (h : .relayed source target ingress recipient e broadcast ∈ events) :
    e.recipient = some recipient ∧ ∀ kind ∈ e.message, kind.Consistent := by
  have hcall : ∀ {c : Call}, .relayed source target ingress recipient e broadcast ∈ c.events d →
      c.envelope.recipient = some c.recipient →
      (∀ kind ∈ c.envelope.message, kind.Consistent) →
      e.recipient = some recipient ∧ ∀ kind ∈ e.message, kind.Consistent := by
    intro c h hnamed hconsistent
    obtain ⟨c', hleads, h | h⟩ := Call.mem_events_iff.mp h
    · cases h
      refine ⟨(Call.recipient_of_leads hnamed hleads).1, ?_⟩
      rwa [Call.message_of_leads hleads]
    · rcases Call.of_mem_own h with ⟨-, h⟩ | h | ⟨fault, h⟩ <;> cases h
  cases stirs with
  | sends m consistent =>
    obtain ⟨calls, own, hevents, hcalls, hown⟩ := d.exists_calls_send m _
    rw [hevents, List.mem_append, List.mem_flatMap] at h
    rcases h with ⟨c, hc, h⟩ | h
    · obtain ⟨sender, n, -, -, rfl⟩ := hcalls c hc
      exact hcall h rfl consistent
    · obtain ⟨header, router, -, hput⟩ := hown _ h
      cases (Member.mem_put_iff.mp hput).1
  | receives m frame origin =>
    obtain ⟨calls, own, hevents, hcalls, hown⟩ := d.exists_calls_receive m frame origin
    rw [hevents, List.mem_flatMap] at h
    rcases h with ⟨c, hc, h⟩ | h
    · obtain ⟨e', he', hc⟩ := hcalls c hc
      obtain ⟨header, payload, recipient', sender, hd, -, -, -, rfl⟩ := of_parse he'
      have hconsistent := fun kind hkind => ((modify_of_decode hd).2.message kind hkind).consistent
      rcases of_mem_onward hc with ⟨hsome, hcopies⟩ | ⟨a, n, hsome, -, -, rfl⟩
      · obtain ⟨left, -, -, -, hcopy⟩ := of_mem_copies hcopies
        rw [hcopy] at h
        exact hcall h hsome hconsistent
      · exact hcall h hsome hconsistent
    · rcases hown _ h with h | h | ⟨fault, h⟩ | ⟨e', -, h⟩ <;> cases h

end Directory

namespace Network

/-- A station discards the echo of whatever it puts onto its medium to send a message or to spread a
global broadcast, later on and wherever its routes lead by then. What it is handed for everybody
though the envelope is not, which no station does, it discards if the sender is itself or has no
segment, or if the envelope is for another segment that it does not hand it on to. -/
theorem discards_echoes {net : Network} (reachable : net.Reachable) {id : NodeId} {m m' : Member}
    (member : net.member? id = some m)
    (listed : m.station.attachment.mac ∈ m.station.attachment.macs)
    (short : m.station.attachment.mac.length ≤ maxMacLength) (remains : m.Remains m')
    (d : Directory) :
    (∀ (msg : Message) (t : Transmission), (∀ kind ∈ msg.kind, kind.Consistent) →
      .transmitted m.id t ∈ (net.directory.send m msg).events →
      d.Discards m' t.frame m.station.attachment.mac) ∧
    (∀ (events : List Event) (source : NodeId) (ingress : Segment) (recipient : Address)
      (e : Envelope) (broadcast : Bool) (t : Transmission), net.directory.Stirs events →
      .relayed source m.id ingress recipient e broadcast ∈ events → recipient.isGlobal = true →
      (net.directory.relay m ingress recipient e broadcast).getLast? = some (.transmitted m.id t) →
      d.Discards m' t.frame m.station.attachment.mac) ∧
    ∀ (ingress : Segment) (recipient : Address) (e : Envelope) (broadcast : Bool) (t : Transmission),
      recipient.isGlobal = true → (∀ kind ∈ e.message, kind.Consistent) →
      (net.directory.relay m ingress recipient e broadcast).getLast? = some (.transmitted m.id t) →
      (d.Discards m' t.frame m.station.attachment.mac ↔
        e.sender.isHere = true ∨ m.station.answersTo e.sender = true ∨
          ∃ a, e.recipient = some a ∧ m.station.shares a = false ∧
            (a.isGlobal = true ∨ d.neighborOn? m'.station a.segment = none ∨
              e.message.map MessageKind.named = some .networkNumberIs)) := by
  obtain ⟨s, hs, rfl⟩ := Option.map_eq_some_iff.mp member
  have hrouted := reachable.routed.directory
  have hsingle := hrouted.segment_ne hs
  refine ⟨fun msg t hconsistent ht => ?_,
    fun events source ingress recipient e broadcast t hstirs hrelayed hglobal ht => ?_,
    fun ingress recipient e broadcast t _ hconsistent ht => ?_⟩
  · rcases Directory.of_transmitted_send hrouted hs ht with
      ⟨header, hfits, hkind, hunsigned, hframe⟩ | ⟨e, heverywhere, hkind, hframe⟩
    · have hd := decode_bytes_append hfits (hkind ▸ hconsistent) msg.payload
      rw [hframe, Directory.discards_iff remains.active, ← remains.attachment]
      refine Directory.fate_of_unsigned (remains.attachment ▸ listed) (remains.attachment ▸ short)
        hd ?_
      rw [Header.asRead, hunsigned]
      rfl
    · rw [hframe]
      exact remains.discards_everywhere hsingle listed short (hkind ▸ hconsistent) heverywhere
  · obtain ⟨hnamed, hconsistent⟩ := hstirs.of_relayed hrelayed
    rw [Member.frame_of_getLast?_relay ht]
    exact remains.discards_everywhere hsingle listed short hconsistent
      (hnamed.trans (congrArg some (Address.isGlobal_iff.mp hglobal)))
  · rw [Member.frame_of_getLast?_relay ht]
    exact remains.discards_landed_iff hsingle listed short hconsistent

/-- The neighbor of the router of `pair`. -/
private def pairNeighbor : Member :=
  ⟨1, { segment := 2, attachment := wireAttachment [2] none, routes := { home := 2 } }⟩

/-- A router says something to everybody, and neither it nor its neighbor reacts to the echo. -/
theorem discards_echoes_pair :
    pair.directory.Discards pairRouter [1, 0, 7] [1] ∧
      pair.directory.Discards pairNeighbor [1, 0x28, 0xFF, 0xFF, 0, 0, 1, 1, 1, 0xFF, 7] [2] := by
  let msg : Message := { recipient := .everywhere, payload := [7] }
  have hsent : (pair.directory.send pairRouter msg).events.getLast? =
      some (.transmitted 0 ⟨.everywhere, none, [1, 0, 7], false, false⟩) := by decide
  have hrelayed : (pair.directory.send pairRouter msg).events.head? = some (.relayed 0 1 1 .everywhere
      (msg.envelope ⟨1, some [1], by decide, by decide, by decide⟩) false) := rfl
  have hput : (pair.directory.relay pairNeighbor 1 .everywhere
      (msg.envelope ⟨1, some [1], by decide, by decide, by decide⟩) false).getLast? =
      some (.transmitted 1 ⟨.everywhere, none, [1, 0x28, 0xFF, 0xFF, 0, 0, 1, 1, 1, 0xFF, 7], false,
        false⟩) := by decide
  have hstirs : pair.directory.Stirs (pair.directory.send pairRouter msg).events :=
    .sends pairRouter (by simp [msg])
  constructor
  · exact (discards_echoes lives_pair.reachable (rfl : pair.member? 0 = some pairRouter) (by decide)
      (by decide) ⟨rfl, rfl, rfl, rfl⟩ pair.directory).1 msg _ (by simp [msg])
      (List.mem_of_getLast? hsent)
  · exact (discards_echoes lives_pair.reachable (rfl : pair.member? 1 = some pairNeighbor) (by decide)
      (by decide) ⟨rfl, rfl, rfl, rfl⟩ pair.directory).2.1 _ 0 1 .everywhere _ false _ hstirs
      (List.mem_of_head? hrelayed) rfl hput

/-- An envelope from a stranger on segment five that is for nobody in particular. -/
private def stray : Envelope :=
  { sender := ⟨5, some [9], by decide, by decide, by decide⟩, recipient := none, payload := [7] }

/-- A router that is handed for everybody what is for nobody in particular keeps the echo. -/
theorem echo_kept_pair : ∃ t,
    (pair.directory.relay pairRouter 2 .everywhere stray true).getLast? = some (.transmitted 0 t) ∧
      ¬ pair.directory.Discards pairRouter t.frame pairRouter.station.attachment.mac ∧
      .arrived 0 { stray with link := some [1] } ∈
        (pair.directory.receive pairRouter t.frame pairRouter.station.attachment.mac).events := by
  have hreceive : (pair.directory.receive pairRouter [1, 8, 0, 5, 1, 9, 7] [1]).events =
      [.received 0, .arrived 0 { stray with link := some [1] }] := rfl
  have hrelay : (pair.directory.relay pairRouter 2 .everywhere stray true).getLast? =
      some (.transmitted 0 ⟨.everywhere, none, [1, 8, 0, 5, 1, 9, 7], true, false⟩) := by
    decide
  refine ⟨_, hrelay, fun h => ?_, ?_⟩
  · cases hreceive.symm.trans (congrArg Run.events h)
  · exact hreceive ▸ List.mem_cons_of_mem _ List.mem_cons_self

end Network

end Fieldbus
