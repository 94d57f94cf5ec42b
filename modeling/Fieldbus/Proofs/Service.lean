import Fieldbus.Proofs.Confluence

/-!
# Stations in service

A link is in service if every station tapped to it is started, is not terminated and answers to
one sub-address of its own (`Wiring.Serves`). Then a frame without target is handed to all of
them and a frame with a target to the one that has the sub-address (`mem_recipients_iff`), and a
station reads from the frame of an envelope what was put in (`Directory.parse_frame`). Main
statement: what a node has taken note of once the links have come to rest after a call is what
was observed of the call to arrive there (`Network.noted_of_linkRun`).
-/

namespace Fieldbus

/-- A sub-address that is there and within the limit makes an address on a single segment. -/
theorem Address.of_some_eq_ok {segment : Segment} {mac : Bytes} (hs : segment ≠ Segment.everywhere)
    (hne : mac ≠ []) (hle : mac.length ≤ maxMacLength) :
    ∃ a, Address.of segment (some mac) = .ok a ∧ a.segment = segment ∧ a.mac = some mac := by
  simp only [Address.of, hs, hne, hle, dite_false, dite_true]
  exact ⟨_, rfl, rfl, rfl⟩

namespace Station

/-- A station takes part in a link under one sub-address of its own. -/
structure On (s : Station) (l : Link) : Prop where
  /-- The station is on the segment of the link. -/
  segment : s.segment = l.segment
  /-- The station answers to its own sub-address only. -/
  attachment : s.attachment = l.attachment s.attachment.mac none
  /-- The station has not been terminated. -/
  active : s.terminated = false
  /-- The sub-address is there. -/
  mac_ne_nil : s.attachment.mac ≠ []
  /-- The sub-address is within the limit. -/
  mac_length_le : s.attachment.mac.length ≤ maxMacLength

instance (s : Station) (l : Link) : Decidable (s.On l) :=
  decidable_of_iff (s.segment = l.segment ∧ s.attachment = l.attachment s.attachment.mac none ∧
      s.terminated = false ∧ s.attachment.mac ≠ [] ∧ s.attachment.mac.length ≤ maxMacLength)
    ⟨fun ⟨segment, attachment, active, ne, le⟩ => ⟨segment, attachment, active, ne, le⟩,
      fun h => ⟨h.segment, h.attachment, h.active, h.mac_ne_nil, h.mac_length_le⟩⟩

/-- The envelope that a station reads from the frame of an envelope, if the address of the node
that put the frame on the medium is `hint`. -/
def reading (s : Station) (e : Envelope) (origin : Bytes) (hint : Address) : Envelope :=
  { e with
    sender := if e.sender.isHere then hint else e.sender
    recipient := e.recipient.filter fun a => a.segment != s.segment
    link := if s.shares (if e.sender.isHere then hint else e.sender) then none else some origin
    hopCount := if e.recipient.isSome then e.hopCount else fullHopCount }

variable {s : Station} {l : Link}

theorem On.macs_eq (h : s.On l) : s.attachment.macs = [s.attachment.mac] := by
  have hm := congrArg Attachment.macs h.attachment
  exact hm

theorem On.answersTo_iff (h : s.On l) {a : Address} {mac : Bytes} (ha : a.mac = some mac) :
    s.answersTo a = true ↔ s.shares a = true ∧ mac = s.attachment.mac := by
  simp only [answersTo, ha, h.macs_eq, Bool.and_eq_true, List.contains_iff_mem, List.mem_singleton]

/-- The medium of a station takes every frame that the link takes. -/
theorem On.takes (h : s.On l) {length : Nat} (fits : length ≤ l.maxFrameLength) :
    s.attachment.Takes length := by
  rw [h.attachment]
  simpa [Attachment.Takes, Link.attachment] using fits

/-- The sub-address of a station makes an address on the link. -/
theorem On.exists_onLink (h : s.On l) : ∃ a, Address.onLink s.attachment.mac = .ok a := by
  obtain ⟨a, ha, -⟩ := Address.of_some_eq_ok (by decide : Segment.here ≠ Segment.everywhere)
    h.mac_ne_nil h.mac_length_le
  exact ⟨a, ha⟩

theorem On.of_onLink (h : s.On l) {a : Address} (ha : Address.onLink s.attachment.mac = .ok a) :
    a.isHere = true ∧ a.mac = some s.attachment.mac := by
  obtain ⟨a', ha', hsegment, hmac⟩ := Address.of_some_eq_ok
    (by decide : Segment.here ≠ Segment.everywhere) h.mac_ne_nil h.mac_length_le
  obtain rfl : a' = a := Except.ok.inj (ha'.symm.trans ha)
  exact ⟨by rw [Address.isHere, hsegment]; rfl, hmac⟩

theorem shares_of_isHere {a : Address} (h : a.isHere = true) : s.shares a = true := by
  rw [shares, h, Bool.true_or]

theorem shares_eq_false {a : Address} (here : a.segment ≠ Segment.here)
    (segment : a.segment ≠ s.segment) : s.shares a = false := by
  simp [shares, Address.isHere, here, segment]

theorem answersTo_eq_false {a : Address} (h : s.shares a = false) : s.answersTo a = false := by
  rw [answersTo, h, Bool.false_and]

end Station

namespace Directory

variable {d : Directory} {m : Member} {e : Envelope} {origin : Bytes} {hint : Address}

/-- A station reads back an envelope above the network layer whose recipient it knows the way
to. -/
theorem parse_frame {s : Station} (plain : e.message = none) (ho : Address.onLink origin = .ok hint)
    (known : ∀ a ∈ e.recipient, a.isGlobal = true ∨ a.segment = s.segment ∨
      (d.neighborOn? s a.segment).isSome = true) :
    d.parse s e.frame origin = .ok (some (s.reading e origin hint)) := by
  have hsender : senderOf e.header origin = .ok (if e.sender.isHere then hint else e.sender) := by
    unfold senderOf
    by_cases h : e.sender.isHere = true
    · simp only [Envelope.header, h, ite_true, ho]
    · simp only [Envelope.header, h, Bool.false_eq_true, ite_false, Source.address_of]
  have hrecipient : recipientOf s e.header =
      .ok (e.recipient.filter fun a => a.segment != s.segment) := by
    unfold recipientOf
    cases hr : e.recipient with
    | none => simp only [Envelope.header, hr, Option.map_none, Option.filter_none]
    | some a =>
      simp only [Envelope.header, hr, Option.map_some, Option.filter_some]
      by_cases hs : a.segment = s.segment
      · simp [Destination.to, hs]
      · simp only [Destination.to, hs, ite_false, bne_iff_ne, ne_eq, not_false_eq_true, ite_true]
        rw [← Destination.to, Destination.address_to]
        rfl
  have hignores : d.ignores s e.header = false := by
    unfold ignores
    cases hr : e.recipient with
    | none => simp only [Envelope.header, hr, Option.map_none]
    | some a =>
      have hk := known a hr
      simp only [Address.isGlobal, beq_iff_eq] at hk
      simp only [Envelope.header, hr, Option.map_some, Destination.to, plain]
      rcases hk with hk | hk | hk <;> simp [hk]
  simp only [parse, Envelope.decode_frame plain, Except.mapError, bind, Except.bind, hignores,
    Bool.false_eq_true, ite_false, hrecipient, hsender, pure, Except.pure]
  congr 3
  cases hr : e.recipient <;> simp [Envelope.header, hr, Destination.to]

/-- What a station does with the frame of an envelope is what it does with the envelope it reads. -/
theorem events_receive_frame (active : m.station.terminated = false) (plain : e.message = none)
    (ho : Address.onLink origin = .ok hint)
    (known : ∀ a ∈ e.recipient, a.isGlobal = true ∨ a.segment = m.station.segment ∨
      (d.neighborOn? m.station a.segment).isSome = true) :
    (d.receive m e.frame origin).events =
      .received m.id :: d.route m (m.station.reading e origin hint) origin := by
  simp only [receive, active, Bool.false_eq_true, ite_false, parse_frame plain ho known]

/-- A frame of the station itself is discarded. -/
theorem route_of_isOwn (h : isOwn m.station e origin = true) : d.route m e origin = [.dropped m.id] := by
  simp only [route, h, ite_true]

/-- An envelope for the nodes of the segment reaches the node. -/
theorem route_of_recipient_eq_none (own : isOwn m.station e origin = false)
    (h : e.recipient = none) : d.route m e origin = [.arrived m.id e] := by
  simp only [route, own, Bool.false_eq_true, ite_false, h, Option.filter_none]

/-- A global broadcast is passed on and reaches the node. -/
theorem route_of_recipient_eq_everywhere (own : isOwn m.station e origin = false)
    (segment : m.station.segment ≠ Segment.everywhere) (h : e.recipient = some Address.everywhere) :
    d.route m e origin = d.flood e.hopCount.toNat m e [e.sender.segment] ++ [.arrived m.id e] := by
  have hanswer : m.station.answersTo Address.everywhere = false := by
    have hne : (Segment.everywhere == m.station.segment) = false := by simpa using segment.symm
    simp only [Station.answersTo, Station.shares, Address.segment_everywhere, hne]
    rfl
  have hglobal : Address.everywhere.isGlobal = true := rfl
  simp only [route, own, Bool.false_eq_true, ite_false, h, Option.filter_some, hanswer,
    Bool.not_false, ite_true, hglobal]

/-- An envelope for another segment is handed to the neighbor there. -/
theorem route_of_neighborOn? (own : isOwn m.station e origin = false) {a : Address}
    (h : e.recipient = some a) (answers : m.station.answersTo a = false)
    (single : a.isGlobal = false) {n : Member}
    (neighbor : d.neighborOn? m.station a.segment = some n) :
    d.route m e origin =
      .relayed m.id n.id m.station.segment a (forwarded m.station e) false ::
        d.relay n m.station.segment a (forwarded m.station e) false := by
  simp only [route, own, Bool.false_eq_true, ite_false, h, Option.filter_some, answers,
    Bool.not_false, ite_true, single, neighbor]

end Directory

namespace Member

/-- A medium that takes the frame of an envelope transmits it. -/
theorem putEnvelope_of_takes {m : Member} {e : Envelope}
    (takes : m.station.attachment.Takes (m.station.landing e).frame.length) (recipient : Address)
    (broadcast : Bool) : m.putEnvelope recipient e broadcast =
      [.transmitted m.id ((m.station.landing e).transmission recipient broadcast)] := by
  have hemit : m.emit ((m.station.landing e).transmission recipient broadcast) =
      .ok (.transmitted m.id ((m.station.landing e).transmission recipient broadcast)) :=
    if_pos takes
  simp only [putEnvelope, hemit]

/-- A medium that takes the frame of a message transmits it. -/
theorem put_of_takes {m : Member} (msg : Message) {header : Header}
    (takes : m.station.attachment.Takes (header.bytes ++ msg.payload).length)
    (router : Option Bytes) : m.put msg header router =
      { events := [.transmitted m.id (msg.transmission header router)] } := by
  have hemit : m.emit (msg.transmission header router) =
      .ok (.transmitted m.id (msg.transmission header router)) := if_pos takes
  simp only [put, hemit]

end Member

/-! ## Links in service -/

/-- Only one summand counts in a sum over a list without repetitions. -/
theorem sum_map_eq_single {α β : Type} [AddCommMonoid β] {xs : List α} (nodup : xs.Nodup) {x : α}
    (hx : x ∈ xs) {f : α → β} (h : ∀ y ∈ xs, y ≠ x → f y = 0) : (xs.map f).sum = f x := by
  classical
  rw [List.sum_map_eq_nsmul_single x f fun y hne hy => h y hy hne, List.count_eq_one_of_mem nodup hx,
    one_nsmul]

/-- A sum over a list without repetitions is one summand and what the others add to it. -/
theorem sum_map_eq_add_others {α β : Type} [DecidableEq α] [AddCommMonoid β] {xs : List α}
    (nodup : xs.Nodup) {x : α} (hx : x ∈ xs) (f : α → β) :
    (xs.map f).sum = f x + (xs.map fun y => if y = x then 0 else f y).sum := by
  have hothers : (xs.erase x).map (fun y => if y = x then 0 else f y) = (xs.erase x).map f :=
    List.map_congr_left fun y hy => if_neg (nodup.mem_erase_iff.mp hy).1
  rw [← List.sum_map_erase f hx, ← List.sum_map_erase (fun y => if y = x then 0 else f y) hx,
    hothers, if_pos rfl, zero_add]

namespace Wiring

/-- The station of a node is tapped to a link. -/
structure Attends (w : Wiring) (k : LinkId) (m : Member) : Prop where
  /-- The station is that of the node. -/
  station : w.directory m.id = some m.station
  /-- The station is tapped to the link. -/
  tap : w.tap? m.id = some k

theorem Attends.member? {w : Wiring} {k : LinkId} {m : Member} (hm : w.Attends k m) :
    w.directory.member? m.id = some m := by
  rw [Directory.member?, hm.station, Option.map_some]

theorem Attends.eq_of_id_eq {w : Wiring} {k k' : LinkId} {m m' : Member} (hm : w.Attends k m)
    (hm' : w.Attends k' m') (he : m.id = m'.id) : m = m' :=
  Option.some.inj (hm.member?.symm.trans (he ▸ hm'.member?))

/-- What handing a frame to a station comes to, apart from the handing itself. -/
theorem Attends.observed_handing {w : Wiring} {k : LinkId} {m : Member} {α : Type}
    {look : Event → Option α} (hm : w.Attends k m) (f : LinkFrame)
    (hl : look (.handed m.id f.data.length) = none) :
    w.observed look (w.directory.handing f m.id) =
      w.observed look (w.directory.receive m f.data f.origin).events := by
  rw [Directory.handing, hm.member?]
  exact observed_cons_of_eq_none look rfl hl _

/-- A station puts its frames on the link it is tapped to. -/
theorem posted?_transmitted {w : Wiring} {k : LinkId} {l : Link} {m : Member} (hm : w.Attends k m)
    (hl : w.links[k]? = some l) (t : Transmission) : w.posted? (.transmitted m.id t) =
      some (k, ⟨m.station.attachment.mac, l.target t, t.frame⟩) := by
  simp only [posted?, hm.station, hm.tap, Option.bind_eq_bind, Option.bind_some, hl]
  rfl

/-- A link and all stations that are tapped to it are in service. -/
structure Serves (w : Wiring) (k : LinkId) (l : Link) : Prop where
  /-- The link exists. -/
  link : w.links[k]? = some l
  /-- The segment has a number. -/
  segment_ne_here : l.segment ≠ Segment.here
  /-- The segment is a single one. -/
  segment_ne_everywhere : l.segment ≠ Segment.everywhere
  /-- No sub-address is registered twice. -/
  single : l.registry.keys.Nodup
  /-- The stations take part in the link. -/
  on : ∀ m, w.Attends k m → m.station.On l
  /-- The stations have registered. -/
  registered : ∀ m, w.Attends k m → (m.station.attachment.mac, m.id) ∈ l.registry.entries
  /-- Whoever has registered and still exists is such a station. -/
  attends : ∀ mac id s, (mac, id) ∈ l.registry.entries → w.directory id = some s →
    w.Attends k ⟨id, s⟩ ∧ s.attachment.mac = mac

namespace Serves

variable {w : Wiring} {k : LinkId} {l : Link}

/-- The stations of a link have different sub-addresses. -/
theorem eq_of_mac_eq (h : w.Serves k l) {m m' : Member} (hm : w.Attends k m) (hm' : w.Attends k m')
    (he : m.station.attachment.mac = m'.station.attachment.mac) : m = m' := by
  have hg := Table.get?_eq_some_of_mem h.single (h.registered m hm)
  have hg' := Table.get?_eq_some_of_mem h.single (h.registered m' hm')
  rw [he, hg', Option.some.injEq] at hg
  exact hm.eq_of_id_eq hm' hg.symm

/-- The address of a station names its link and its sub-address. -/
theorem of_address (h : w.Serves k l) {x : Member} (hx : w.Attends k x) {a : Address}
    (ha : x.station.address = .ok a) :
    a.segment = l.segment ∧ a.mac = some x.station.attachment.mac := by
  have hon := h.on x hx
  obtain ⟨a', ha', hsegment, hmac⟩ := Address.of_some_eq_ok
    (hon.segment ▸ h.segment_ne_everywhere) hon.mac_ne_nil hon.mac_length_le
  obtain rfl : a' = a := Except.ok.inj (ha'.symm.trans ha)
  exact ⟨hsegment.trans hon.segment, hmac⟩

/-- On a link only the station itself answers to the address that its sub-address makes there. -/
theorem answersTo_onLink_iff (h : w.Serves k l) {m m' : Member} (hm : w.Attends k m)
    (hm' : w.Attends k m') {a : Address} (ha : Address.onLink m'.station.attachment.mac = .ok a) :
    m.station.answersTo a = true ↔ m = m' := by
  obtain ⟨hhere, hmac⟩ := (h.on m' hm').of_onLink ha
  rw [(h.on m hm).answersTo_iff hmac]
  constructor
  · exact fun he => h.eq_of_mac_eq hm hm' he.2.symm
  · rintro rfl
    exact ⟨Station.shares_of_isHere hhere, rfl⟩

/-- An address on the segment of a link does not reach everywhere. -/
theorem isGlobal_eq_false (h : w.Serves k l) {a : Address} (segment : a.segment = l.segment) :
    a.isGlobal = false := by
  simpa [Address.isGlobal, segment] using h.segment_ne_everywhere

/-- An address on the segment of a link reaches no other, whether it names the segment or not. -/
theorem isGlobal_eq_false_of_near (h : w.Serves k l) {a : Address}
    (segment : a.segment = Segment.here ∨ a.segment = l.segment) : a.isGlobal = false := by
  rcases segment with hs | hs
  · rw [Address.isGlobal, hs]
    rfl
  · exact h.isGlobal_eq_false hs

/-- A frame is handed to those whose sub-address it is for, or to everybody. -/
theorem mem_recipients_iff (h : w.Serves k l) {m : Member} (hm : w.Attends k m) (f : LinkFrame) :
    m.id ∈ l.recipients w.isAlive f ↔
      ∀ mac ∈ f.target, mac = m.station.attachment.mac := by
  have halive : w.isAlive m.id = true := by rw [isAlive, hm.station, Option.isSome_some]
  cases ht : f.target with
  | none =>
    rw [Link.mem_recipients_of_target_none ht]
    simp only [halive, and_true, Option.mem_def, reduceCtorEq, false_implies, implies_true, iff_true]
    exact List.mem_map_of_mem (h.registered m hm)
  | some mac =>
    rw [Link.mem_recipients_of_target_some ht]
    simp only [halive, and_true, Option.mem_def, Option.some.injEq, forall_eq']
    constructor
    · intro hg
      exact (h.attends mac m.id m.station (Table.mem_of_get?_eq_some hg) hm.station).2.symm
    · rintro rfl
      exact Table.get?_eq_some_of_mem h.single (h.registered m hm)

/-- A frame for the sub-address of a station is handed to that station alone. -/
theorem recipients_of_target (h : w.Serves k l) {m : Member} (hm : w.Attends k m) (origin data : Bytes) :
    l.recipients w.isAlive ⟨origin, some m.station.attachment.mac, data⟩ = [m.id] := by
  have hget := Table.get?_eq_some_of_mem h.single (h.registered m hm)
  have halive : w.isAlive m.id = true := by rw [isAlive, hm.station, Option.isSome_some]
  simp only [Link.recipients, hget, Option.filter_some, halive, ite_true, Option.toList_some]

/-- A frame is handed to stations of the link only. -/
theorem attends_of_mem_recipients (h : w.Serves k l) {f : LinkFrame} {id : NodeId}
    (hid : id ∈ l.recipients w.isAlive f) : ∃ s, w.Attends k ⟨id, s⟩ := by
  have hentry : ∃ mac, (mac, id) ∈ l.registry.entries ∧ w.isAlive id = true := by
    cases ht : f.target with
    | none =>
      obtain ⟨hv, halive⟩ := (Link.mem_recipients_of_target_none ht).mp hid
      obtain ⟨⟨mac, id'⟩, he, rfl⟩ := List.mem_map.mp hv
      exact ⟨mac, he, halive⟩
    | some mac =>
      obtain ⟨hg, halive⟩ := (Link.mem_recipients_of_target_some ht).mp hid
      exact ⟨mac, Table.mem_of_get?_eq_some hg, halive⟩
  obtain ⟨mac, he, halive⟩ := hentry
  obtain ⟨s, hs⟩ := Option.isSome_iff_exists.mp halive
  exact ⟨s, (h.attends mac id s he hs).1⟩

/-- A frame is handed to nobody twice. -/
theorem nodup_recipients (h : w.Serves k l) (f : LinkFrame) :
    (l.recipients w.isAlive f).Nodup := by
  refine Link.nodup_recipients h.single (fun {mac mac' id} hentry hentry' halive => ?_) f
  obtain ⟨s, hs⟩ := Option.isSome_iff_exists.mp halive
  obtain ⟨-, hmac⟩ := h.attends mac id s hentry hs
  obtain ⟨-, hmac'⟩ := h.attends mac' id s hentry' hs
  rw [← hmac, ← hmac']

/-- What a station sends to nodes of its link is put onto the link. -/
theorem send_eq (h : w.Serves k l) {m : Member} (hm : w.Attends k m) {msg : Message}
    (router : msg.router = none)
    (segment : msg.recipient.segment = Segment.here ∨ msg.recipient.segment = l.segment)
    (fits : (msg.header.bytes ++ msg.payload).length ≤ l.maxFrameLength) :
    w.directory.send m msg =
      { events := [.transmitted m.id (msg.transmission msg.header none)] } := by
  have hon := h.on m hm
  have hglobal := h.isGlobal_eq_false_of_near segment
  have hshares : m.station.shares msg.recipient = true := by
    rcases segment with hs | hs
    · exact Station.shares_of_isHere (by rw [Address.isHere, hs]; rfl)
    · rw [Station.shares, hs, hon.segment, beq_self_eq_true, Bool.or_true]
  rw [← Member.put_of_takes msg (hon.takes fits)]
  simp only [Directory.send, hglobal, hshares, router, Bool.false_eq_true, ite_false, ite_true,
    Option.isSome_none]

/-- What a station puts on its link for nodes of the link reaches whoever is handed it, except for the
station itself, if it can be read. -/
theorem events_receive_message (h : w.Serves k l) {m n : Member} (hm : w.Attends k m)
    (hn : w.Attends k n) {msg : Message}
    (read : decode (msg.header.bytes ++ msg.payload) = .ok (msg.header, msg.payload)) {hint : Address}
    (ho : Address.onLink n.station.attachment.mac = .ok hint) :
    (w.directory.receive m (msg.header.bytes ++ msg.payload) n.station.attachment.mac).events =
      [.received m.id, if m = n then .dropped m.id
        else .arrived m.id { msg.envelope hint with recipient := none }] := by
  have hshares : m.station.shares hint = true :=
    Station.shares_of_isHere ((h.on n hn).of_onLink ho).1
  have hsender : Directory.senderOf msg.header n.station.attachment.mac = .ok hint := ho
  have hrecipient : Directory.recipientOf m.station msg.header = .ok none := rfl
  have hignores : w.directory.ignores m.station msg.header = false := rfl
  have hparse : w.directory.parse m.station (msg.header.bytes ++ msg.payload)
      n.station.attachment.mac = .ok (some { msg.envelope hint with recipient := none }) := by
    simp only [Directory.parse, read, Except.mapError, bind, Except.bind, hignores,
      Bool.false_eq_true, ite_false, hrecipient, hsender, hshares, ite_true]
    rfl
  have hevents : (w.directory.receive m (msg.header.bytes ++ msg.payload)
      n.station.attachment.mac).events = .received m.id :: w.directory.route m
        { msg.envelope hint with recipient := none } n.station.attachment.mac := by
    simp only [Directory.receive, (h.on m hm).active, Bool.false_eq_true, ite_false, hparse]
  have hanswers := h.answersTo_onLink_iff hm hn ho
  rw [hevents]
  by_cases he : m = n
  · have hown : Directory.isOwn m.station { msg.envelope hint with recipient := none }
        n.station.attachment.mac = true := by
      rw [Directory.isOwn, Bool.or_eq_true]
      exact Or.inl (hanswers.mpr he)
    rw [Directory.route_of_isOwn hown, if_pos he]
  · have hown : Directory.isOwn m.station { msg.envelope hint with recipient := none }
        n.station.attachment.mac = false := by
      have hforeign : m.station.answersTo hint = false := Bool.eq_false_iff.mpr (mt hanswers.mp he)
      simp only [Directory.isOwn, Message.envelope, hforeign, Option.any_none, Bool.false_and,
        Bool.or_self]
    rw [Directory.route_of_recipient_eq_none hown rfl, if_neg he]

/-- What is put on a link above the network layer can be read. -/
theorem events_receive_plain (h : w.Serves k l) {m n : Member} (hm : w.Attends k m)
    (hn : w.Attends k n) {msg : Message} (plain : msg.kind = none) {hint : Address}
    (ho : Address.onLink n.station.attachment.mac = .ok hint) :
    (w.directory.receive m (msg.header.bytes ++ msg.payload) n.station.attachment.mac).events =
      [.received m.id, if m = n then .dropped m.id
        else .arrived m.id { msg.envelope hint with recipient := none }] :=
  h.events_receive_message hm hn (Message.decode_header (by simp [plain]) (by simp [plain])) ho

end Serves

end Wiring

/-! ## After a call -/

namespace Network

/-- Whether a link is in service can be checked node by node. -/
theorem serves_of_forall_nodes {net : Network} {k : LinkId} {l : Link}
    (link : net.wiring.links[k]? = some l) (here : l.segment ≠ Segment.here)
    (everywhere : l.segment ≠ Segment.everywhere) (single : l.registry.keys.Nodup)
    (nodes : ∀ id < net.nodes.length, ∀ n ∈ net.node? id, n.medium.link? = some k →
      n.station.On l ∧ (n.station.attachment.mac, id) ∈ l.registry.entries)
    (entries : ∀ entry ∈ l.registry.entries, ∀ n ∈ net.node? entry.2,
      n.medium.link? = some k ∧ n.station.attachment.mac = entry.1) : net.wiring.Serves k l := by
  have hnode : ∀ m, net.wiring.Attends k m →
      m.station.On l ∧ (m.station.attachment.mac, m.id) ∈ l.registry.entries := by
    rintro ⟨id, s⟩ ⟨hs, htap⟩
    obtain ⟨n, hn, rfl⟩ := Option.map_eq_some_iff.mp hs
    have hmedium : n.medium.link? = some k := by
      simpa only [wiring, hn, Option.bind_some] using htap
    exact nodes id (lt_length_of_directory hs) n hn hmedium
  refine ⟨link, here, everywhere, single, fun m hm => (hnode m hm).1, fun m hm => (hnode m hm).2, ?_⟩
  intro mac id s he hs
  obtain ⟨n, hn, rfl⟩ := Option.map_eq_some_iff.mp hs
  obtain ⟨hmedium, hmac⟩ := entries (mac, id) he n hn
  refine ⟨⟨hs, ?_⟩, hmac⟩
  simpa only [wiring, hn, Option.bind_some] using hmedium

/-- The envelopes that the consumer of a node has taken note of. -/
def noted (net : Network) (id : NodeId) : List Envelope := ((net.node? id).map Node.noted).getD []

/-- A call of a member is carried out as events. -/
theorem send_eq_applyAll {net : Network} {k : LinkId} {m : Member} (hm : net.wiring.Attends k m)
    (msg : Message) : net.send m.id msg =
      ((net.directory.send m msg).result, net.applyAll (net.directory.send m msg).events) := by
  have hmember : net.member? m.id = some m := hm.member?
  simp only [send, call, hmember]

theorem isAlive_of_attends {net : Network} {k : LinkId} {m : Member}
    (hm : net.wiring.Attends k m) : net.isAlive m.id = true := by
  obtain ⟨n, hn, -⟩ := Option.map_eq_some_iff.mp hm.station
  rw [isAlive, hn, Option.isSome_some]

/-- Every node has a collector, which keeps what reaches it. -/
def Collects (net : Network) : Prop :=
  ∀ id n, net.node? id = some n → ∃ items, n.consumer = some (.collector items)

theorem Collects.records {net : Network} (h : net.Collects) :
    ∀ id n, net.node? id = some n → n.Records := by
  intro id n hn c hc
  obtain ⟨items, hi⟩ := h id n hn
  rw [hi] at hc
  exact ⟨items, (Option.some.inj hc).symm⟩

/-- Links come to rest, and in whatever order they work until then, what they cause and the
network they leave are as described. -/
def Settles (net : Network) (described : List Event → Network → Prop) : Prop :=
  (∃ events net', LinkRun net events net' ∧ net'.LinksRest) ∧
    ∀ events net', LinkRun net events net' → net'.LinksRest → described events net'

section

variable {net net' : Network} {events rest : List Event}

/-- What is observed of a call until the links have come to rest is what the wiring says. -/
theorem observed_of_linkRun {α : Type} (look : Event → Option α) (routed : net.Routed)
    (idle : net.waiting = 0) (run : LinkRun (net.applyAll events) rest net')
    (done : net'.waiting = 0) :
    ((events ++ rest).filterMap look : Multiset α) = net.wiring.observed look events := by
  have hkeeps := (keepsSetup_applyAll net events).keepsRoutes
  have hrest := run.events_eq (routed.of_keepsRoutes hkeeps) done
  rw [impending, waiting_applyAll, wiring_applyAll, idle, zero_add] at hrest
  have hall : (↑(events ++ rest) : Multiset Event) = net.wiring.outcome events := by
    rw [← Multiset.coe_add, hrest]
    rfl
  rw [Wiring.observed, ← hall]
  rfl

/-- Nodes have recorded what happened from the call on. -/
theorem node?_of_linkRun (collects : net.Collects) (run : LinkRun (net.applyAll events) rest net')
    (id : NodeId) : net'.node? id = (net.node? id).map (Node.after id (events ++ rest)) := by
  have hrecords := collects.records
  have hnow : ∀ id n, (net.applyAll events).node? id = some n → n.Records := by
    intro id n' hn'
    rw [node?_applyAll hrecords] at hn'
    obtain ⟨n, hn, rfl⟩ := Option.map_eq_some_iff.mp hn'
    exact hrecords id n hn
  rw [run.node?_eq hnow, node?_applyAll hrecords, Option.map_map]
  congr 1
  funext n
  exact (Node.after_append id events rest n).symm

/-- Every node keeps its collector. -/
theorem Collects.of_linkRun (collects : net.Collects)
    (run : LinkRun (net.applyAll events) rest net') : net'.Collects := by
  intro id n' hn'
  rw [node?_of_linkRun collects run] at hn'
  obtain ⟨n, hn, rfl⟩ := Option.map_eq_some_iff.mp hn'
  exact collects id n hn

/-- A node has taken note of what was observed to arrive there. -/
theorem noted_of_linkRun (routed : net.Routed) (collects : net.Collects) (idle : net.waiting = 0)
    (run : LinkRun (net.applyAll events) rest net') (done : net'.waiting = 0) {id : NodeId}
    (alive : net.isAlive id = true) : ∃ new, net'.noted id = net.noted id ++ new ∧
      (new : Multiset Envelope) = net.wiring.observed (Event.arrival? id) events := by
  obtain ⟨n, hn⟩ := Option.isSome_iff_exists.mp alive
  obtain ⟨items, hc⟩ := collects id n hn
  refine ⟨arrivals id (events ++ rest), ?_, observed_of_linkRun _ routed idle run done⟩
  rw [noted, noted, node?_of_linkRun collects run, hn, Option.map_some, Option.map_some]
  simp only [Option.map_some, Option.getD_some, Node.after, hc, Option.isSome_some, ite_true]

/-- After events links come to rest without frames that wait. -/
theorem settles_applyAll (routed : net.Routed) (collects : net.Collects)
    (running : ∀ l ∈ net.links, l.running = true) {described : List Event → Network → Prop}
    (h : ∀ rest net', LinkRun (net.applyAll events) rest net' → net'.waiting = 0 →
      described rest net') : (net.applyAll events).Settles described := by
  have hrouted := routed.of_keepsRoutes (keepsSetup_applyAll net events).keepsRoutes
  have hquiet := (quiet_of_records collects.records).of_keepsSetup (keepsSetup_applyAll net events)
  have hrunning := running_of_wiring_eq (wiring_applyAll net events) running
  refine ⟨exists_linkRun (acc_step hrouted hquiet), fun rest net' run done => ?_⟩
  exact h rest net' run (run.waiting_eq_zero hrunning done)

end

/-- A network whose links have come to rest and whose nodes keep what reaches them. -/
structure Ready (net : Network) : Prop where
  /-- Routes lead where they are said to lead. -/
  routed : net.Routed
  /-- Every node has a collector. -/
  collects : net.Collects
  /-- The links run. -/
  running : ∀ l ∈ net.links, l.running = true
  /-- No frame waits. -/
  idle : net.waiting = 0

/-- A network that has come to rest after a call is ready again and has the wiring it had. -/
theorem Ready.of_linkRun {net net' : Network} {events rest : List Event} (h : net.Ready)
    (run : LinkRun (net.applyAll events) rest net') (done : net'.waiting = 0) :
    net'.Ready ∧ net'.wiring = net.wiring := by
  have hwiring : net'.wiring = net.wiring := run.wiring_eq.trans (wiring_applyAll net events)
  have hrouted := h.routed.of_keepsRoutes (keepsSetup_applyAll net events).keepsRoutes
  exact ⟨⟨run.routed hrouted, h.collects.of_linkRun run, running_of_wiring_eq hwiring h.running, done⟩,
    hwiring⟩

end Network

end Fieldbus
