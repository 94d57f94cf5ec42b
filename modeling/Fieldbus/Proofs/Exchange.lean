import Fieldbus.Proofs.Service

/-!
# Messages across a router

Two stations on different links that route to each other make a router between the links. A
message that a station of one link sends through it reaches exactly the stations of the other
link that the recipient names, each of them once, and the answer that one of them sends back to
the sender and link that it read reaches exactly the first sender (`exchange_through_router`).
-/

namespace Fieldbus

/-- The sub-address of a recipient, if there is one, is that of the station or reaches everybody. -/
def Link.Names (l : Link) (recipient : Address) (mac : Bytes) : Prop :=
  ∀ m ∈ recipient.mac, m = l.broadcastMac ∨ m = mac

instance (l : Link) (recipient : Address) (mac : Bytes) : Decidable (l.Names recipient mac) := by
  unfold Link.Names
  infer_instance

/-- A message above the network layer that an external router takes to another segment. -/
def Message.through (recipient router : Address) (payload : Bytes) (expectsReply : Bool) : Message where
  recipient
  router := some router
  payload
  expectsReply

/-- What reaches the recipients of a message that the node `hop` put on their medium. -/
def Message.letter (msg : Message) (sender : Address) (hop : Bytes) : Envelope :=
  { msg.envelope sender with recipient := none, link := some hop }

/-- The frame in which a message comes to the segment of its recipient. -/
def Message.landed (msg : Message) (sender : Address) : Envelope :=
  { msg.envelope sender with recipient := none }

namespace Wiring

variable {w : Wiring} {k k' : LinkId} {l l' : Link} {r r' c : Member}

/-- Two links in service with a router between them: a station on either, with routes to each
other. -/
structure Crossing (w : Wiring) (k k' : LinkId) (l l' : Link) (r r' : Member) : Prop where
  /-- The first link is in service. -/
  near : w.Serves k l
  /-- The second link is in service. -/
  far : w.Serves k' l'
  /-- The links stand for different segments. -/
  segment_ne : l.segment ≠ l'.segment
  /-- The first half of the router is on the first link. -/
  attends_near : w.Attends k r
  /-- The second half of the router is on the second link. -/
  attends_far : w.Attends k' r'
  /-- The first half has a route to the second. -/
  there : w.directory.neighborOn? r.station l'.segment = some r'
  /-- The second half has a route to the first. -/
  back : w.directory.neighborOn? r'.station l.segment = some r

theorem Crossing.symm (h : w.Crossing k k' l l' r r') : w.Crossing k' k l' l r' r :=
  ⟨h.far, h.near, h.segment_ne.symm, h.attends_far, h.attends_near, h.back, h.there⟩

/-- A frame without a destination from another segment reaches whoever it is handed to. -/
theorem Serves.events_receive_landed (h : w.Serves k l) {x : Member} (hx : w.Attends k x)
    {e : Envelope} (plain : e.message = none) (recipient : e.recipient = none)
    (hops : e.hopCount = fullHopCount)
    (here : e.sender.segment ≠ Segment.here) (segment : e.sender.segment ≠ l.segment)
    {origin : Bytes} (ne : origin ≠ []) (le : origin.length ≤ maxMacLength) :
    (w.directory.receive x e.frame origin).events =
      [.received x.id, .arrived x.id { e with link := some origin }] := by
  have hon := h.on x hx
  obtain ⟨hint, ho, -⟩ := Address.of_some_eq_ok (by decide : Segment.here ≠ Segment.everywhere) ne le
  have hshares : x.station.shares e.sender = false :=
    Station.shares_eq_false here (hon.segment ▸ segment)
  have hhere : e.sender.isHere = false := by simpa [Address.isHere] using here
  have hread : x.station.reading e origin hint = { e with link := some origin } := by
    simp only [Station.reading, hhere, Bool.false_eq_true, ite_false, hshares, recipient,
      Option.filter_none, Option.isSome_none, hops]
  have hown : Directory.isOwn x.station { e with link := some origin } origin = false := by
    simp [Directory.isOwn, Station.answersTo_eq_false hshares, recipient]
  rw [Directory.events_receive_frame hon.active plain ho (by simp [recipient]), hread,
    Directory.route_of_recipient_eq_none hown recipient]

/-- Exactly the stations of the segment that a recipient names are handed what is sent to it. -/
theorem Serves.mem_recipients_target_iff (h : w.Serves k l) {x : Member} (hx : w.Attends k x)
    {t : Transmission} (single : t.recipient.isGlobal = false) (router : t.router = none)
    (quiet : t.broadcast = false) (origin : Bytes) :
    x.id ∈ l.recipients w.isAlive ⟨origin, l.target t, t.frame⟩ ↔
      l.Names t.recipient x.station.attachment.mac := by
  rw [h.mem_recipients_iff hx]
  simp only [Link.target, quiet, single, Bool.or_self, Bool.false_eq_true, ite_false, router,
    Option.mem_def, Option.filter_eq_some_iff, bne_iff_ne, ne_eq, Link.Names, and_imp]
  exact forall_congr' fun mac => imp_congr_right fun _ => or_iff_not_imp_left.symm

/-- A station puts what it is handed for its segment on its link. -/
theorem Serves.relay_eq (h : w.Serves k l) {n : Member} (hn : w.Attends k n) (msg : Message)
    (recipient : msg.recipient.segment = l.segment) {sender : Address}
    (fits : (msg.landed sender).frame.length ≤ l.maxFrameLength) (ingress : Segment) :
    w.directory.relay n ingress msg.recipient (msg.envelope sender) false =
      [.transmitted n.id ((msg.landed sender).transmission msg.recipient false)] := by
  have hon := h.on n hn
  have hglobal := h.isGlobal_eq_false recipient
  have hlanding : n.station.landing (msg.envelope sender) = msg.landed sender := by
    have hr : (n.station.landing (msg.envelope sender)).recipient = none :=
      Station.recipient_landing rfl (hon.segment.trans recipient.symm)
    exact congrArg (fun r => { msg.envelope sender with recipient := r }) hr
  have htakes : n.station.attachment.Takes (n.station.landing (msg.envelope sender)).frame.length := by
    rw [hlanding]
    exact hon.takes fits
  simp only [Directory.relay, hon.active, hglobal, Bool.false_eq_true, ite_false, List.nil_append]
  rw [Member.putEnvelope_of_takes htakes, hlanding]

/-- What a station hands on to the segment of the recipient reaches whom the recipient names. -/
theorem Serves.observed_relay (h : w.Serves k l) (routed : w.directory.Routed) {n : Member}
    (hn : w.Attends k n) (msg : Message) (plain : msg.kind = none)
    (recipient : msg.recipient.segment = l.segment) {sender : Address}
    (here : sender.segment ≠ Segment.here) (segment : sender.segment ≠ l.segment)
    (fits : (msg.landed sender).frame.length ≤ l.maxFrameLength) (ingress : Segment) (id : NodeId) :
    w.observed (Event.arrival? id)
        (w.directory.relay n ingress msg.recipient (msg.envelope sender) false) =
      if id ∈ l.recipients w.isAlive ⟨n.station.attachment.mac,
        l.target ((msg.landed sender).transmission msg.recipient false), (msg.landed sender).frame⟩
      then {msg.letter sender n.station.attachment.mac} else 0 := by
  have hon := h.on n hn
  rw [h.relay_eq hn msg recipient fits, observed_transmitted _ routed hn.station hn.tap h.link]
  refine (zero_add _).trans ?_
  have hframe : ((msg.landed sender).transmission msg.recipient false).frame =
    (msg.landed sender).frame := rfl
  rw [hframe]
  generalize hf : (⟨n.station.attachment.mac, l.target ((msg.landed sender).transmission
    msg.recipient false), (msg.landed sender).frame⟩ : LinkFrame) = f
  -- Each recipient takes the letter in once.
  have heach : ∀ x ∈ l.recipients w.isAlive f, w.observed (Event.arrival? id)
      (w.directory.handing f x) = if x = id then {msg.letter sender n.station.attachment.mac} else 0 := by
    intro x hx
    obtain ⟨s, hs⟩ := h.attends_of_mem_recipients hx
    have hreceive := h.events_receive_landed hs (e := msg.landed sender) plain rfl rfl here segment
      hon.mac_ne_nil hon.mac_length_le
    rw [hs.observed_handing f rfl, ← hf, hreceive, observed_cons_of_eq_none _ rfl rfl,
      observed_singleton _ rfl]
    by_cases he : x = id
    · simp [he, Message.letter, Message.landed]
    · simp [he]
  rw [List.map_congr_left heach]
  split
  · rename_i hid
    rw [sum_map_eq_single (h.nodup_recipients f) hid fun y _ hy => if_neg hy, if_pos rfl]
  · rename_i hid
    refine List.sum_eq_zero fun b hb => ?_
    obtain ⟨y, hy, rfl⟩ := List.mem_map.mp hb
    have hne : y ≠ id := by
      rintro rfl
      exact hid hy
    exact if_neg hne

namespace Crossing

/-- The first half of a router hands a message that it is asked to take to the second half. -/
theorem events_receive_through (h : w.Crossing k k' l l' r r') (hc : w.Attends k c) (ne : c ≠ r)
    (msg : Message) (plain : msg.kind = none) (recipient : msg.recipient.segment = l'.segment)
    {sender : Address} (hs : c.station.address = .ok sender) :
    (w.directory.receive r (msg.routedHeader.bytes ++ msg.payload) c.station.attachment.mac).events =
      .received r.id :: .relayed r.id r'.id l.segment msg.recipient (msg.envelope sender) false ::
        w.directory.relay r' l.segment msg.recipient (msg.envelope sender) false := by
  have honc := h.near.on c hc
  have honr := h.near.on r h.attends_near
  obtain ⟨hint, ho⟩ := honc.exists_onLink
  obtain ⟨hhere, hmac⟩ := honc.of_onLink ho
  have hne : msg.recipient.segment ≠ r.station.segment := by
    rw [recipient, honr.segment]
    exact h.segment_ne.symm
  have hglobal := h.far.isGlobal_eq_false recipient
  have hshares : r.station.shares msg.recipient = false :=
    Station.shares_eq_false (recipient ▸ h.far.segment_ne_here) hne
  have hneighbor : w.directory.neighborOn? r.station msg.recipient.segment = some r' := by
    rw [recipient]
    exact h.there
  -- On the medium the sender is left out: the frame is that of an envelope on segment zero.
  have hframe : msg.routedHeader.bytes ++ msg.payload =
      (msg.envelope (Address.all Segment.here)).frame := rfl
  have hread : r.station.reading (msg.envelope (Address.all Segment.here)) c.station.attachment.mac
      hint = msg.envelope hint := by
    have hhint : r.station.shares hint = true := Station.shares_of_isHere hhere
    have hall : (Address.all Segment.here).isHere = true := rfl
    have hfar : (msg.recipient.segment != r.station.segment) = true := by simpa using hne
    simp only [Station.reading, Message.envelope, hall, ite_true, hhint, Option.filter_some, hfar,
      Option.isSome_some]
  have hown : Directory.isOwn r.station (msg.envelope hint) c.station.attachment.mac = false := by
    have hanswer : r.station.answersTo hint = false := Bool.eq_false_iff.mpr fun ha =>
      ne ((h.near.answersTo_onLink_iff h.attends_near hc ho).mp ha).symm
    simp [Directory.isOwn, hanswer, Message.envelope, hglobal]
  have hdeparting : r.station.departing hint = sender := by
    rw [Station.departing, if_pos hhere]
    have hsegment : r.station.segment = c.station.segment := honr.segment.trans honc.segment.symm
    have hw := Address.of_withSegment hint r.station.segment
    rw [hmac, hsegment] at hw
    rw [Station.address, hw] at hs
    rw [hsegment]
    exact Except.ok.inj hs
  have hforwarded : Directory.forwarded r.station (msg.envelope hint) = msg.envelope sender := by
    simp only [Directory.forwarded, Message.envelope, hdeparting]
  rw [hframe, Directory.events_receive_frame honr.active plain ho ?_, hread,
    Directory.route_of_neighborOn? hown rfl (Station.answersTo_eq_false hshares) hglobal hneighbor,
    hforwarded, honr.segment]
  intro a ha
  obtain rfl : msg.recipient = a := Option.some.inj ha
  exact Or.inr (Or.inr (by rw [hneighbor, Option.isSome_some]))

/-- A message that a station sends through a router is put on the link of the station. -/
theorem send_through (h : w.Crossing k k' l l' r r') (hc : w.Attends k c) (ne : c ≠ r)
    {recipient router : Address} (segment : recipient.segment = l'.segment)
    (hr : Address.onLink r.station.attachment.mac = .ok router) {payload : Bytes} {expectsReply : Bool}
    (fits : ((Message.through recipient router payload expectsReply).routedHeader.bytes ++ payload).length ≤
      l.maxFrameLength) :
    w.directory.send c (.through recipient router payload expectsReply) =
      { events := [.transmitted c.id ((Message.through recipient router payload expectsReply).transmission
        (Message.through recipient router payload expectsReply).routedHeader
          (some r.station.attachment.mac))] } := by
  have honc := h.near.on c hc
  have hmac := ((h.near.on r h.attends_near).of_onLink hr).2
  have hglobal := h.far.isGlobal_eq_false segment
  have hshares : c.station.shares recipient = false := by
    refine Station.shares_eq_false (segment ▸ h.far.segment_ne_here) ?_
    rw [segment, honc.segment]
    exact h.segment_ne.symm
  have hanswers : c.station.answersTo router = false := Bool.eq_false_iff.mpr fun ha =>
    ne ((h.near.answersTo_onLink_iff hc h.attends_near hr).mp ha)
  have hput := Member.put_of_takes (.through recipient router payload expectsReply) (honc.takes fits)
    router.mac
  simp only [Directory.send, Message.through, hglobal, Bool.false_eq_true, ite_false, hshares,
    Option.filter_some, hanswers, Bool.not_false, ite_true]
  rw [hmac] at hput ⊢
  exact hput

/-- A message that a station sends through a router comes to what the second half of the router
makes of it. -/
theorem observed_send_through (h : w.Crossing k k' l l' r r') (routed : w.directory.Routed)
    (hc : w.Attends k c) (ne : c ≠ r) {recipient router sender : Address}
    (segment : recipient.segment = l'.segment) (hr : Address.onLink r.station.attachment.mac = .ok router)
    (hs : c.station.address = .ok sender) {payload : Bytes} {expectsReply : Bool}
    (fits : ((Message.through recipient router payload expectsReply).routedHeader.bytes ++ payload).length ≤
      l.maxFrameLength) (id : NodeId) :
    (w.directory.send c (.through recipient router payload expectsReply)).result = .ok () ∧
      w.observed (Event.arrival? id)
          (w.directory.send c (.through recipient router payload expectsReply)).events =
        w.observed (Event.arrival? id) (w.directory.relay r' l.segment recipient
          ((Message.through recipient router payload expectsReply).envelope sender) false) := by
  have hglobal := h.far.isGlobal_eq_false segment
  have hsend := h.send_through hc ne segment hr fits
  refine ⟨by rw [hsend], ?_⟩
  rw [hsend, observed_transmitted _ routed hc.station hc.tap h.near.link]
  refine (zero_add _).trans ?_
  have htarget : l.target ((Message.through recipient router payload expectsReply).transmission
      (Message.through recipient router payload expectsReply).routedHeader
        (some r.station.attachment.mac)) = some r.station.attachment.mac := by
    simp only [Link.target, Message.transmission, Message.through, hglobal, Bool.or_self,
      Bool.false_eq_true, ite_false]
  rw [htarget, h.near.recipients_of_target h.attends_near, List.map_singleton, List.sum_singleton,
    h.attends_near.observed_handing _ rfl]
  have hreceive := h.events_receive_through hc ne (.through recipient router payload expectsReply)
    rfl segment hs
  refine (congrArg (w.observed (Event.arrival? id)) hreceive).trans ?_
  rw [observed_cons_of_eq_none _ rfl rfl, observed_cons_of_eq_none _ rfl rfl]
  rfl

/-- A message that the first half of a router sends through itself goes to the second half. -/
theorem observed_send_own (h : w.Crossing k k' l l' r r') {recipient router sender : Address}
    (segment : recipient.segment = l'.segment)
    (hr : Address.onLink r.station.attachment.mac = .ok router) (hs : r.station.address = .ok sender)
    (payload : Bytes) (expectsReply : Bool) (id : NodeId) :
    (w.directory.send r (.through recipient router payload expectsReply)).result = .ok () ∧
      w.observed (Event.arrival? id)
          (w.directory.send r (.through recipient router payload expectsReply)).events =
        w.observed (Event.arrival? id) (w.directory.relay r' l.segment recipient
          ((Message.through recipient router payload expectsReply).envelope sender) false) := by
  have honr := h.near.on r h.attends_near
  have hglobal := h.far.isGlobal_eq_false segment
  have hshares : r.station.shares recipient = false := by
    refine Station.shares_eq_false (segment ▸ h.far.segment_ne_here) ?_
    rw [segment, honr.segment]
    exact h.segment_ne.symm
  have hanswers : r.station.answersTo router = true :=
    (h.near.answersTo_onLink_iff h.attends_near h.attends_near hr).mpr rfl
  have hneighbor : w.directory.neighborOn? r.station recipient.segment = some r' := by
    rw [segment]
    exact h.there
  have hsend : w.directory.send r (.through recipient router payload expectsReply) =
      { events := .relayed r.id r'.id r.station.segment recipient
          ((Message.through recipient router payload expectsReply).envelope sender) false ::
        w.directory.relay r' r.station.segment recipient
          ((Message.through recipient router payload expectsReply).envelope sender) false } := by
    simp only [Directory.send, Message.through, hglobal, Bool.false_eq_true, ite_false, hshares,
      Option.filter_some, hanswers, Bool.not_true, Directory.sendAcross, hneighbor, hs,
      Directory.handOver, List.flatMap_singleton]
  refine ⟨by rw [hsend], ?_⟩
  rw [hsend, observed_cons_of_eq_none _ rfl rfl, honr.segment]

/-- A message that a station sends through a router reaches whom the recipient names on the other
link, once each. -/
theorem observed_send (h : w.Crossing k k' l l' r r') (routed : w.directory.Routed)
    (hc : w.Attends k c) {recipient router sender : Address}
    (segment : recipient.segment = l'.segment)
    (hr : Address.onLink r.station.attachment.mac = .ok router) (hs : c.station.address = .ok sender)
    {payload : Bytes} {expectsReply : Bool}
    (fits : c ≠ r → ((Message.through recipient router payload expectsReply).routedHeader.bytes
      ++ payload).length ≤ l.maxFrameLength)
    (lands : ((Message.through recipient router payload expectsReply).landed sender).frame.length ≤
      l'.maxFrameLength) (id : NodeId) :
    (w.directory.send c (.through recipient router payload expectsReply)).result = .ok () ∧
      w.observed (Event.arrival? id)
          (w.directory.send c (.through recipient router payload expectsReply)).events =
        if id ∈ l'.recipients w.isAlive ⟨r'.station.attachment.mac,
          l'.target (((Message.through recipient router payload expectsReply).landed
            sender).transmission recipient false),
          ((Message.through recipient router payload expectsReply).landed sender).frame⟩
        then {(Message.through recipient router payload expectsReply).letter sender
          r'.station.attachment.mac}
        else 0 := by
  obtain ⟨hsegment, -⟩ := h.near.of_address hc hs
  have hrelay := h.far.observed_relay routed h.attends_far
    (.through recipient router payload expectsReply) rfl segment
    (hsegment ▸ h.near.segment_ne_here) (hsegment ▸ h.segment_ne) lands l.segment id
  by_cases ne : c = r
  · subst ne
    obtain ⟨hresult, hobserved⟩ := h.observed_send_own segment hr hs payload expectsReply id
    exact ⟨hresult, hobserved.trans hrelay⟩
  · obtain ⟨hresult, hobserved⟩ := h.observed_send_through routed hc ne segment hr hs (fits ne) id
    exact ⟨hresult, hobserved.trans hrelay⟩

end Crossing

end Wiring

namespace Network

variable {net net' : Network} {k k' : LinkId} {l l' : Link} {r r' c : Member}

/-- Exactly the stations of a link that a recipient names have taken note of an envelope, once. -/
structure Reaches (net net' : Network) (k : LinkId) (l : Link) (recipient : Address) (e : Envelope) :
    Prop where
  /-- Those that the recipient names have taken note of the envelope. -/
  named : ∀ x, net.wiring.Attends k x → l.Names recipient x.station.attachment.mac →
    net'.noted x.id = net.noted x.id ++ [e]
  /-- All others have taken note of nothing. -/
  others : ∀ id, (∀ x, net.wiring.Attends k x → l.Names recipient x.station.attachment.mac →
    x.id ≠ id) → net'.noted id = net.noted id

/-- A node that does not exist has taken note of nothing. -/
theorem noted_of_not_isAlive {id : NodeId} (h : net.isAlive id = false) : net.noted id = [] := by
  rw [isAlive, Option.isSome_eq_false_iff, Option.isNone_iff_eq_none] at h
  rw [noted, h]
  rfl

/-- A message that a station sends through a router reaches whom the recipient names. -/
theorem Ready.settles_send (ready : net.Ready) (crossing : net.wiring.Crossing k k' l l' r r')
    (hc : net.wiring.Attends k c) {recipient router sender : Address}
    (segment : recipient.segment = l'.segment)
    (hr : Address.onLink r.station.attachment.mac = .ok router) (hs : c.station.address = .ok sender)
    {payload : Bytes} {expectsReply : Bool}
    (fits : c ≠ r → ((Message.through recipient router payload expectsReply).routedHeader.bytes
      ++ payload).length ≤ l.maxFrameLength)
    (lands : ((Message.through recipient router payload expectsReply).landed sender).frame.length ≤
      l'.maxFrameLength) :
    (net.send c.id (.through recipient router payload expectsReply)).1 = .ok () ∧
      (net.send c.id (.through recipient router payload expectsReply)).2.Settles fun _ net' =>
        net'.Ready ∧ net'.wiring = net.wiring ∧ Reaches net net' k' l' recipient
          ((Message.through recipient router payload expectsReply).letter sender
            r'.station.attachment.mac) := by
  have hsend := fun id => crossing.observed_send ready.routed.directory hc segment hr hs fits lands id
  rw [send_eq_applyAll hc]
  refine ⟨(hsend 0).1, settles_applyAll ready.routed ready.collects ready.running ?_⟩
  intro rest net' run done
  have hafter := ready.of_linkRun run done
  have hglobal := crossing.far.isGlobal_eq_false segment
  -- A node that exists notes the letter or nothing, as it is a recipient or not.
  have hnoted : ∀ id, net.isAlive id = true → net'.noted id = net.noted id ++
      if id ∈ l'.recipients net.wiring.isAlive ⟨r'.station.attachment.mac,
        l'.target (((Message.through recipient router payload expectsReply).landed
          sender).transmission recipient false),
        ((Message.through recipient router payload expectsReply).landed sender).frame⟩
      then [(Message.through recipient router payload expectsReply).letter sender
        r'.station.attachment.mac]
      else [] := by
    intro id alive
    obtain ⟨new, hnew, hobserved⟩ :=
      noted_of_linkRun ready.routed ready.collects ready.idle run done alive
    have hcount := hobserved.trans (hsend id).2
    rw [hnew]
    congr 1
    split
    · rename_i hid
      rw [if_pos hid] at hcount
      exact Multiset.coe_eq_singleton.mp hcount
    · rename_i hid
      rw [if_neg hid] at hcount
      exact (Multiset.coe_eq_zero _).mp hcount
  refine ⟨hafter.1, hafter.2, ?_, ?_⟩
  · intro x hx hnames
    rw [hnoted x.id (isAlive_of_attends hx), if_pos]
    exact (crossing.far.mem_recipients_target_iff hx hglobal rfl rfl _).mpr hnames
  · intro id hid
    cases halive : net.isAlive id with
    | false =>
      have hnode : net'.node? id = none := by
        rw [isAlive, Option.isSome_eq_false_iff, Option.isNone_iff_eq_none] at halive
        rw [node?_of_linkRun ready.collects run, halive, Option.map_none]
      rw [noted_of_not_isAlive halive, noted_of_not_isAlive]
      rw [isAlive, hnode, Option.isSome_none]
    | true =>
      rw [hnoted id halive, if_neg, List.append_nil]
      intro hmem
      obtain ⟨s, hx⟩ := crossing.far.attends_of_mem_recipients hmem
      exact hid ⟨id, s⟩ hx ((crossing.far.mem_recipients_target_iff hx hglobal rfl rfl _).mp hmem) rfl

/-- A message that a station sends through a router to another segment reaches exactly the
stations there that the recipient names, each of them once, with the address of the sender and the
half of the router it came by. An answer that one of them sends to that address through that half
reaches exactly the first sender. -/
theorem exchange_through_router (ready : net.Ready)
    (crossing : net.wiring.Crossing k k' l l' r r') (hc : net.wiring.Attends k c)
    (single : c.station.attachment.mac ≠ l.broadcastMac) {recipient router sender : Address}
    (segment : recipient.segment = l'.segment)
    (hr : Address.onLink r.station.attachment.mac = .ok router) (hs : c.station.address = .ok sender)
    {payload : Bytes} {expectsReply : Bool}
    (fits : c ≠ r → ((Message.through recipient router payload expectsReply).routedHeader.bytes
      ++ payload).length ≤ l.maxFrameLength)
    (lands : ((Message.through recipient router payload expectsReply).landed sender).frame.length ≤
      l'.maxFrameLength) :
    sender.segment = l.segment ∧ sender.mac = some c.station.attachment.mac ∧
    (net.send c.id (.through recipient router payload expectsReply)).1 = .ok () ∧
    (net.send c.id (.through recipient router payload expectsReply)).2.Settles fun _ net' =>
      Reaches net net' k' l' recipient
        { sender, recipient := none, link := some r'.station.attachment.mac, payload, expectsReply } ∧
      ∀ x, net.wiring.Attends k' x → l'.Names recipient x.station.attachment.mac →
        ∀ (router' sender' : Address) (reply : Bytes),
        Address.onLink r'.station.attachment.mac = .ok router' → x.station.address = .ok sender' →
        (x ≠ r' → ((Message.through sender router' reply false).routedHeader.bytes ++ reply).length ≤
          l'.maxFrameLength) →
        ((Message.through sender router' reply false).landed sender').frame.length ≤
          l.maxFrameLength →
        sender'.segment = l'.segment ∧ sender'.mac = some x.station.attachment.mac ∧
        (net'.send x.id (.through sender router' reply false)).1 = .ok () ∧
        (net'.send x.id (.through sender router' reply false)).2.Settles fun _ net'' =>
          net''.noted c.id = net'.noted c.id ++
            [{ sender := sender', recipient := none, link := some r.station.attachment.mac,
               payload := reply }] ∧
          ∀ id, id ≠ c.id → net''.noted id = net'.noted id := by
  obtain ⟨hsegment, hmac⟩ := crossing.near.of_address hc hs
  obtain ⟨hresult, hsettles⟩ := ready.settles_send crossing hc segment hr hs fits lands
  refine ⟨hsegment, hmac, hresult, hsettles.1, fun events net' run done => ?_⟩
  obtain ⟨hready, hwiring, hreaches⟩ := hsettles.2 events net' run done
  refine ⟨hreaches, fun x hx _ router' sender' reply hr' hs' fits' lands' => ?_⟩
  have hcrossing : net'.wiring.Crossing k' k l' l r' r := hwiring ▸ crossing.symm
  have hx' : net'.wiring.Attends k' x := hwiring ▸ hx
  obtain ⟨hsegment', hmac'⟩ := crossing.far.of_address hx hs'
  obtain ⟨hresult', hsettles'⟩ := hready.settles_send hcrossing hx' hsegment hr' hs' fits' lands'
  refine ⟨hsegment', hmac', hresult', hsettles'.1, fun events' net'' run' done' => ?_⟩
  obtain ⟨-, -, hback⟩ := hsettles'.2 events' net'' run' done'
  -- The first sender is the only station that its address names.
  have hnames : ∀ y, net'.wiring.Attends k y → l.Names sender y.station.attachment.mac → y = c := by
    intro y hy hn
    rcases hn c.station.attachment.mac hmac with hb | he
    · exact absurd hb single
    · exact crossing.near.eq_of_mac_eq (hwiring ▸ hy) hc he.symm
  have hself : l.Names sender c.station.attachment.mac := by
    intro m hm
    rw [hmac] at hm
    exact Or.inr (Option.some.inj hm).symm
  refine ⟨hback.named c (hwiring ▸ hc) hself, fun id hid => hback.others id fun y hy hn => ?_⟩
  rw [hnames y hy hn]
  exact hid.symm

/-- A node of `office`. -/
private def officeNode (link : LinkId) (segment : Segment) (mac : Bytes)
    (routes : List (Segment × NodeId)) : Node where
  station := {
    segment
    attachment := ⟨mac, [mac], [0xFF], some 64⟩
    routes := ⟨segment, ⟨routes⟩, routes.map fun r => some r.1⟩ }
  medium := .tap link {}
  keepsFaults := true
  consumer := some (.collector [])

/-- Two links with two stations each, one of which makes a router with one of the others. -/
def office : Network where
  nodes := [some (officeNode 0 10 [1] []), some (officeNode 0 10 [2] [(20, 2)]),
    some (officeNode 1 20 [2] [(10, 1)]), some (officeNode 1 20 [3] [])]
  links := [⟨10, [0xFF], 64, ⟨[([1], 0), ([2], 1)]⟩, ∅, true⟩,
    ⟨20, [0xFF], 64, ⟨[([2], 2), ([3], 3)]⟩, ∅, true⟩]

/-- An address of `office`. -/
private def officeAddress (segment : Segment) (mac : Bytes) : Address :=
  (Address.of segment (some mac)).toOption.getD Address.everywhere

/-- A station of `office` with the name of its node. -/
private def officeMember (id : NodeId) (segment : Segment) (mac : Bytes)
    (routes : List (Segment × NodeId)) : Member :=
  ⟨id, (officeNode 0 segment mac routes).station⟩

theorem exchange_in_office : ∃ events net',
    LinkRun (office.send 0
      (.through (officeAddress 20 [3]) (officeAddress 0 [2]) [7, 8] true)).2 events net' ∧
    net'.LinksRest ∧ net'.noted 2 = [] ∧ net'.noted 3 = [{
      sender := officeAddress 10 [1]
      recipient := none
      link := some [2]
      payload := [7, 8]
      expectsReply := true }] := by
  have hready : office.Ready := by
    refine ⟨Routed.of_forall_nodes (by decide), ?_, by decide, rfl⟩
    intro id n hn
    rcases id with _ | _ | _ | _ | id <;> cases hn <;> exact ⟨[], rfl⟩
  have hcrossing : office.wiring.Crossing 0 1 ⟨10, [0xFF], 64, ⟨[([1], 0), ([2], 1)]⟩, ∅, true⟩
      ⟨20, [0xFF], 64, ⟨[([2], 2), ([3], 3)]⟩, ∅, true⟩ (officeMember 1 10 [2] [(20, 2)])
      (officeMember 2 20 [2] [(10, 1)]) :=
    ⟨serves_of_forall_nodes rfl (by decide) (by decide) (by decide) (by decide) (by decide),
      serves_of_forall_nodes rfl (by decide) (by decide) (by decide) (by decide) (by decide),
      by decide, ⟨rfl, rfl⟩, ⟨rfl, rfl⟩, rfl, rfl⟩
  have hsender : office.wiring.Attends 0 (officeMember 0 10 [1] []) := ⟨rfl, rfl⟩
  have hsegment : (officeAddress 20 [3]).segment = 20 := rfl
  have hrouter : Address.onLink [2] = .ok (officeAddress 0 [2]) := rfl
  have haddress : (officeMember 0 10 [1] []).station.address = .ok (officeAddress 10 [1]) := rfl
  have hlands : ((Message.through (officeAddress 20 [3]) (officeAddress 0 [2]) [7, 8] true).landed
      (officeAddress 10 [1])).frame.length ≤ 64 := by decide
  have hexchange := exchange_through_router hready hcrossing hsender (by decide) hsegment hrouter
    haddress (fun _ => by decide) hlands
  obtain ⟨-, -, -, ⟨events, net', run, done⟩, hall⟩ := hexchange
  obtain ⟨hreaches, -⟩ := hall events net' run done
  refine ⟨events, net', run, done, ?_, ?_⟩
  · refine (hreaches.others 2 ?_).trans rfl
    rintro ⟨id, s⟩ hx hn rfl
    cases hx.station
    rcases hn [3] rfl with h | h <;> cases h
  · exact hreaches.named (officeMember 3 20 [3] []) ⟨rfl, rfl⟩ (by decide)

end Network

end Fieldbus
