import Fieldbus.Proofs.SplitHorizon
import Fieldbus.Proofs.Waiting

/-!
# Whose announcements stations believe

A station learns the routers that its transport was told of. The node that a router announcement
names as a router is the one that put it onto the station's medium, or its sender. Main statement:
in every history a learned router is the node from which the station heard the announcement, or
the source that the announcement names on the station's own segment, or else the sender of a
broadcast that comes from another segment (`Network.learned_router`). The last case is real
(`Network.learned_from_afar`): a node of another segment has the sub-address then.
-/

namespace Fieldbus

/-- A broadcast to every segment comes from another segment than a given one. -/
inductive Broadcast (past : List Deed) (segment : Segment) (e : Envelope) : Prop
  /-- A station of another segment was made to send it. -/
  | sent {m : Member} {msg : Message} {sender : Address} (sent : .sent m msg ∈ past)
      (everywhere : msg.recipient.isGlobal = true) (address : m.station.address = .ok sender)
      (foreign : m.station.segment ≠ segment) (envelope : e = msg.envelope sender)
  /-- A station heard it from another segment. -/
  | heard {m : Member} {frame origin : Bytes} {header : Header} {dst : Destination}
      (heard : .heard m frame origin ∈ past) (decoded : decode frame = .ok (header, e.payload))
      (destination : header.destination = some dst) (everywhere : dst.segment = Segment.everywhere)
      (message : e.message = header.message)
      (sender : Directory.senderOf header origin = .ok e.sender)
      (foreign : m.station.sourceSegment header ≠ segment)

/-- How an envelope has come to a node on a segment. -/
inductive Told (past : List Deed) (id : NodeId) (segment : Segment) (e : Envelope) : Prop
  /-- The station of the node heard it. -/
  | heard {m : Member} {frame origin : Bytes} {header : Header}
      (heard : .heard m frame origin ∈ past) (node : m.id = id)
      (segment : m.station.segment = segment) (decoded : decode frame = .ok (header, e.payload))
      (message : e.message = header.message)
      (sender : Directory.senderOf header origin = .ok e.sender)
      (link : e.link = if m.station.shares e.sender then none else some origin)
  /-- A neighbor handed it a copy of a broadcast from another segment. -/
  | copied {e' : Envelope} (broadcast : Broadcast past segment e') (link : e.link = none)
      (message : e.message = e'.message) (payload : e.payload = e'.payload)
      (mac : e.sender.mac = e'.sender.mac)

/-- A node on a segment was told that the node `mac` is the router for segment `w`. -/
def Announced (past : List Deed) (id : NodeId) (segment w : Segment) (mac : Bytes) : Prop :=
  ∃ e announcement, Told past id segment e ∧ e.message = some .iAmRouterToNetwork ∧
    RouterAnnouncement.reader.exactly e.payload = .ok announcement ∧ w ∈ announcement.segments ∧
    (e.link <|> e.sender.mac) = some mac

/-- What the transport of a station wants done is known from the history: it learns routers that
were announced to the station, and sends what the history says it was made to send. -/
def Act.Sound (past : List Deed) (m : Member) : Act → Prop
  | .learn mac segments => ∀ w ∈ segments, Announced past m.id m.station.segment w mac
  | .send msg => ∃ m', .sent m' msg ∈ past ∧ m'.station.unlearned = m.station.unlearned
  | _ => True

section

variable {past past' : List Deed} {id : NodeId} {segment w : Segment} {e : Envelope} {mac : Bytes}

theorem Broadcast.mono (h : Broadcast past segment e) (sub : past ⊆ past') :
    Broadcast past' segment e := by
  cases h with
  | sent sent everywhere address foreign envelope =>
    exact .sent (sub sent) everywhere address foreign envelope
  | heard heard decoded destination everywhere message sender foreign =>
    exact .heard (sub heard) decoded destination everywhere message sender foreign

theorem Told.mono (h : Told past id segment e) (sub : past ⊆ past') : Told past' id segment e := by
  cases h with
  | heard heard node segment decoded message sender link =>
    exact .heard (sub heard) node segment decoded message sender link
  | copied broadcast link message payload mac =>
    exact .copied (broadcast.mono sub) link message payload mac

theorem Announced.mono (h : Announced past id segment w mac) (sub : past ⊆ past') :
    Announced past' id segment w mac := by
  obtain ⟨e, announcement, told, h⟩ := h
  exact ⟨e, announcement, told.mono sub, h⟩

end

/-- What is known from the history does not depend on what the station has learned. -/
theorem Act.Sound.of_unlearned_eq {past : List Deed} {id : NodeId} {s s' : Station} {act : Act}
    (h : act.Sound past ⟨id, s⟩) (same : s.unlearned = s'.unlearned) : act.Sound past ⟨id, s'⟩ := by
  cases act with
  | learn mac segments =>
    have hsegment : s.segment = s'.segment := (congrArg Station.segment same :)
    intro w hw
    exact hsegment ▸ h w hw
  | send msg =>
    obtain ⟨m', sent, hm'⟩ := h
    exact ⟨m', sent, hm'.trans same⟩
  | _ => trivial

/-! ## What neighbors are told in a call -/

/-- A sender keeps its sub-address when it leaves its segment. -/
theorem Station.mac_departing {s : Station} (h : s.segment ≠ Segment.everywhere)
    (sender : Address) : (s.departing sender).mac = sender.mac := by
  unfold departing
  split
  · rw [Address.withSegment, dif_neg h]
  · rfl

namespace Call

/-- The call hands on a copy of a broadcast. -/
structure Copies (c : Call) (e : Envelope) : Prop where
  /-- The copy does not come from a medium. -/
  link : c.envelope.link = none
  /-- The copy is of the same kind. -/
  message : c.envelope.message = e.message
  /-- The copy has the same payload. -/
  payload : c.envelope.payload = e.payload
  /-- The copy names the same sub-address. -/
  mac : c.envelope.sender.mac = e.sender.mac

variable {d : Directory} {c c' : Call} {e e' : Envelope} {home : Segment} {id : NodeId}

/-- A station that passes an envelope on hands on copies. -/
theorem Copies.of_copyFrom {m n : Member} (h : m.station.segment ≠ Segment.everywhere)
    (same : e'.message = e.message ∧ e'.payload = e.payload ∧ e'.sender.mac = e.sender.mac)
    (recipient : Address) (left : Nat) :
    Copies ⟨m, n, recipient, e'.copyFrom m.station left, true⟩ e :=
  ⟨rfl, same.1, same.2.1, (Station.mac_departing h _).trans same.2.2⟩

/-- A call that leads away from a segment and hands on a copy leads to calls that do so too. -/
theorem Copies.of_leads (routed : d.Routed) (h : c.Outward d home ∧ c.Copies e)
    (leads : c.Leads d c') : c'.Outward d home ∧ c'.Copies e := by
  induction leads with
  | refl => exact h
  | tail _ hnext ih =>
    obtain ⟨houtward, hcopies⟩ := ih
    obtain ⟨-, -, -, -, left, -, he⟩ := of_mem_next hnext
    have hstation := Directory.apply_of_mem_neighbors houtward.neighbor
    refine ⟨houtward.of_mem_next routed hnext, ?_⟩
    rw [he]
    exact Copies.of_copyFrom (routed.segment_ne hstation)
      ⟨hcopies.message, hcopies.payload, hcopies.mac⟩ _ _

/-- Envelopes arrive in the course of a call only if it is for everybody. -/
theorem isGlobal_of_arrived (h : .arrived id e ∈ c.events d) : c.recipient.isGlobal = true := by
  obtain ⟨c', hleads, h | h⟩ := mem_events_iff.mp h
  · cases h
  · rcases Relation.ReflTransGen.cases_head hleads with rfl | ⟨c'', hnext, -⟩
    · rcases of_mem_own h with ⟨hglobal, -⟩ | h | ⟨fault, h⟩
      · exact hglobal
      · cases h
      · cases h
    · rw [(of_mem_next hnext).1]
      rfl

/-- An envelope that arrives in the course of a call is a copy and has come from elsewhere. -/
theorem exists_copies_of_arrived (routed : d.Routed) (hc : c.Outward d home ∧ c.Copies e)
    (h : .arrived id e' ∈ c.events d) :
    ∃ c' : Call, c'.Outward d home ∧ c'.Copies e ∧ c'.target.id = id ∧ c'.envelope = e' := by
  obtain ⟨c', hleads, h | h⟩ := mem_events_iff.mp h
  · cases h
  · obtain ⟨houtward, hcopies⟩ := Copies.of_leads routed hc hleads
    rcases of_mem_own h with ⟨-, h⟩ | h | ⟨fault, h⟩
    · cases h
      exact ⟨c', houtward, hcopies, rfl, rfl⟩
    · cases h
    · cases h

end Call

namespace Directory

variable {d : Directory} {m : Member} {id : NodeId} {e : Envelope} {past : List Deed}

/-- A node whose neighbor hands it a copy of a broadcast was told that way. -/
private theorem told_of_copies {home : Segment} {c : Call} (h : c.Outward d home)
    (copies : c.Copies e) (broadcast : ∀ segment, home ≠ segment → Broadcast past segment e) :
    ∃ s, d c.target.id = some s ∧ Told past c.target.id s.segment c.envelope :=
  ⟨_, apply_of_mem_neighbors h.neighbor, .copied (broadcast _ h.origin.symm) copies.link
    copies.message copies.payload copies.mac⟩

/-- What reaches nodes when a station sends a message are copies of the message. -/
theorem told_of_arrived_send (routed : d.Routed) (station : d m.id = some m.station)
    {msg : Message} (sound : (Act.send msg).Sound past m)
    (h : .arrived id e ∈ (d.send m msg).events) :
    ∃ s, d id = some s ∧ Told past id s.segment e := by
  obtain ⟨m', sent, same⟩ := sound
  have hsegment : m'.station.segment = m.station.segment := (congrArg Station.segment same :)
  have haddress' : m'.station.address = m.station.address := (congrArg Station.address same :)
  obtain ⟨calls, own, hevents, hcalls, hown⟩ := d.exists_calls_send m msg
  rw [hevents, List.mem_append, List.mem_flatMap] at h
  rcases h with ⟨c, hc, h⟩ | h
  · obtain ⟨sender, n, haddress, hn, rfl⟩ := hcalls c hc
    have everywhere : msg.recipient.isGlobal = true := Call.isGlobal_of_arrived h
    have houtward : (msg.call m sender n).Outward d m.station.segment :=
      outward_call routed station haddress (neighbor_of_mem_called everywhere hn)
    have hcopies : (msg.call m sender n).Copies (msg.envelope sender) := ⟨rfl, rfl, rfl, rfl⟩
    obtain ⟨c', houtward, hcopies, rfl, rfl⟩ :=
      Call.exists_copies_of_arrived routed ⟨houtward, hcopies⟩ h
    exact told_of_copies houtward hcopies fun segment foreign =>
      .sent sent everywhere (haddress'.trans haddress) (hsegment ▸ foreign) rfl
  · obtain ⟨header, router, -, hput⟩ := hown _ h
    cases (Member.mem_put_iff.mp hput).1

/-- The parts of an envelope are those of the header it was read off. -/
theorem exists_header_of_parse {s : Station} {frame origin : Bytes}
    (h : d.parse s frame origin = .ok (some e)) :
    ∃ header, decode frame = .ok (header, e.payload) ∧ recipientOf s header = .ok e.recipient ∧
      senderOf header origin = .ok e.sender ∧ e.message = header.message ∧
      e.link = if s.shares e.sender then none else some origin := by
  obtain ⟨header, payload, recipient, sender, hd, -, hr, hsender, rfl⟩ := of_parse h
  exact ⟨header, hd, hr, hsender, rfl, rfl⟩

/-- What reaches nodes when a station takes in a frame are copies of what is in the frame, unless it
is the station that heard it. -/
theorem told_of_arrived_receive (routed : d.Routed) (station : d m.id = some m.station)
    {frame origin : Bytes} (heard : .heard m frame origin ∈ past)
    (h : .arrived id e ∈ (d.receive m frame origin).events) :
    ∃ s, d id = some s ∧ Told past id s.segment e := by
  obtain ⟨calls, own, hevents, hcalls, hown⟩ := d.exists_calls_receive m frame origin
  rw [hevents, List.mem_flatMap] at h
  rcases h with ⟨c, hc, h⟩ | h
  · obtain ⟨e', he', hc⟩ := hcalls c hc
    obtain ⟨header, hd, hr, hsender, hmessage, -⟩ := exists_header_of_parse he'
    rcases of_mem_onward hc with ⟨hrecipient, hc⟩ | ⟨a, n, -, hsingle, -, rfl⟩
    · rw [hrecipient] at hr
      obtain ⟨dst, hdst, haddress⟩ := destination_of_recipientOf hr
      obtain ⟨left, -, hneighbor, hskipped, hc⟩ := of_mem_copies hc
      have hcopy : c.Outward d (m.station.sourceSegment header) ∧ c.Copies e' := by
        rw [hc]
        exact ⟨Call.Outward.of_copy routed station hneighbor (by simpa using hskipped)
            (Or.inr (Station.segment_departing_senderOf hsender)) _ _,
          Call.Copies.of_copyFrom (routed.segment_ne station) ⟨rfl, rfl, rfl⟩ _ _⟩
      obtain ⟨c', houtward, hcopies, rfl, rfl⟩ := Call.exists_copies_of_arrived routed hcopy h
      exact told_of_copies houtward hcopies fun segment foreign =>
        .heard heard hd hdst (Address.segment_of haddress).symm hmessage hsender foreign
    · cases hsingle.symm.trans (Call.isGlobal_of_arrived h)
  · rcases hown _ h with h | h | ⟨fault, h⟩ | ⟨e', he', h⟩
    · cases h
    · cases h
    · cases h
    · cases h
      obtain ⟨header, hd, -, hsender, hmessage, hlink⟩ := exists_header_of_parse he'
      exact ⟨m.station, station, .heard heard rfl rfl hd hmessage hsender hlink⟩

end Directory

/-- A sub-address that an address has is the one it was made of. -/
theorem Address.eq_of_mac_of {segment : Segment} {mac : Option Bytes} {a : Address} {m : Bytes}
    (h : Address.of segment mac = .ok a) (hm : a.mac = some m) : mac = some m := by
  cases mac with
  | none =>
    cases h
    cases hm
  | some m' =>
    simp only [Address.of] at h
    split at h
    · cases h
      cases hm
    · split at h
      · cases h
        cases hm
      · split at h <;> cases h
        exact hm

/-! ## What transports want done -/

namespace Dispatcher

variable {d : Dispatcher} {mac : Bytes} {segments : List Segment}

/-- A dispatcher that executes a send learns nothing. -/
theorem learn_not_mem_execute (attempt : Message → Except Failure Unit) (now : Nat) (o : Outgoing) :
    .learn mac segments ∉ (d.execute attempt now o).2 := by
  cases o with
  | message msg => simp [execute]
  | request r =>
    simp only [execute, ask]
    split <;> simp

/-- A dispatcher that fails what is overdue learns nothing and sends nothing. -/
theorem exists_resolve_of_mem_sweep {now : Nat} {act : Act} (h : act ∈ (d.sweep now).2) :
    ∃ ticket outcome, act = .resolve ticket outcome := by
  obtain ⟨w, -, rfl⟩ := List.mem_map.mp h
  exact ⟨w.ticket, _, rfl⟩

/-- A dispatcher learns the routers that the envelope announces it dispatches. -/
theorem of_learn_mem_dispatch {e : Envelope} (h : .learn mac segments ∈ (d.dispatch e).2) :
    e.message = some .iAmRouterToNetwork ∧
      RouterAnnouncement.reader.exactly e.payload = .ok ⟨segments⟩ ∧
      (e.link <|> e.sender.mac) = some mac := by
  unfold dispatch at h
  split at h
  · simp at h
  · rename_i hmessage
    unfold learn at h
    split at h
    · rename_i announcement mac' hread hmac
      simp only [List.mem_singleton, Act.learn.injEq] at h
      obtain ⟨rfl, rfl⟩ := h
      exact ⟨hmessage, hread, hmac⟩
    · cases h
  · simp at h
  · split at h
    · simp at h
    · simp [handUp] at h

end Dispatcher

/-- A transport that learns nothing but what was announced does what is known from the history once
that includes what it sends. -/
theorem Act.sound_of_learn {past : List Deed} {m : Member} {acts : List Act}
    (learn : ∀ {mac : Bytes} {segments : List Segment}, .learn mac segments ∈ acts →
      ∀ w ∈ segments, Announced past m.id m.station.segment w mac) :
    ∀ act ∈ acts, act.Sound (acts.filterMap (Act.deed? m) ++ past) m := by
  intro act hact
  cases act with
  | learn mac segments =>
    intro w hw
    exact (learn hact w hw).mono (List.subset_append_right _ _)
  | send msg =>
    exact ⟨m, List.mem_append_left _ (List.mem_filterMap.mpr ⟨_, hact, rfl⟩), rfl⟩
  | _ => trivial

/-- What a transport does with an envelope that has come to its node is known from the history. -/
theorem Told.sound_dispatch {past : List Deed} {m : Member} {d : Dispatcher} {e : Envelope}
    (told : Told past m.id m.station.segment e) :
    ∀ act ∈ (d.dispatch e).2,
      act.Sound ((d.dispatch e).2.filterMap (Act.deed? m) ++ past) m := by
  refine Act.sound_of_learn fun hlearn w hw => ?_
  obtain ⟨hmessage, hread, hmac⟩ := Dispatcher.of_learn_mem_dispatch hlearn
  exact ⟨e, _, told, hmessage, hread, hw, hmac⟩

/-- What a transport does to execute a send is known from the history. -/
theorem Act.sound_execute {past : List Deed} {m : Member} {d : Dispatcher}
    {attempt : Message → Except Failure Unit} {now : Nat} {o : Outgoing} :
    ∀ act ∈ (d.execute attempt now o).2,
      act.Sound ((d.execute attempt now o).2.filterMap (Act.deed? m) ++ past) m :=
  Act.sound_of_learn fun hlearn => absurd hlearn (d.learn_not_mem_execute attempt now o)

namespace Network

/-! ## What stations know -/

/-- Whatever waits in the network and whatever its stations have learned has come to them in the
history. -/
structure Vouched (past : List Deed) (net : Network) : Prop where
  /-- Envelopes wait at nodes that have been added. -/
  added : ∀ {id : NodeId} {e : Envelope}, net.Waits id e → id < net.nodes.length
  /-- Envelopes that wait have come to the node. -/
  told : ∀ {id : NodeId} {e : Envelope} {s : Station}, net.Waits id e →
    net.directory id = some s → Told past id s.segment e
  /-- Routers have been announced to the node. -/
  announced : ∀ {id : NodeId} {s : Station} {w : Segment} {mac : Bytes},
    net.directory id = some s → s.routers.router? w = some mac →
      Announced past id s.segment w mac

namespace Vouched

variable {past past' : List Deed} {net net' : Network} {id : NodeId}

theorem empty : Vouched past {} where
  added := by
    rintro id e (⟨n, hn, -⟩ | ⟨k, p, hp, -⟩)
    · simp [node?] at hn
    · simp [pool?] at hp
  told _ hs := by simp [Network.directory, node?] at hs
  announced hs := by simp [Network.directory, node?] at hs

theorem mono (h : Vouched past net) (sub : past ⊆ past') : Vouched past' net where
  added := h.added
  told hw hs := (h.told hw hs).mono sub
  announced hs hr := (h.announced hs hr).mono sub

/-- Where nothing new waits and stations know no new routers, nothing new has to be told. -/
theorem of_spares (h : Vouched past net) (spares : net.Spares net') : Vouched past net' where
  added hw := Nat.lt_of_lt_of_le (h.added (spares.waits hw)) spares.length_le
  told := by
    intro id e s' hw hs'
    have hwaited := spares.waits hw
    rcases spares.station hs' with ⟨s, hs, hsegment, -⟩ | ⟨hle, -⟩
    · exact hsegment ▸ h.told hwaited hs
    · exact absurd (h.added hwaited) (Nat.not_lt.mpr hle)
  announced := by
    intro id s' w mac hs' hr
    rcases spares.station hs' with ⟨s, hs, hsegment, hrouters⟩ | ⟨-, hrouters⟩
    · rw [hrouters] at hr
      exact hsegment ▸ h.announced hs hr
    · rw [hrouters] at hr
      cases hr

/-- An envelope that has come to a node may wait there. -/
theorem arrived (h : Vouched past net) {e : Envelope} {s : Station}
    (hs : net.directory id = some s) (told : Told past id s.segment e) :
    Vouched past (net.apply (.arrived id e)) where
  added hw := by
    rw [(keepsSetup_apply net _).length_eq]
    rcases of_waits_arrive hw with hw | ⟨rfl, -⟩
    · exact h.added hw
    · exact lt_length_of_directory hs
  told hw hs' := by
    rw [directory_apply] at hs'
    rcases of_waits_arrive hw with hw | ⟨rfl, rfl⟩
    · exact h.told hw hs'
    · cases hs.symm.trans hs'
      exact told
  announced hs' hr := by
    rw [directory_apply] at hs'
    exact h.announced hs' hr

/-- Envelopes that arrive at nodes they have come to. -/
theorem applyAll (h : Vouched past net) {events : List Event}
    (told : ∀ {id : NodeId} {e : Envelope}, .arrived id e ∈ events →
      ∃ s, net.directory id = some s ∧ Told past id s.segment e) :
    Vouched past (net.applyAll events) := by
  induction events generalizing net with
  | nil => exact h
  | cons event rest ih =>
    have hrest : ∀ {id : NodeId} {e : Envelope}, .arrived id e ∈ rest →
        ∃ s, (net.apply event).directory id = some s ∧ Told past id s.segment e := by
      intro id e he
      rw [directory_apply]
      exact told (List.mem_cons_of_mem _ he)
    refine ih ?_ hrest
    by_cases harrived : ∃ id e, event = .arrived id e
    · obtain ⟨id, e, rfl⟩ := harrived
      obtain ⟨s, hs, htold⟩ := told List.mem_cons_self
      exact h.arrived hs htold
    · exact h.of_spares (spares_apply net fun id e he => harrived ⟨id, e, he⟩)

/-- A station that is called makes envelopes arrive only at nodes they have come to. -/
theorem call (h : Vouched past net) {f : Directory → Member → Run}
    (told : ∀ {s : Station} {id' : NodeId} {e : Envelope}, net.directory id = some s →
      .arrived id' e ∈ (f net.directory ⟨id, s⟩).events →
      ∃ s', net.directory id' = some s' ∧ Told past id' s'.segment e) :
    Vouched past (net.call id f).2 := by
  unfold Network.call
  cases hm : net.member? id with
  | none => exact h
  | some m =>
    obtain ⟨s, hs, rfl⟩ := Option.map_eq_some_iff.mp hm
    exact h.applyAll fun he => told hs he

/-- Answers to queries make no envelope arrive. -/
theorem answer (h : Vouched past net) (routed : net.directory.Routed) {e : Envelope} :
    Vouched past (net.answerRouterQuery id e).2 ∧ Vouched past (net.answerSegmentQuery id e).2 := by
  have hnone : ∀ {s : Station} {id' : NodeId} {e' : Envelope}, net.directory id = some s →
      ¬ (.arrived id' e' ∈ (net.directory.answerRouterQuery ⟨id, s⟩ e).events ∨
        .arrived id' e' ∈ (net.directory.answerSegmentQuery ⟨id, s⟩ e).events) := by
    intro s id' e' hs he
    obtain ⟨msg, hput⟩ := Directory.exists_put_of_mem_answer routed hs he
    cases (Member.mem_put_iff.mp hput).1
  exact ⟨h.call fun hs he => absurd (Or.inl he) (hnone hs),
    h.call fun hs he => absurd (Or.inr he) (hnone hs)⟩

/-- A station learns the routers that were announced to it. -/
theorem learn (h : Vouched past net) {mac : Bytes} {segments : List Segment}
    (announced : ∀ {s : Station}, net.directory id = some s →
      ∀ w ∈ segments, Announced past id s.segment w mac) :
    Vouched past (net.learn id mac segments) := by
  have hstation : ∀ {id' : NodeId} {s' : Station},
      (net.learn id mac segments).directory id' = some s' →
      ∃ s, net.directory id' = some s ∧ s'.segment = s.segment ∧
        ∀ {w : Segment} {mac' : Bytes}, s'.routers.router? w = some mac' →
          s.routers.router? w = some mac' ∨ id' = id ∧ w ∈ segments ∧ mac' = mac := by
    intro id' s' hs'
    rw [Network.learn, directory_modifyStation] at hs'
    split at hs'
    · rename_i he
      obtain ⟨s, hs, rfl⟩ := Option.map_eq_some_iff.mp hs'
      refine ⟨s, he ▸ hs, rfl, fun {w mac'} hr => ?_⟩
      rw [Station.learn, RouterTable.router?_learn] at hr
      split at hr
      · rename_i hw
        exact Or.inr ⟨he, hw.1, (Option.some.inj hr).symm⟩
      · exact Or.inl hr
    · exact ⟨s', hs', rfl, Or.inl⟩
  have hwaited : ∀ {id' : NodeId} {e : Envelope}, (net.learn id mac segments).Waits id' e →
      net.Waits id' e := of_waits_modifyNode fun _ _ => List.Subset.refl _
  refine ⟨fun hw => ?_, fun hw hs' => ?_, fun hs' hr => ?_⟩
  · rw [Network.learn, modifyStation, length_nodes_modifyNode]
    exact h.added (hwaited hw)
  · obtain ⟨s, hs, hsegment, -⟩ := hstation hs'
    exact hsegment ▸ h.told (hwaited hw) hs
  · obtain ⟨s, hs, hsegment, hrouters⟩ := hstation hs'
    rw [hsegment]
    rcases hrouters hr with hr | ⟨rfl, hw, rfl⟩
    · exact h.announced hs hr
    · exact announced hs _ hw

/-- What a transport has done, as far as it is known from the history. -/
theorem perform (h : Vouched past net) (routed : net.directory.Routed) {act : Act}
    (sound : ∀ {s : Station}, net.directory id = some s → act.Sound past ⟨id, s⟩) :
    Vouched past (net.perform id act) := by
  cases act with
  | send msg =>
    exact h.call fun hs he => Directory.told_of_arrived_send routed hs (sound hs) he
  | answerRouterQuery e => exact (h.answer routed).1
  | answerSegmentQuery e => exact (h.answer routed).2
  | learn mac segments => exact h.learn sound
  | note e =>
    exact h.of_spares (spares_modifyNode_of_consumer_eq net id (fun _ => rfl) (fun _ => rfl)
      fun _ => rfl)
  | resolve ticket outcome =>
    exact h.of_spares (spares_modifyNode_of_consumer_eq net id (fun _ => rfl) (fun _ => rfl)
      fun _ => rfl)

theorem performAll (h : Vouched past net) (reachable : net.Reachable) {acts : List Act}
    (sound : ∀ act ∈ acts, ∀ {s : Station}, net.directory id = some s → act.Sound past ⟨id, s⟩) :
    Vouched past (net.performAll id acts) := by
  induction acts generalizing net with
  | nil => exact h
  | cons act rest ih =>
    have hfirst := h.perform reachable.routed.directory (sound act List.mem_cons_self)
    refine ih hfirst (reachable.perform id act) fun act' ha s' hs' => ?_
    obtain ⟨s, hs, same⟩ := (keepsSetup_perform id net act).station hs'
    exact (sound act' (List.mem_cons_of_mem _ ha) hs).of_unlearned_eq same.symm

/-- A transport with a worker that does a step after which fewer envelopes wait. -/
theorem stepDedicated (h : Vouched past net) (reachable : net.Reachable)
    {step : Dedicated → Dedicated × List Act}
    (inbox : ∀ t, net.dedicated? id = some t →
      (step t).1.incoming.toList ⊆ t.incoming.toList)
    (sound : ∀ t, net.dedicated? id = some t → ∀ act ∈ (step t).2, ∀ {s : Station},
      net.directory id = some s → act.Sound past ⟨id, s⟩) :
    Vouched past (net.stepDedicated id step) := by
  unfold Network.stepDedicated
  cases transport : net.dedicated? id with
  | none => exact h
  | some t =>
    have hset : net.Spares (net.setConsumer id (some (.dedicated (step t).1))) := by
      refine spares_setConsumer fun n hn => ?_
      obtain ⟨n', hn', hc⟩ := dedicated?_eq_some_iff.mp transport
      cases hn.symm.trans hn'
      rw [Node.inbox, hc]
      exact inbox t transport
    refine (h.of_spares hset).performAll (reachable.setConsumer id _) fun act ha s hs => ?_
    rw [setConsumer, directory_modifyNode] at hs
    · exact sound t transport act ha hs
    · exact fun _ => rfl

end Vouched

/-- A node is found with its station. -/
theorem eq_of_member? {net : Network} {id : NodeId} {m : Member} {s : Station}
    (member : net.member? id = some m) (hs : net.directory id = some s) : m = ⟨id, s⟩ := by
  rw [member?, Directory.member?, hs, Option.map_some] at member
  exact (Option.some.inj member).symm

/-- A transport on a pool that does a job whose envelope has come to its node. -/
theorem Vouched.doTask {past : List Deed} {net : Network} {task : Task} {m : Member}
    {pool : PoolId} {t : Shared} (h : Vouched past net) (reachable : net.Reachable)
    (member : net.member? task.owner = some m) (transport : net.shared? task.owner = some (pool, t))
    (told : ∀ e, task.job = .dispatch e → Told past m.id m.station.segment e) (now : Nat) :
    Vouched ((t.run (net.attempt task.owner) now task.job).2.filterMap (Act.deed? m) ++ past)
      (net.doTask now task) := by
  have hsound : ∀ act ∈ (t.run (net.attempt task.owner) now task.job).2,
      act.Sound ((t.run (net.attempt task.owner) now task.job).2.filterMap (Act.deed? m) ++ past)
        m := by
    cases hjob : task.job with
    | execute o => exact Act.sound_execute
    | dispatch e => exact (told e hjob).sound_dispatch
  have hset : net.Spares (net.setConsumer task.owner
      (some (.shared pool (t.run (net.attempt task.owner) now task.job).1))) :=
    spares_setConsumer fun _ _ => List.nil_subset _
  simp only [Network.doTask, transport]
  refine ((h.mono (List.subset_append_right _ _)).of_spares hset).performAll
    (reachable.setConsumer _ _) fun act ha s hs => ?_
  rw [setConsumer, directory_modifyNode] at hs
  · rw [← eq_of_member? member hs]
    exact hsound act ha
  · exact fun _ => rfl

/-- In every history, what waits and what stations have learned has come to them. -/
theorem Lives.vouched {past : List Deed} {net : Network} (h : Lives past net) :
    Vouched past net := by
  induction h with
  | empty => exact .empty
  | uses _ uses ih => exact ih.of_spares uses.spares
  | sends h member msg ih =>
    refine (ih.mono (List.subset_cons_self _ _)).call fun hs he => ?_
    rw [eq_of_member? member hs] at *
    exact Directory.told_of_arrived_send h.reachable.routed.directory hs
      ⟨_, List.mem_cons_self, rfl⟩ he
  | answersRouterQuery h id query ih => exact (ih.answer h.reachable.routed.directory).1
  | answersSegmentQuery h id query ih => exact (ih.answer h.reachable.routed.directory).2
  | receives h member frame origin ih =>
    refine (ih.mono (List.subset_cons_self _ _)).call fun hs he => ?_
    rw [eq_of_member? member hs] at *
    exact Directory.told_of_arrived_receive h.reachable.routed.directory hs List.mem_cons_self he
  | @handsOut past net k l f queue order h link pop recipients ih =>
    refine ((ih.mono (List.subset_append_right _ _)).of_spares (spares_modifyLink _ _ _)).applyAll
      fun he => ?_
    obtain ⟨id, hid, he⟩ := List.mem_flatMap.mp he
    rcases List.mem_cons.mp he with he | he
    · cases he
    · cases member : net.member? id with
      | none =>
        rw [show net.directory.member? id = none from member] at he
        cases he
      | some m =>
        rw [show net.directory.member? id = some m from member] at he
        obtain ⟨s, hs, rfl⟩ := Option.map_eq_some_iff.mp member
        have hheard : Deed.heard ⟨id, s⟩ f.data f.origin ∈
            (order.filterMap net.member?).map (.heard · f.data f.origin) ++ past :=
          List.mem_append_left _ (List.mem_map_of_mem
            (List.mem_filterMap.mpr ⟨id, hid, member⟩))
        have htold := Directory.told_of_arrived_receive h.reachable.routed.directory hs hheard he
        exact htold
  | @executes past net id m t h member transport now ih =>
    refine (ih.mono (List.subset_append_right _ _)).stepDedicated h.reachable (fun t' _ => ?_)
      fun t' ht' act ha s hs => ?_
    · unfold Dedicated.executeNext
      split <;> exact List.Subset.refl _
    · cases transport.symm.trans ht'
      rw [← eq_of_member? member hs]
      revert act
      unfold Dedicated.executeNext
      split
      · exact fun act ha => absurd ha List.not_mem_nil
      · exact Act.sound_execute
  | @dispatches past net id m t h member transport ih =>
    refine (ih.mono (List.subset_append_right _ _)).stepDedicated h.reachable (fun t' _ => ?_)
      fun t' ht' act ha s hs => ?_
    · unfold Dedicated.dispatchNext
      split
      · exact List.Subset.refl _
      · rename_i e incoming hpop
        rw [Mailbox.pop_eq_some_iff.mp hpop]
        exact List.subset_cons_self _ _
    · cases transport.symm.trans ht'
      have htold : ∀ e ∈ t.incoming.toList, Told past id s.segment e := by
        obtain ⟨n, hn, hc⟩ := dedicated?_eq_some_iff.mp transport
        intro e he
        refine ih.told (Or.inl ⟨n, hn, ?_⟩) hs
        rw [Node.inbox, hc]
        exact he
      rw [eq_of_member? member hs]
      revert act
      unfold Dedicated.dispatchNext
      split
      · exact fun act ha => absurd ha List.not_mem_nil
      · rename_i e incoming hpop
        refine Told.sound_dispatch (htold e ?_)
        rw [Mailbox.pop_eq_some_iff.mp hpop]
        exact List.mem_cons_self
  | sweeps h id now ih =>
    refine ih.stepDedicated h.reachable (fun t' _ => List.Subset.refl _)
      fun t' ht' act ha s hs => ?_
    obtain ⟨ticket, outcome, rfl⟩ := Dispatcher.exists_resolve_of_mem_sweep ha
    trivial
  | @runs past net k pool p before after task m t h hp tasks member transport now ih =>
    refine (ih.of_spares (spares_removeTask hp tasks)).doTask (h.reachable.modifyPool _ _) member
      transport (fun e hjob => ?_) now
    obtain ⟨s, hs, rfl⟩ := Option.map_eq_some_iff.mp member
    refine ih.told (Or.inr ⟨k, p, hp, ?_⟩) hs
    rw [Pool.Holds, tasks, ← hjob]
    exact List.mem_append_right _ List.mem_cons_self
  | discards h hp tasks ih => exact ih.of_spares (spares_removeTask hp tasks)
  | @expires past net id pool t h transport now ih =>
    have hset : net.Spares (net.setConsumer id (some (.shared pool (t.sweep now).1))) :=
      spares_setConsumer fun _ _ => List.nil_subset _
    refine ih.of_spares (hset.trans (spares_performAll_resolve _ id fun act ha => ?_))
    exact Dispatcher.exists_resolve_of_mem_sweep ha

/-! ## Which nodes are taken for routers -/

/-- In every history, a router that a station has learned for a segment was announced as follows:
it is the node that put the announcement onto the station's medium, or the source that the
announcement names on the station's segment, or the sender of a broadcast that came from another
segment. -/
theorem learned_router {past : List Deed} {net : Network} {id : NodeId} {s : Station}
    {w : Segment} {mac : Bytes} (lives : Lives past net) (hs : net.directory id = some s)
    (hr : s.routers.router? w = some mac) :
    ∃ payload announcement, RouterAnnouncement.reader.exactly payload = .ok announcement ∧
      w ∈ announcement.segments ∧
      ((∃ m frame header, .heard m frame mac ∈ past ∧ m.id = id ∧
          decode frame = .ok (header, payload) ∧ header.message = some .iAmRouterToNetwork) ∨
        (∃ m frame origin header source, .heard m frame origin ∈ past ∧ m.id = id ∧
          decode frame = .ok (header, payload) ∧ header.message = some .iAmRouterToNetwork ∧
          header.source = some source ∧ source.mac = some mac ∧
          (source.segment = Segment.here ∨ source.segment = s.segment)) ∨
        ∃ e : Envelope, Broadcast past s.segment e ∧ e.message = some .iAmRouterToNetwork ∧
          e.payload = payload ∧ e.sender.mac = some mac) := by
  obtain ⟨e, announcement, told, hmessage, hread, hw, hmac⟩ := lives.vouched.announced hs hr
  refine ⟨e.payload, announcement, hread, hw, ?_⟩
  cases told with
  | copied broadcast link message payload sender =>
    rw [link] at hmac
    exact Or.inr (Or.inr ⟨_, broadcast, message ▸ hmessage, payload.symm, sender ▸ hmac⟩)
  | @heard m frame origin header heard node segment decoded message sender link =>
    rw [message] at hmessage
    by_cases shares : m.station.shares e.sender = true
    · rw [link, if_pos shares] at hmac
      have hmac : e.sender.mac = some mac := hmac
      unfold Directory.senderOf at sender
      cases hsource : header.source with
      | none =>
        rw [hsource] at sender
        have horigin : origin = mac := Option.some.inj (Address.eq_of_mac_of sender hmac)
        exact Or.inl ⟨m, frame, header, horigin ▸ heard, node, decoded, hmessage⟩
      | some source =>
        rw [hsource] at sender
        refine Or.inr (Or.inl ⟨m, frame, origin, header, source, heard, node, decoded, hmessage,
          hsource, Address.eq_of_mac_of sender hmac, ?_⟩)
        rw [← Address.segment_of sender, ← segment]
        simpa [Station.shares, Address.isHere] using shares
    · rw [link, if_neg shares] at hmac
      cases hmac
      exact Or.inl ⟨m, frame, header, heard, node, decoded, hmessage⟩

/-- The frame in which node three of segment one tells everybody that it routes to segment five. -/
private def rumorFrame : Bytes := [1, 0xA0, 0xff, 0xff, 0, 255, 1, 0, 5]

/-- The router of `pair` has heard the frame, and the transport of its neighbor, which has heard
nothing, has been at work. -/
def rumor : Network :=
  let attended := (pair.replaceConsumer 1 (some (.dedicated (Application.recorder false))))
  let started := attended.startTransport 1
  (started.receive 0 rumorFrame [3]).2.stepDedicated 1 Dedicated.dispatchNext

/-- What the neighbor knows of the way to segment five. -/
private def rumorStation : Station where
  segment := 2
  attachment := wireAttachment [2] none
  routes := { home := 2 }
  routers := ⟨⟨[(5, [3])]⟩⟩

private theorem lives_rumor : Lives [.heard pairRouter rumorFrame [3]] rumor := by
  have hattended := lives_pair.uses
    (.replaceConsumer 1 (some (.dedicated (Application.recorder false))))
  have hstarted := hattended.uses (.startTransport 1)
  have hheard := hstarted.receives (rfl : Network.member? _ 0 = some pairRouter) rumorFrame [3]
  exact hheard.dispatches (rfl : Network.member? _ 1 = some _)
    (rfl : Network.dedicated? _ 1 = some _)

theorem learned_router_rumor : ∃ e : Envelope,
    Broadcast [.heard pairRouter rumorFrame [3]] 2 e ∧ e.sender.mac = some [3] := by
  have hstation : rumor.directory 1 = some rumorStation := rfl
  have hrouter : rumorStation.routers.router? 5 = some [3] := rfl
  obtain ⟨payload, announcement, -, -, ⟨m, frame, header, hheard, hid, -⟩ |
    ⟨m, frame, origin, header, source, hheard, hid, -⟩ | ⟨e, hbroadcast, -, -, hmac⟩⟩ :=
    learned_router lives_rumor hstation hrouter
  · cases List.mem_singleton.mp hheard
    cases hid
  · cases List.mem_singleton.mp hheard
    cases hid
  · exact ⟨e, hbroadcast, hmac⟩

/-- The neighbor of `rumor` takes node three of its own segment for the router to segment five, but
nothing was heard on its segment: node three of the other segment has announced it. -/
theorem learned_from_afar :
    Lives [.heard pairRouter rumorFrame [3]] rumor ∧ pairRouter.id = 0 ∧
      pairRouter.station.segment = 1 ∧ ∃ s, rumor.directory 1 = some s ∧ s.segment = 2 ∧
        s.routers.router? 5 = some [3] ∧ s.routerFor 5 = some (Address.onLink [3]) :=
  ⟨lives_rumor, rfl, rfl, rumorStation, rfl, rfl, rfl, rfl⟩

end Network

end Fieldbus
