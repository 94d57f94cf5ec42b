import Fieldbus.Proofs.Balance
import Fieldbus.Proofs.Bodies
import Fieldbus.Proofs.SplitHorizon
import Fieldbus.Proofs.Surveys

/-!
# Queries for the number of a segment

A station tells the number of its segment to the nodes of that segment only. That a query crossed a
router shows in nothing but the segment of its sender, which every station that hands an envelope on
must therefore put in. Main statements: whatever is handed on names the segment of its sender, in
every call and as it is read from a medium (`Scene.Relays.sender`), so that nobody answers such a
query, whereas a query from the own segment is answered with one announcement
(`Network.tells_number_at_home`).
-/

namespace Fieldbus

/-- A sender that leaves a segment whose number is known is not on segment zero any more. -/
theorem Station.isHere_departing {s : Station} (known : s.segment ≠ Segment.here)
    (sender : Address) : (s.departing sender).isHere = false := by
  rw [Address.isHere, beq_eq_false_iff_ne, Station.segment_departing]
  split
  · exact known
  · assumption

/-! ## What is handed on -/

/-- Every station that has routes is on a segment whose number is known. -/
def Directory.Numbered (d : Directory) : Prop :=
  ∀ id s, d id = some s → (∃ segment target, s.routes.neighbors.get? segment = some target) →
    s.segment ≠ Segment.here

namespace Directory.Numbered

variable {d : Directory} {id : NodeId} {s : Station} {n : Member}

theorem of_neighborOn? (numbered : d.Numbered) (hs : d id = some s) {segment : Segment}
    (hn : d.neighborOn? s segment = some n) : s.segment ≠ Segment.here :=
  numbered id s hs ⟨segment, n.id, (neighborOn?_eq_some_iff.mp hn).1⟩

theorem of_mem_neighbors (numbered : d.Numbered) (hs : d id = some s) (hn : n ∈ d.neighbors s) :
    s.segment ≠ Segment.here := by
  obtain ⟨segment, -, hn⟩ := mem_neighbors_iff.mp hn
  exact numbered.of_neighborOn? hs hn

end Directory.Numbered

/-- A neighbor of the directory is handed an envelope that names the segment of its sender. -/
structure Call.Named (d : Directory) (c : Call) : Prop where
  /-- The neighbor is a station of the directory. -/
  station : d c.target.id = some c.target.station
  /-- The sender is not on segment zero. -/
  sender : c.envelope.sender.isHere = false

namespace Call

variable {d : Directory} {c c' : Call} {m : Member}

/-- A copy of a global broadcast names the segment of its sender. -/
theorem named_of_mem_copies (numbered : d.Numbered) (station : d m.id = some m.station)
    {hops : Nat} {e : Envelope} {skip : List Segment} (h : c ∈ d.copies hops m e skip) :
    c.Named d := by
  obtain ⟨left, -, hneighbor, -, hc⟩ := Directory.of_mem_copies h
  rw [hc]
  exact ⟨Directory.apply_of_mem_neighbors hneighbor,
    Station.isHere_departing (numbered.of_mem_neighbors station hneighbor) e.sender⟩

/-- A call that a neighbor makes in turn names the segment of the sender, whatever the neighbor was
handed itself. -/
theorem named_of_mem_next (numbered : d.Numbered) (station : d c.target.id = some c.target.station)
    (h : c' ∈ c.next d) : c'.Named d := by
  unfold next at h
  split at h
  · cases h
  · exact named_of_mem_copies numbered station h

/-- What a call leads to names the segment of the sender if the call does. -/
theorem Named.of_leads (named : c.Named d) (numbered : d.Numbered) (h : c.Leads d c') :
    c'.Named d := by
  induction h with
  | refl => exact named
  | tail _ hnext ih => exact named_of_mem_next numbered ih.station hnext

section

variable {source target : NodeId} {ingress : Segment} {recipient : Address} {e : Envelope}
  {broadcast : Bool}

/-- What is handed on in the course of calls that name the segment of the sender does so too. -/
theorem sender_of_relayed (numbered : d.Numbered) {calls : List Call}
    (named : ∀ c ∈ calls, c.Named d)
    (h : .relayed source target ingress recipient e broadcast ∈ calls.flatMap (events d)) :
    e.sender.isHere = false := by
  obtain ⟨c, hc, h⟩ := List.mem_flatMap.mp h
  obtain ⟨c', hleads, h | h⟩ := mem_events_iff.mp h
  · cases h
    exact ((named c hc).of_leads numbered hleads).sender
  · rcases of_mem_own h with ⟨-, h⟩ | h | ⟨fault, h⟩ <;> cases h

end

end Call

namespace Directory

variable {d : Directory} {m : Member} {source target : NodeId} {ingress : Segment}
  {recipient : Address} {e : Envelope} {broadcast : Bool}

/-- A message is handed on under the segment of the station that sends it. -/
theorem sender_of_relayed_send (numbered : d.Numbered) (station : d m.id = some m.station)
    {msg : Message}
    (h : .relayed source target ingress recipient e broadcast ∈ (d.send m msg).events) :
    e.sender.isHere = false := by
  obtain ⟨calls, own, hevents, hcalls, hown⟩ := d.exists_calls_send m msg
  rw [hevents, List.mem_append] at h
  rcases h with h | h
  · refine Call.sender_of_relayed numbered (fun c hc => ?_) h
    obtain ⟨sender, n, haddress, hn, rfl⟩ := hcalls c hc
    obtain ⟨segment, hn⟩ := exists_route_of_mem_called hn
    refine ⟨(neighborOn?_eq_some_iff.mp hn).2, beq_eq_false_iff_ne.mpr ?_⟩
    have hsegment : sender.segment = m.station.segment := Address.segment_of haddress
    exact hsegment.trans_ne (numbered.of_neighborOn? station hn)
  · obtain ⟨header, router, -, hput⟩ := hown _ h
    cases (Member.mem_put_iff.mp hput).1

/-- What is in a frame is handed on under the segment that the frame names or was read on. -/
theorem sender_of_relayed_receive (numbered : d.Numbered) (station : d m.id = some m.station)
    {frame origin : Bytes}
    (h : .relayed source target ingress recipient e broadcast ∈
      (d.receive m frame origin).events) : e.sender.isHere = false := by
  obtain ⟨calls, own, hevents, hcalls, hown⟩ := d.exists_calls_receive m frame origin
  rcases (hevents _).mp h with h | h
  · refine Call.sender_of_relayed numbered (fun c hc => ?_) h
    obtain ⟨e', -, hc⟩ := hcalls c hc
    rcases of_mem_onward hc with ⟨-, hc⟩ | ⟨a, n, -, -, hn, rfl⟩
    · exact Call.named_of_mem_copies numbered station hc
    · exact ⟨(neighborOn?_eq_some_iff.mp hn).2,
        Station.isHere_departing (numbered.of_neighborOn? station hn) e'.sender⟩
  · rcases hown _ h with h | h | ⟨fault, h⟩ | ⟨e', -, h⟩ <;> cases h

/-- What a neighbor hands a station is handed on under some segment. -/
theorem sender_of_relayed_relay (numbered : d.Numbered) (station : d m.id = some m.station)
    {ingress' : Segment} {recipient' : Address} {e' : Envelope} {broadcast' : Bool}
    (h : .relayed source target ingress recipient e broadcast ∈
      d.relay m ingress' recipient' e' broadcast') : e.sender.isHere = false := by
  -- What the station is handed may come from segment zero, so only the calls it makes itself count.
  let c := m.calledFrom ingress' recipient' e' broadcast'
  have hrelay : d.relay m ingress' recipient' e' broadcast' =
      (c.next d).flatMap (Call.events d) ++ c.own := (List.cons.inj (c.events_eq d)).2
  rw [hrelay, List.mem_append] at h
  rcases h with h | h
  · exact Call.sender_of_relayed numbered
      (fun _ hc' => Call.named_of_mem_next numbered (c := c) station hc') h
  · rcases Call.of_mem_own h with ⟨-, h⟩ | h | ⟨fault, h⟩ <;> cases h

/-- Whatever a station is made to do, what is handed on meanwhile names the segment of its sender. -/
theorem sender_of_relayed_run (numbered : d.Numbered) (station : d m.id = some m.station)
    {summons : Summons}
    (h : .relayed source target ingress recipient e broadcast ∈ (summons.run d m).events) :
    e.sender.isHere = false := by
  cases hincoming : summons.isIncoming with
  | false =>
    rcases events_of_not_isIncoming (d := d) (m := m) hincoming with hnone | ⟨msg, hsend⟩
    · rw [hnone] at h
      cases h
    · exact sender_of_relayed_send numbered station (hsend ▸ h)
  | true =>
    cases summons with
    | receive frame origin => exact sender_of_relayed_receive numbered station h
    | relay ingress' recipient' e' broadcast' => exact sender_of_relayed_relay numbered station h
    | _ => cases hincoming

end Directory

/-- Copies that stations hand on in a scene, as they are dispatched. -/
inductive Scene.Relays (s : Scene) : Envelope → Prop
  /-- A neighbor is handed a copy. -/
  | handed {source target : NodeId} {ingress : Segment} {recipient : Address} {e : Envelope}
      {broadcast : Bool} (h : .relayed source target ingress recipient e broadcast ∈ s.events) :
      Relays s e
  /-- A copy arrives at a node in the course of the call in which a neighbor is handed one. -/
  | arrived {source target id : NodeId} {ingress : Segment} {recipient : Address}
      {e e' : Envelope} {broadcast : Bool} {n : Member}
      (h : .relayed source target ingress recipient e broadcast ∈ s.events)
      (neighbor : s.net.member? target = some n)
      (arrived : .arrived id e' ∈ s.net.directory.relay n ingress recipient e broadcast) :
      Relays s e'
  /-- A copy is put onto a medium in the course of that call, and some station reads it there,
  whenever that is. -/
  | read {source target id : NodeId} {ingress : Segment} {recipient : Address}
      {e e' : Envelope} {broadcast : Bool} {n : Member} {t : Transmission}
      (h : .relayed source target ingress recipient e broadcast ∈ s.events)
      (neighbor : s.net.member? target = some n)
      (transmitted : .transmitted id t ∈ s.net.directory.relay n ingress recipient e broadcast)
      (d : Directory) (reader : Station) (origin : Bytes)
      (he' : d.parse reader t.frame origin = .ok (some e')) : Relays s e'

/-- What is written onto a medium with the segment of its sender is read so. -/
theorem Envelope.sender_of_parse_landing {s : Station} {e e' : Envelope}
    (named : e.sender.isHere = false) {d : Directory} {reader : Station} {origin : Bytes}
    (h : d.parse reader (s.landing e).frame origin = .ok (some e')) : e'.sender = e.sender := by
  obtain ⟨header, payload, recipient, sender, hd, -, -, hsender, rfl⟩ := Directory.of_parse h
  obtain ⟨message, rfl, -⟩ := exists_message_of_decode (s.landing e).header_fits hd
  have hread : Directory.senderOf { (s.landing e).header.asRead with message } origin =
      .ok e.sender := s.senderOf_landing named origin
  exact Except.ok.inj (hsender.symm.trans hread)

namespace Scene

variable {s : Scene} {e : Envelope}

/-- Whatever happens in the course of a call in which a neighbor is handed something is such a call
itself, or the neighbor that is called does it, and the call names the segment of the sender. -/
theorem exists_named (station : s.net.directory s.member.id = some s.member.station)
    (numbered : s.net.directory.Numbered) {source target : NodeId} {ingress : Segment}
    {recipient : Address} {broadcast : Bool} {n : Member} {event : Event}
    (h : .relayed source target ingress recipient e broadcast ∈ s.events)
    (neighbor : s.net.member? target = some n)
    (hevent : event ∈ s.net.directory.relay n ingress recipient e broadcast) :
    ∃ c : Call, c.Named s.net.directory ∧ (event = c.event ∨ event ∈ c.own) := by
  obtain ⟨station', hstation', rfl⟩ := Option.map_eq_some_iff.mp neighbor
  let c := Member.calledFrom ⟨target, station'⟩ ingress recipient e broadcast
  have hnamed : c.Named s.net.directory :=
    ⟨hstation', Directory.sender_of_relayed_run numbered station h⟩
  have hcall : event ∈ c.events s.net.directory := List.mem_cons_of_mem _ hevent
  obtain ⟨c', hleads, hc'⟩ := Call.mem_events_iff.mp hcall
  exact ⟨c', hnamed.of_leads numbered hleads, hc'⟩

/-- Whatever is handed on names the segment of its sender, if stations that have routes know theirs. -/
theorem Relays.sender (station : s.net.directory s.member.id = some s.member.station)
    (numbered : s.net.directory.Numbered) (relays : s.Relays e) : e.sender.isHere = false := by
  cases relays with
  | handed h => exact Directory.sender_of_relayed_run numbered station h
  | arrived h neighbor arrived =>
    obtain ⟨c, hnamed, h | h⟩ := exists_named station numbered h neighbor arrived
    · cases h
    · rcases Call.of_mem_own h with ⟨-, h⟩ | h | ⟨fault, h⟩ <;> cases h
      exact hnamed.sender
  | read h neighbor transmitted d reader origin he' =>
    obtain ⟨c, hnamed, h | h⟩ := exists_named station numbered h neighbor transmitted
    · cases h
    · obtain ⟨-, hframe⟩ := Call.of_transmitted_mem_own h
      rw [hframe] at he'
      rw [Envelope.sender_of_parse_landing hnamed.sender he']
      exact hnamed.sender

end Scene

/-! ## What is asked at home -/

/-- The frame asks the nodes of the segment that it is read on for the number of the segment. -/
def AsksNumber (frame : Bytes) : Prop :=
  ∃ header payload, decode frame = .ok (header, payload) ∧ header.destination = none ∧
    header.source = none ∧ header.message = some .whatIsNetworkNumber

/-- The transmission tells everybody on the own segment of a station that the number of the segment is
known to be this. -/
structure Transmission.TellsNumber (t : Transmission) (everyone : Address) (segment : Segment) :
    Prop where
  recipient : t.recipient = everyone
  router : t.router = none
  broadcast : t.broadcast = true
  /-- The frame says that the number was configured. -/
  frame : ∃ header body, decode t.frame = .ok (header, body) ∧ header.source = none ∧
    header.destination = none ∧ header.message = some .networkNumberIs ∧
    SegmentAnnouncement.reader.exactly body = .ok ⟨segment, true⟩

/-- The announcement of a segment's number is read as it was written. -/
theorem Message.decode_segmentAnnouncement (everyone : Address) (segment : Segment) :
    decode ((segmentAnnouncement everyone segment).header.bytes ++
        (segmentAnnouncement everyone segment).payload) =
      .ok ((segmentAnnouncement everyone segment).header, SegmentAnnouncement.bytes ⟨segment, true⟩) :=
  decode_header_of_kind rfl trivial rfl

namespace Directory

variable {d : Directory} {m : Member} {frame origin : Bytes}

/-- What a query is taken apart into: it is for the segment, and from the node that put it there. -/
theorem exists_header_of_asksNumber (asks : AsksNumber frame) (s : Station) (origin : Bytes) :
    ∃ header payload, decode frame = .ok (header, payload) ∧ d.ignores s header = false ∧
      recipientOf s header = .ok none ∧ senderOf header origin = Address.onLink origin ∧
      header.message = some .whatIsNetworkNumber := by
  obtain ⟨header, payload, hd, hdestination, hsource, hmessage⟩ := asks
  refine ⟨header, payload, hd, ?_, ?_, ?_, hmessage⟩
  · rw [ignores, hdestination]
  · rw [recipientOf, hdestination]
  · rw [senderOf, hsource]

/-- A query from another node of the segment is kept. -/
theorem receive_of_asksNumber (active : m.station.terminated = false) (asks : AsksNumber frame)
    (ne : origin ≠ []) (foreign : origin ∉ m.station.attachment.macs)
    (short : origin.length ≤ maxMacLength) :
    ∃ e : Envelope, d.receive m frame origin = { events := [.received m.id, .arrived m.id e] } ∧
      e.sender.isHere = true ∧ e.message = some .whatIsNetworkNumber := by
  obtain ⟨header, payload, hd, hi, hr, hs, hmessage⟩ :=
    exists_header_of_asksNumber (d := d) asks m.station origin
  obtain ⟨sender, hof⟩ := Address.of_eq_ok Segment.here (some origin) (by simpa using short)
  have hhere : sender.isHere = true := by
    rw [Address.isHere, Address.segment_of hof]
    rfl
  have hother : m.station.answersTo sender = false := by
    have hmac : sender.mac = some origin := Address.mac_of hof (by decide) (by simpa using ne)
    refine eq_false_of_ne_true fun hanswers => foreign ?_
    exact (Station.answersTo_of_isHere hhere).mp hanswers origin hmac
  obtain ⟨e, hparse, hsender, hrecipient, -⟩ := exists_parse_eq hd hi hr (hs.trans hof)
  have hown : isOwn m.station e origin = false := by
    rw [isOwn, hsender, hrecipient, hother]
    rfl
  refine ⟨e, ?_, hsender ▸ hhere, ?_⟩
  · simp only [receive, active, hparse, route, hown, hrecipient, Option.filter_none,
      Bool.false_eq_true, ite_false]
  · obtain ⟨header', payload', _, _, hd', -, -, -, rfl⟩ := of_parse hparse
    cases hd.symm.trans hd'
    exact hmessage

/-- The handling of a query breaks off if the node that asks has too long a sub-address. -/
theorem events_receive_of_overlong (active : m.station.terminated = false)
    (asks : AsksNumber frame) (overlong : maxMacLength < origin.length) :
    (d.receive m frame origin).events = [.received m.id] := by
  obtain ⟨header, payload, hd, hi, hr, hs, -⟩ :=
    exists_header_of_asksNumber (d := d) asks m.station origin
  have hlong : Address.onLink origin = .error ⟨origin.length⟩ :=
    Address.of_eq_error_iff.mpr ⟨origin, rfl, by decide, overlong, rfl⟩
  have hparse : d.parse m.station frame origin = .error (.overlong ⟨origin.length⟩) := by
    unfold parse
    simp only [hd, Except.mapError, bind, Except.bind, hi, hr, hs, hlong]
    rfl
  simp only [receive, active, hparse, Bool.false_eq_true, ite_false]
  rfl

/-- A station that knows the number of its segment announces it to a node of the segment. -/
theorem answerSegmentQuery_of_isHere (known : m.station.segment ≠ Segment.here) {e : Envelope}
    (here : e.sender.isHere = true) : d.answerSegmentQuery m e =
      d.announce m fun everyone => .segmentAnnouncement everyone m.station.segment := by
  rw [answerSegmentQuery, here, if_neg]
  simpa using known

/-- A query that names the segment of its sender is not answered. -/
theorem answerSegmentQuery_of_not_isHere {e : Envelope} (named : e.sender.isHere = false) :
    d.answerSegmentQuery m e = {} := by
  rw [answerSegmentQuery, named, if_pos]
  simp

end Directory

/-- A query for the number of a segment is left to the station. -/
theorem Dispatcher.dispatch_of_asksNumber (transport : Dispatcher) {e : Envelope}
    (asks : e.message = some .whatIsNetworkNumber) :
    transport.dispatch e = (transport, [.answerSegmentQuery e]) := by
  rw [dispatch, asks]

namespace Network

variable {net : Network} {id : NodeId} {m : Member} {e : Envelope} {frame origin : Bytes}

/-- What becomes of a network when the transport of a node dispatches an envelope. -/
def dispatching (net : Network) (id : NodeId) (transport : Dispatcher) (e : Envelope) : Network :=
  net.performAll id (transport.dispatch e).2

theorem dispatching_of_asksNumber (asks : e.message = some .whatIsNetworkNumber)
    (transport : Dispatcher) :
    net.dispatching id transport e = (net.answerSegmentQuery id e).2 := by
  rw [dispatching, transport.dispatch_of_asksNumber asks]
  rfl

/-- A station that can tell the number of its segment is handed a query for it, which another node
put onto the segment. -/
structure Questioned (net : Network) (id : NodeId) (m : Member) (frame origin : Bytes) :
    Prop where
  member : net.member? id = some m
  /-- The number of the segment is known. -/
  known : m.station.segment ≠ Segment.here
  asks : AsksNumber frame
  ne_nil : origin ≠ []
  /-- The node that asks is another one. -/
  foreign : origin ∉ m.station.attachment.macs

/-- When a query is dispatched, the medium is handed one announcement of the number, and nothing else
comes of the query. Nothing at all comes of it if the medium has too long a sub-address for
everybody. -/
def Tells (net : Network) (id : NodeId) (m : Member) (e : Envelope) : Prop :=
  (∀ everyone, m.station.broadcastAddress = .ok everyone →
    ∃ t : Transmission, t.TellsNumber everyone m.station.segment ∧
      ∀ transport, net.dispatching id transport e = (net.offer id t).2) ∧
  ∀ overlong, m.station.broadcastAddress = .error overlong →
    ∀ transport, net.dispatching id transport e = net

theorem Reachable.tells (reachable : net.Reachable) (hm : net.member? id = some m)
    (known : m.station.segment ≠ Segment.here) (here : e.sender.isHere = true)
    (asks : e.message = some .whatIsNetworkNumber) : net.Tells id m e := by
  obtain ⟨s, hs, rfl⟩ := Option.map_eq_some_iff.mp hm
  have hanswer := Directory.answerSegmentQuery_of_isHere (d := net.directory) known here
  constructor
  · intro everyone heveryone
    rw [Directory.announce_eq_put reachable.routed.directory hs heveryone rfl rfl] at hanswer
    let msg := Message.segmentAnnouncement everyone s.segment
    have hoffer : net.answerSegmentQuery id e = net.offer id (msg.transmission msg.header none) :=
      call_eq_offer hm hanswer
    refine ⟨msg.transmission msg.header none, ⟨rfl, rfl, rfl, _, _, Message.decode_segmentAnnouncement everyone s.segment, rfl, rfl,
      rfl, SegmentAnnouncement.exactly_bytes _⟩, fun transport => ?_⟩
    rw [dispatching_of_asksNumber asks]
    exact congrArg Prod.snd hoffer
  · intro overlong hoverlong transport
    rw [dispatching_of_asksNumber asks]
    simp only [answerSegmentQuery, Network.call, hm, hanswer, Directory.announce, hoverlong]
    rfl

/-- A query that names the segment of its sender is answered nowhere. -/
theorem answerSegmentQuery_of_not_isHere (named : e.sender.isHere = false) :
    net.answerSegmentQuery id e = (.ok (), net) := by
  unfold answerSegmentQuery call
  cases net.member? id with
  | none => rfl
  | some m =>
    dsimp only
    rw [Directory.answerSegmentQuery_of_not_isHere named]
    rfl

/-- A number is told to nodes of the segment only, if every station that has routes knows the number
of its own. What was handed on between stations, however far, is answered nowhere: neither as a
neighbor is handed it nor as it is read from a medium. What another node of a segment asks, a station
that is active keeps, and when that is dispatched, by then or later on, the medium is handed one
announcement of the number. But the handling breaks off at a sub-address that is too long, be it that of the
node that asks or the one that reaches everybody. -/
theorem tells_number_at_home (numbered : net.directory.Numbered) :
    (∀ id m summons e, net.member? id = some m → Scene.Relays ⟨net, m, summons⟩ e →
      ∀ (now : Network) id', now.answerSegmentQuery id' e = (.ok (), now) ∧
        (e.message = some .whatIsNetworkNumber →
          ∀ transport, now.dispatching id' transport e = now)) ∧
    ∀ id m frame origin, net.Questioned id m frame origin → m.station.terminated = false →
      (origin.length ≤ maxMacLength →
        ∃ e, net.directory.receive m frame origin = { events := [.received id, .arrived id e] } ∧
          ∀ now m', Reachable now → now.member? id = some m' →
            m'.station.segment ≠ Segment.here → now.Tells id m' e) ∧
      (maxMacLength < origin.length →
        (net.directory.receive m frame origin).events = [.received id]) := by
  constructor
  · intro id m summons e hm hrelays now id'
    obtain ⟨s, hs, rfl⟩ := Option.map_eq_some_iff.mp hm
    have hnamed : e.sender.isHere = false := Scene.Relays.sender hs numbered hrelays
    have hanswer : now.answerSegmentQuery id' e = (.ok (), now) :=
      answerSegmentQuery_of_not_isHere hnamed
    refine ⟨hanswer, fun hasks transport => ?_⟩
    rw [dispatching_of_asksNumber hasks, hanswer]
  · intro id m frame origin questioned active
    obtain ⟨s, hs, rfl⟩ := Option.map_eq_some_iff.mp questioned.member
    refine ⟨fun hshort => ?_, Directory.events_receive_of_overlong active questioned.asks⟩
    obtain ⟨e, hreceive, hhere, hasks⟩ := Directory.receive_of_asksNumber (d := net.directory) active
      questioned.asks questioned.ne_nil questioned.foreign hshort
    exact ⟨e, hreceive, fun now m' reachable hm' known =>
      reachable.tells hm' known hhere hasks⟩

/-- A query for the number of the segment that it is read on. -/
private def plainQuery : Bytes := [1, 0x80, 0x12]

/-- A query for the number of segment two, for its node seven. -/
private def crossingQuery : Bytes := [1, 0xA0, 0, 2, 1, 7, 255, 0x12]

private theorem asksNumber_plainQuery : AsksNumber plainQuery := ⟨_, [], rfl, rfl, rfl, rfl⟩

private theorem numbered_pair : pair.directory.Numbered := by
  intro id s hs _
  rcases id with _ | _ | id <;> cases hs <;> decide

/-- Node seven of segment two. -/
private def seventh : Station where
  segment := 2
  attachment := wireAttachment [7] none
  routes := { home := 2 }

/-- Node nine asks for the number of another segment, which is answered nowhere, and of its own, which
the router tells it. -/
theorem tells_number_at_home_pair : pair.directory.Numbered ∧
    (∃ t e, .transmitted 1 t ∈ (pair.directory.receive pairRouter crossingQuery [9]).events ∧
      pair.directory.parse seventh t.frame [2] = .ok (some e) ∧
      e.message = some .whatIsNetworkNumber ∧
      ∀ (now : Network) id transport, now.dispatching id transport e = now) ∧
    pair.Questioned 0 pairRouter plainQuery [9] ∧
    ∃ e, pair.directory.receive pairRouter plainQuery [9] =
      { events := [.received 0, .arrived 0 e] } ∧ pair.Tells 0 pairRouter e := by
  have hmember : pair.member? 0 = some pairRouter := rfl
  have hquestioned : pair.Questioned 0 pairRouter plainQuery [9] :=
    ⟨hmember, by decide, asksNumber_plainQuery, by decide, by decide⟩
  obtain ⟨hcrossing, hhome⟩ := tells_number_at_home numbered_pair
  obtain ⟨e, hreceive, htells⟩ := (hhome 0 pairRouter plainQuery [9] hquestioned rfl).1 (by decide)
  refine ⟨numbered_pair, ⟨_, _, List.mem_cons_of_mem _ (List.mem_cons_of_mem _ List.mem_cons_self),
    rfl, rfl, fun now id transport => ?_⟩, hquestioned, e, hreceive,
    htells pair pairRouter lives_pair.reachable hmember (by decide)⟩
  refine (hcrossing 0 pairRouter (.receive crossingQuery [9]) _ hmember ?_ now id).2 rfl transport
  exact .read (List.mem_cons_of_mem _ List.mem_cons_self) rfl List.mem_cons_self pair.directory seventh
    [2] rfl

/-- The query is kept, and when it is dispatched one announcement of the number goes out. -/
def TellsAtOnce (net : Network) (id : NodeId) (m : Member) (frame origin : Bytes) : Prop :=
  ∃ (e : Envelope) (everyone : Address) (t : Transmission),
    net.directory.receive m frame origin = { events := [.received id, .arrived id e] } ∧
    t.TellsNumber everyone m.station.segment ∧
    ∀ transport, net.dispatching id transport e = net.apply (.transmitted id t)

/-- A station is asked for a number that it knows, in a network in which all stations that have routes
know theirs, and does not tell it at once. -/
structure LeavesUntold (net : Network) (id : NodeId) (m : Member) (frame origin : Bytes) : Prop where
  reachable : net.Reachable
  numbered : net.directory.Numbered
  questioned : net.Questioned id m frame origin
  untold : ¬ net.TellsAtOnce id m frame origin

/-- The station of `booth`, on segment one, which leads nowhere. -/
private def boothStation (attachment : Attachment) (terminated : Bool) : Station where
  segment := 1
  attachment
  routes := { home := 1 }
  terminated

/-- A network of one station. -/
private def booth (attachment : Attachment) (terminated : Bool) : Network where
  nodes := [some {
    station := boothStation attachment terminated
    medium := .wire false []
    keepsFaults := true }]

section

variable {attachment : Attachment} {terminated : Bool}

private theorem reachable_booth : (booth attachment terminated).Reachable := by
  have hactive : (booth attachment false).Reachable := Reachable.empty.addNode
    (rfl : Network.addNode {} 1 attachment (.wire false []) true = .ok (0, _))
  cases terminated with
  | false => exact hactive
  | true => exact hactive.terminate 0

private theorem member?_booth : (booth attachment terminated).member? 0 =
    some ⟨0, boothStation attachment terminated⟩ := rfl

private theorem known_booth : (boothStation attachment terminated).segment ≠ Segment.here :=
  show (1 : Segment) ≠ Segment.here by decide

/-- The station of `booth` does not tell its number if it does nothing with a query when that is
dispatched. -/
private theorem leavesUntold_booth {origin : Bytes} (ne : origin ≠ [])
    (foreign : origin ∉ attachment.macs)
    (silent : ∀ e, (booth attachment terminated).directory.receive
        ⟨0, boothStation attachment terminated⟩ plainQuery origin =
          { events := [.received 0, .arrived 0 e] } →
      ∃ transport, (booth attachment terminated).dispatching 0 transport e =
        booth attachment terminated) :
    (booth attachment terminated).LeavesUntold 0 ⟨0, boothStation attachment terminated⟩ plainQuery
      origin where
  reachable := reachable_booth
  numbered id s hs _ := by
    rcases id with _ | id <;> cases hs
    exact known_booth
  questioned := ⟨member?_booth, known_booth, asksNumber_plainQuery, ne, foreign⟩
  untold := by
    rintro ⟨e, everyone, t, hreceive, -, htells⟩
    obtain ⟨transport, hsilent⟩ := silent e hreceive
    have hmedium := congrArg (fun net : Network => (net.node? 0).map Node.medium)
      (hsilent.symm.trans (htells transport))
    cases hmedium

/-- The station of `booth` keeps what node nine asks. -/
private theorem of_receive_booth (foreign : [9] ∉ attachment.macs) {e : Envelope}
    (h : (booth attachment false).directory.receive ⟨0, boothStation attachment false⟩ plainQuery [9] =
      { events := [.received 0, .arrived 0 e] }) :
    e.sender.isHere = true ∧ e.message = some .whatIsNetworkNumber := by
  obtain ⟨e', hreceive, hkept⟩ := Directory.receive_of_asksNumber
    (d := (booth attachment false).directory) (m := ⟨0, boothStation attachment false⟩) rfl
    asksNumber_plainQuery (by decide) foreign (by decide)
  cases hreceive.symm.trans h
  exact hkept

end

/-- A sub-address that is too long. -/
private def longMac : Bytes := List.replicate 256 0

private theorem length_longMac : maxMacLength < longMac.length := by
  rw [longMac, List.length_replicate]
  decide

/-- A dispatcher for the station of `booth`. -/
private def boothTransport : Dispatcher := { segment := 1, application := .recorder false }

/-- The number is not told if the node that asks or everybody on the medium has too long a sub-address,
if the medium does not take so long a frame, and if the station has been terminated. -/
theorem number_untold :
    let wire := wireAttachment [1] none
    let unspeakable := { wire with broadcastMac := longMac }
    let narrow := { wire with maxFrameLength := some 5 }
    (booth wire false).LeavesUntold 0 ⟨0, boothStation wire false⟩ plainQuery longMac ∧
      (booth unspeakable false).LeavesUntold 0 ⟨0, boothStation unspeakable false⟩ plainQuery [9] ∧
      (booth narrow false).LeavesUntold 0 ⟨0, boothStation narrow false⟩ plainQuery [9] ∧
      (booth wire true).LeavesUntold 0 ⟨0, boothStation wire true⟩ plainQuery [9] := by
  intro wire unspeakable narrow
  have hother : longMac ∉ wire.macs := fun h => by
    have hlong := length_longMac
    rw [List.mem_singleton.mp h] at hlong
    exact absurd hlong (by decide)
  have hnine : [9] ∉ wire.macs := by decide
  refine ⟨leavesUntold_booth (List.cons_ne_nil _ _) hother fun e h => ?_,
    leavesUntold_booth (List.cons_ne_nil _ _) hnine fun e h => ⟨boothTransport, ?_⟩,
    leavesUntold_booth (List.cons_ne_nil _ _) hnine fun e h => ⟨boothTransport, ?_⟩,
    leavesUntold_booth (List.cons_ne_nil _ _) hnine fun e h => ?_⟩
  · -- Nothing arrives, so that nothing is dispatched.
    have hbroken := Directory.events_receive_of_overlong (d := (booth wire false).directory)
      (m := ⟨0, boothStation wire false⟩) rfl asksNumber_plainQuery length_longMac
    rw [h] at hbroken
    cases hbroken
  · obtain ⟨hhere, hasks⟩ := of_receive_booth hnine h
    have heveryone : (boothStation unspeakable false).broadcastAddress = .error ⟨longMac.length⟩ :=
      Address.of_eq_error_iff.mpr ⟨longMac, rfl, by decide, length_longMac, rfl⟩
    exact (reachable_booth.tells member?_booth known_booth hhere hasks).2 _ heveryone boothTransport
  · obtain ⟨hhere, hasks⟩ := of_receive_booth hnine h
    rw [dispatching_of_asksNumber hasks]
    have hrefused : (booth narrow false).directory.answerSegmentQuery
        ⟨0, boothStation narrow false⟩ e = .refused (.frameTooLarge 6) := by
      rw [Directory.answerSegmentQuery_of_isHere known_booth hhere]
      rfl
    simp only [answerSegmentQuery, call, member?_booth, hrefused]
    rfl
  · have hignored := Directory.receive_of_terminated (d := (booth wire true).directory)
      (m := ⟨0, boothStation wire true⟩) rfl plainQuery [9]
    cases hignored.symm.trans h

end Network

end Fieldbus
