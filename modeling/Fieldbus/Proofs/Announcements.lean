import Fieldbus.Proofs.Calls
import Fieldbus.Proofs.Reachable
import Fieldbus.Proofs.Service
import Fieldbus.Proofs.Termination

/-!
# What a router announces and what it passes on

A station announces the segments that its neighbors are on and those that they have learned a
router for (`Directory.announces_iff`), but it passes a frame on only where its own routes lead.
Main statements: in a reachable network a frame for an announced segment is handed to the neighbor
there if a route leads to one (`Network.receive_announced`); if none does, a neighbor has merely
learned a router for the segment, and the frame is discarded (`Network.announced_not_relayed`).
-/

namespace Fieldbus

/-- An announcement is read back from its bytes. -/
@[simp] theorem RouterAnnouncement.exactly_bytes (a : RouterAnnouncement) :
    RouterAnnouncement.reader.exactly a.bytes = .ok a := by
  have heven : a.bytes.length % 2 = 0 := by
    rw [length_bytes, size]
    omega
  have hread : RouterAnnouncement.reader.run a.bytes = .ok a [] := by
    simp only [EStateM.run, reader, heven, ite_true]
    rw [bytes, words_flatMap_word]
  rw [Reader.exactly, hread]

/-- A query is read back from its bytes. -/
@[simp] theorem RouterQuery.run_bytes (q : RouterQuery) : reader.run q.bytes = .ok q [] := by
  obtain ⟨_ | segment⟩ := q
  · rfl
  · have hword := Reader.word_append segment []
    rw [List.append_nil] at hword
    show (reader (Bytes.word segment) : EStateM.Result _ _ _) = _
    have hne : (Bytes.word segment).isEmpty = false := rfl
    simp only [reader, hne, Bool.false_eq_true, ite_false, bind, EStateM.bind, hword, pure,
      EStateM.pure]

namespace Directory

variable {d : Directory} {m : Member} {query : Envelope} {w : Segment}

/-! ## What is announced -/

/-- The station answers the query with an announcement that lists the segment. -/
def Announces (d : Directory) (m : Member) (query : Envelope) (w : Segment) : Prop :=
  ∃ t header body segments, .transmitted m.id t ∈ (d.answerRouterQuery m query).events ∧
    decode t.frame = .ok (header, body) ∧ header.message = some .iAmRouterToNetwork ∧
    RouterAnnouncement.reader.exactly body = .ok ⟨segments⟩ ∧ w ∈ segments

/-- The announcement that a query is answered with. -/
def announcement (d : Directory) (s : Station) (q : RouterQuery) (everyone : Address) : Message :=
  .routerAnnouncement everyone (d.announced s q)

theorem decode_announcement (s : Station) (q : RouterQuery) (everyone : Address) :
    decode ((d.announcement s q everyone).header.bytes ++ (d.announcement s q everyone).payload) =
      .ok ((d.announcement s q everyone).header, RouterAnnouncement.bytes ⟨d.announced s q⟩) :=
  Message.decode_header_of_kind rfl trivial rfl

/-- If there is something to announce, a query is answered. -/
theorem answerRouterQuery_of_ne_nil {q : RouterQuery} {rest : Bytes}
    (hq : RouterQuery.reader.run query.payload = .ok q rest)
    (hne : d.announced m.station q ≠ []) :
    d.answerRouterQuery m query = d.announce m (d.announcement m.station q) := by
  unfold answerRouterQuery
  rw [hq]
  dsimp only
  split
  · rename_i hnil
    exact absurd hnil hne
  · rfl

/-- A segment is announced if it is among those that match the query and the medium takes the
announcement. -/
theorem announces_iff (h : d.Routed) (hm : d m.id = some m.station) :
    d.Announces m query w ↔ ∃ q rest everyone, RouterQuery.reader.run query.payload = .ok q rest ∧
      w ∈ d.announced m.station q ∧ m.station.broadcastAddress = .ok everyone ∧
      m.station.attachment.Takes ((d.announcement m.station q everyone).header.bytes ++
        (d.announcement m.station q everyone).payload).length := by
  constructor
  · rintro ⟨t, header, body, segments, ht, hd, -, hb, hw⟩
    cases hq : RouterQuery.reader.run query.payload with
    | error cause rest =>
      rw [answerRouterQuery, hq] at ht
      cases ht
    | ok q rest =>
      by_cases hne : d.announced m.station q = []
      · rw [answerRouterQuery, hq] at ht
        simp only [hne] at ht
        cases ht
      rw [answerRouterQuery_of_ne_nil hq hne] at ht
      cases he : m.station.broadcastAddress with
      | error overlong =>
        simp only [announce, he] at ht
        cases ht
      | ok everyone =>
        rw [announce_eq_put h hm he rfl rfl, Member.mem_put_iff] at ht
        obtain ⟨⟨⟩, takes⟩ := ht
        rw [Message.transmission, decode_announcement] at hd
        cases hd
        rw [RouterAnnouncement.exactly_bytes] at hb
        cases hb
        exact ⟨q, rest, everyone, rfl, hw, rfl, takes⟩
  · rintro ⟨q, rest, everyone, hq, hw, he, takes⟩
    refine ⟨(d.announcement m.station q everyone).transmission
      (d.announcement m.station q everyone).header none, _, _, _, ?_, decode_announcement _ _ _,
      rfl, RouterAnnouncement.exactly_bytes _, hw⟩
    rw [answerRouterQuery_of_ne_nil hq (List.ne_nil_of_mem hw), announce_eq_put h hm he rfl rfl,
      Member.mem_put_iff]
    exact ⟨rfl, takes⟩

/-- Whatever a query asks for, some neighbor leads to what is announced. -/
theorem exists_leadsTo_of_mem_announced {s : Station} {q : RouterQuery}
    (h : w ∈ d.announced s q) : ∃ n ∈ d.neighbors s, w ∈ n.leadsTo := by
  obtain ⟨_ | wanted⟩ := q
  · exact (mem_announced_none.mp h).2
  · rw [announced_some] at h
    split at h
    · rename_i hn
      rwa [List.mem_singleton.mp h]
    · cases h

/-! ## What is passed on -/

/-- A frame for a segment that another node put onto the medium of a station. -/
structure Inbound (s : Station) (w : Segment) (frame origin : Bytes) (header : Header)
    (payload : Bytes) : Prop where
  /-- The frame can be read. -/
  decode_eq : decode frame = .ok (header, payload)
  /-- The frame is for the segment. -/
  destination : ∃ mac hops, header.destination = some ⟨w, mac, hops⟩
  /-- The frame does not announce the number of a segment. -/
  message : header.message ≠ some .networkNumberIs
  /-- The sender has an address, which is not one of the station's. -/
  sender : ∃ sender, senderOf header origin = .ok sender ∧ s.answersTo sender = false

section

variable {frame origin payload : Bytes} {header : Header}

/-- A frame that a station takes notice of is taken apart into an envelope from another node. -/
theorem Inbound.exists_parse_eq {s : Station} (inbound : Inbound s w frame origin header payload)
    (hi : d.ignores s header = false) {recipient : Option Address}
    (hr : recipientOf s header = .ok recipient) :
    ∃ e, d.parse s frame origin = .ok (some e) ∧ e.recipient = recipient ∧ e.payload = payload ∧
      s.answersTo e.sender = false := by
  obtain ⟨sender, hs, other⟩ := inbound.sender
  obtain ⟨e, hparse, rfl, hrecipient, hpayload⟩ :=
    Directory.exists_parse_eq inbound.decode_eq hi hr hs
  exact ⟨e, hparse, hrecipient, hpayload, other⟩

/-- A frame for a segment that no route leads to is discarded. -/
theorem Inbound.receive_of_foreign (inbound : Inbound m.station w frame origin header payload)
    (active : m.station.terminated = false) (here : w ≠ Segment.here)
    (everywhere : w ≠ Segment.everywhere) (foreign : w ≠ m.station.segment)
    (none : d.neighborOn? m.station w = none) :
    d.receive m frame origin = { events := [.received m.id, .dropped m.id] } := by
  obtain ⟨mac, hops, destination⟩ := inbound.destination
  have hignores : d.ignores m.station header = true := by
    simp [ignores, destination, here, everywhere, foreign, none]
  have hparse : d.parse m.station frame origin = .ok Option.none := by
    unfold parse
    simp only [inbound.decode_eq, Except.mapError, bind, Except.bind, hignores, ite_true, pure,
      Except.pure]
  simp only [receive, active, Bool.false_eq_true, ite_false, hparse]

/-- A frame for the segment of the station reaches the node. -/
theorem Inbound.receive_of_own
    (inbound : Inbound m.station m.station.segment frame origin header payload)
    (active : m.station.terminated = false) :
    ∃ e, d.parse m.station frame origin = .ok (some e) ∧ e.payload = payload ∧
      d.receive m frame origin = { events := [.received m.id, .arrived m.id e] } := by
  obtain ⟨mac, hops, destination⟩ := inbound.destination
  have hignores : d.ignores m.station header = false := by
    simp [ignores, destination, inbound.message]
  have hrecipient : recipientOf m.station header = .ok none := by
    simp only [recipientOf, destination, ite_true]
  obtain ⟨e, hparse, hr, hp, other⟩ := inbound.exists_parse_eq hignores hrecipient
  have hown : isOwn m.station e origin = false := by simp [isOwn, other, hr]
  refine ⟨e, hparse, hp, ?_⟩
  simp only [receive, active, Bool.false_eq_true, ite_false, hparse,
    route_of_recipient_eq_none hown hr]

/-- A frame for a segment that a route leads to is handed to the neighbor there. -/
theorem Inbound.receive_of_neighborOn? (inbound : Inbound m.station w frame origin header payload)
    (active : m.station.terminated = false) (here : w ≠ Segment.here)
    (everywhere : w ≠ Segment.everywhere) (foreign : w ≠ m.station.segment) {n : Member}
    (hn : d.neighborOn? m.station w = some n) :
    ∃ e a, d.parse m.station frame origin = .ok (some e) ∧ e.payload = payload ∧
      e.recipient = some a ∧ a.segment = w ∧
      d.receive m frame origin = {
        events := .received m.id ::
          .relayed m.id n.id m.station.segment a (forwarded m.station e) false ::
            d.relay n m.station.segment a (forwarded m.station e) false } := by
  obtain ⟨mac, hops, destination⟩ := inbound.destination
  have hignores : d.ignores m.station header = false := by
    simp [ignores, destination, inbound.message, hn]
  obtain ⟨a, ha⟩ := Destination.exists_address (fits_of_decode inbound.decode_eq) destination
  have hsegment : a.segment = w := Address.segment_of ha
  have hrecipient : recipientOf m.station header = .ok (some a) := by
    simp only [recipientOf, destination, foreign, ite_false, ha]
    rfl
  obtain ⟨e, hparse, hr, hp, other⟩ := inbound.exists_parse_eq hignores hrecipient
  have hglobal : a.isGlobal = false := by simp [Address.isGlobal, hsegment, everywhere]
  have hown : isOwn m.station e origin = false := by simp [isOwn, other, hr, hglobal]
  have hanswers : m.station.answersTo a = false :=
    Station.answersTo_eq_false (Station.shares_eq_false (hsegment ▸ here) (hsegment ▸ foreign))
  refine ⟨e, a, hparse, hp, hr, hsegment, ?_⟩
  simp only [receive, active, Bool.false_eq_true, ite_false, hparse,
    route_of_neighborOn? hown hr hanswers hglobal (hsegment ▸ hn)]

end

/-- What is relayed to one segment is discarded nowhere. -/
theorem not_dropped_mem_relay {n : Member} {a : Address} (single : a.isGlobal = false)
    (id : NodeId) (ingress : Segment) (e : Envelope) (broadcast : Bool) :
    .dropped id ∉ d.relay n ingress a e broadcast := by
  have hput : .dropped id ∉ n.putEnvelope a e broadcast := by
    unfold Member.putEnvelope Member.emit
    split
    · rename_i event he
      split at he <;> cases he
      simp
    · simp
  unfold relay
  simp only [single, Bool.false_eq_true, ite_false, List.nil_append]
  split
  · exact List.not_mem_nil
  · exact hput

end Directory

namespace Network

variable {net : Network} {m : Member} {w : Segment}

/-- A neighbor leads to segments with numbers of their own only. -/
theorem Reachable.segment_ne_of_leadsTo (reachable : net.Reachable)
    (hm : net.directory m.id = some m.station) {n : Member}
    (hn : n ∈ net.directory.neighbors m.station) (hw : w ∈ n.leadsTo) :
    w ≠ Segment.here ∧ w ≠ Segment.everywhere := by
  rcases List.mem_cons.mp hw with rfl | hlearned
  · obtain ⟨here, everywhere, -⟩ := reachable.routed.directory.segment_ne_of_mem hm hn
    exact ⟨here, everywhere⟩
  · have hadmits := reachable.learnsRemote (Directory.apply_of_mem_neighbors hn) w hlearned
    simp only [RouterTable.admits, Bool.and_eq_true, bne_iff_ne] at hadmits
    exact ⟨hadmits.1.2, hadmits.2⟩

/-- A frame for a segment that was announced is handed to the neighbor there if a route leads to
one. Otherwise some neighbor has merely learned a router for the segment, and the frame is
discarded, unless the segment is the station's own. -/
theorem receive_announced (reachable : net.Reachable) {id : NodeId} (hm : net.member? id = some m)
    (active : m.station.terminated = false) {query : Envelope}
    (announced : net.directory.Announces m query w) {frame origin payload : Bytes}
    {header : Header} (inbound : Directory.Inbound m.station w frame origin header payload) :
    (∀ n, net.directory.neighborOn? m.station w = some n →
      n.station.segment = w ∧ ∃ e a, net.directory.parse m.station frame origin = .ok (some e) ∧
        e.payload = payload ∧ e.recipient = some a ∧ a.segment = w ∧
        net.directory.receive m frame origin = {
          events := .received m.id ::
            .relayed m.id n.id m.station.segment a (Directory.forwarded m.station e) false ::
              net.directory.relay n m.station.segment a (Directory.forwarded m.station e) false } ∧
        .dropped m.id ∉ (net.directory.receive m frame origin).events) ∧
    (net.directory.neighborOn? m.station w = none →
      (∃ n ∈ net.directory.neighbors m.station, w ∈ n.station.routers.segments) ∧
      (w ≠ m.station.segment →
        net.directory.receive m frame origin = { events := [.received m.id, .dropped m.id] }) ∧
      (w = m.station.segment →
        ∃ e, net.directory.parse m.station frame origin = .ok (some e) ∧ e.payload = payload ∧
          net.directory.receive m frame origin =
            { events := [.received m.id, .arrived m.id e] })) := by
  obtain ⟨s, hs, rfl⟩ := Option.map_eq_some_iff.mp hm
  have hdirectory := reachable.routed.directory
  obtain ⟨q, -, -, -, hw, -, -⟩ := (Directory.announces_iff hdirectory hs).mp announced
  obtain ⟨leading, hleading, hw⟩ := Directory.exists_leadsTo_of_mem_announced hw
  obtain ⟨here, everywhere⟩ := reachable.segment_ne_of_leadsTo hs hleading hw
  refine ⟨fun n hn => ?_, fun none => ⟨⟨leading, hleading, ?_⟩, fun foreign => ?_, ?_⟩⟩
  · have hsegment := hdirectory.segment_neighborOn? hs hn
    have foreign := (hdirectory.segment_ne_of_neighborOn? hs hn).2.2
    obtain ⟨e, a, hparse, hp, hr, ha, hreceive⟩ :=
      inbound.receive_of_neighborOn? active here everywhere foreign hn
    refine ⟨hsegment, e, a, hparse, hp, hr, ha, hreceive, ?_⟩
    have hglobal : a.isGlobal = false := by simp [Address.isGlobal, ha, everywhere]
    rw [hreceive]
    simpa using Directory.not_dropped_mem_relay hglobal id _ _ _
  · -- The neighbor is not on the segment: a route would lead there.
    rcases List.mem_cons.mp hw with rfl | hlearned
    · rw [hdirectory.neighborOn?_of_mem hs hleading] at none
      cases none
    · exact hlearned
  · exact inbound.receive_of_foreign active here everywhere foreign none
  · rintro rfl
    exact inbound.receive_of_own active

/-- A station of `detour`. -/
private def detourStation (segment : Segment) (mac : Bytes) (routes : RouteTable NodeId)
    (routers : RouterTable) : Station where
  segment
  attachment := wireAttachment mac none
  routes
  routers

/-- The router of `detour` on segment one, which leads to segment two. -/
private def detourRouter : Member :=
  ⟨0, detourStation 1 [1] ⟨1, ⟨[(2, 1)]⟩, [some 2]⟩ {}⟩

/-- The neighbor of the router of `detour`, which has learned that a node of its own segment routes
to segment five. -/
private def detourNeighbor : Member :=
  ⟨1, detourStation 2 [2] { home := 2 } ⟨⟨[(5, [4])]⟩⟩⟩

/-- A router whose neighbor has learned another router. -/
def detour : Network where
  nodes := [
    some { station := detourRouter.station, medium := .wire false [], keepsFaults := true },
    some { station := detourNeighbor.station, medium := .wire false [], keepsFaults := true }]

/-- The query for the way to a segment that a node of the first segment puts to the router. -/
private def detourQuery (segment : Segment) : Envelope where
  sender := (Address.onLink [3]).toOption.getD Address.everywhere
  recipient := none
  payload := RouterQuery.bytes ⟨some segment⟩

/-- The frame that a node of the first segment sends to a node of another one. -/
private def detourHeader (segment : Segment) : Header :=
  { destination := some ⟨segment, some [7], 255⟩ }

private theorem reachable_detour : detour.Reachable := by
  have hone := Reachable.empty.addNode
    (rfl : Network.addNode {} 1 (wireAttachment [1] none) (.wire false []) true = .ok (0, _))
  have htwo := hone.addNode
    (rfl : Network.addNode _ 2 (wireAttachment [2] none) (.wire false []) true = .ok (1, _))
  have hroute := htwo.addRoute (rfl : Network.addRoute _ 0 1 = .ok (1, _))
  exact hroute.learn 1 [4] [5]

/-- The router of `detour` announces what its neighbor leads to. -/
private theorem announces_detour (hw : w ∈ detourNeighbor.leadsTo) :
    detour.directory.Announces detourRouter (detourQuery w) w := by
  have hneighbor : detourNeighbor ∈ detour.directory.neighbors detourRouter.station := by decide
  refine (Directory.announces_iff reachable_detour.routed.directory rfl).mpr
    ⟨⟨some w⟩, [], _, RouterQuery.run_bytes ⟨some w⟩, ?_, rfl, fun limit h => by cases h⟩
  rw [Directory.announced_some, if_pos ⟨detourNeighbor, hneighbor, hw⟩]
  exact List.mem_singleton_self w

private theorem inbound_detour (segment : Segment) (frame : Bytes)
    (hd : decode frame = .ok (detourHeader segment, [9])) :
    Directory.Inbound detourRouter.station segment frame [3] (detourHeader segment) [9] :=
  ⟨hd, ⟨some [7], 255, rfl⟩, by simp [detourHeader], _, rfl, rfl⟩

theorem receive_announced_detour :
    detour.directory.Announces detourRouter (detourQuery 2) 2 ∧
      ∃ e a, a.segment = 2 ∧
        detour.directory.receive detourRouter [1, 0x20, 0, 2, 1, 7, 255, 9] [3] = {
          events := .received 0 :: .relayed 0 1 1 a e false ::
            detour.directory.relay detourNeighbor 1 a e false } := by
  have hannounces : detour.directory.Announces detourRouter (detourQuery 2) 2 :=
    announces_detour List.mem_cons_self
  have hinbound : Directory.Inbound detourRouter.station 2 [1, 0x20, 0, 2, 1, 7, 255, 9] [3]
      (detourHeader 2) [9] := inbound_detour 2 _ rfl
  have hmember : detour.member? 0 = some detourRouter := rfl
  obtain ⟨-, e, a, -, -, -, ha, hreceive, -⟩ :=
    (receive_announced reachable_detour hmember rfl hannounces hinbound).1 detourNeighbor rfl
  exact ⟨hannounces, _, a, ha, hreceive⟩

theorem announced_not_relayed :
    detour.Reachable ∧ detour.member? 0 = some detourRouter ∧
      detourRouter.station.terminated = false ∧
      detour.directory.Announces detourRouter (detourQuery 5) 5 ∧
      Directory.Inbound detourRouter.station 5 [1, 0x20, 0, 5, 1, 7, 255, 9] [3] (detourHeader 5)
        [9] ∧
      detour.directory.receive detourRouter [1, 0x20, 0, 5, 1, 7, 255, 9] [3] =
        { events := [.received 0, .dropped 0] } := by
  refine ⟨reachable_detour, rfl, rfl, announces_detour ?_, inbound_detour 5 _ rfl, rfl⟩
  exact List.mem_cons_of_mem _ (RouterTable.mem_segments_iff.mpr ⟨[4], rfl⟩)

end Network

end Fieldbus
