import Fieldbus.Proofs.Acceptance
import Fieldbus.Proofs.Fates
import Fieldbus.Proofs.Histories
import Fieldbus.Proofs.Records
import Fieldbus.Proofs.SplitHorizon

/-!
# Forwarding

A station that hands a frame on changes how it is addressed and nothing else. Between the frame it
took in and the one that its neighbor puts onto the next segment lie taking apart, naming the sender
(`Directory.sender_of_senderOf`), leaving the destination out (`Station.recipient_landing`) and
writing. Main statement: what the neighbor's frame is read as (`Network.forwards_faithfully`).
-/

namespace Fieldbus

/-- Moving an address to another segment takes its sub-address there. -/
theorem Address.of_of {w : Segment} {mac : Option Bytes} {a : Address} (h : of w mac = .ok a)
    (single : w ≠ Segment.everywhere) (v : Segment) : of v mac = .ok (a.withSegment v) := by
  rw [← of_withSegment a v]
  cases mac with
  | none =>
    cases h
    rfl
  | some m =>
    simp only [of, single, dite_false] at h
    split at h
    · rename_i hnil
      cases h
      simp only [of, hnil, mac_all, dite_true]
      split
      · rename_i hv
        rw [hv, all_everywhere]
      · rfl
    · split at h
      · cases h
        rfl
      · cases h

/-- Who a frame that the node `origin` put on the medium of a segment is from, as it is seen from
other segments. -/
def Header.sender (h : Header) (segment : Segment) (origin : Bytes) : Except Overlong Address :=
  match h.source with
  | none => Address.of segment (some origin)
  | some source =>
    Address.of (if source.segment = Segment.here then segment else source.segment) source.mac

/-- A hop count that is not used up yet is lowered by one. -/
theorem hopCount_of_toNat_eq {hopCount : UInt8} {left : Nat} (h : hopCount.toNat = left + 1) :
    0 < hopCount ∧ hopCount - 1 = left.toUInt8 := by
  have hlt := hopCount.toNat_lt
  have hone : (1 : UInt8) ≤ hopCount := by
    rw [UInt8.le_iff_toNat_le, h]
    exact Nat.le_add_left 1 left
  refine ⟨?_, ?_⟩
  · rw [UInt8.lt_iff_toNat_lt, h]
    exact Nat.succ_pos left
  · rw [← UInt8.toNat_inj, UInt8.toNat_sub_of_le _ _ hone, h, Nat.toUInt8_eq, UInt8.toNat_ofNat']
    simp only [UInt8.toNat_one]
    omega

namespace Directory

/-- A sender that leaves the segment is named by it, if the frame does not name another one. -/
theorem sender_of_senderOf {s : Station} {h : Header} {origin : Bytes} {sender : Address}
    (hs : senderOf h origin = .ok sender) :
    h.sender s.segment origin = .ok (s.departing sender) := by
  have hhere : Segment.here ≠ Segment.everywhere := by decide
  unfold senderOf at hs
  unfold Header.sender Station.departing Address.isHere
  cases hsource : h.source with
  | none =>
    rw [hsource] at hs
    rw [Address.segment_of hs]
    exact Address.of_of hs hhere s.segment
  | some source =>
    rw [hsource] at hs
    have hsegment : sender.segment = source.segment := Address.segment_of hs
    rw [hsegment]
    by_cases here : source.segment = Segment.here
    · simp only [here, ite_true, beq_self_eq_true]
      exact Address.of_of (here ▸ hs) hhere s.segment
    · simp only [here, ite_false, beq_eq_false_iff_ne.mpr here, Bool.false_eq_true]
      exact hs

end Directory

/-- What happens at the node last leaves it nowhere. -/
theorem Fate.not_leaves_of_mem_last {fate : Fate} {id : NodeId} {event : Event}
    (h : event ∈ fate.last id) : ¬ event.Leaves := by
  rcases of_mem_last h with rfl | ⟨fault, rfl⟩ | ⟨e, rfl⟩ <;> exact fun h => h

/-- An envelope of a kind that can be read is read back from the frame that is put onto a segment. -/
theorem Station.decode_landing {s : Station} {e : Envelope}
    (canonical : ∀ kind ∈ e.message, kind.Canonical) :
    decode (s.landing e).frame = .ok ((s.landing e).header, e.payload) := by
  have hread : (s.landing e).header.asRead = (s.landing e).header :=
    Envelope.asRead_header fun kind hkind => (canonical kind hkind).named_eq
  rw [Envelope.frame, decode_bytes_append (s.landing e).header_fits fun kind hkind =>
    (canonical kind hkind).consistent, hread]
  rfl

/-- A station on the segment of the recipient leaves the destination out. -/
theorem Station.destination_landing {s : Station} {e : Envelope} {a : Address}
    (he : e.recipient = some a) (lands : s.segment = a.segment) :
    (s.landing e).header.destination = none := by
  rw [Envelope.header, recipient_landing he lands]
  rfl

/-- A station on a single segment keeps the destination of a global broadcast. -/
theorem Station.destination_landing_everywhere {s : Station} {e : Envelope}
    (he : e.recipient = some Address.everywhere) (single : s.segment ≠ Segment.everywhere) :
    (s.landing e).header.destination = some ⟨Segment.everywhere, none, e.hopCount⟩ := by
  have hforeign : s.shares Address.everywhere = false := by
    rw [shares, Address.segment_everywhere, Bool.or_eq_false_iff]
    exact ⟨rfl, beq_eq_false_iff_ne.mpr single.symm⟩
  simp only [Envelope.header, landing, he, Option.filter_some, hforeign, Bool.not_false, ite_true,
    Option.map_some]
  rfl

/-- What the neighbor that is called puts onto its segment. -/
def Call.landed (c : Call) : Transmission :=
  (c.target.station.landing c.envelope).transmission c.recipient c.broadcast

/-- A neighbor that is active and whose medium takes the frame transmits once. -/
theorem Call.transmissions_own {c : Call} (active : c.target.station.terminated = false)
    (takes : c.target.station.attachment.Takes c.landed.frame.length) :
    transmissions c.target.id c.own = [c.landed] := by
  have hput : c.target.putEnvelope c.recipient c.envelope c.broadcast =
      [.transmitted c.target.id c.landed] := by
    unfold Member.putEnvelope Member.emit
    rw [landed] at takes
    rw [if_pos takes]
    rfl
  rw [own, active, hput]
  cases c.recipient.isGlobal <;> simp [transmissions, List.filterMap_cons]

/-- A frame that is read as `header` and `payload`, taken in from the node `origin` by a station, is
carried on by a neighbor. -/
structure CarriedOn (d : Directory) (s : Station) (header : Header) (payload origin : Bytes)
    (n : Member) (t : Transmission) (header' : Header) : Prop where
  /-- The payload stays as it is. -/
  payload : decode t.frame = .ok (header', payload)
  /-- Whether an answer is awaited stays as it is. -/
  expectsReply : header'.expectsReply = header.expectsReply
  /-- The urgency stays as it is. -/
  priority : header'.priority = header.priority
  /-- The kind of a message stays as it is. -/
  message : header'.message = header.message
  /-- The sender is named as it is seen from other segments. -/
  source : ∃ sender, header.sender s.segment origin = .ok sender ∧
    header'.source = some (Source.of sender)
  /-- There is a destination. -/
  routed : header.destination.isSome
  /-- A single segment is that of the neighbor, which puts the frame there for the destination. -/
  single : ∀ dst ∈ header.destination, dst.segment ≠ Segment.everywhere →
    d.neighborOn? s dst.segment = some n ∧ n.station.segment = dst.segment ∧
      header'.destination = none ∧ dst.address = .ok t.recipient ∧ t.router = none
  /-- A global broadcast has one hop less. -/
  spread : ∀ dst ∈ header.destination, dst.segment = Segment.everywhere →
    0 < dst.hopCount ∧
      header'.destination = some ⟨Segment.everywhere, none, dst.hopCount - 1⟩

namespace Directory

variable {d : Directory} {m n : Member} {frame origin payload : Bytes} {header : Header}
  {e : Envelope}

/-- What is taken apart, handed on with its sender named and put onto another segment is read as it
was, whatever becomes of the destination. -/
theorem carriedOn_of_parse (numbered : m.station.segment ≠ Segment.here)
    (hd : decode frame = .ok (header, payload))
    (he : d.parse m.station frame origin = .ok (some e)) {e' : Envelope} {hopCount : UInt8}
    (handed : e' = { e with sender := m.station.departing e.sender, link := none, hopCount })
    (recipient : Address) (broadcast : Bool) (routed : header.destination.isSome)
    (single : ∀ dst ∈ header.destination, dst.segment ≠ Segment.everywhere →
      d.neighborOn? m.station dst.segment = some n ∧ n.station.segment = dst.segment ∧
        (n.station.landing e').header.destination = none ∧ dst.address = .ok recipient)
    (spread : ∀ dst ∈ header.destination, dst.segment = Segment.everywhere → 0 < dst.hopCount ∧
      (n.station.landing e').header.destination =
        some ⟨Segment.everywhere, none, dst.hopCount - 1⟩) :
    CarriedOn d m.station header payload origin n
      ((n.station.landing e').transmission recipient broadcast) (n.station.landing e').header := by
  obtain ⟨header', payload', recipient', sender, hd', -, -, hsender, rfl⟩ := of_parse he
  cases hd.symm.trans hd'
  subst handed
  have hnamed : (m.station.departing sender).isHere = false := by
    rw [Address.isHere, Station.segment_departing, beq_eq_false_iff_ne]
    split
    · exact numbered
    · assumption
  exact
    { payload := Station.decode_landing (modify_of_decode hd).2.message
      expectsReply := rfl
      priority := rfl
      message := rfl
      source := by
        refine ⟨m.station.departing sender, sender_of_senderOf hsender, ?_⟩
        simp only [Envelope.header, Station.landing, hnamed, Bool.false_eq_true, ite_false]
      routed := routed
      single := fun dst hdst hsingle => by
        obtain ⟨hneighbor, hsegment, hdestination, haddress⟩ := single dst hdst hsingle
        exact ⟨hneighbor, hsegment, hdestination, haddress, rfl⟩
      spread := spread }

/-- What a station hands on is carried on by the neighbor. -/
theorem carriedOn_of_mem_onward (routed : d.Routed) (station : d m.id = some m.station)
    (numbered : m.station.segment ≠ Segment.here) (hd : decode frame = .ok (header, payload))
    (he : d.parse m.station frame origin = .ok (some e)) {c : Call} (hc : c ∈ d.onward m e) :
    CarriedOn d m.station header payload origin c.target c.landed
      (c.target.station.landing c.envelope).header := by
  have hdestination : ∀ {a}, e.recipient = some a → ∃ dst, header.destination = some dst ∧
      dst.address = .ok a ∧ a.segment = dst.segment ∧ e.hopCount = dst.hopCount := by
    obtain ⟨header', payload', recipient, sender, hd', -, hrecipient, -, rfl⟩ := of_parse he
    cases hd.symm.trans hd'
    rintro a rfl
    obtain ⟨dst, hdst, haddress⟩ := destination_of_recipientOf hrecipient
    exact ⟨dst, hdst, haddress, Address.segment_of haddress, by rw [hdst]; rfl⟩
  rcases of_mem_onward hc with ⟨hsome, hcopies⟩ | ⟨a, n, hsome, hsingle, hneighbor, rfl⟩
  · obtain ⟨source, n, a, e', broadcast⟩ := c
    obtain ⟨left, hleft, hneighbor, -, hcopy⟩ := of_mem_copies hcopies
    cases hcopy
    obtain ⟨dst, hdst, -, hsegment, hhops⟩ := hdestination hsome
    refine carriedOn_of_parse numbered hd he rfl Address.everywhere true (by rw [hdst]; rfl) ?_ ?_
    · intro dst' hdst' hsingle
      cases hdst.symm.trans hdst'
      exact absurd hsegment.symm hsingle
    · intro dst' hdst' _
      cases hdst.symm.trans hdst'
      rw [hhops] at hleft
      obtain ⟨hpos, hless⟩ := hopCount_of_toNat_eq hleft
      rw [hless]
      exact ⟨hpos, Station.destination_landing_everywhere hsome
        (routed.segment_ne_of_mem station hneighbor).2.1⟩
  · obtain ⟨dst, hdst, haddress, hsegment, -⟩ := hdestination hsome
    have hlands : n.station.segment = a.segment := routed.segment_neighborOn? station hneighbor
    refine carriedOn_of_parse numbered hd he rfl a false (by rw [hdst]; rfl) ?_ ?_
    · intro dst' hdst' _
      cases hdst.symm.trans hdst'
      exact ⟨hsegment ▸ hneighbor, hlands.trans hsegment,
        Station.destination_landing hsome hlands, haddress⟩
    · intro dst' hdst' heverywhere
      cases hdst.symm.trans hdst'
      rw [Address.isGlobal, hsegment, heverywhere] at hsingle
      cases hsingle

end Directory

namespace Network

/-- Forwarding is faithful: whatever a station on a numbered segment takes in and hands on, which is
all that leaves its node, a neighbor that is active and whose medium takes the frame transmits once,
and its frame is read as the one that was taken in, addressed anew. -/
theorem forwards_faithfully {net : Network} (reachable : net.Reachable) {id : NodeId} {m : Member}
    (member : net.member? id = some m) (numbered : m.station.segment ≠ Segment.here)
    {frame origin payload : Bytes} {header : Header} (hd : decode frame = .ok (header, payload))
    {c : Call} (handed : c ∈ net.directory.handedOn m frame origin)
    (active : c.target.station.terminated = false)
    (takes : c.target.station.attachment.Takes c.landed.frame.length) :
    (∃ last, (net.directory.receive m frame origin).events = .received m.id ::
        ((net.directory.handedOn m frame origin).flatMap (Call.events net.directory) ++ last) ∧
      ∀ event ∈ last, ¬ event.Leaves) ∧
      c.source = m ∧ c.own <:+ c.events net.directory ∧
      transmissions c.target.id c.own = [c.landed] ∧
      ∃ header', CarriedOn net.directory m.station header payload origin c.target c.landed header' := by
  obtain ⟨s, hs, rfl⟩ := Option.map_eq_some_iff.mp member
  obtain ⟨e, he, hc⟩ := Directory.mem_onward_of_mem_handedOn handed
  refine ⟨⟨_, Directory.events_receive_handedOn (Directory.active_of_mem_handedOn handed) _ _,
    fun event => Fate.not_leaves_of_mem_last⟩, ?_, ?_,
    Call.transmissions_own active takes, _,
    Directory.carriedOn_of_mem_onward reachable.routed.directory hs numbered hd he hc⟩
  · rcases Directory.of_mem_onward hc with ⟨-, hcopies⟩ | ⟨a, n, -, -, -, rfl⟩
    · obtain ⟨left, -, -, -, hcopy⟩ := Directory.of_mem_copies hcopies
      rw [hcopy]
    · rfl
  · rw [Call.events_eq]
    exact ⟨c.event :: (c.next net.directory).flatMap (Call.events net.directory), rfl⟩

/-- An urgent frame for a node of segment two, whose sender does not know its own segment. -/
private def letter : Bytes := [1, 0x2D, 0, 2, 1, 9, 0, 0, 1, 7, 3, 0xAB]

/-- The neighbor puts the frame onto segment two without destination, from a node of segment one. -/
theorem forwards_faithfully_pair :
    ((pair.directory.handedOn pairRouter letter [8]).map fun c => c.landed.frame) =
      [[1, 0x0D, 0, 1, 1, 7, 0xAB]] ∧
    ∀ c ∈ pair.directory.handedOn pairRouter letter [8],
      transmissions c.target.id c.own = [c.landed] ∧
      ∃ header', CarriedOn pair.directory pairRouter.station
        { expectsReply := true, priority := .urgent, destination := some ⟨2, some [9], 3⟩,
          source := some ⟨0, some [7]⟩ } [0xAB] [8] c.target c.landed header' := by
  refine ⟨rfl, fun c hc => ?_⟩
  have hready : (pair.directory.handedOn pairRouter letter [8]).all (fun c =>
      !c.target.station.terminated &&
        c.target.station.attachment.Takes c.landed.frame.length) = true := rfl
  obtain ⟨hactive, htakes⟩ := Bool.and_eq_true_iff.mp (List.all_eq_true.mp hready c hc)
  obtain ⟨-, -, -, htransmits, hcarried⟩ := forwards_faithfully lives_pair.reachable
    (rfl : pair.member? 0 = some pairRouter) (by decide) (rfl : decode letter = .ok (_, [0xAB])) hc
    (Bool.not_eq_true' _ ▸ hactive) (of_decide_eq_true htakes)
  exact ⟨htransmits, hcarried⟩

end Network

end Fieldbus
