import Fieldbus.Proofs.Calls
import Fieldbus.Proofs.Ranks
import Fieldbus.Proofs.Reachable

/-!
# Split horizon

A copy of a global broadcast never goes back: wherever routes lead, a station that passes one on
calls neither a neighbor on its own segment, nor one on the segment it was called from, nor one on
the segment of the sender. Main statement: this holds of every call that sending or receiving a
global broadcast leads to, and no station that is called puts the broadcast onto the segment it
comes from (`Network.split_horizon`).
-/

namespace Fieldbus

@[simp] theorem Address.segment_withSegment (a : Address) (segment : Segment) :
    (a.withSegment segment).segment = segment := by
  unfold Address.withSegment
  split
  · rename_i global
    exact global.symm
  · rfl

/-- There is one address for everybody. -/
theorem Address.of_everywhere (mac : Option Bytes) :
    of Segment.everywhere mac = .ok everywhere := by
  cases mac with
  | none => rfl
  | some m => simp only [of, dite_true]

/-- A sender that leaves its segment is named by the segment of the station, if it is not named by
another one already. -/
theorem Station.segment_departing (s : Station) (sender : Address) :
    (s.departing sender).segment =
      if sender.segment = Segment.here then s.segment else sender.segment := by
  unfold Station.departing Address.isHere
  by_cases here : sender.segment = Segment.here
  · simp [here]
  · simp [here]

/-- The segment that a frame comes from as a station reads it: the one its header names, or else
the station's own. -/
def Station.sourceSegment (s : Station) (h : Header) : Segment :=
  match h.source with
  | none => s.segment
  | some source => if source.segment = Segment.here then s.segment else source.segment

/-- The sender of a frame is named by the segment that the frame comes from once it leaves the
segment of the station. -/
theorem Station.segment_departing_senderOf {s : Station} {h : Header} {origin : Bytes}
    {sender : Address} (hs : Directory.senderOf h origin = .ok sender) :
    (s.departing sender).segment = s.sourceSegment h := by
  rw [Station.segment_departing]
  unfold Directory.senderOf at hs
  unfold Station.sourceSegment
  cases hsource : h.source with
  | none =>
    rw [hsource] at hs
    rw [if_pos (Address.segment_of hs)]
  | some source =>
    rw [hsource] at hs
    rw [Address.segment_of hs]

/-- A neighbor is handed an envelope, or a medium a frame. -/
def Event.Leaves : Event → Prop
  | .relayed .. => True
  | .transmitted .. => True
  | _ => False

namespace Call

/-- A call that takes a global broadcast further away from the segment `home` it comes from. -/
structure Outward (d : Directory) (home : Segment) (c : Call) : Prop where
  /-- The station that calls is one of the directory. -/
  station : d c.source.id = some c.source.station
  /-- The neighbor is one that the station has a route to. -/
  neighbor : c.target ∈ d.neighbors c.source.station
  /-- The neighbor is not on the segment of the station. -/
  source : c.target.station.segment ≠ c.source.station.segment
  /-- The neighbor is not on the segment of the sender that the copy names. -/
  sender : c.target.station.segment ≠ c.envelope.sender.segment
  /-- The neighbor is not on the segment that the broadcast comes from. -/
  origin : c.target.station.segment ≠ home
  /-- The copy names that segment, unless it has no number. -/
  named : home = Segment.here ∨ c.envelope.sender.segment = home
  /-- The neighbor does not call back to the segment it was called from. -/
  back : ∀ c' ∈ c.next d, c'.target.station.segment ≠ c.source.station.segment

namespace Outward

variable {d : Directory} {home : Segment} {c c' : Call}

/-- A neighbor is called on a segment other than that of the sender, and the copy names the segment
that the broadcast comes from. -/
theorem of_neighbor (routed : d.Routed) (station : d c.source.id = some c.source.station)
    (neighbor : c.target ∈ d.neighbors c.source.station)
    (sender : c.target.station.segment ≠ c.envelope.sender.segment)
    (named : home = Segment.here ∨ c.envelope.sender.segment = home) : c.Outward d home where
  station := station
  neighbor := neighbor
  source := (routed.segment_ne_of_mem station neighbor).2.2
  sender := sender
  origin := by
    rcases named with rfl | rfl
    · exact (routed.segment_ne_of_mem station neighbor).1
    · exact sender
  named := named
  back := fun _ hc' => (of_mem_next hc').2.2.1

/-- A copy that names the segment the broadcast comes from is passed on naming it. -/
theorem of_copy (routed : d.Routed) {m n : Member} {e : Envelope}
    (station : d m.id = some m.station) (neighbor : n ∈ d.neighbors m.station)
    (skipped : n.station.segment ≠ e.sender.segment)
    (named : home = Segment.here ∨ (m.station.departing e.sender).segment = home)
    (recipient : Address) (left : Nat) :
    Outward d home ⟨m, n, recipient, e.copyFrom m.station left, true⟩ := by
  refine of_neighbor routed station neighbor ?_ named
  show n.station.segment ≠ (m.station.departing e.sender).segment
  rw [Station.segment_departing]
  split
  · exact (routed.segment_ne_of_mem station neighbor).2.2
  · exact skipped

/-- A neighbor that was called further away calls further away in turn. -/
theorem of_mem_next (routed : d.Routed) (h : c.Outward d home) (hc : c' ∈ c.next d) :
    c'.Outward d home := by
  obtain ⟨-, hneighbor, -, hskipped, left, -, he⟩ := Call.of_mem_next hc
  rw [he]
  refine of_copy routed (Directory.apply_of_mem_neighbors h.neighbor) hneighbor hskipped ?_ _ _
  -- Only a sender on segment zero is named anew, and no broadcast comes from there by then.
  by_cases here : home = Segment.here
  · exact Or.inl here
  · have hnamed := h.named.resolve_left here
    rw [Station.segment_departing, hnamed, if_neg here]
    exact Or.inr rfl

/-- What a call further away leads to goes further away. -/
theorem of_leads (routed : d.Routed) (h : c.Outward d home) (leads : c.Leads d c') :
    c'.Outward d home := by
  induction leads with
  | refl => exact h
  | tail _ hnext ih => exact ih.of_mem_next routed hnext

end Outward

end Call

namespace Directory

/-- Among the events are exactly the calls that `calls` lead to, each of which takes a broadcast
further away from the segment `home`, and whatever is put onto a segment is `spoken` by the station
itself or put there by a neighbor that is called. -/
structure Spreads (d : Directory) (m : Member) (home : Segment) (calls : List Call)
    (spoken : Option Transmission) (events : List Event) : Prop where
  /-- The station itself calls first. -/
  begins : ∀ c ∈ calls, c.source = m
  /-- A neighbor is handed an envelope in the calls only. -/
  relayed : ∀ {source target : NodeId} {ingress : Segment} {recipient : Address} {e : Envelope}
    {broadcast : Bool}, .relayed source target ingress recipient e broadcast ∈ events ↔
      ∃ c ∈ calls, ∃ c', c.Leads d c' ∧
        c'.event = .relayed source target ingress recipient e broadcast
  /-- Every call goes further away. -/
  outward : ∀ c ∈ calls, ∀ c', c.Leads d c' → c'.Outward d home
  /-- Frames are put onto segments by the station itself and the neighbors that are called. -/
  transmitted : ∀ {id : NodeId} {t : Transmission}, .transmitted id t ∈ events →
    id = m.id ∧ some t = spoken ∨ ∃ c ∈ calls, ∃ c', c.Leads d c' ∧ c'.target.id = id

variable {d : Directory} {m : Member} {home : Segment} {events own : List Event}
  {calls : List Call} {spoken : Option Transmission}

/-- Calls further away spread a broadcast if the station itself hands nothing on besides them. -/
theorem spreads_of_calls (routed : d.Routed)
    (split : ∀ event, event ∈ events ↔ event ∈ calls.flatMap (Call.events d) ∨ event ∈ own)
    (begins : ∀ c ∈ calls, c.source = m) (outward : ∀ c ∈ calls, c.Outward d home)
    (alone : ∀ event ∈ own, event.Leaves → ∃ t, event = .transmitted m.id t ∧ some t = spoken) :
    d.Spreads m home calls spoken events where
  begins := begins
  outward c hc c' hleads := (outward c hc).of_leads routed hleads
  relayed := by
    intro source target ingress recipient e broadcast
    rw [split, List.mem_flatMap]
    constructor
    · rintro (⟨c, hc, h⟩ | h)
      · obtain ⟨c', hleads, h | h⟩ := Call.mem_events_iff.mp h
        · exact ⟨c, hc, c', hleads, h.symm⟩
        · rcases Call.of_mem_own h with ⟨-, h⟩ | h | ⟨fault, h⟩ <;> cases h
      · obtain ⟨t, ht, -⟩ := alone _ h trivial
        cases ht
    · rintro ⟨c, hc, c', hleads, h⟩
      exact Or.inl ⟨c, hc, Call.mem_events_iff.mpr ⟨c', hleads, Or.inl h.symm⟩⟩
  transmitted := by
    intro id t ht
    rw [split, List.mem_flatMap] at ht
    rcases ht with ⟨c, hc, h⟩ | h
    · obtain ⟨c', hleads, h | h⟩ := Call.mem_events_iff.mp h
      · cases h
      · rcases Call.of_mem_own h with ⟨-, h⟩ | h | ⟨fault, h⟩ <;> cases h
        exact Or.inr ⟨c, hc, c', hleads, rfl⟩
    · obtain ⟨t', ht, hspoken⟩ := alone _ h trivial
      cases ht
      exact Or.inl ⟨rfl, hspoken⟩

theorem mem_neighbors_of_mem_audience {s : Station} {msg : Message} {n : Member}
    (h : n ∈ d.audience s msg) : n ∈ d.neighbors s := by
  unfold audience at h
  split at h
  · cases h
  · exact h

/-- Only neighbors with a slot are called to send a message to every segment. -/
theorem neighbor_of_mem_called {s : Station} {msg : Message} {n : Member}
    (everywhere : msg.recipient.isGlobal = true) (h : n ∈ d.called s msg) : n ∈ d.neighbors s := by
  rw [called, if_pos everywhere] at h
  exact mem_neighbors_of_mem_audience h

/-- The calls that begin a global send go away from the segment of the station. -/
theorem outward_call (routed : d.Routed) (station : d m.id = some m.station) {msg : Message}
    {sender : Address} {n : Member} (address : m.station.address = .ok sender)
    (neighbor : n ∈ d.neighbors m.station) :
    (msg.call m sender n).Outward d m.station.segment := by
  have hsender : sender.segment = m.station.segment := Address.segment_of address
  refine Call.Outward.of_neighbor routed station neighbor ?_ (Or.inr hsender)
  show n.station.segment ≠ sender.segment
  rw [hsender]
  exact (routed.segment_ne_of_mem station neighbor).2.2

/-- A message that is sent to every segment spreads from the segment of the station. -/
theorem spreads_send (routed : d.Routed) (station : d m.id = some m.station) {msg : Message}
    (everywhere : msg.recipient.isGlobal = true) :
    ∃ calls, d.Spreads m m.station.segment calls (some (msg.transmission msg.header none))
      (d.send m msg).events := by
  obtain ⟨calls, own, hevents, hcalls, hown⟩ := d.exists_calls_send m msg
  have hsplit : ∀ event, event ∈ (d.send m msg).events ↔
      event ∈ calls.flatMap (Call.events d) ∨ event ∈ own := by
    intro event
    rw [hevents, List.mem_append]
  refine ⟨calls, spreads_of_calls routed hsplit ?_ ?_ ?_⟩
  · intro c hc
    obtain ⟨sender, n, -, -, rfl⟩ := hcalls c hc
    rfl
  · intro c hc
    obtain ⟨sender, n, haddress, hn, rfl⟩ := hcalls c hc
    exact outward_call routed station haddress (neighbor_of_mem_called everywhere hn)
  · intro event hevent _
    obtain ⟨header, router, hspoken, hput⟩ := hown event hevent
    rw [spoken, everywhere, Bool.true_or, if_pos rfl] at hspoken
    cases hspoken
    exact ⟨_, (Member.mem_put_iff.mp hput).1, rfl⟩

/-- The envelope in a frame for every segment is for everybody. -/
theorem recipient_of_parse_everywhere (routed : d.Routed) (station : d m.id = some m.station)
    {frame origin payload : Bytes} {header : Header} {dst : Destination} {e : Envelope}
    (hd : decode frame = .ok (header, payload)) (destination : header.destination = some dst)
    (everywhere : dst.segment = Segment.everywhere)
    (he : d.parse m.station frame origin = .ok (some e)) :
    e.recipient = some Address.everywhere ∧ senderOf header origin = .ok e.sender := by
  obtain ⟨header', payload', recipient, sender, hd', -, hrecipient, hsender, rfl⟩ := of_parse he
  rw [hd] at hd'
  cases hd'
  refine ⟨?_, hsender⟩
  have hforeign : ¬ dst.segment = m.station.segment := by
    rw [everywhere]
    exact fun h => routed.segment_ne station h.symm
  rw [recipientOf, destination] at hrecipient
  dsimp only at hrecipient
  rw [if_neg hforeign, Destination.address, everywhere, Address.of_everywhere] at hrecipient
  exact (Except.ok.inj hrecipient).symm

/-- A frame for every segment spreads from the segment that it comes from. -/
theorem spreads_receive (routed : d.Routed) (station : d m.id = some m.station)
    {frame origin payload : Bytes} {header : Header} {dst : Destination}
    (hd : decode frame = .ok (header, payload)) (destination : header.destination = some dst)
    (everywhere : dst.segment = Segment.everywhere) :
    ∃ calls, d.Spreads m (m.station.sourceSegment header) calls none
      (d.receive m frame origin).events := by
  obtain ⟨calls, own, hevents, hcalls, hown⟩ := d.exists_calls_receive m frame origin
  have hcopies : ∀ c ∈ calls, ∃ (e : Envelope) (n : Member) (left : Nat),
      senderOf header origin = .ok e.sender ∧
      n ∈ d.neighbors m.station ∧ n.station.segment ≠ e.sender.segment ∧
      c = ⟨m, n, Address.everywhere, e.copyFrom m.station left, true⟩ := by
    intro c hc
    obtain ⟨e, he, hc⟩ := hcalls c hc
    obtain ⟨hrecipient, hsender⟩ :=
      recipient_of_parse_everywhere routed station hd destination everywhere he
    have hcopies : c ∈ d.copies e.hopCount.toNat m e [e.sender.segment] := by
      rcases of_mem_onward hc with ⟨-, hc⟩ | ⟨a, n, ha, hsingle, -⟩
      · exact hc
      · cases hrecipient.symm.trans ha
        cases hsingle
    obtain ⟨left, -, hneighbor, hskipped, hc⟩ := of_mem_copies hcopies
    exact ⟨e, c.target, left, hsender, hneighbor, by simpa using hskipped, hc⟩
  refine ⟨calls, spreads_of_calls routed hevents ?_ ?_ ?_⟩
  · intro c hc
    obtain ⟨e, n, left, -, -, -, rfl⟩ := hcopies c hc
    rfl
  · intro c hc
    obtain ⟨e, n, left, hsender, hneighbor, hskipped, rfl⟩ := hcopies c hc
    exact Call.Outward.of_copy routed station hneighbor hskipped
      (Or.inr (Station.segment_departing_senderOf hsender)) _ _
  · intro event hevent hleaves
    rcases hown event hevent with rfl | rfl | ⟨fault, rfl⟩ | ⟨e, -, rfl⟩ <;> cases hleaves

end Directory

namespace Network

variable {net : Network} {id : NodeId} {m : Member}

/-- Split horizon: whatever a station sends or takes in for every segment, wherever routes lead, a
neighbor is called only on another segment than that of its caller, than the one that its caller was
called from, and than that of the sender, and no neighbor puts a copy onto the segment that the
broadcast comes from. -/
theorem split_horizon (reachable : net.Reachable) (hm : net.member? id = some m) :
    (∀ msg : Message, msg.recipient.isGlobal = true →
      ∃ calls, net.directory.Spreads m m.station.segment calls
        (some (msg.transmission msg.header none)) (net.directory.send m msg).events) ∧
    ∀ (frame origin payload : Bytes) (header : Header) (dst : Destination),
      decode frame = .ok (header, payload) → header.destination = some dst →
      dst.segment = Segment.everywhere →
      ∃ calls, net.directory.Spreads m (m.station.sourceSegment header) calls none
        (net.directory.receive m frame origin).events := by
  obtain ⟨s, hs, rfl⟩ := Option.map_eq_some_iff.mp hm
  have hrouted := reachable.routed.directory
  exact ⟨fun _ everywhere => Directory.spreads_send hrouted hs everywhere,
    fun _ _ _ _ _ hd destination everywhere =>
      Directory.spreads_receive hrouted hs hd destination everywhere⟩

/-- A router of `ring`. -/
private def ringRouter (id : NodeId) (segment next : Segment) (target : NodeId) : Member :=
  ⟨id, {
    segment
    attachment := wireAttachment [segment.toUInt8] none
    routes := ⟨segment, ⟨[(next, target)]⟩, [some next]⟩ }⟩

/-- The router of `ring` on segment one. -/
private def ringFirst : Member := ringRouter 0 1 2 1

/-- Three routers, each of which leads to the next one only. -/
def ring : Network where
  nodes := [ringFirst, ringRouter 1 2 3 2, ringRouter 2 3 1 0].map fun m =>
    some { station := m.station, medium := .wire false [], keepsFaults := true }

private theorem reachable_ring : ring.Reachable := by
  have hone := Reachable.empty.addNode
    (rfl : Network.addNode {} 1 (wireAttachment [1] none) (.wire false []) true = .ok (0, _))
  have htwo := hone.addNode
    (rfl : Network.addNode _ 2 (wireAttachment [2] none) (.wire false []) true = .ok (1, _))
  have hthree := htwo.addNode
    (rfl : Network.addNode _ 3 (wireAttachment [3] none) (.wire false []) true = .ok (2, _))
  have hfirst := hthree.addRoute (rfl : Network.addRoute _ 0 1 = .ok (1, _))
  have hsecond := hfirst.addRoute (rfl : Network.addRoute _ 1 2 = .ok (1, _))
  exact hsecond.addRoute (rfl : Network.addRoute _ 2 0 = .ok (1, _))

/-- The second router of `ring` calls the third one, which does not call the first one. -/
theorem split_horizon_ring :
    (∃ calls, ring.directory.Spreads ringFirst 1 calls
      (some (Message.transmission { recipient := .everywhere, payload := [9] } {} none))
      (ring.directory.send ringFirst { recipient := .everywhere, payload := [9] }).events) ∧
    (∃ calls, ring.directory.Spreads ringFirst 1 calls none
      (ring.directory.receive ringFirst [1, 0x20, 0xff, 0xff, 0, 255, 9] [8]).events) ∧
    ((ring.directory.receive ringFirst [1, 0x20, 0xff, 0xff, 0, 255, 9] [8]).events.filterMap
      fun | .relayed source target .. => some (source, target) | _ => none) = [(0, 1), (1, 2)] := by
  have hmember : ring.member? 0 = some ringFirst := rfl
  obtain ⟨hsend, hreceive⟩ := split_horizon reachable_ring hmember
  exact ⟨hsend _ rfl, hreceive _ [8] [9] { destination := some ⟨0xffff, none, 255⟩ } _ rfl rfl rfl,
    rfl⟩

end Network

end Fieldbus
