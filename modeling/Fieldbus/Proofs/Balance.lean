import Fieldbus.Proofs.Echoes
import Fieldbus.Proofs.Records

/-!
# The balance of a station

Whatever makes a station act, a frame from its medium or an envelope from a neighbor (`Summons`), the
station accounts once for every frame it takes in and for every global broadcast a neighbor hands it:
it keeps it, discards it or passes it on, unless the handling of a frame breaks off. Main statements:
this balance holds at every node (`Scene.balance`), and nothing happens at a terminated station that is
not made to send (`Scene.isActive_place`).
-/

namespace Fieldbus

/-- What a station can be made to do. -/
inductive Summons where
  /-- Its node has a message to send. -/
  | send (msg : Message)
  /-- Its medium hands it a frame that the node `origin` put there. -/
  | receive (frame origin : Bytes)
  /-- A neighbor on segment `ingress` hands it an envelope. -/
  | relay (ingress : Segment) (recipient : Address) (e : Envelope) (broadcast : Bool)
  /-- Its transport has it answer a query for a router. -/
  | answerRouterQuery (query : Envelope)
  /-- Its transport has it answer a query for the number of its segment. -/
  | answerSegmentQuery (query : Envelope)

namespace Summons

/-- What a station does when it is made to. -/
def run (d : Directory) (m : Member) : Summons → Run
  | send msg => d.send m msg
  | receive frame origin => d.receive m frame origin
  | relay ingress recipient e broadcast => { events := d.relay m ingress recipient e broadcast }
  | answerRouterQuery query => d.answerRouterQuery m query
  | answerSegmentQuery query => d.answerSegmentQuery m query

/-- The station is handed something. -/
def isIncoming : Summons → Bool
  | receive .. => true
  | relay .. => true
  | _ => false

/-- The station is handed an envelope for everybody by a neighbor. -/
def isSpread : Summons → Bool
  | relay _ recipient _ _ => recipient.isGlobal
  | _ => false

end Summons

/-- An envelope has reached a given node. -/
@[simp] def Event.isArrival (id : NodeId) : Event → Bool
  | .arrived node _ => node == id
  | _ => false

theorem length_arrivals (id : NodeId) (events : List Event) :
    (arrivals id events).length = events.countP (Event.isArrival id) := by
  rw [arrivals, List.length_filterMap_eq_countP]
  refine List.countP_congr fun event _ => ?_
  cases event with
  | arrived node e => by_cases h : node = id <;> simp [h]
  | _ => simp

/-- Nothing is counted among events that do not count. -/
theorem countP_eq_zero_of_forall {p : Event → Bool} {events : List Event}
    (h : ∀ event ∈ events, p event = false) : events.countP p = 0 :=
  List.countP_eq_zero.mpr fun event he => Bool.eq_false_iff.mp (h event he)

namespace Directory

/-- A node has a station that is not terminated. -/
def isActive (d : Directory) (id : NodeId) : Bool := (d id).any fun s => !s.terminated

/-- A neighbor hands an envelope for everybody to the station of a given node, which is active. -/
@[simp] def isSpreadTo (d : Directory) (id : NodeId) : Event → Bool
  | .relayed _ target _ recipient _ _ => target == id && recipient.isGlobal && d.isActive id
  | _ => false

theorem isActive_of_apply {d : Directory} {id : NodeId} {s : Station} (h : d id = some s) :
    d.isActive id = !s.terminated := by
  rw [isActive, h, Option.any_some]

end Directory

/-! ## Calls -/

/-- The call in which a neighbor on a given segment hands an envelope to a station. Nothing else of
the neighbor matters. -/
def Member.calledFrom (m : Member) (ingress : Segment) (recipient : Address) (e : Envelope)
    (broadcast : Bool) : Call :=
  ⟨⟨m.id, { m.station with segment := ingress }⟩, m, recipient, e, broadcast⟩

namespace Call

variable {d : Directory} {c c' : Call} {event : Event}

/-- A neighbor that does something itself is active, and does it at its node. -/
theorem place_of_mem_own (h : event ∈ c.own) :
    event.place = c.target.id ∧ c.target.station.terminated = false := by
  have hactive : c.target.station.terminated = false := by
    unfold own at h
    split at h
    · cases h
    · exact eq_false_of_ne_true ‹_›
  rcases of_mem_own h with ⟨-, rfl⟩ | rfl | ⟨fault, rfl⟩ <;> exact ⟨rfl, hactive⟩

/-- A neighbor that calls others in turn is active. -/
theorem active_of_mem_next (h : c' ∈ c.next d) : c.target.station.terminated = false := by
  unfold next at h
  split at h
  · cases h
  · rename_i hcalls
    cases ht : c.target.station.terminated with
    | false => rfl
    | true => simp [ht] at hcalls

/-- Whatever comes of a call, apart from the call itself, happens at active stations. -/
theorem isActive_place (station : d c.target.id = some c.target.station)
    (h : event ∈ c.events d) : event = c.event ∨ d.isActive event.place = true := by
  obtain ⟨c', hleads, h⟩ := mem_events_iff.mp h
  rcases h with rfl | h
  · cases hleads with
    | refl => exact Or.inl rfl
    | @tail c'' _ hleads hnext =>
      -- A call that is made in turn comes from the neighbor that was called.
      obtain ⟨-, -, -, -, left, -, hc⟩ := of_mem_next hnext
      have hplace : c'.event.place = c''.target.id := by rw [hc]; rfl
      rw [hplace, Directory.isActive_of_apply (station_of_leads station hleads),
        active_of_mem_next hnext]
      exact Or.inr rfl
  · obtain ⟨hplace, hactive⟩ := place_of_mem_own h
    rw [hplace, Directory.isActive_of_apply (station_of_leads station hleads), hactive]
    exact Or.inr rfl

/-- Nothing that comes of a call is a frame that is taken in or discarded. -/
theorem not_frame_of_mem_events (h : event ∈ c.events d) (id : NodeId) :
    event.isReception id = false ∧ event.isDrop id = false := by
  obtain ⟨c', -, rfl | h⟩ := mem_events_iff.mp h
  · exact ⟨rfl, rfl⟩
  · rcases of_mem_own h with ⟨-, rfl⟩ | rfl | ⟨fault, rfl⟩ <;> exact ⟨rfl, rfl⟩

/-- A neighbor that is called keeps what is for everybody, and only that. -/
theorem countP_isArrival_own (station : d c.target.id = some c.target.station) (id : NodeId) :
    c.own.countP (Event.isArrival id) = (d.isSpreadTo id c.event).toNat := by
  have hput : (c.target.putEnvelope c.recipient c.envelope c.broadcast).countP
      (Event.isArrival id) = 0 := by
    refine countP_eq_zero_of_forall fun event h => ?_
    rcases Member.of_mem_putEnvelope h with rfl | ⟨fault, rfl⟩ <;> rfl
  have hspread : d.isSpreadTo id c.event =
      (c.target.id == id && c.recipient.isGlobal && d.isActive id) := rfl
  rw [hspread, own]
  by_cases hid : c.target.id = id
  · subst hid
    rw [Directory.isActive_of_apply station]
    cases c.target.station.terminated <;> cases c.recipient.isGlobal <;>
      simp only [List.countP_append, hput, Bool.false_eq_true, ite_false, ite_true] <;> simp
  · have hother : (c.target.id == id) = false := beq_eq_false_iff_ne.mpr hid
    cases c.target.station.terminated <;> cases c.recipient.isGlobal <;>
      simp only [List.countP_append, hput, hother, Bool.false_eq_true, ite_false, ite_true] <;>
        simp [hid]

/-- What is for everybody arrives wherever it is handed to an active station. -/
theorem countP_isArrival_events (station : d c.target.id = some c.target.station) (id : NodeId) :
    (c.events d).countP (Event.isArrival id) = (c.events d).countP (d.isSpreadTo id) := by
  -- Every call that is made in turn has fewer hops left.
  induction hn : c.envelope.hopCount.toNat using Nat.strongRecOn generalizing c with
  | ind n ih =>
    have hnext : ((c.next d).flatMap (events d)).countP (Event.isArrival id) =
        ((c.next d).flatMap (events d)).countP (d.isSpreadTo id) := by
      rw [List.countP_flatMap, List.countP_flatMap]
      refine congrArg List.sum (List.map_congr_left fun c' hc' => ?_)
      have hhops := hopCount_of_mem_next hc'
      exact ih _ (by omega) (Directory.apply_of_mem_neighbors (of_mem_next hc').2.1) rfl
    have hspread : c.own.countP (d.isSpreadTo id) = 0 := by
      refine countP_eq_zero_of_forall fun event h => ?_
      rcases of_mem_own h with ⟨-, rfl⟩ | rfl | ⟨fault, rfl⟩ <;> rfl
    have hevent : Event.isArrival id c.event = false := rfl
    rw [events_eq, List.countP_cons, List.countP_cons, List.countP_append, List.countP_append,
      hnext, hspread, hevent, countP_isArrival_own station]
    cases d.isSpreadTo id c.event <;> rfl

end Call

namespace Fate

/-- The envelope is passed on. -/
def isPassed : Fate → Bool
  | passed .. => true
  | _ => false

/-- The handling of the frame breaks off. -/
def isBrokenOff : Fate → Bool
  | brokenOff _ => true
  | _ => false

end Fate

namespace Directory

variable {d : Directory} {m : Member} {events events' : List Event}

/-- What is for everybody arrives wherever it is handed to an active station, and nobody takes a frame
in or discards one. -/
structure Circulates (d : Directory) (events : List Event) : Prop where
  /-- Envelopes arrive where they are spread to. -/
  arrival : ∀ id, events.countP (Event.isArrival id) = events.countP (d.isSpreadTo id)
  /-- No frame is taken in. -/
  reception : ∀ id, events.countP (Event.isReception id) = 0
  /-- No frame is discarded. -/
  drop : ∀ id, events.countP (Event.isDrop id) = 0

theorem Circulates.nil (d : Directory) : d.Circulates [] := ⟨fun _ => rfl, fun _ => rfl, fun _ => rfl⟩

theorem Circulates.append (h : d.Circulates events) (h' : d.Circulates events') :
    d.Circulates (events ++ events') where
  arrival id := by rw [List.countP_append, List.countP_append, h.arrival, h'.arrival]
  reception id := by rw [List.countP_append, h.reception, h'.reception]
  drop id := by rw [List.countP_append, h.drop, h'.drop]

/-- Transmissions spread nothing. -/
theorem circulates_of_transmitted (h : ∀ event ∈ events, ∃ id t, event = .transmitted id t) :
    d.Circulates events := by
  have hzero : ∀ {p : Event → Bool}, (∀ id t, p (.transmitted id t) = false) →
      events.countP p = 0 := by
    refine fun hp => countP_eq_zero_of_forall fun event he => ?_
    obtain ⟨id, t, rfl⟩ := h event he
    exact hp id t
  exact ⟨fun _ => (hzero fun _ _ => rfl).trans (hzero fun _ _ => rfl).symm,
    fun _ => hzero fun _ _ => rfl, fun _ => hzero fun _ _ => rfl⟩

/-- Calling a neighbor spreads what is for everybody. -/
theorem circulates_events {c : Call} (station : d c.target.id = some c.target.station) :
    d.Circulates (c.events d) where
  arrival := Call.countP_isArrival_events station
  reception id := countP_eq_zero_of_forall fun _ h => (Call.not_frame_of_mem_events h id).1
  drop id := countP_eq_zero_of_forall fun _ h => (Call.not_frame_of_mem_events h id).2

theorem circulates_flatMap_events {calls : List Call}
    (station : ∀ c ∈ calls, d c.target.id = some c.target.station) :
    d.Circulates (calls.flatMap (Call.events d)) := by
  induction calls with
  | nil => exact Circulates.nil d
  | cons c rest ih =>
    obtain ⟨hc, hrest⟩ := List.forall_mem_cons.mp station
    rw [List.flatMap_cons]
    exact (circulates_events hc).append (ih hrest)

/-- Sending a message spreads it. -/
theorem circulates_send (d : Directory) (m : Member) (msg : Message) :
    d.Circulates (d.send m msg).events := by
  obtain ⟨calls, own, hevents, hcalls, hown⟩ := d.exists_calls_send m msg
  rw [hevents]
  refine Circulates.append (circulates_flatMap_events fun c hc => ?_)
    (circulates_of_transmitted fun event h => ?_)
  · obtain ⟨sender, n, -, hn, rfl⟩ := hcalls c hc
    obtain ⟨segment, hn⟩ := exists_route_of_mem_called hn
    exact (neighborOn?_eq_some_iff.mp hn).2
  · obtain ⟨header, router, -, hput⟩ := hown event h
    exact ⟨_, _, (Member.mem_put_iff.mp hput).1⟩

/-- An announcement is a message that is sent, unless there is nobody to send it to. -/
theorem announce_cases (d : Directory) (m : Member) (message : Address → Message) :
    (d.announce m message).events = [] ∨
      ∃ msg, (d.announce m message).events = (d.send m msg).events := by
  unfold announce
  split
  · exact Or.inl rfl
  · exact Or.inr ⟨_, rfl⟩

/-- A station that is handed nothing sends a message, or does nothing. -/
theorem events_of_not_isIncoming {summons : Summons} (outgoing : summons.isIncoming = false) :
    (summons.run d m).events = [] ∨ ∃ msg, (summons.run d m).events = (d.send m msg).events := by
  cases summons with
  | send msg => exact Or.inr ⟨msg, rfl⟩
  | receive => cases outgoing
  | relay => cases outgoing
  | answerRouterQuery query =>
    unfold Summons.run answerRouterQuery
    dsimp only
    split
    · exact Or.inl rfl
    · split
      · exact Or.inl rfl
      · exact d.announce_cases m _
  | answerSegmentQuery query =>
    unfold Summons.run answerSegmentQuery
    dsimp only
    split
    · exact Or.inl rfl
    · exact d.announce_cases m _

theorem circulates_of_not_isIncoming {summons : Summons} (outgoing : summons.isIncoming = false) :
    d.Circulates (summons.run d m).events := by
  rcases events_of_not_isIncoming outgoing with hnone | ⟨msg, hsend⟩
  · rw [hnone]
    exact Circulates.nil d
  · rw [hsend]
    exact d.circulates_send m msg

/-- The calls that a station makes for a frame are calls of its neighbors. -/
theorem station_of_mem_calls {frame origin : Bytes} {c : Call}
    (h : c ∈ (d.fate m frame origin).calls d m) :
    d c.target.id = some c.target.station ∧ c.event.place = m.id := by
  cases hfate : d.fate m frame origin with
  | spread e =>
    rw [hfate] at h
    obtain ⟨left, -, hneighbor, -, hc⟩ := of_mem_copies h
    exact ⟨apply_of_mem_neighbors hneighbor, by rw [hc]; rfl⟩
  | passed e a n =>
    obtain ⟨-, -, -, -, hneighbor⟩ := of_fate_eq_passed hfate
    rw [hfate] at h
    obtain rfl := List.mem_singleton.mp h
    exact ⟨(neighborOn?_eq_some_iff.mp hneighbor).2, rfl⟩
  | _ =>
    rw [hfate] at h
    cases h

/-- Whatever happens when a message is sent happens at the sender or at active stations. -/
theorem place_of_mem_send {msg : Message} {event : Event} (h : event ∈ (d.send m msg).events) :
    event.place = m.id ∨ d.isActive event.place = true := by
  obtain ⟨calls, own, hevents, hcalls, hown⟩ := d.exists_calls_send m msg
  rw [hevents, List.mem_append, List.mem_flatMap] at h
  rcases h with ⟨c, hc, h⟩ | h
  · obtain ⟨sender, n, -, hn, rfl⟩ := hcalls c hc
    obtain ⟨segment, hn⟩ := exists_route_of_mem_called hn
    rcases Call.isActive_place (neighborOn?_eq_some_iff.mp hn).2 h with rfl | hactive
    · exact Or.inl rfl
    · exact Or.inr hactive
  · obtain ⟨header, router, -, hput⟩ := hown event h
    rw [(Member.mem_put_iff.mp hput).1]
    exact Or.inl rfl

/-- Whatever happens when a frame is taken in happens at active stations. -/
theorem isActive_place_receive (station : d m.id = some m.station) {frame origin : Bytes}
    {event : Event} (h : event ∈ (d.receive m frame origin).events) :
    d.isActive event.place = true := by
  cases ht : m.station.terminated with
  | true =>
    rw [receive_of_terminated ht] at h
    cases h
  | false =>
    have hself : d.isActive m.id = true := by rw [isActive_of_apply station, ht]; rfl
    rw [events_receive ht, List.mem_cons, List.mem_append, List.mem_flatMap] at h
    rcases h with rfl | ⟨c, hc, h⟩ | h
    · exact hself
    · obtain ⟨hc, hplace⟩ := station_of_mem_calls hc
      rcases Call.isActive_place hc h with rfl | hactive
      · rw [hplace]
        exact hself
      · exact hactive
    · rcases Fate.of_mem_last h with rfl | ⟨fault, rfl⟩ | ⟨e, rfl⟩ <;> exact hself

/-- The handling of a frame breaks off if nothing else becomes of it. -/
theorem result_receive_eq (active : m.station.terminated = false) (frame origin : Bytes) :
    (d.receive m frame origin).result =
      match d.fate m frame origin with
      | .brokenOff overlong => .error (.overlong overlong)
      | _ => .ok () := by
  unfold receive fate
  rw [active]
  simp only [Bool.false_eq_true, ite_false]
  rcases d.parse m.station frame origin with (fault | overlong) | (_ | e)
  · rfl
  · rfl
  · rfl
  · dsimp only
    cases isOwn m.station e origin with
    | true => rfl
    | false =>
      cases e.recipient.filter fun a => !m.station.answersTo a with
      | none => rfl
      | some a =>
        dsimp only
        cases a.isGlobal with
        | true => rfl
        | false => cases d.neighborOn? m.station a.segment <;> rfl

/-- Whatever happens when a station is handed an envelope happens at active stations. -/
theorem isActive_place_relay (station : d m.id = some m.station) {ingress : Segment}
    {recipient : Address} {e : Envelope} {broadcast : Bool} {event : Event}
    (h : event ∈ d.relay m ingress recipient e broadcast) : d.isActive event.place = true := by
  cases ht : m.station.terminated with
  | true =>
    rw [relay_of_terminated ht] at h
    cases h
  | false =>
    have hcall : event ∈ (m.calledFrom ingress recipient e broadcast).events d :=
      List.mem_cons_of_mem _ h
    rcases Call.isActive_place station hcall with rfl | hactive
    · exact (isActive_of_apply station).trans (by rw [ht]; rfl)
    · exact hactive

/-- A frame that a station takes in is kept or discarded there, unless it is passed on or its handling
breaks off. -/
theorem balance_receive (active : m.station.terminated = false) (frame origin : Bytes)
    (id : NodeId) :
    (d.receive m frame origin).events.countP (Event.isArrival id) +
        (d.receive m frame origin).events.countP (Event.isDrop id) +
        (m.id == id && (d.fate m frame origin).isPassed).toNat +
        (m.id == id && (d.fate m frame origin).isBrokenOff).toNat =
      (d.receive m frame origin).events.countP (Event.isReception id) +
        (d.receive m frame origin).events.countP (d.isSpreadTo id) := by
  obtain ⟨harrival, hreception, hdrop⟩ :
      d.Circulates (((d.fate m frame origin).calls d m).flatMap (Call.events d)) :=
    circulates_flatMap_events fun c hc => (station_of_mem_calls hc).1
  rw [events_receive active]
  simp only [List.countP_cons, List.countP_append, harrival, hreception, hdrop]
  -- What is left is the frame itself and what happens last, both at the station.
  cases hid : m.id == id <;> rcases d.fate m frame origin with (_ | _) | _ | _ | _ | _ <;>
    simp [Fate.last, Fate.isPassed, Fate.isBrokenOff, hid] <;> omega

/-- What a station is handed for everybody it keeps, and so does every neighbor that it is handed on
to. -/
theorem balance_relay (station : d m.id = some m.station) (ingress : Segment) (recipient : Address)
    (e : Envelope) (broadcast : Bool) (id : NodeId) :
    (d.relay m ingress recipient e broadcast).countP (Event.isArrival id) =
        (d.relay m ingress recipient e broadcast).countP (d.isSpreadTo id) +
          (m.id == id && recipient.isGlobal && d.isActive id).toNat ∧
      (d.relay m ingress recipient e broadcast).countP (Event.isReception id) = 0 ∧
      (d.relay m ingress recipient e broadcast).countP (Event.isDrop id) = 0 := by
  obtain ⟨harrival, hreception, hdrop⟩ :
      d.Circulates ((m.calledFrom ingress recipient e broadcast).events d) :=
    circulates_events station
  have hevents : (m.calledFrom ingress recipient e broadcast).events d =
      (m.calledFrom ingress recipient e broadcast).event ::
        d.relay m ingress recipient e broadcast := rfl
  have hspread : d.isSpreadTo id (m.calledFrom ingress recipient e broadcast).event =
      (m.id == id && recipient.isGlobal && d.isActive id) := rfl
  simp only [hevents, List.countP_cons] at harrival hreception hdrop
  refine ⟨?_, Nat.eq_zero_of_add_eq_zero_right (hreception id),
    Nat.eq_zero_of_add_eq_zero_right (hdrop id)⟩
  have harrival := harrival id
  rw [hspread] at harrival
  refine Eq.trans harrival ?_
  cases m.id == id && recipient.isGlobal && d.isActive id <;> rfl

/-- The destination that a station finds in a frame is that of one segment only. -/
def isSpecific (d : Directory) (m : Member) (frame origin : Bytes) : Bool :=
  match d.parse m.station frame origin with
  | .ok (some e) => e.recipient.any fun a => !a.isGlobal
  | _ => false

end Directory

/-! ## Scenes -/

/-- A station of a network is made to do something. -/
structure Scene where
  /-- The network at the time. -/
  net : Network
  /-- The station. -/
  member : Member
  /-- What it is made to do. -/
  summons : Summons

namespace Scene

/-- What the station does. -/
def run (s : Scene) : Run := s.summons.run s.net.directory s.member

/-- What happens. -/
def events (s : Scene) : List Event := s.run.events

/-- A given node takes in a frame with a specific destination and hands it to a neighbor. -/
def passesOn (id : NodeId) (s : Scene) : Bool :=
  match s.summons with
  | .receive frame origin => s.member.id == id &&
      s.net.directory.isSpecific s.member frame origin && s.events.any (Event.isForward id)
  | _ => false

/-- A given node takes in a frame, and the handling breaks off at an address that is too long. -/
def breaksOff (id : NodeId) (s : Scene) : Bool :=
  match s.summons with
  | .receive .. => s.member.id == id &&
      match s.run.result with
      | .error (.overlong _) => true
      | _ => false
  | _ => false

/-- How often a given node is handed an envelope for everybody by a neighbor, while its station is
active. -/
def spreads (id : NodeId) (s : Scene) : Nat :=
  s.events.countP (s.net.directory.isSpreadTo id) +
    (s.member.id == id && s.summons.isSpread && s.net.directory.isActive id).toNat

variable {s : Scene} {id : NodeId}

/-- Whatever happens happens at active stations, or at a station that was not handed anything. -/
theorem isActive_place (station : s.net.directory s.member.id = some s.member.station)
    {event : Event} (h : event ∈ s.events) :
    (event.place = s.member.id ∧ s.summons.isIncoming = false) ∨
      s.net.directory.isActive event.place = true := by
  obtain ⟨net, m, summons⟩ := s
  cases hincoming : summons.isIncoming with
  | false =>
    rcases Directory.events_of_not_isIncoming hincoming with hnone | ⟨msg, hsend⟩
    · rw [events, run, hnone] at h
      cases h
    · rw [events, run, hsend] at h
      exact (Directory.place_of_mem_send h).imp_left fun hplace => ⟨hplace, rfl⟩
  | true =>
    cases summons with
    | receive frame origin => exact Or.inr (Directory.isActive_place_receive station h)
    | relay ingress recipient e broadcast => exact Or.inr (Directory.isActive_place_relay station h)
    | _ => cases hincoming

section

variable {net : Network} {m : Member} {frame origin : Bytes}

/-- A frame with a specific destination is handed to a neighbor if it is passed on. -/
theorem passesOn_receive (active : m.station.terminated = false) :
    passesOn id ⟨net, m, .receive frame origin⟩ =
      (m.id == id && (net.directory.fate m frame origin).isPassed) := by
  have hevents : events ⟨net, m, .receive frame origin⟩ = _ :=
    Directory.events_receive (d := net.directory) active frame origin
  have hlast : ((net.directory.fate m frame origin).last m.id).any (Event.isForward id) = false :=
    List.any_eq_false.mpr fun event h => by
      rcases Fate.of_mem_last h with rfl | ⟨fault, rfl⟩ | ⟨e, rfl⟩ <;> exact Bool.false_ne_true
  unfold passesOn
  dsimp only
  rw [hevents, List.any_cons, List.any_append, hlast, Directory.isSpecific]
  cases hfate : net.directory.fate m frame origin with
  | spread e =>
    -- Whatever is for everybody has no specific destination.
    obtain ⟨he, -, heverywhere⟩ := Directory.of_fate_eq_spread hfate
    rw [he]
    dsimp only
    rw [heverywhere]
    simp [Fate.isPassed, Address.isGlobal]
  | passed e a n =>
    obtain ⟨he, -, hrecipient, hsingle, -⟩ := Directory.of_fate_eq_passed hfate
    have hspecific : e.recipient.any (fun a => !a.isGlobal) = true := by
      rw [hrecipient, Option.any_some, hsingle]
      rfl
    rw [he]
    dsimp only
    rw [hspecific]
    cases hid : m.id == id with
    | false => rfl
    | true => simp [Fate.calls, Fate.isPassed, Call.events, Call.event, hid]
  | _ => simp [Fate.calls, Fate.isPassed]

theorem breaksOff_receive (active : m.station.terminated = false) :
    breaksOff id ⟨net, m, .receive frame origin⟩ =
      (m.id == id && (net.directory.fate m frame origin).isBrokenOff) := by
  have hresult : (run ⟨net, m, .receive frame origin⟩).result = _ :=
    Directory.result_receive_eq (d := net.directory) active frame origin
  unfold breaksOff
  dsimp only
  rw [hresult]
  cases net.directory.fate m frame origin <;> rfl

end

theorem spreads_of_not_isSpread (h : s.summons.isSpread = false) :
    s.spreads id = s.events.countP (s.net.directory.isSpreadTo id) := by
  rw [spreads, h, Bool.and_false, Bool.false_and]
  rfl

/-- A station that is handed nothing takes no frame in, and nothing is spread to it. -/
theorem of_not_isIncoming (h : s.summons.isIncoming = false) (id : NodeId) :
    s.passesOn id = false ∧ s.breaksOff id = false ∧ s.summons.isSpread = false := by
  obtain ⟨net, m, summons⟩ := s
  cases summons with
  | receive => cases h
  | relay => cases h
  | _ => exact ⟨rfl, rfl, rfl⟩

/-- At every node, all frames and all that is spread to it are accounted for: as many envelopes have
arrived and as many frames were discarded, passed on or broken off as frames were taken in and
envelopes spread to it. -/
theorem balance (station : s.net.directory s.member.id = some s.member.station) (id : NodeId) :
    s.events.countP (Event.isArrival id) + s.events.countP (Event.isDrop id) +
        (s.passesOn id).toNat + (s.breaksOff id).toNat =
      s.events.countP (Event.isReception id) + s.spreads id := by
  cases hincoming : s.summons.isIncoming with
  | false =>
    obtain ⟨hpasses, hbreaks, hspread⟩ := s.of_not_isIncoming hincoming id
    obtain ⟨harrival, hreception, hdrop⟩ : s.net.directory.Circulates s.events :=
      Directory.circulates_of_not_isIncoming hincoming
    rw [hpasses, hbreaks, spreads_of_not_isSpread hspread, harrival, hreception, hdrop]
    exact (Nat.zero_add _).symm
  | true =>
    obtain ⟨net, m, summons⟩ := s
    cases summons with
    | receive frame origin =>
      rw [spreads_of_not_isSpread rfl]
      cases ht : m.station.terminated with
      | true =>
        have hrun : run ⟨net, m, .receive frame origin⟩ = {} :=
          Directory.receive_of_terminated ht frame origin
        simp [events, hrun, passesOn, breaksOff]
      | false =>
        rw [passesOn_receive ht, breaksOff_receive ht]
        exact Directory.balance_receive ht frame origin id
    | relay ingress recipient e broadcast =>
      obtain ⟨harrival, hreception, hdrop⟩ :=
        Directory.balance_relay station ingress recipient e broadcast id
      have hevents : events ⟨net, m, .relay ingress recipient e broadcast⟩ =
        net.directory.relay m ingress recipient e broadcast := rfl
      rw [spreads, hevents, harrival, hreception, hdrop]
      exact (Nat.zero_add _).symm
    | _ => cases hincoming

end Scene

end Fieldbus
