import Fieldbus.Proofs.Announcements
import Fieldbus.Proofs.Occupancy

/-!
# Answers to queries for every segment

A query that names no segment asks a router for all it reaches: the segments its neighbors are on and
those that they have learned a router for, its own excepted. Main statements: each of them is listed
once, in the order in which they are first met when one goes through the slots
(`Directory.surveys_announced`), and nothing is sent but one announcement of the list
(`Network.survey_answered`).
-/

namespace Fieldbus

/-! ## The order of an announcement -/

/-- Where a segment is met when one goes through the slots of a router. -/
structure Place where
  /-- The slot of the neighbor that leads to the segment. -/
  slot : Nat
  /-- Zero if the neighbor is on the segment. Segments that the neighbor has learned a router for come
  behind, in ascending order. -/
  rank : Nat

/-- A place is met before another one. -/
def Place.Precedes (x y : Place) : Prop := x.slot < y.slot ∨ x.slot = y.slot ∧ x.rank < y.rank

/-- The segments that the neighbor in a slot leads to, and where. -/
def Member.mentions (slot : Nat) (n : Member) : List (Place × Segment) :=
  (⟨slot, 0⟩, n.station.segment) ::
    n.station.routers.segments.map fun w => (⟨slot, w.toNat + 1⟩, w)

/-- The segments that routers of a table lead to are listed in ascending order. -/
theorem RouterTable.pairwise_segments (t : RouterTable) : t.segments.Pairwise (· ≤ ·) := by
  let le (a b : Segment) : Bool := a ≤ b
  have htrans : ∀ a b c : Segment, le a b → le b c → le a c := by
    simpa [le] using fun a b c : Segment => UInt16.le_trans
  have htotal : ∀ a b : Segment, le a b || le b a := by
    simpa [le] using UInt16.le_total
  exact (List.pairwise_mergeSort htrans htotal t.routers.keys).imp of_decide_eq_true

/-- A neighbor leads to its own segment first, and then to others in ascending order. -/
theorem Member.pairwise_mentions (slot : Nat) (n : Member) :
    (n.mentions slot).Pairwise fun x y => x.2 ≠ y.2 → x.1.Precedes y.1 := by
  refine List.pairwise_cons.mpr ⟨?_, ?_⟩
  · rintro y hy -
    obtain ⟨w, -, rfl⟩ := List.mem_map.mp hy
    exact Or.inr ⟨rfl, Nat.succ_pos _⟩
  · rw [List.pairwise_map]
    refine n.station.routers.pairwise_segments.imp fun {w w'} hle hne => Or.inr ⟨rfl, ?_⟩
    have hle' : w.toNat ≤ w'.toNat := hle
    have hne' : w.toNat ≠ w'.toNat := fun he => hne (UInt16.toNat_inj.mp he)
    show w.toNat + 1 < w'.toNat + 1
    omega

/-- Of a list with the places of its members, each member that is wanted is kept where it is first
met. -/
theorem pairwise_eraseDups_filter (wanted : Segment → Bool) {l : List (Place × Segment)}
    (h : l.Pairwise fun x y => x.2 ≠ y.2 → x.1.Precedes y.1) :
    ((l.map Prod.snd).filter wanted).eraseDups.Pairwise fun w w' =>
      ∃ place, (place, w) ∈ l ∧ ∀ place', (place', w') ∈ l → place.Precedes place' := by
  induction l generalizing wanted with
  | nil => exact List.Pairwise.nil
  | cons x rest ih =>
    obtain ⟨hfirst, hrest⟩ := List.pairwise_cons.mp h
    -- Behind the first member only those are of account that are not met there.
    have hlater : ∀ {later : List Segment}, (∀ w ∈ later, w ≠ x.2) →
        (later.Pairwise fun w w' =>
          ∃ place, (place, w) ∈ rest ∧ ∀ place', (place', w') ∈ rest → place.Precedes place') →
        later.Pairwise fun w w' => ∃ place, (place, w) ∈ x :: rest ∧
          ∀ place', (place', w') ∈ x :: rest → place.Precedes place' := by
      intro later hne hlater
      refine hlater.imp_of_mem fun {w w'} _ hw' => ?_
      rintro ⟨place, hplace, hall⟩
      refine ⟨place, List.mem_cons_of_mem _ hplace, fun place' hplace' => ?_⟩
      rcases List.mem_cons.mp hplace' with rfl | hplace'
      · exact absurd rfl (hne w' hw')
      · exact hall place' hplace'
    rw [List.map_cons, List.filter_cons]
    by_cases hwanted : wanted x.2 = true
    · rw [if_pos hwanted, List.eraseDups_cons, List.filter_filter]
      have hne : ∀ w ∈ (((rest.map Prod.snd).filter fun w => !w == x.2 && wanted w).eraseDups),
          w ≠ x.2 := by
        intro w hw
        have hkept := (List.mem_filter.mp (List.mem_eraseDups.mp hw)).2
        simp only [Bool.and_eq_true, Bool.not_eq_true', beq_eq_false_iff_ne] at hkept
        exact hkept.1
      refine List.pairwise_cons.mpr ⟨fun w hw => ?_, hlater hne (ih _ hrest)⟩
      refine ⟨x.1, List.mem_cons_self, fun place hplace => ?_⟩
      rcases List.mem_cons.mp hplace with rfl | hplace
      · exact absurd rfl (hne w hw)
      · exact hfirst _ hplace (hne w hw).symm
    · rw [if_neg hwanted]
      refine hlater (fun w hw => ?_) (ih _ hrest)
      rintro rfl
      exact hwanted (List.mem_filter.mp (List.mem_eraseDups.mp hw)).2

namespace Directory

variable {d : Directory} {s : Station} {w : Segment} {place : Place}

/-- The neighbor in a slot is on the segment, or has learned a router for it. -/
def Mentions (d : Directory) (s : Station) (place : Place) (w : Segment) : Prop :=
  ∃ n, d.neighborAt? s place.slot = some n ∧
    (place.rank = 0 ∧ n.station.segment = w ∨
      place.rank = w.toNat + 1 ∧ w ∈ n.station.routers.segments)

/-- What the neighbors lead to, slot by slot. -/
def mentions (d : Directory) (s : Station) : List (Place × Segment) :=
  (List.range' 1 s.routes.slots.length).flatMap fun slot =>
    (d.neighborAt? s slot).toList.flatMap (Member.mentions slot)

theorem mem_mentions_iff : (place, w) ∈ d.mentions s ↔ d.Mentions s place w := by
  have hmember : ∀ {n : Member} {slot : Nat}, (place, w) ∈ n.mentions slot ↔ place.slot = slot ∧
      (place.rank = 0 ∧ n.station.segment = w ∨
        place.rank = w.toNat + 1 ∧ w ∈ n.station.routers.segments) := by
    intro n slot
    obtain ⟨p, rank⟩ := place
    simp only [Member.mentions, List.mem_cons, Prod.mk.injEq, Place.mk.injEq, List.mem_map]
    constructor
    · rintro (⟨⟨rfl, rfl⟩, rfl⟩ | ⟨v, hv, ⟨rfl, rfl⟩, rfl⟩)
      · exact ⟨rfl, Or.inl ⟨rfl, rfl⟩⟩
      · exact ⟨rfl, Or.inr ⟨rfl, hv⟩⟩
    · rintro ⟨rfl, ⟨rfl, rfl⟩ | ⟨rfl, hw⟩⟩
      · exact Or.inl ⟨⟨rfl, rfl⟩, rfl⟩
      · exact Or.inr ⟨w, hw, ⟨rfl, rfl⟩, rfl⟩
  simp only [mentions, Mentions, List.mem_flatMap, Option.mem_toList, hmember]
  constructor
  · rintro ⟨slot, -, n, hn, rfl, hw⟩
    exact ⟨n, hn, hw⟩
  · rintro ⟨n, hn, hw⟩
    refine ⟨place.slot, ?_, n, hn, rfl, hw⟩
    have hbind := hn
    rw [neighborAt?, RouteTable.bySlot_eq_bind, Option.bind_eq_some_iff] at hbind
    obtain ⟨segment, hsegment, -⟩ := hbind
    have hbounds := RouteTable.le_length_of_occupant? hsegment
    rw [List.mem_range'_1]
    omega

/-- What the neighbors lead to is met in the order of the slots. -/
theorem pairwise_mentions (d : Directory) (s : Station) :
    (d.mentions s).Pairwise fun x y => x.2 ≠ y.2 → x.1.Precedes y.1 := by
  rw [mentions, List.pairwise_flatMap]
  constructor
  · intro slot _
    cases d.neighborAt? s slot with
    | none => exact List.Pairwise.nil
    | some n => simpa using n.pairwise_mentions slot
  · refine (List.pairwise_lt_range' 1 (by decide)).imp fun {p q} hpq => ?_
    have hslot : ∀ {slot : Nat} {x : Place × Segment},
        x ∈ (d.neighborAt? s slot).toList.flatMap (Member.mentions slot) → x.1.slot = slot := by
      intro slot x hx
      obtain ⟨n, -, hx⟩ := List.mem_flatMap.mp hx
      rcases List.mem_cons.mp hx with rfl | hx
      · rfl
      · obtain ⟨v, -, rfl⟩ := List.mem_map.mp hx
        rfl
    intro x hx y hy _
    exact Or.inl (by rw [hslot hx, hslot hy]; exact hpq)

theorem map_snd_mentions (d : Directory) (s : Station) :
    (d.mentions s).map Prod.snd = (d.neighbors s).flatMap Member.leadsTo := by
  have hneighbors : d.neighbors s =
      (List.range' 1 s.routes.slots.length).filterMap (d.neighborAt? s) := by
    rw [neighbors, RouteTable.live, RouteTable.filterMap_segments (Nat.le_refl _)]
    congr 1
    funext slot
    exact RouteTable.bySlot_eq_bind.symm
  have hmember : ∀ (slot : Nat) (n : Member), (n.mentions slot).map Prod.snd = n.leadsTo := by
    intro slot n
    simp [Member.mentions, Member.leadsTo, Function.comp_def]
  rw [hneighbors, List.filterMap_eq_flatMap_toList, List.flatMap_assoc, mentions, List.map_flatMap]
  congr 1
  funext slot
  rw [List.map_flatMap]
  congr 1
  funext n
  exact hmember slot n

/-- A list of the segments that a router reaches. -/
structure Surveys (d : Directory) (s : Station) (segments : List Segment) : Prop where
  /-- No segment is listed twice. -/
  nodup : segments.Nodup
  /-- A segment is listed if it is met somewhere and is not the router's own. -/
  mem_iff : ∀ w, w ∈ segments ↔ w ≠ s.segment ∧ ∃ place, d.Mentions s place w
  /-- A segment is listed before another one if it is met before it. -/
  ordered : segments.Pairwise fun w w' =>
    ∃ place, d.Mentions s place w ∧ ∀ place', d.Mentions s place' w' → place.Precedes place'

/-- What is announced to a query that names no segment. -/
theorem surveys_announced (d : Directory) (s : Station) : d.Surveys s (d.announced s ⟨none⟩) := by
  have hordered : (d.announced s ⟨none⟩).Pairwise fun w w' => ∃ place, d.Mentions s place w ∧
      ∀ place', d.Mentions s place' w' → place.Precedes place' := by
    have hpairwise := pairwise_eraseDups_filter (fun w => w != s.segment) (d.pairwise_mentions s)
    rw [map_snd_mentions] at hpairwise
    simpa only [announced, mem_mentions_iff] using hpairwise
  refine ⟨hordered.imp ?_, fun w => ?_, hordered⟩
  · rintro w w' ⟨place, hplace, hall⟩ rfl
    rcases hall place hplace with hlt | ⟨-, hlt⟩ <;> omega
  · rw [mem_announced_none, ← List.mem_flatMap, ← map_snd_mentions]
    simp only [List.mem_map, Prod.exists, exists_eq_right, mem_mentions_iff]

/-- The one transmission that answers a query for every segment.

It goes to everybody on the station's own segment. -/
structure AnswersSurvey (d : Directory) (s : Station) (everyone : Address) (t : Transmission) :
    Prop where
  recipient : t.recipient = everyone
  router : t.router = none
  broadcast : t.broadcast = true
  /-- The frame lists what the router reaches. No number in the list is reserved. -/
  frame : ∃ header body segments, decode t.frame = .ok (header, body) ∧ header.source = none ∧
    header.destination = none ∧ header.message = some .iAmRouterToNetwork ∧
    RouterAnnouncement.reader.exactly body = .ok ⟨segments⟩ ∧ d.Surveys s segments ∧
    ∀ w ∈ segments, w ≠ Segment.here ∧ w ≠ Segment.everywhere

/-- A query that names no segment asks for all of them. -/
theorem run_reader_of_eq_nil {query : Envelope} (plain : query.payload = []) :
    RouterQuery.reader.run query.payload = .ok ⟨none⟩ [] := by
  have hbytes := RouterQuery.run_bytes ⟨none⟩
  rwa [plain]

/-- Nothing is announced if no segment is met but the router's own. -/
theorem announced_eq_nil (h : ∀ w place, d.Mentions s place w → w = s.segment) :
    d.announced s ⟨none⟩ = [] := by
  apply List.eq_nil_iff_forall_not_mem.mpr
  intro w hw
  obtain ⟨hother, place, hplace⟩ := ((d.surveys_announced s).mem_iff w).mp hw
  exact hother (h w place hplace)

end Directory

namespace Network

variable {net : Network} {id : NodeId} {m : Member} {query : Envelope}

/-- A transmission is handed to the medium of a node, once, and a call ends with what the medium
says to it. -/
def offer (net : Network) (id : NodeId) (t : Transmission) : Except Failure Unit × Network :=
  match net.emit id t with
  | .ok net' => (.ok (), net')
  | .error fault => (.error (.fault fault), net)

/-- A station that puts a message onto its segment hands one transmission to its medium. -/
theorem call_eq_offer {f : Directory → Member → Run} {msg : Message} {header : Header}
    {router : Option Bytes} (hm : net.member? id = some m)
    (hf : f net.directory m = m.put msg header router) :
    net.call id f = net.offer id (msg.transmission header router) := by
  simp only [call, offer, emit, hm, hf, Member.put]
  cases m.emit (msg.transmission header router) <;> rfl

/-- A station answers a query for every segment with one announcement of all it reaches, if it
reaches any but its own. There is no answer if the sub-address that reaches every node of its medium
is too long for an address. -/
theorem survey_answered (reachable : net.Reachable) (hm : net.member? id = some m)
    (plain : query.payload = []) :
    ((∀ w place, net.directory.Mentions m.station place w → w = m.station.segment) →
      net.answerRouterQuery id query = (.ok (), net)) ∧
    ((∃ w place, net.directory.Mentions m.station place w ∧ w ≠ m.station.segment) →
      (∀ everyone, m.station.broadcastAddress = .ok everyone →
        ∃ t, net.directory.AnswersSurvey m.station everyone t ∧
          net.answerRouterQuery id query = net.offer id t) ∧
      ∀ overlong, m.station.broadcastAddress = .error overlong →
        net.answerRouterQuery id query = (.error (.overlong overlong), net)) := by
  obtain ⟨s, hs, rfl⟩ := Option.map_eq_some_iff.mp hm
  have hrouted := reachable.routed.directory
  have hquery := Directory.run_reader_of_eq_nil plain
  have hsurveys := net.directory.surveys_announced s
  constructor
  · intro alone
    have hnil := Directory.announced_eq_nil alone
    simp only [answerRouterQuery, call, hm, Directory.answerRouterQuery, hquery, hnil]
    rfl
  rintro ⟨w, place, hplace, hother⟩
  have hne : net.directory.announced s ⟨none⟩ ≠ [] :=
    List.ne_nil_of_mem ((hsurveys.mem_iff w).mpr ⟨hother, place, hplace⟩)
  have hanswer := Directory.answerRouterQuery_of_ne_nil (m := ⟨id, s⟩) hquery hne
  constructor
  · intro everyone heveryone
    rw [Directory.announce_eq_put hrouted hs heveryone rfl rfl] at hanswer
    refine ⟨_, ⟨rfl, rfl, rfl, _, _, _, Directory.decode_announcement s ⟨none⟩ everyone, rfl, rfl,
      rfl, RouterAnnouncement.exactly_bytes _, hsurveys, ?_⟩, call_eq_offer hm hanswer⟩
    intro w hw
    obtain ⟨n, hn, hleads⟩ := Directory.exists_leadsTo_of_mem_announced hw
    exact reachable.segment_ne_of_leadsTo (m := ⟨id, s⟩) hs hn hleads
  · intro overlong hoverlong
    simp only [answerRouterQuery, call, hm, hanswer, Directory.announce, hoverlong]
    rfl

/-- A query for every segment that a node of the first segment puts. -/
private def surveyQuery : Envelope where
  sender := (Address.onLink [3]).toOption.getD Address.everywhere
  recipient := none
  payload := []

/-- A station on a segment of `junction`. -/
private def junctionStation (segment : Segment) (routes : RouteTable NodeId)
    (routers : RouterTable) : Station where
  segment
  attachment := wireAttachment [segment.toUInt8] none
  routes
  routers

/-- The router of `junction`, which leads to segments two and three. -/
private def junctionRouter : Member :=
  ⟨0, junctionStation 1 ⟨1, ⟨[(2, 1), (3, 2)]⟩, [some 2, some 3]⟩ {}⟩

/-- The neighbor on segment two, which has learned routers for the segments of the other two. -/
private def junctionSecond : Member :=
  ⟨1, junctionStation 2 { home := 2 } ⟨⟨[(5, [4]), (1, [4]), (3, [4])]⟩⟩⟩

/-- The neighbor on segment three. -/
private def junctionThird : Member :=
  ⟨2, junctionStation 3 { home := 3 } ⟨⟨[(4, [6]), (5, [6])]⟩⟩⟩

/-- A router with two neighbors, both of which have learned a router for segment five. -/
def junction : Network where
  nodes := [junctionRouter, junctionSecond, junctionThird].map fun m =>
    some { station := m.station, medium := .wire false [], keepsFaults := true }

private theorem reachable_junction : junction.Reachable := by
  have hone := Reachable.empty.addNode
    (rfl : Network.addNode {} 1 (wireAttachment [1] none) (.wire false []) true = .ok (0, _))
  have htwo := hone.addNode
    (rfl : Network.addNode _ 2 (wireAttachment [2] none) (.wire false []) true = .ok (1, _))
  have hthree := htwo.addNode
    (rfl : Network.addNode _ 3 (wireAttachment [3] none) (.wire false []) true = .ok (2, _))
  have hfirst := hthree.addRoute (rfl : Network.addRoute _ 0 1 = .ok (1, _))
  have hsecond := hfirst.addRoute (rfl : Network.addRoute _ 0 2 = .ok (2, _))
  exact (hsecond.learn 1 [4] [5, 1, 3]).learn 2 [6] [4, 5]

/-- The router of `junction` lists its neighbors' segments and those they have learned routers for,
each where it is first met. -/
theorem survey_answered_junction :
    (∃ everyone t, junctionRouter.station.broadcastAddress = .ok everyone ∧
      junction.directory.AnswersSurvey junctionRouter.station everyone t ∧
      junction.answerRouterQuery 0 surveyQuery = junction.offer 0 t) ∧
    junction.directory.announced junctionRouter.station ⟨none⟩ = [2, 3, 5, 4] := by
  have hmember : junction.member? 0 = some junctionRouter := rfl
  have hmentions : junction.directory.Mentions junctionRouter.station ⟨1, 0⟩ 2 :=
    ⟨_, rfl, Or.inl ⟨rfl, rfl⟩⟩
  have hplain : surveyQuery.payload = [] := rfl
  obtain ⟨t, ht, hanswer⟩ := ((survey_answered reachable_junction hmember hplain).2
    ⟨2, ⟨1, 0⟩, hmentions, by decide⟩).1 _ rfl
  have hneighbors : junction.directory.neighbors junctionRouter.station =
      [junctionSecond, junctionThird] := rfl
  have hsecond : junctionSecond.leadsTo = [2, 1, 3, 5] := by
    simp [Member.leadsTo, junctionSecond, junctionStation, RouterTable.segments, Table.keys,
      List.mergeSort]
  have hthird : junctionThird.leadsTo = [3, 4, 5] := by
    simp [Member.leadsTo, junctionThird, junctionStation, RouterTable.segments, Table.keys,
      List.mergeSort]
  refine ⟨⟨_, t, rfl, ht, hanswer⟩, ?_⟩
  simp only [Directory.announced, hneighbors, List.flatMap_cons, List.flatMap_nil, hsecond, hthird]
  decide

/-- A router on a medium that has too long a sub-address for everybody. -/
private def muteStation : Station where
  segment := 1
  attachment := { wireAttachment [1] none with broadcastMac := List.replicate 256 0 }
  routes := ⟨1, ⟨[(2, 1)]⟩, [some 2]⟩

/-- A router that leads to segment two and cannot announce it. -/
def mute : Network where
  nodes := [muteStation, junctionStation 2 { home := 2 } {}].map fun station =>
    some { station, medium := .wire false [], keepsFaults := true }

private theorem reachable_mute : mute.Reachable := by
  have hone := Reachable.empty.addNode
    (rfl : Network.addNode {} 1 muteStation.attachment (.wire false []) true = .ok (0, _))
  have htwo := hone.addNode
    (rfl : Network.addNode _ 2 (wireAttachment [2] none) (.wire false []) true = .ok (1, _))
  exact htwo.addRoute (rfl : Network.addRoute _ 0 1 = .ok (1, _))

theorem survey_unanswered : mute.Reachable ∧ mute.member? 0 = some ⟨0, muteStation⟩ ∧
    surveyQuery.payload = [] ∧ mute.directory.Mentions muteStation ⟨1, 0⟩ 2 ∧
    2 ≠ muteStation.segment ∧ ∀ t, mute.answerRouterQuery 0 surveyQuery ≠ mute.offer 0 t := by
  refine ⟨reachable_mute, rfl, rfl, ⟨_, rfl, Or.inl ⟨rfl, rfl⟩⟩, by decide, fun t => ?_⟩
  have hanswer : (mute.answerRouterQuery 0 surveyQuery).1 = .error (.overlong ⟨256⟩) := by
    decide +kernel
  intro hoffer
  rw [hoffer] at hanswer
  unfold offer at hanswer
  split at hanswer <;> cases hanswer

end Network

end Fieldbus
