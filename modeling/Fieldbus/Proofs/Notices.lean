import Mathlib.Data.Finset.Card
import Fieldbus.Proofs.Announcements
import Fieldbus.Proofs.Exchange
import Fieldbus.Proofs.Work

/-!
# Notices

A notice is a message that a station puts on its link for all stations there. Main statements: a
station that sends one leaves its frame on the link (`Notice.Fits.send`), and the link that hands it
out leaves a job for every other station (`Notice.Fits.posted_handed`). When stations learn from
notices, only the site knows of it (`Network.site_modifyStation`), and where the neighbors of a
station lead stays the same (`Directory.LeadsTo.of_taught`).
-/

namespace Fieldbus

/-! ## What learning leaves as it is -/

namespace Directory

variable {d : Directory} {s s' : Station} {id : NodeId} {w : Segment} {mac : Bytes}
  {segments : List Segment} {told : Finset NodeId}

/-- Some neighbor of the station leads to the segment. -/
def LeadsTo (d : Directory) (s : Station) (w : Segment) : Prop := ∃ n ∈ d.neighbors s, w ∈ n.leadsTo

/-- The stations after some of them have learned a router. -/
def taught (d : Directory) (mac : Bytes) (segments : List Segment) (told : Finset NodeId) : Directory :=
  fun id => (d id).map fun s => if id ∈ told then s.learn mac segments else s

@[simp] theorem taught_empty : d.taught mac segments ∅ = d := by
  funext id
  simp [taught]

theorem taught_of_mem (h : id ∈ told) :
    d.taught mac segments told id = (d id).map fun s => s.learn mac segments := by
  simp only [taught, h, ite_true]

theorem taught_of_notMem (h : id ∉ told) : d.taught mac segments told id = d id := by
  simp [taught, h]

/-- One more station learns the router. -/
theorem taught_insert (new : id ∉ told) : d.taught mac segments (insert id told) =
    Function.update (d.taught mac segments told) id
      ((d.taught mac segments told id).map fun s => s.learn mac segments) := by
  funext id'
  by_cases he : id' = id
  · subst he
    rw [Function.update_self, taught_of_mem (Finset.mem_insert_self _ _), taught_of_notMem new]
  · rw [Function.update_of_ne he, taught, taught]
    simp only [Finset.mem_insert, he, false_or]

/-- What stations of a segment learn does not change where the neighbors of one of them lead. -/
theorem LeadsTo.of_taught (routed : d.Routed) (hs : d id = some s)
    (near : ∀ id' ∈ told, ∀ s', d id' = some s' → s'.segment = s.segment)
    (routes : s'.routes = s.routes) (h : (d.taught mac segments told).LeadsTo s' w) :
    d.LeadsTo s w := by
  obtain ⟨n, hn, hw⟩ := h
  obtain ⟨segment, hsegment, hon⟩ := mem_neighbors_iff.mp hn
  obtain ⟨hroute, hfound⟩ := neighborOn?_eq_some_iff.mp hon
  obtain ⟨s₀, hs₀, hlearned⟩ := Option.map_eq_some_iff.mp hfound
  rw [routes] at hsegment hroute
  have hremote : d.neighborOn? s segment = some ⟨n.id, s₀⟩ :=
    neighborOn?_eq_some_iff.mpr ⟨hroute, hs₀⟩
  have hfar : n.id ∉ told := by
    intro htold
    refine (routed.segment_ne_of_neighborOn? hs hremote).2.2 ?_
    exact (routed.leads hs hroute hs₀).symm.trans (near n.id htold s₀ hs₀)
  simp only [hfar, ite_false] at hlearned
  subst hlearned
  exact ⟨n, mem_neighbors_iff.mpr ⟨segment, hsegment, hremote⟩, hw⟩

/-- A station whose neighbors do not lead to the segment does not answer a query for it. -/
theorem answerRouterQuery_of_not_leadsTo {m : Member} {query : Envelope}
    (payload : query.payload = RouterQuery.bytes ⟨some w⟩) (h : ¬ d.LeadsTo m.station w) :
    d.answerRouterQuery m query = {} := by
  have hannounced : d.announced m.station ⟨some w⟩ = [] := by
    rw [announced_some]
    exact if_neg h
  simp only [answerRouterQuery, payload, RouterQuery.run_bytes, hannounced]

/-- A station with a neighbor that leads to the segment announces it. -/
theorem answerRouterQuery_of_leadsTo {m : Member} {query : Envelope} {everyone : Address}
    (payload : query.payload = RouterQuery.bytes ⟨some w⟩) (h : d.LeadsTo m.station w)
    (he : m.station.broadcastAddress = .ok everyone) :
    d.answerRouterQuery m query = d.send m (.routerAnnouncement everyone [w]) := by
  have hannounced : d.announced m.station ⟨some w⟩ = [w] := by
    rw [announced_some]
    exact if_pos h
  simp only [answerRouterQuery, payload, RouterQuery.run_bytes, hannounced, announce, he]

end Directory

namespace Site

variable {s : Site} {d : Directory}

/-- The site with other stations. -/
def withStations (s : Site) (d : Directory) : Site :=
  { s with wiring := { s.wiring with directory := d } }

@[simp] theorem withStations_directory (s : Site) : s.withStations s.wiring.directory = s := rfl

@[simp] theorem worker?_withStations : (s.withStations d).worker? = s.worker? := rfl

@[simp] theorem isStaffed_withStations : (s.withStations d).isStaffed = s.isStaffed := by
  funext w
  cases w <;> rfl

end Site

namespace Network

variable {net : Network} {id : NodeId} {f : Station → Station}

/-- Only the site knows of a change to a station. -/
theorem site_modifyStation (net : Network) (id : NodeId) (f : Station → Station) :
    (net.modifyStation id f).site = net.site.withStations (Function.update net.directory id
      ((net.directory id).map f)) := by
  have hdirectory : (net.modifyStation id f).directory =
      Function.update net.directory id ((net.directory id).map f) := by
    funext id'
    rw [directory_modifyStation, Function.update_apply]
  have hnode : ∀ {α : Type} (g : NodeId → Node → Option α),
      (∀ id (n : Node), g id { n with station := f n.station } = g id n) →
      (fun id' => ((net.modifyStation id f).node? id').bind (g id')) =
        fun id' => (net.node? id').bind (g id') := by
    intro α g hg
    funext id'
    simp only [modifyStation, node?_modifyNode]
    split
    · cases net.node? id' with
      | none => rfl
      | some n => exact hg id' n
    · rfl
  have hrunning : (net.modifyStation id f).site.isRunning = net.site.isRunning := by
    funext id'
    simp only [site, modifyStation, node?_modifyNode]
    split
    · cases net.node? id' <;> rfl
    · rfl
  show Site.mk _ _ _ = Site.mk _ _ _
  rw [Site.mk.injEq]
  refine ⟨?_, hnode _ fun _ _ => rfl, hrunning⟩
  show Wiring.mk _ _ _ = Wiring.mk _ _ _
  rw [Wiring.mk.injEq]
  exact ⟨hdirectory, hnode _ fun _ _ => rfl, rfl⟩

theorem account?_modifyStation (net : Network) (id : NodeId) (f : Station → Station) :
    (net.modifyStation id f).account? = net.account? :=
  account?_modifyNode_of_eq fun _ _ => rfl

theorem chores_modifyStation (net : Network) (id : NodeId) (f : Station → Station) :
    (net.modifyStation id f).chores = net.chores :=
  chores_modifyNode_of_consumer_eq net id fun _ => rfl

end Network

/-! ## Messages for all stations of a link -/

/-- How far a message for all stations of a link has come. -/
inductive Spread where
  /-- It has not been sent. -/
  | unsent
  /-- Its frame waits on the link. -/
  | queued
  /-- It waits for the transports of the stations in `due`. -/
  | handed (due : Finset NodeId)

namespace Spread

/-- The stations, of all that the message is for, whose transports it has not passed yet. -/
def due (all : Finset NodeId) : Spread → Finset NodeId
  | handed due => due
  | _ => all

/-- How many chores it takes until the message has passed all transports. -/
def left (all : Finset NodeId) : Spread → Nat
  | unsent => all.card + 2
  | queued => all.card + 1
  | handed due => due.card

end Spread

/-- The stations of a link apart from one. -/
def Wiring.others (w : Wiring) (l : Link) (m : Member) : Finset NodeId :=
  (l.registry.values.filter w.isAlive).toFinset.erase m.id

theorem Wiring.Serves.mem_others_iff {w : Wiring} {k : LinkId} {l : Link} (h : w.Serves k l)
    {m : Member} {id : NodeId} : id ∈ w.others l m ↔ id ≠ m.id ∧ ∃ s, w.Attends k ⟨id, s⟩ := by
  rw [others, Finset.mem_erase, List.mem_toFinset]
  refine and_congr_right fun _ => ⟨fun hid => ?_, fun ⟨s, hs⟩ => ?_⟩
  · exact h.attends_of_mem_recipients (f := ⟨[], none, []⟩) hid
  · exact (h.mem_recipients_iff hs ⟨[], none, []⟩).mpr (by simp)

/-- A message that a station puts on its link for all stations there. -/
structure Notice where
  /-- The station. -/
  origin : Member
  /-- The message. -/
  message : Message
  /-- The address that the sub-address of the station makes. -/
  sender : Address

namespace Notice

/-- The frame of the message. -/
def frame (n : Notice) : LinkFrame :=
  ⟨n.origin.station.attachment.mac, none, n.message.header.bytes ++ n.message.payload⟩

/-- What reaches the other stations. -/
def envelope (n : Notice) : Envelope := n.message.landed n.sender

/-- The jobs of the transports that the message has not passed yet. -/
def jobs (n : Notice) (s : Site) (due : Finset NodeId) : Multiset Chore :=
  due.val.filterMap fun id => s.posted? (.arrived id n.envelope)

/-- What waits because of the message. -/
def chores (n : Notice) (s : Site) (k : LinkId) : Spread → Multiset Chore
  | .unsent => 0
  | .queued => {.frame k n.frame}
  | .handed due => n.jobs s due

/-- The message can be put on the link and read there. -/
structure Fits (n : Notice) (w : Wiring) (k : LinkId) (l : Link) : Prop where
  /-- The station is on the link. -/
  attends : w.Attends k n.origin
  /-- The message is read as it was written. -/
  read : decode (n.message.header.bytes ++ n.message.payload) = .ok (n.message.header, n.message.payload)
  /-- The station has an address on the link. -/
  sender : Address.onLink n.origin.station.attachment.mac = .ok n.sender
  /-- The message is for all stations. -/
  broadcast : n.message.broadcast = true
  /-- No router is named. -/
  router : n.message.router = none
  /-- The message is for the segment of the link. -/
  segment : n.message.recipient.segment = l.segment
  /-- The link takes the frame. -/
  length_le : (n.message.header.bytes ++ n.message.payload).length ≤ l.maxFrameLength

variable {n : Notice} {s : Site} {k : LinkId} {l : Link} {due : Finset NodeId} {chore : Chore}

theorem mem_jobs_iff : chore ∈ n.jobs s due ↔
    ∃ id ∈ due, ∃ w, s.worker? id = some w ∧ chore = .job w ⟨id, .dispatch n.envelope⟩ := by
  simp only [jobs, Multiset.mem_filterMap, Finset.mem_val, Site.posted?, Option.map_eq_some_iff]
  exact exists_congr fun id => and_congr_right fun _ =>
    exists_congr fun w => and_congr_right fun _ => eq_comm

/-- A transport that the message has passed has one job less. -/
theorem jobs_erase {id : NodeId} {w : Worker} (h : id ∈ due) (worker : s.worker? id = some w) :
    n.jobs s (due.erase id) + {.job w ⟨id, .dispatch n.envelope⟩} = n.jobs s due := by
  have hjob : s.posted? (.arrived id n.envelope) = some (.job w ⟨id, .dispatch n.envelope⟩) := by
    rw [Site.posted?, worker, Option.map_some]
  have hcons : due.val = id ::ₘ (due.erase id).val := (Multiset.cons_erase h).symm
  rw [jobs, jobs, hcons, Multiset.filterMap_cons_some (fun id => s.posted? (.arrived id n.envelope))
    _ _ hjob, ← Multiset.singleton_add, add_comm]

/-- A station that sends the message leaves its frame on the link. -/
theorem Fits.send (fits : n.Fits s.wiring k l) (h : s.wiring.Serves k l) :
    (s.wiring.directory.send n.origin n.message).result = .ok () ∧
      s.posted (s.wiring.directory.send n.origin n.message).events = [.frame k n.frame] := by
  have htarget : l.target (n.message.transmission n.message.header none) = none := by
    simp only [Link.target, Message.transmission, fits.broadcast, Bool.true_or, ite_true]
  rw [h.send_eq fits.attends fits.router (Or.inr fits.segment) fits.length_le]
  refine ⟨rfl, ?_⟩
  rw [Site.posted, List.filterMap_cons_some, List.filterMap_nil]
  rw [Site.posted?, Wiring.posted?_transmitted fits.attends h.link, htarget]
  rfl

/-- A link that hands the message out leaves a job for every other station. -/
theorem Fits.posted_handed (fits : n.Fits s.wiring k l) (h : s.wiring.Serves k l) :
    (s.posted (s.wiring.handed (k, n.frame)) : Multiset Chore) =
      n.jobs s (s.wiring.others l n.origin) := by
  have hrecipients : l.recipients s.wiring.isAlive n.frame =
      l.registry.values.filter s.wiring.isAlive := rfl
  have hnodup := h.nodup_recipients n.frame
  rw [hrecipients] at hnodup
  have hposted : ∀ id ∈ l.registry.values.filter s.wiring.isAlive,
      s.posted (s.wiring.directory.handing n.frame id) =
        if id = n.origin.id then [] else (s.posted? (.arrived id n.envelope)).toList := by
    intro id hid
    obtain ⟨station, hm⟩ := h.attends_of_mem_recipients (f := n.frame) hid
    have hevents := h.events_receive_message hm fits.attends fits.read fits.sender
    have hself : (⟨id, station⟩ : Member) = n.origin ↔ id = n.origin.id :=
      ⟨congrArg Member.id, hm.eq_of_id_eq fits.attends⟩
    rw [Directory.handing, hm.member?, Option.map_some, Option.getD_some,
      Site.posted_cons_of_eq_none rfl]
    refine (congrArg s.posted hevents).trans ?_
    rw [Site.posted_cons_of_eq_none rfl]
    by_cases he : id = n.origin.id
    · rw [if_pos (hself.mpr he), if_pos he]
      rfl
    · rw [if_neg (mt hself.mp he), if_neg he]
      cases hp : s.posted? (.arrived id n.envelope) with
      | none => exact List.filterMap_cons_none hp
      | some chore => exact List.filterMap_cons_some hp
  have hothers : (s.wiring.others l n.origin).val =
      ↑((l.registry.values.filter s.wiring.isAlive).filter fun id => id != n.origin.id) := by
    rw [Wiring.others, Finset.erase_val, List.toFinset_val, List.dedup_eq_self.mpr hnodup,
      Multiset.coe_erase, hnodup.erase_eq_filter]
  rw [jobs, hothers, Wiring.handed, h.link]
  dsimp only
  rw [hrecipients, Multiset.filterMap_coe, Multiset.coe_eq_coe]
  rw [Site.posted, List.filterMap_flatMap, List.filterMap_filter, List.filterMap_eq_flatMap_toList]
  refine List.Perm.of_eq ((List.flatMap_congr hposted).trans (List.flatMap_congr fun id _ => ?_))
  by_cases he : id = n.origin.id
  · simp [he]
  · simp [he]

end Notice

end Fieldbus
