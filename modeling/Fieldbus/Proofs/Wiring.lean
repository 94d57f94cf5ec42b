import Mathlib.Algebra.Order.BigOperators.Group.List
import Mathlib.Data.Multiset.MapFold
import Mathlib.Algebra.BigOperators.Group.Multiset.Basic
import Fieldbus.Proofs.Load

/-!
# What comes of a frame

What a frame causes depends on the frame and on the wiring of the network: on the stations, on
the links they are tapped to and on who is registered there, all of which frames leave as it is
(`wiring_applyAll`). So everything that eventually comes of a list of events is a multiset that
can be computed from the wiring alone (`Wiring.outcome`), one frame at a time
(`Wiring.consequences_eq_outcome`). Main statement: links that work until no frame waits cause
exactly what the frames at the start come to, in whatever order they work (`LinkRun.events_eq`).
-/

namespace Fieldbus

/-- A frame that waits on a link. -/
abbrev Parcel := LinkId × LinkFrame

/-- The link a medium is tapped to. -/
def Medium.link? : Medium → Option LinkId
  | .wire .. => none
  | .tap link _ => some link

/-- A link without the frames that wait on it. -/
def Link.idle (l : Link) : Link := { l with queue := ∅ }

/-- A frame is handed to nobody twice if whoever still exists is registered in one place. -/
theorem Link.nodup_recipients {l : Link} {alive : NodeId → Bool} (single : l.registry.keys.Nodup)
    (own : ∀ {mac mac' id}, (mac, id) ∈ l.registry.entries → (mac', id) ∈ l.registry.entries →
      alive id = true → mac = mac') (f : LinkFrame) : (l.recipients alive f).Nodup := by
  unfold recipients
  split
  · have hentries : l.registry.entries.Nodup := List.Nodup.of_map _ single
    rw [Table.values, List.filter_map]
    refine (hentries.filter _).map_on ?_
    rintro ⟨mac, id⟩ hm ⟨mac', id'⟩ hm' rfl
    obtain ⟨hentry, halive⟩ := List.mem_filter.mp hm
    obtain ⟨hentry', -⟩ := List.mem_filter.mp hm'
    rw [own hentry hentry' halive]
  · cases (l.registry.get? _).filter alive <;> simp

/-- The frames that wait on the link with a given name. -/
def Link.parcels (l : Link) (k : LinkId) : Multiset Parcel :=
  (l.queue.toList.map fun f => (k, f) : List Parcel)

/-- What the effect of a frame depends on, apart from the frame. -/
structure Wiring where
  /-- The stations of the nodes that exist. -/
  directory : Directory
  /-- The links that stations are tapped to. -/
  tap? : NodeId → Option LinkId
  /-- The links, without the frames that wait on them. -/
  links : List Link

namespace Wiring

/-- The nodes that exist. -/
def isAlive (w : Wiring) (id : NodeId) : Bool := (w.directory id).isSome

/-- The frame that an event leaves on a link. -/
def posted? (w : Wiring) : Event → Option Parcel
  | .transmitted id t => do
    let s ← w.directory id
    let k ← w.tap? id
    let l ← w.links[k]?
    return (k, ⟨s.attachment.mac, l.target t, t.frame⟩)
  | _ => none

/-- What handing out a frame causes at its recipients. -/
def handed (w : Wiring) (p : Parcel) : List Event :=
  match w.links[p.1]? with
  | none => []
  | some l => (l.recipients w.isAlive p.2).flatMap (w.directory.handing p.2)

/-- What comes of a frame and of the frames it leads to, up to a given number of times that one
leads to another. -/
def aftermath (w : Wiring) : Nat → Parcel → Multiset Event
  | 0, _ => 0
  | depth + 1, p =>
    ↑(w.handed p) + (((w.handed p).filterMap w.posted?).map (w.aftermath depth)).sum

/-- What comes of a frame; since ranks fall from frame to frame, `sendRank` times are enough. -/
def consequences (w : Wiring) (p : Parcel) : Multiset Event := w.aftermath sendRank p

/-- Events and all that comes of the frames they leave on links. -/
def outcome (w : Wiring) (events : List Event) : Multiset Event :=
  ↑events + ((events.filterMap w.posted?).map w.consequences).sum

/-! ## What comes of events -/

variable {w : Wiring}

theorem outcome_append (events events' : List Event) :
    w.outcome (events ++ events') = w.outcome events + w.outcome events' := by
  simp only [outcome, List.filterMap_append, List.map_append, List.sum_append, ← Multiset.coe_add]
  ac_rfl

/-- What comes of events does not depend on their order. -/
theorem outcome_perm {events events' : List Event} (h : events.Perm events') :
    w.outcome events = w.outcome events' := by
  have hposted := (h.filterMap w.posted?).map w.consequences
  rw [outcome, outcome, hposted.sum_eq, Multiset.coe_eq_coe.mpr h]

/-- An event that leaves no frame on a link stays alone. -/
theorem outcome_singleton_of_posted?_eq_none {event : Event} (h : w.posted? event = none) :
    w.outcome [event] = {event} := by
  rw [outcome, List.filterMap_cons_none h]
  rfl

/-- A frame that is left on a link comes to what it comes to when it is handed out. -/
theorem outcome_singleton_of_posted?_eq_some {event : Event} {p : Parcel}
    (h : w.posted? event = some p) : w.outcome [event] = {event} + w.consequences p := by
  rw [outcome, List.filterMap_cons_some h, List.filterMap_nil, List.map_singleton,
    List.sum_singleton]
  rfl

/-- Frames that come of a frame have a lower rank. -/
theorem frameRank_lt_of_mem_handed (h : w.directory.Routed) {p q : Parcel}
    (hq : q ∈ (w.handed p).filterMap w.posted?) : frameRank q.2.data < frameRank p.2.data := by
  obtain ⟨event, hevent, hposted⟩ := List.mem_filterMap.mp hq
  have hbelow : Below (frameRank p.2.data) (w.handed p) := by
    unfold handed
    split
    · exact Below.nil
    · exact Below.flatMap fun id _ => Directory.below_handing h p.2 id
  cases event with
  | transmitted id t =>
    have hdata : q.2.data = t.frame := by
      simp only [posted?, Option.bind_eq_bind, Option.bind_eq_some_iff, Option.pure_def,
        Option.some.injEq] at hposted
      obtain ⟨s, -, k, -, l, -, rfl⟩ := hposted
      rfl
    rw [hdata]
    exact hbelow _ hevent _ (List.mem_singleton_self _)
  | _ => cases hposted

/-- Beyond the rank of a frame nothing more comes of it. -/
private theorem aftermath_eq_aftermath (h : w.directory.Routed) {depth depth' : Nat} {p : Parcel}
    (hd : frameRank p.2.data < depth) (hd' : frameRank p.2.data < depth') :
    w.aftermath depth p = w.aftermath depth' p := by
  induction depth generalizing depth' p with
  | zero => omega
  | succ depth ih =>
    cases depth' with
    | zero => omega
    | succ depth' =>
      have hmap : ((w.handed p).filterMap w.posted?).map (w.aftermath depth) =
          ((w.handed p).filterMap w.posted?).map (w.aftermath depth') := by
        refine List.map_congr_left fun q hq => ?_
        have hlt := frameRank_lt_of_mem_handed h hq
        exact ih (by omega) (by omega)
      rw [aftermath, aftermath, hmap]

/-- What comes of a frame is what handing it out causes and all that comes of that. -/
theorem consequences_eq_outcome (h : w.directory.Routed) (p : Parcel) :
    w.consequences p = w.outcome (w.handed p) := by
  have hp := frameRank_lt p.2.data
  rw [consequences, aftermath_eq_aftermath h hp (Nat.lt_succ_of_lt hp)]
  rfl

/-! ## What is observed of what comes of events -/

section

variable {α β : Type} (look : Event → Option α)

/-- What an observer sees of events and of all that comes of the frames they leave on links. -/
def observed (w : Wiring) (look : Event → Option α) (events : List Event) : Multiset α :=
  (w.outcome events).filterMap look

@[simp] theorem observed_nil : w.observed look [] = 0 := rfl

theorem observed_append (events events' : List Event) : w.observed look (events ++ events') =
    w.observed look events + w.observed look events' := by
  rw [observed, outcome_append, Multiset.filterMap_add]
  rfl

theorem observed_cons (event : Event) (events : List Event) :
    w.observed look (event :: events) = w.observed look [event] + w.observed look events :=
  observed_append look [event] events

theorem observed_flatMap (xs : List β) (f : β → List Event) :
    w.observed look (xs.flatMap f) = (xs.map fun x => w.observed look (f x)).sum := by
  induction xs with
  | nil => rfl
  | cons x rest ih => rw [List.flatMap_cons, observed_append, ih, List.map_cons, List.sum_cons]

/-- An event that leaves no frame is at most observed itself. -/
theorem observed_singleton {event : Event} (h : w.posted? event = none) :
    w.observed look [event] = ↑(look event).toList := by
  rw [observed, outcome_singleton_of_posted?_eq_none h]
  rfl

/-- An event that leaves no frame and is not observed does not count. -/
theorem observed_cons_of_eq_none {event : Event} (h : w.posted? event = none)
    (hl : look event = none) (events : List Event) :
    w.observed look (event :: events) = w.observed look events := by
  rw [observed_cons, observed_singleton look h, hl]
  exact zero_add _

/-- A transmission is observed together with what handing the frame out comes to. -/
theorem observed_transmitted (h : w.directory.Routed) {id : NodeId} {s : Station} {k : LinkId}
    {l : Link} (station : w.directory id = some s) (tap : w.tap? id = some k)
    (link : w.links[k]? = some l) (t : Transmission) :
    w.observed look [.transmitted id t] = ↑(look (.transmitted id t)).toList +
      ((l.recipients w.isAlive ⟨s.attachment.mac, l.target t, t.frame⟩).map fun x =>
        w.observed look (w.directory.handing ⟨s.attachment.mac, l.target t, t.frame⟩ x)).sum := by
  have hposted : w.posted? (.transmitted id t) =
      some (k, ⟨s.attachment.mac, l.target t, t.frame⟩) := by
    simp only [posted?, station, tap, Option.bind_eq_bind, Option.bind_some, link]
    rfl
  have hhanded : w.handed (k, ⟨s.attachment.mac, l.target t, t.frame⟩) =
      (l.recipients w.isAlive ⟨s.attachment.mac, l.target t, t.frame⟩).flatMap
        (w.directory.handing ⟨s.attachment.mac, l.target t, t.frame⟩) := by
    simp only [handed, link]
  rw [← observed_flatMap, ← hhanded, observed, outcome_singleton_of_posted?_eq_some hposted,
    consequences_eq_outcome h, Multiset.filterMap_add]
  rfl

end

end Wiring

namespace Network

/-- The wiring of a network. -/
def wiring (net : Network) : Wiring where
  directory := net.directory
  tap? id := (net.node? id).bind fun n => n.medium.link?
  links := net.links.map Link.idle

/-- The frames that wait on links. -/
def waiting (net : Network) : Multiset Parcel :=
  (net.links.mapIdx fun k l => (l.parcels k : Multiset Parcel)).sum

/-! ## Wiring stays -/

theorem wiring_modifyNode (net : Network) (id : NodeId) {f : Node → Node}
    (station : ∀ n, (f n).station = n.station)
    (tap : ∀ n, net.node? id = some n → (f n).medium.link? = n.medium.link?) :
    (net.modifyNode id f).wiring = net.wiring := by
  have htap : (net.modifyNode id f).wiring.tap? = net.wiring.tap? := by
    funext id'
    simp only [wiring, node?_modifyNode]
    split
    · rename_i he
      subst he
      cases hn : net.node? id' with
      | none => rfl
      | some n => exact tap n hn
    · rfl
  have hdir := directory_modifyNode net id station
  simp only [wiring] at htap ⊢
  rw [htap, hdir]
  rfl

theorem wiring_modifyLink (net : Network) (k : LinkId) {f : Link → Link}
    (h : ∀ l, (f l).idle = l.idle) : (net.modifyLink k f).wiring = net.wiring := by
  have hlinks : (net.links.modify k f).map Link.idle = net.links.map Link.idle := by
    apply List.ext_getElem?
    intro i
    simp only [List.getElem?_map, List.getElem?_modify]
    split
    · cases net.links[i]? <;> simp [h]
    · cases net.links[i]? <;> rfl
  simp only [wiring, modifyLink, hlinks]
  rfl

theorem wiring_count (net : Network) (id : NodeId) (f : FrameCounts → FrameCounts) :
    (net.count id f).wiring = net.wiring :=
  wiring_modifyNode net id (fun _ => rfl) fun _ _ => rfl

theorem wiring_consume (net : Network) (id : NodeId) (e : Envelope) (c : Consumer) :
    (net.consume id e c).wiring = net.wiring := by
  cases c with
  | collector items => exact wiring_modifyNode net id (fun _ => rfl) fun _ _ => rfl
  | dedicated t => exact wiring_modifyNode net id (fun _ => rfl) fun _ _ => rfl
  | shared pool t =>
    unfold consume
    dsimp only
    split <;> rfl

theorem wiring_arrive (net : Network) (id : NodeId) (e : Envelope) :
    (net.arrive id e).wiring = net.wiring := by
  unfold arrive
  split
  · exact wiring_count net id _
  · rw [wiring_consume, wiring_count]

/-- An event leaves the wiring as it is. -/
theorem wiring_apply (net : Network) (event : Event) : (net.apply event).wiring = net.wiring := by
  cases event with
  | handed id length =>
    refine wiring_modifyNode net id (fun n => ?_) fun n _ => ?_
    · split <;> rfl
    · split
      · rfl
      · rename_i hm
        simp only [hm, Medium.link?]
  | received id => exact wiring_count net id _
  | dropped id => exact wiring_count net id _
  | arrived id e => exact wiring_arrive net id e
  | relayed source target ingress recipient e broadcast =>
    exact wiring_count net source _
  | transmitted id t =>
    unfold apply transmit
    dsimp only
    split
    · rfl
    · rename_i n hn
      split
      · rename_i hm
        refine wiring_modifyNode net id (fun _ => rfl) fun n' hn' => ?_
        rw [hn] at hn'
        cases hn'
        simp only [hm, Medium.link?]
      · rename_i hm
        refine Eq.trans (wiring_modifyLink _ _ ?_) ?_
        · exact fun _ => rfl
        refine wiring_modifyNode net id (fun _ => rfl) fun n' hn' => ?_
        rw [hn] at hn'
        cases hn'
        simp only [hm, Medium.link?]
  | reported id fault =>
    refine wiring_modifyNode net id (fun n => ?_) fun n _ => ?_ <;> split <;> rfl

/-- Events leave the wiring as it is. -/
@[simp] theorem wiring_applyAll (net : Network) (events : List Event) :
    (net.applyAll events).wiring = net.wiring := by
  induction events generalizing net with
  | nil => rfl
  | cons event rest ih => exact (ih (net.apply event)).trans (wiring_apply net event)

theorem wiring_modifyPool (net : Network) (id : PoolId) (f : Pool → Pool) :
    (net.modifyPool id f).wiring = net.wiring := rfl

/-! ## Frames come and go -/

theorem waiting_modifyLink {net : Network} {k : LinkId} {l : Link} (h : net.link? k = some l)
    (f : Link → Link) :
    (net.modifyLink k f).waiting + l.parcels k = net.waiting + (f l).parcels k :=
  sum_mapIdx_modify (fun k l => Link.parcels l k) h f

/-- The link of a network without the frames that wait on it. -/
theorem links_wiring (net : Network) (k : LinkId) :
    net.wiring.links[k]? = (net.link? k).map Link.idle :=
  List.getElem?_map ..

/-- A change that leaves the links as they are leaves the frames that wait. -/
theorem waiting_of_links_eq {net net' : Network} (h : net'.links = net.links) :
    net'.waiting = net.waiting := by
  rw [waiting, h, waiting]

/-- A link that accepts a frame has it wait; without the link it is lost. -/
theorem waiting_accept (net : Network) (k : LinkId) (origin : Bytes) (t : Transmission) :
    (net.modifyLink k fun l => l.accept origin t).waiting =
      net.waiting + ↑((net.link? k).map fun l => ((k, ⟨origin, l.target t, t.frame⟩) : Parcel)).toList := by
  cases hl : net.link? k with
  | none =>
    have hm : net.links.modify k (fun l => l.accept origin t) = net.links := by
      apply List.modify_eq_self
      simpa [link?] using hl
    have hw : (net.modifyLink k fun l => l.accept origin t).waiting = net.waiting :=
      waiting_of_links_eq hm
    simpa using hw
  | some l =>
    have hw := waiting_modifyLink hl fun l => l.accept origin t
    have hp : (l.accept origin t).parcels k =
        l.parcels k + {((k, ⟨origin, l.target t, t.frame⟩) : Parcel)} := by
      rw [Link.parcels, Link.toList_queue_accept, List.map_append, ← Multiset.coe_add]
      rfl
    rw [hp, add_comm (l.parcels k), ← add_assoc] at hw
    exact add_right_cancel hw

theorem links_arrive (net : Network) (id : NodeId) (e : Envelope) :
    (net.arrive id e).links = net.links := by
  unfold arrive
  split
  · rfl
  · rename_i c _
    cases c with
    | shared pool t =>
      unfold consume
      dsimp only
      split <;> rfl
    | _ => rfl

/-- The frame that a transmission leaves on a link. -/
theorem posted?_transmitted (net : Network) (id : NodeId) (t : Transmission) :
    net.wiring.posted? (.transmitted id t) = (net.node? id).bind fun n =>
      n.medium.link?.bind fun k => (net.link? k).map fun l =>
        (k, ⟨n.station.attachment.mac, l.target t, t.frame⟩) := by
  simp only [Wiring.posted?, links_wiring]
  simp only [wiring, directory]
  cases net.node? id with
  | none => rfl
  | some n =>
    cases hk : n.medium.link? with
    | none => simp [hk]
    | some k =>
      cases hl : net.link? k with
      | none => simp [hk, hl]
      | some l =>
        simp only [Option.map_some, Option.bind_eq_bind, Option.bind_some, hk, hl]
        rfl

/-- An event leaves the frames that wait and the one it transmits. -/
theorem waiting_apply (net : Network) (event : Event) :
    (net.apply event).waiting = net.waiting + ↑(net.wiring.posted? event).toList := by
  cases event with
  | transmitted id t =>
    rw [posted?_transmitted]
    unfold apply transmit
    dsimp only
    cases net.node? id with
    | none => exact (add_zero _).symm
    | some n =>
      cases hm : n.medium with
      | wire attached sent =>
        simp only [hm, Option.bind_some, Medium.link?, Option.bind_none]
        exact (add_zero _).symm
      | tap k counts =>
        simp only [hm, Option.bind_some, Medium.link?]
        exact waiting_accept _ k n.station.attachment.mac t
  | arrived id e => exact (waiting_of_links_eq (links_arrive net id e)).trans (add_zero _).symm
  | handed id length => exact (add_zero _).symm
  | received id => exact (add_zero _).symm
  | dropped id => exact (add_zero _).symm
  | relayed source target ingress recipient e broadcast => exact (add_zero _).symm
  | reported id fault => exact (add_zero _).symm

theorem waiting_applyAll (net : Network) (events : List Event) :
    (net.applyAll events).waiting = net.waiting + ↑(events.filterMap net.wiring.posted?) := by
  induction events generalizing net with
  | nil => exact (add_zero _).symm
  | cons event rest ih =>
    have hstep := waiting_apply net event
    have hrest := ih (net.apply event)
    rw [wiring_apply, hstep] at hrest
    refine hrest.trans ?_
    cases hp : net.wiring.posted? event with
    | none => simp [List.filterMap_cons_none hp]
    | some p =>
      rw [List.filterMap_cons_some hp, add_assoc]
      rfl

/-! ## Links at work -/

/-- Links work one after the other, which causes `events`. -/
inductive LinkRun : Network → List Event → Network → Prop
  | refl (net : Network) : LinkRun net [] net
  | head {net net' net'' : Network} {k : LinkId} {events rest : List Event}
      (first : net.HandsOut k events net') (run : LinkRun net' rest net'') :
      LinkRun net (events ++ rest) net''

/-- All that comes of the frames that wait. -/
def impending (net : Network) : Multiset Event := (net.waiting.map net.wiring.consequences).sum

/-- A frame that is handed out is gone, and those it leads to wait in its place. -/
theorem HandsOut.waiting {net net' : Network} {k : LinkId} {events : List Event}
    (h : net.HandsOut k events net') : net'.wiring = net.wiring ∧ ∃ p : Parcel,
      events.Perm (net.wiring.handed p) ∧
        net'.waiting + {p} = net.waiting + ↑(events.filterMap net.wiring.posted?) := by
  cases h with
  | @intro l f queue order link running pop recipients =>
    have hwiring : (net.modifyLink k fun l => { l with queue }).wiring = net.wiring := by
      refine wiring_modifyLink net k ?_
      exact fun _ => rfl
    refine ⟨(wiring_applyAll _ _).trans hwiring, (k, f), ?_, ?_⟩
    · have hl := links_wiring net k
      rw [link] at hl
      have halive : net.wiring.isAlive = net.isAlive := by
        funext id
        simp [Wiring.isAlive, wiring, directory, isAlive]
      simp only [Wiring.handed, hl, Option.map_some, halive]
      exact recipients.flatMap_right _
    · have hw := waiting_modifyLink link fun l => { l with queue }
      have hp : l.parcels k = Link.parcels { l with queue } k + {(k, f)} := by
        simp only [Link.parcels, Mailbox.pop_eq_some_iff.mp pop, List.map_cons]
        rw [← Multiset.coe_singleton, Multiset.coe_add, Multiset.coe_eq_coe]
        exact (List.perm_append_singleton _ _).symm
      rw [hp, add_comm (Link.parcels _ k) {(k, f)}, ← add_assoc] at hw
      rw [waiting_applyAll, hwiring, add_right_comm, add_right_cancel hw]

/-- Handing out a frame causes what was to come of the frame but for what is still to come. -/
theorem HandsOut.add_impending {net net' : Network} (routed : net.Routed) {k : LinkId}
    {events : List Event} (h : net.HandsOut k events net') :
    ↑events + net'.impending = net.impending := by
  obtain ⟨hwiring, p, hperm, hw⟩ := h.waiting
  have hsum := congrArg (fun ps : Multiset Parcel => (ps.map net.wiring.consequences).sum) hw
  simp only [Multiset.map_add, Multiset.sum_add, Multiset.map_singleton, Multiset.sum_singleton,
    Multiset.map_coe, Multiset.sum_coe] at hsum
  rw [Wiring.consequences_eq_outcome routed.directory, ← Wiring.outcome_perm hperm,
    Wiring.outcome, ← add_assoc] at hsum
  rw [impending, hwiring, impending, add_comm]
  exact add_right_cancel hsum

namespace LinkRun

variable {net net' : Network} {events : List Event}

theorem wiring_eq (h : LinkRun net events net') : net'.wiring = net.wiring := by
  induction h with
  | refl => rfl
  | head first run ih => exact ih.trans first.waiting.1

theorem routed (h : LinkRun net events net') (routed : net.Routed) : net'.Routed := by
  induction h with
  | refl => exact routed
  | head first run ih =>
    exact ih (routed.of_keepsRoutes (Step.handsOut first).keepsSetup.keepsRoutes)

/-- What links cause is what was to come but for what is still to come. -/
theorem add_impending (h : LinkRun net events net') (routed : net.Routed) :
    ↑events + net'.impending = net.impending := by
  induction h with
  | refl => exact zero_add _
  | head first run ih =>
    have hkeeps := (Step.handsOut first).keepsSetup.keepsRoutes
    rw [← Multiset.coe_add, add_assoc, ih (routed.of_keepsRoutes hkeeps)]
    exact first.add_impending routed

/-- Links that work until no frame waits cause what was to come of the frames at the start. -/
theorem events_eq (h : LinkRun net events net') (routed : net.Routed) (rest : net'.waiting = 0) :
    ↑events = net.impending := by
  have hall := h.add_impending routed
  have hnone : net'.impending = 0 := by rw [impending, rest, Multiset.map_zero, Multiset.sum_zero]
  rwa [hnone, add_zero] at hall

end LinkRun

/-! ## Rest -/

/-- No link can hand out a frame. -/
def LinksRest (net : Network) : Prop := ∀ k events net', ¬ net.HandsOut k events net'

theorem waiting_eq_zero_iff {net : Network} : net.waiting = 0 ↔ ∀ l ∈ net.links, l.queue = ∅ := by
  have hparcels : ∀ (l : Link) (k : LinkId), l.parcels k = 0 ↔ l.queue = ∅ := by
    intro l k
    cases hq : l.queue
    rw [Link.parcels, hq, Multiset.coe_eq_zero, List.map_eq_nil_iff]
    exact ⟨fun h => congrArg Mailbox.mk h, fun h => congrArg Mailbox.toList h⟩
  rw [Network.waiting, List.sum_eq_zero_iff]
  simp only [List.mem_mapIdx, forall_exists_index]
  constructor
  · intro h l hl
    obtain ⟨k, hk, rfl⟩ := List.mem_iff_getElem.mp hl
    exact (hparcels _ k).mp (h _ k hk rfl)
  · rintro h _ k hk rfl
    exact (hparcels _ k).mpr (h _ (List.getElem_mem hk))

/-- No frame waits where all links run and none can hand out a frame. -/
theorem LinksRest.waiting_eq_zero {net : Network} (rest : net.LinksRest)
    (running : ∀ l ∈ net.links, l.running = true) : net.waiting = 0 := by
  refine waiting_eq_zero_iff.mpr fun l hl => ?_
  obtain ⟨k, hk⟩ := List.mem_iff_getElem?.mp hl
  cases hq : l.queue with | mk items =>
  cases items with
  | nil => rfl
  | cons f queue =>
    have hpop : l.queue.pop = some (f, ⟨queue⟩) := Mailbox.pop_eq_some_iff.mpr (by rw [hq])
    exact absurd (HandsOut.intro hk (running l hl) hpop (List.Perm.refl _)) (rest k _ _)

/-- Where no frame waits the links are those of the wiring. -/
theorem links_eq_of_waiting_eq_zero {net : Network} (h : net.waiting = 0) :
    net.links = net.wiring.links := by
  have hidle : ∀ l ∈ net.links, l = l.idle := fun l hl => by
    rw [Link.idle, ← waiting_eq_zero_iff.mp h l hl]
  have hid : net.links.map id = net.links := List.map_id net.links
  exact hid.symm.trans (List.map_congr_left hidle)

/-- Links run as long as the wiring is the same. -/
theorem running_of_wiring_eq {net net' : Network} (h : net'.wiring = net.wiring)
    (running : ∀ l ∈ net.links, l.running = true) : ∀ l ∈ net'.links, l.running = true := by
  intro l hl
  have hw : l.idle ∈ net.wiring.links := h ▸ List.mem_map_of_mem hl
  obtain ⟨l', hl', he⟩ := List.mem_map.mp hw
  have hr : l'.running = l.running := (congrArg Link.running he :)
  exact hr ▸ running l' hl'

/-- Links can work until none of them can hand out a frame. -/
theorem exists_linkRun {net : Network} (h : Acc (fun net' net : Network => net.Step net') net) :
    ∃ events net', LinkRun net events net' ∧ net'.LinksRest := by
  induction h with
  | intro net _ ih =>
    by_cases hrest : net.LinksRest
    · exact ⟨[], net, .refl net, hrest⟩
    · simp only [LinksRest, not_forall, not_not] at hrest
      obtain ⟨k, events, net', hfirst⟩ := hrest
      obtain ⟨rest, net'', hrun, hend⟩ := ih net' (.handsOut hfirst)
      exact ⟨events ++ rest, net'', .head hfirst hrun, hend⟩

end Network

end Fieldbus
