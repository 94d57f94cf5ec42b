import Fieldbus.Proofs.Calls
import Fieldbus.Proofs.Records
import Fieldbus.Proofs.Registrations

/-!
# Ports

A port is where a node is tapped to a link: it has the node's sub-address, and it counts the bytes
that pass. Main statements: what links queue and ports count after events depends on nothing but the
events (`queued_applyAll`, `counts?_applyAll`), a port counts the frames its link accepts
(`lengths_accepted`), and whatever does not pass a port leaves links and ports as they are
(`KeepsPorts`).
-/

namespace Fieldbus

theorem Event.transmission?_eq_some_iff {id : NodeId} {event : Event} {t : Transmission} :
    event.transmission? id = some t ↔ event = .transmitted id t := by
  cases event <;> simp

/-- The bytes that a tap on a given link has counted. -/
def Medium.counts? (k : LinkId) : Medium → Option ByteCounts
  | .wire .. => none
  | .tap link counts => if link = k then some counts else none

/-- The bytes that a port has counted after some events at its node. -/
def ByteCounts.after (id : NodeId) (events : List Event) (c : ByteCounts) : ByteCounts where
  bytesIn := c.bytesIn + (events.map (Event.bytesTo id)).sum
  bytesOut := c.bytesOut + ((transmissions id events).map fun t => t.frame.length).sum

theorem Medium.link?_of_counts? {k : LinkId} {m : Medium} {c : ByteCounts}
    (h : m.counts? k = some c) : m.link? = some k := by
  unfold counts? at h
  split at h
  · cases h
  · split at h
    · exact congrArg some ‹_›
    · cases h

theorem Medium.counts?_after (k : LinkId) (id : NodeId) (events : List Event) (m : Medium) :
    (m.after id events).counts? k = (m.counts? k).map (ByteCounts.after id events) := by
  cases m with
  | wire attached sent => rfl
  | tap link counts =>
    simp only [after, counts?]
    split <;> rfl

/-- A port counts nothing when nothing passes it. -/
theorem ByteCounts.after_eq_self {id : NodeId} {event : Event} (sent : event.transmission? id = none)
    (handed : event.bytesTo id = 0) (c : ByteCounts) : c.after id [event] = c := by
  have hsent : transmissions id [event] = [] := List.filterMap_cons_none sent
  have hhanded : ([event].map (Event.bytesTo id)).sum = 0 := by
    rw [List.map_singleton, List.sum_singleton, handed]
  rw [after, hsent, hhanded]
  rfl

theorem ByteCounts.after_append (id : NodeId) (events events' : List Event) (c : ByteCounts) :
    c.after id (events ++ events') = (c.after id events).after id events' := by
  simp [after, transmissions, Nat.add_assoc]

/-- A registration changes nothing but the registrations. -/
theorem Link.eq_of_register {l l' : Link} {alive : NodeId → Bool} {segment : Segment}
    {mac : Bytes} {id : NodeId} (h : l.register alive segment mac id = .ok l') :
    l' = { l with registry := l.registry.insert mac id } := by
  unfold register at h
  split at h
  · cases h
  split at h
  · cases h
  · cases h
    rfl

namespace Network

/-- The bytes that the port of a node on a link has counted. -/
def counts? (net : Network) (k : LinkId) (id : NodeId) : Option ByteCounts :=
  (net.node? id).bind fun n => n.medium.counts? k

/-- How the station of a node is attached. -/
def attachment? (net : Network) (id : NodeId) : Option Attachment :=
  (net.node? id).map fun n => n.station.attachment

/-- The frames that wait on a link, the oldest first. -/
def queued (net : Network) (k : LinkId) : List LinkFrame :=
  ((net.link? k).map fun l => l.queue.toList).getD []

/-- The frame that a link accepts when an event happens, and the node it is from. -/
def accepted? (net : Network) (k : LinkId) (event : Event) : Option (NodeId × LinkFrame) :=
  (net.wiring.posted? event).bind fun p => if p.1 = k then some (event.place, p.2) else none

/-- Links and ports are as they were. -/
structure KeepsPorts (net net' : Network) : Prop where
  /-- Links are as they were. -/
  links : net'.links = net.links
  /-- No node is added. -/
  length_eq : net'.nodes.length = net.nodes.length
  /-- Nodes are attached as they were. -/
  attachment : net'.attachment? = net.attachment?
  /-- Ports have counted what they had counted. -/
  counts : ∀ k, net'.counts? k = net.counts? k

variable {net net' : Network} {id : NodeId} {k : LinkId}

/-- A node is on a port if it has one on the link and the sub-address is its own. -/
theorem port?_eq_some_iff {mac : Bytes} : net.port? id = some (k, mac) ↔
    (∃ c, net.counts? k id = some c) ∧ ∃ a, net.attachment? id = some a ∧ a.mac = mac := by
  unfold port? counts? attachment?
  cases net.node? id with
  | none => simp
  | some n =>
    cases hm : n.medium with
    | wire attached sent => simp [hm, Medium.link?, Medium.counts?]
    | tap link counts => simp [hm, Medium.link?, Medium.counts?]

theorem isAlive_eq_attachment? (net : Network) (id : NodeId) :
    net.isAlive id = (net.attachment? id).isSome := by
  simp [isAlive, attachment?]

/-! ## What does not pass a port -/

theorem KeepsPorts.refl (net : Network) : net.KeepsPorts net := ⟨rfl, rfl, rfl, fun _ => rfl⟩

theorem KeepsPorts.trans {net'' : Network} (h : net.KeepsPorts net') (h' : net'.KeepsPorts net'') :
    net.KeepsPorts net'' where
  links := h'.links.trans h.links
  length_eq := h'.length_eq.trans h.length_eq
  attachment := h'.attachment.trans h.attachment
  counts k := (h'.counts k).trans (h.counts k)

/-- A change to a node that is no matter of its port. -/
theorem keepsPorts_modifyNode (net : Network) (id : NodeId) {f : Node → Node}
    (station : ∀ n, net.node? id = some n → (f n).station.attachment = n.station.attachment)
    (medium : ∀ n, net.node? id = some n → ∀ k, (f n).medium.counts? k = n.medium.counts? k) :
    net.KeepsPorts (net.modifyNode id f) where
  links := rfl
  length_eq := length_nodes_modifyNode net id f
  attachment := by
    funext id'
    simp only [attachment?, node?_modifyNode]
    split
    · rename_i he
      subst he
      cases hn : net.node? id' with
      | none => rfl
      | some n => exact congrArg some (station n hn)
    · rfl
  counts k := by
    funext id'
    simp only [counts?, node?_modifyNode]
    split
    · rename_i he
      subst he
      cases hn : net.node? id' with
      | none => rfl
      | some n => exact medium n hn k
    · rfl

theorem overlooksTransports_keepsPorts : OverlooksTransports KeepsPorts where
  refl := KeepsPorts.refl
  trans := KeepsPorts.trans
  modifyNode net id f hf := by
    refine keepsPorts_modifyNode net id (fun n _ => ?_) fun n _ k => ?_ <;>
      obtain ⟨consumer, noted, outcomes, hn⟩ := hf n <;> rw [hn]
  modifyPool _ _ _ := ⟨rfl, rfl, rfl, fun _ => rfl⟩

theorem keepsPorts_arrive (net : Network) (id : NodeId) (e : Envelope) :
    net.KeepsPorts (net.arrive id e) := by
  have hcounted : ∀ f, net.KeepsPorts (net.count id f) := fun f =>
    keepsPorts_modifyNode net id (fun _ _ => rfl) fun _ _ _ => rfl
  unfold arrive
  split
  · exact hcounted _
  · exact (hcounted _).trans (overlooksTransports_keepsPorts.consume _ id e _)

/-! ## Coming and going -/

/-- A start puts the node into its place on its link, or it is no matter of ports. -/
theorem move_start_cases (net : Network) (x : NodeId) : net.KeepsPorts (net.move (.start x)) ∨
    ∃ k mac l, net.port? x = some (k, mac) ∧ net.link? k = some l ∧ net.move (.start x) =
      net.modifyLink k fun _ => { l with registry := l.registry.insert mac x } := by
  cases hn : net.node? x with
  | none =>
    simp only [move, start, hn]
    exact Or.inl (KeepsPorts.refl net)
  | some n =>
    cases hm : n.medium with
    | wire attached sent =>
      simp only [move, start, hn, hm]
      refine Or.inl (keepsPorts_modifyNode net x ?_ fun n' hn' k => ?_)
      · exact fun _ _ => rfl
      · obtain rfl : n = n' := Option.some.inj (hn.symm.trans hn')
        rw [hm]
        rfl
    | tap k counts =>
      have hport : net.port? x = some (k, n.station.attachment.mac) := by
        rw [port?, hn, Option.bind_some, hm]
        rfl
      cases hl : net.link? k with
      | none =>
        simp only [move, start, hn, hm, hl]
        exact Or.inl (KeepsPorts.refl net)
      | some l =>
        cases hr : l.register net.isAlive n.station.segment n.station.attachment.mac x with
        | error fault =>
          simp only [move, start, hn, hm, hl, hr]
          exact Or.inl (KeepsPorts.refl net)
        | ok l' =>
          refine Or.inr ⟨k, _, l, hport, hl, ?_⟩
          rw [← Link.eq_of_register hr]
          simp only [move, start, hn, hm, hl, hr]
          rfl

/-- Detaching frees the place of the node's sub-address on its link, or it is no matter of ports. -/
theorem detach_cases (net : Network) (x : NodeId) : net.KeepsPorts (net.detach x) ∨
    ∃ k mac, net.port? x = some (k, mac) ∧
      net.detach x = net.modifyLink k fun l => l.unregister mac := by
  unfold detach
  cases hn : net.node? x with
  | none => exact Or.inl (KeepsPorts.refl net)
  | some n =>
    cases hm : n.medium with
    | wire attached sent =>
      simp only [hm]
      refine Or.inl (keepsPorts_modifyNode net x ?_ fun n' hn' k => ?_)
      · exact fun _ _ => rfl
      · obtain rfl : n = n' := Option.some.inj (hn.symm.trans hn')
        rw [hm]
        rfl
    | tap k counts =>
      refine Or.inr ⟨k, n.station.attachment.mac, ?_, by simp only [hm]⟩
      rw [port?, hn, Option.bind_some, hm]
      rfl

/-! ## Events -/

/-- What the ports have counted after a node was changed. -/
theorem counts?_modifyNode (net : Network) (id : NodeId) (f : Node → Node) (id' : NodeId) :
    (net.modifyNode id f).counts? k id' = if id' = id
      then (net.node? id').bind fun n => (f n).medium.counts? k else net.counts? k id' := by
  unfold counts?
  rw [node?_modifyNode]
  split
  · rw [Option.bind_map]
    rfl
  · rfl

/-- What a port has counted after a change to its node that comes of one event. -/
theorem counts?_modifyNode_eq_after (event : Event) {f : Node → Node}
    (h : ∀ n, net.node? event.place = some n → (f n).medium = n.medium.after event.place [event]) :
    (net.modifyNode event.place f).counts? k id =
      (net.counts? k id).map (ByteCounts.after id [event]) := by
  rw [counts?_modifyNode]
  split
  · rename_i he
    subst he
    unfold counts?
    cases hn : net.node? event.place with
    | none => rfl
    | some n => rw [Option.bind_some, Option.bind_some, h n hn, Medium.counts?_after]
  · rename_i hne
    have hsent : event.transmission? id = none := by
      cases event with
      | transmitted node t => exact if_neg (Ne.symm hne)
      | _ => rfl
    have hhanded : event.bytesTo id = 0 := by
      cases event with
      | handed node length => exact if_neg (Ne.symm hne)
      | _ => rfl
    cases net.counts? k id with
    | none => rfl
    | some c => rw [Option.map_some, ByteCounts.after_eq_self hsent hhanded]

/-- What ports have counted after an event. -/
theorem counts?_apply (net : Network) (event : Event) (k : LinkId) (id : NodeId) :
    (net.apply event).counts? k id = (net.counts? k id).map (ByteCounts.after id [event]) := by
  have hsame : ∀ {event : Event} {net' : Network}, net.KeepsPorts net' →
      event.transmission? id = none → event.bytesTo id = 0 →
      net'.counts? k id = (net.counts? k id).map (ByteCounts.after id [event]) := by
    intro event net' keeps hsent hhanded
    rw [keeps.counts]
    cases net.counts? k id with
    | none => rfl
    | some c => rw [Option.map_some, ByteCounts.after_eq_self hsent hhanded]
  cases event with
  | handed node length =>
    refine counts?_modifyNode_eq_after (.handed node length) fun n _ => ?_
    cases hm : n.medium <;> simp [Medium.after, hm, transmissions, List.filterMap_cons]
  | transmitted node t =>
    unfold apply transmit
    dsimp only
    split
    · rename_i hn
      have hc : node = id → net.counts? k id = none := by
        rintro rfl
        rw [counts?, hn, Option.bind_none]
      by_cases he : node = id
      · rw [hc he]
        rfl
      · refine hsame (KeepsPorts.refl net) ?_ rfl
        rw [Event.transmission?, if_neg he]
    · rename_i n hn
      split
      · rename_i attached sent hm
        refine counts?_modifyNode_eq_after (.transmitted node t) fun n' hn' => ?_
        obtain rfl : n = n' := Option.some.inj (hn.symm.trans hn')
        simp [Medium.after, hm, transmissions]
      · rename_i link counts hm
        refine counts?_modifyNode_eq_after (.transmitted node t) fun n' hn' => ?_
        obtain rfl : n = n' := Option.some.inj (hn.symm.trans hn')
        simp [Medium.after, hm, transmissions]
  | received node =>
    refine hsame ?_ rfl rfl
    exact keepsPorts_modifyNode net node (fun _ _ => rfl) fun _ _ _ => rfl
  | dropped node =>
    refine hsame ?_ rfl rfl
    exact keepsPorts_modifyNode net node (fun _ _ => rfl) fun _ _ _ => rfl
  | arrived node e => exact hsame (keepsPorts_arrive net node e) rfl rfl
  | relayed source target ingress recipient e broadcast =>
    refine hsame ?_ rfl rfl
    exact keepsPorts_modifyNode net source (fun _ _ => rfl) fun _ _ _ => rfl
  | reported node fault =>
    refine hsame (keepsPorts_modifyNode net node (fun n _ => ?_) fun n _ k => ?_) rfl rfl <;>
      split <;> rfl

/-- What ports have counted after events. -/
theorem counts?_applyAll (net : Network) (events : List Event) (k : LinkId) (id : NodeId) :
    (net.applyAll events).counts? k id = (net.counts? k id).map (ByteCounts.after id events) := by
  induction events generalizing net with
  | nil => cases h : net.counts? k id <;> simp [applyAll, h, ByteCounts.after, transmissions]
  | cons event rest ih =>
    refine (ih (net.apply event)).trans ?_
    rw [counts?_apply, Option.map_map]
    congr 1
    funext c
    exact (ByteCounts.after_append id [event] rest c).symm

/-- What waits on a link after an event. -/
theorem queued_apply (net : Network) (event : Event) (k : LinkId) :
    (net.apply event).queued k = net.queued k ++ ((net.accepted? k event).map Prod.snd).toList := by
  have hsame : ∀ {net' : Network}, net'.links = net.links → net.accepted? k event = none →
      net'.queued k = net.queued k ++ ((net.accepted? k event).map Prod.snd).toList := by
    intro net' hlinks hnone
    rw [hnone, Option.map_none, Option.toList_none, List.append_nil, queued, link?, hlinks]
    rfl
  cases event with
  | transmitted node t =>
    have hposted := posted?_transmitted net node t
    cases hn : net.node? node with
    | none =>
      rw [hn] at hposted
      simp only [apply, transmit, hn]
      exact hsame rfl (by rw [accepted?, hposted]; rfl)
    | some n =>
      cases hm : n.medium with
      | wire attached sent =>
        simp only [hn, Option.bind_some, hm, Medium.link?] at hposted
        simp only [apply, transmit, hn, hm]
        exact hsame rfl (by rw [accepted?, hposted]; rfl)
      | tap j counts =>
        simp only [hn, Option.bind_some, hm, Medium.link?] at hposted
        simp only [apply, transmit, hn, hm, accepted?, hposted, queued, link?, modifyLink, modifyNode,
          List.getElem?_modify]
        by_cases hj : j = k
        · subst hj
          cases net.links[j]? <;> simp
        · cases net.links[j]? <;> cases net.links[k]? <;> simp [hj]
  | arrived node e => exact hsame (links_arrive net node e) rfl
  | handed node length => exact hsame rfl rfl
  | received node => exact hsame rfl rfl
  | dropped node => exact hsame rfl rfl
  | relayed source target ingress recipient e broadcast => exact hsame rfl rfl
  | reported node fault => exact hsame rfl rfl

/-- What waits on a link after events. -/
theorem queued_applyAll (net : Network) (events : List Event) (k : LinkId) :
    (net.applyAll events).queued k =
      net.queued k ++ (events.filterMap (net.accepted? k)).map Prod.snd := by
  induction events generalizing net with
  | nil => exact (List.append_nil _).symm
  | cons event rest ih =>
    have hsame : (net.apply event).accepted? k = net.accepted? k := by
      funext event'
      rw [accepted?, accepted?, wiring_apply]
    refine (ih (net.apply event)).trans ?_
    rw [hsame, queued_apply, List.append_assoc]
    cases h : net.accepted? k event <;> simp [h]

/-- The link of a port accepts what is transmitted there. -/
theorem accepted?_transmitted {c : ByteCounts} {l : Link} {a : Attachment}
    (port : net.counts? k id = some c) (attachment : net.attachment? id = some a)
    (link : net.link? k = some l) (t : Transmission) :
    net.accepted? k (.transmitted id t) = some (id, ⟨a.mac, l.target t, t.frame⟩) := by
  obtain ⟨n, hn, hc⟩ := Option.bind_eq_some_iff.mp port
  obtain rfl : n.station.attachment = a := by
    rw [attachment?, hn, Option.map_some] at attachment
    exact Option.some.inj attachment
  rw [accepted?, posted?_transmitted, hn, Option.bind_some, Medium.link?_of_counts? hc,
    Option.bind_some, link, Option.map_some, Option.bind_some, if_pos rfl]
  rfl

/-- Whoever a frame is accepted from has transmitted it. -/
theorem of_accepted? {event : Event} {x : NodeId × LinkFrame} (h : net.accepted? k event = some x) :
    ∃ t, event = .transmitted x.1 t := by
  obtain ⟨p, hp, hx⟩ := Option.bind_eq_some_iff.mp h
  split at hx
  · obtain rfl := Option.some.inj hx
    cases event with
    | transmitted node t => exact ⟨t, rfl⟩
    | _ => cases hp
  · cases hx

/-- The frame that a link accepts for a transmission has the sub-address of the node it is from and the
target of the transmission. -/
theorem eq_of_accepted? {t : Transmission} {x : NodeId × LinkFrame}
    (h : net.accepted? k (.transmitted id t) = some x) :
    ∃ n l, net.node? id = some n ∧ net.link? k = some l ∧
      x = (id, ⟨n.station.attachment.mac, l.target t, t.frame⟩) := by
  obtain ⟨p, hp, hx⟩ := Option.bind_eq_some_iff.mp h
  rw [posted?_transmitted] at hp
  obtain ⟨n, hn, hp⟩ := Option.bind_eq_some_iff.mp hp
  obtain ⟨j, -, hp⟩ := Option.bind_eq_some_iff.mp hp
  obtain ⟨l, hl, rfl⟩ := Option.map_eq_some_iff.mp hp
  split at hx
  · rename_i hj
    obtain rfl : j = k := hj
    exact ⟨n, l, hn, hl, (Option.some.inj hx).symm⟩
  · cases hx

/-- A port counts the bytes of the frames that its link accepts from it. -/
theorem frames_accepted {c : ByteCounts} (port : net.counts? k id = some c)
    (link : (net.link? k).isSome = true) (events : List Event) :
    ((events.filterMap (net.accepted? k)).filter fun x => x.1 = id).map (fun x => x.2.data) =
      (transmissions id events).map fun t => t.frame := by
  obtain ⟨l, hl⟩ := Option.isSome_iff_exists.mp link
  obtain ⟨n, hn, -⟩ := Option.bind_eq_some_iff.mp port
  have hattachment : net.attachment? id = some n.station.attachment := by
    rw [attachment?, hn, Option.map_some]
  induction events with
  | nil => rfl
  | cons event rest ih =>
    cases ht : event.transmission? id with
    | some t =>
      obtain rfl := Event.transmission?_eq_some_iff.mp ht
      have ha := accepted?_transmitted port hattachment hl t
      rw [List.filterMap_cons_some ha, transmissions, List.filterMap_cons_some ht, List.filter_cons,
        if_pos (by simp), List.map_cons, List.map_cons, ih]
      rfl
    | none =>
      rw [transmissions, List.filterMap_cons_none ht]
      cases ha : net.accepted? k event with
      | none =>
        rw [List.filterMap_cons_none ha]
        exact ih
      | some x =>
        have hx : x.1 ≠ id := by
          rintro rfl
          obtain ⟨t, rfl⟩ := of_accepted? ha
          simp at ht
        rw [List.filterMap_cons_some ha, List.filter_cons, if_neg (by simpa using hx)]
        exact ih

end Network

/-! ## Receiving -/

namespace Directory

/-- What neighbors do that are called hands no frame to any port. -/
theorem not_handed_call {d : Directory} {c : Call} {id : NodeId} {length : Nat} :
    .handed id length ∉ c.events d := by
  intro h
  obtain ⟨c', -, he | he⟩ := Call.mem_events_iff.mp h
  · cases he
  · rcases Call.of_mem_own he with ⟨-, he⟩ | he | ⟨fault, he⟩ <;> cases he

/-- What a station does with a frame hands no frame to any port. -/
theorem not_handed_receive (d : Directory) (m : Member) (frame origin : Bytes) (id : NodeId)
    (length : Nat) : .handed id length ∉ (d.receive m frame origin).events := by
  obtain ⟨calls, own, hevents, -, hown⟩ := d.exists_calls_receive m frame origin
  rw [hevents, List.mem_flatMap]
  rintro (⟨c, -, hc⟩ | h)
  · exact not_handed_call hc
  · rcases hown _ h with he | he | ⟨fault, he⟩ | ⟨e, -, he⟩ <;> cases he

/-- What a station does to send a message hands no frame to any port. -/
theorem not_handed_send (d : Directory) (m : Member) (msg : Message) (id : NodeId) (length : Nat) :
    .handed id length ∉ (d.send m msg).events := by
  obtain ⟨calls, own, hevents, -, hown⟩ := d.exists_calls_send m msg
  rw [hevents, List.mem_append, List.mem_flatMap]
  rintro (⟨c, -, hc⟩ | h)
  · exact not_handed_call hc
  · obtain ⟨header, router, -, hput⟩ := hown _ h
    cases (Member.mem_put_iff.mp hput).1

/-- Handing a frame to a node hands its bytes to the port of the node, and to no other. -/
theorem bytesTo_handing (d : Directory) (f : LinkFrame) (x id : NodeId) :
    ((d.handing f x).map (Event.bytesTo id)).sum = if x = id then f.data.length else 0 := by
  have hrest : ∀ event ∈ ((d.member? x).map fun m => (d.receive m f.data f.origin).events).getD [],
      event.bytesTo id = 0 := by
    intro event he
    cases event with
    | handed node length =>
      cases hm : d.member? x with
      | none => simp [hm] at he
      | some m =>
        rw [hm] at he
        exact absurd he (d.not_handed_receive m f.data f.origin node length)
    | _ => rfl
  rw [handing, List.map_cons, List.sum_cons, List.sum_eq_zero, Nat.add_zero]
  · rfl
  · simpa using hrest

end Directory

end Fieldbus
