import Mathlib.Algebra.GroupWithZero.Nat
import Fieldbus.Proofs.Wiring

/-!
# What nodes keep of events

A node whose consumer processes nothing only records what happens at it: envelopes, faults and
totals. Main statements: what it has recorded is a function of the events at it
(`node?_applyAll`, `LinkRun.node?`), and up to the order of what it has kept it does not depend
on the order of the events (`Node.after_alike`).
-/

namespace Fieldbus

namespace Event

/-- The node at which an event happens. -/
@[simp] def place : Event → NodeId
  | .handed node _ => node
  | .received node => node
  | .dropped node => node
  | .arrived node _ => node
  | .relayed source .. => source
  | .transmitted node _ => node
  | .reported node _ => node

/-- The envelope that has reached a given node. -/
@[simp] def arrival? (id : NodeId) : Event → Option Envelope
  | .arrived node e => if node = id then some e else none
  | _ => none

/-- The fault that a given node has reported. -/
@[simp] def fault? (id : NodeId) : Event → Option Fault
  | .reported node fault => if node = id then some fault else none
  | _ => none

/-- The transmission of a given node. -/
@[simp] def transmission? (id : NodeId) : Event → Option Transmission
  | .transmitted node t => if node = id then some t else none
  | _ => none

/-- A given node has taken a frame in. -/
@[simp] def isReception (id : NodeId) : Event → Bool
  | .received node => node == id
  | _ => false

/-- A given node has discarded a frame. -/
@[simp] def isDrop (id : NodeId) : Event → Bool
  | .dropped node => node == id
  | _ => false

/-- A given node has handed an envelope on. -/
@[simp] def isForward (id : NodeId) : Event → Bool
  | .relayed source .. => source == id
  | _ => false

/-- How many bytes were handed to a given node. -/
@[simp] def bytesTo (id : NodeId) : Event → Nat
  | .handed node length => if node = id then length else 0
  | _ => 0

end Event

/-- The envelopes that reach a node, in order. -/
def arrivals (id : NodeId) (events : List Event) : List Envelope :=
  events.filterMap (Event.arrival? id)

/-- The transmissions of a node, in order. -/
def transmissions (id : NodeId) (events : List Event) : List Transmission :=
  events.filterMap (Event.transmission? id)

/-- The medium of a node after some events. -/
def Medium.after (id : NodeId) (events : List Event) : Medium → Medium
  | .wire attached sent => .wire attached (sent ++ transmissions id events)
  | .tap link counts => .tap link {
      bytesIn := counts.bytesIn + (events.map (Event.bytesTo id)).sum
      bytesOut := counts.bytesOut + ((transmissions id events).map fun t => t.frame.length).sum }

/-- A medium to which nothing is handed and that transmits nothing stays as it is. -/
theorem Medium.after_eq_self {id : NodeId} {event : Event} (sent : event.transmission? id = none)
    (handed : event.bytesTo id = 0) (m : Medium) : m.after id [event] = m := by
  have hsent : transmissions id [event] = [] := List.filterMap_cons_none sent
  have hhanded : ([event].map (Event.bytesTo id)).sum = 0 := by
    rw [List.map_singleton, List.sum_singleton, handed]
  cases m <;> simp only [after, hsent, hhanded, List.append_nil, List.map_nil, List.sum_nil, add_zero]

namespace Node

/-- The consumer of the node, if there is one, processes nothing. -/
def Records (n : Node) : Prop := ∀ c ∈ n.consumer, ∃ items, c = .collector items

/-- A node that records what happens at it, after some events. -/
def after (id : NodeId) (events : List Event) (n : Node) : Node :=
  { n with
    medium := n.medium.after id events
    faults := n.faults ++ if n.keepsFaults then events.filterMap (Event.fault? id) else []
    counts := {
      received := n.counts.received + events.countP (Event.isReception id)
      delivered := n.counts.delivered +
        if n.consumer.isSome then (arrivals id events).length else 0
      forwarded := n.counts.forwarded + events.countP (Event.isForward id)
      dropped := n.counts.dropped + events.countP (Event.isDrop id) +
        if n.consumer.isSome then 0 else (arrivals id events).length }
    noted := n.noted ++ if n.consumer.isSome then arrivals id events else [] }

theorem after_nil (id : NodeId) (n : Node) : n.after id [] = n := by
  obtain ⟨station, medium, keepsFaults, faults, counts, consumer, noted, outcomes⟩ := n
  cases medium <;> cases keepsFaults <;> cases consumer <;>
    simp [after, Medium.after, arrivals, transmissions]

theorem after_append (id : NodeId) (events events' : List Event) (n : Node) :
    n.after id (events ++ events') = (n.after id events).after id events' := by
  obtain ⟨station, medium, keepsFaults, faults, counts, consumer, noted, outcomes⟩ := n
  cases medium <;> cases keepsFaults <;> cases consumer <;>
    simp [after, Medium.after, arrivals, transmissions, Nat.add_assoc] <;> omega

/-- An event at another node is not recorded. -/
theorem after_of_place_ne {id : NodeId} {event : Event} (h : event.place ≠ id) (n : Node) :
    n.after id [event] = n := by
  have hmedium : n.medium.after id [event] = n.medium := by
    refine Medium.after_eq_self ?_ ?_ n.medium <;> cases event <;> simp_all
  have harrival : event.arrival? id = none := by cases event <;> simp_all
  have hfault : event.fault? id = none := by cases event <;> simp_all
  have hcounts : event.isReception id = false ∧ event.isForward id = false ∧
      event.isDrop id = false := by cases event <;> simp_all
  simp only [after, hmedium, arrivals, List.filterMap_cons, harrival, hfault, hcounts,
    List.filterMap_nil, List.countP_cons, List.countP_nil, List.length_nil, ite_self,
    List.append_nil, Bool.false_eq_true, ite_false, add_zero]

/-- What a node that records keeps of one event that happens there. -/
def record (n : Node) : Event → Node
  | .handed _ length =>
    match n.medium with
    | .wire .. => n
    | .tap link counts =>
      { n with medium := .tap link { counts with bytesIn := counts.bytesIn + length } }
  | .received _ => { n with counts := { n.counts with received := n.counts.received + 1 } }
  | .dropped _ => { n with counts := { n.counts with dropped := n.counts.dropped + 1 } }
  | .arrived _ e =>
    if n.consumer.isSome then
      { n with
        counts := { n.counts with delivered := n.counts.delivered + 1 }
        noted := n.noted ++ [e] }
    else { n with counts := { n.counts with dropped := n.counts.dropped + 1 } }
  | .relayed .. => { n with counts := { n.counts with forwarded := n.counts.forwarded + 1 } }
  | .transmitted _ t =>
    { n with medium := match n.medium with
      | .wire attached sent => .wire attached (sent ++ [t])
      | .tap link counts =>
        .tap link { counts with bytesOut := counts.bytesOut + t.frame.length } }
  | .reported _ fault => if n.keepsFaults then { n with faults := n.faults ++ [fault] } else n

theorem after_place (event : Event) (n : Node) : n.after event.place [event] = n.record event := by
  obtain ⟨station, medium, keepsFaults, faults, counts, consumer, noted, outcomes⟩ := n
  cases event with
  | arrived node e =>
    cases consumer <;> cases medium <;>
      simp [after, record, Medium.after, arrivals, transmissions, List.filterMap_cons]
  | reported node fault =>
    cases keepsFaults <;> cases medium <;>
      simp [after, record, Medium.after, arrivals, transmissions, List.filterMap_cons]
  | _ =>
    cases medium <;>
      simp [after, record, Medium.after, arrivals, transmissions, List.filterMap_cons]

end Node

namespace Network

/-- Two changes to one node are one. -/
theorem modifyNode_modifyNode (net : Network) (id : NodeId) (f g : Node → Node) :
    (net.modifyNode id f).modifyNode id g = net.modifyNode id fun n => g (f n) := by
  simp only [modifyNode, List.modify_modify_eq]
  congr 2
  funext n
  cases n <;> rfl

/-- Nodes record an event if the node where it happens is changed to what it records. -/
private theorem node?_modifyNode_eq_after {net : Network} (event : Event) {f : Node → Node}
    (h : ∀ n, net.node? event.place = some n → f n = n.record event) (id : NodeId) :
    (net.modifyNode event.place f).node? id = (net.node? id).map (Node.after id [event]) := by
  rw [node?_modifyNode]
  split
  · rename_i he
    subst he
    cases hn : net.node? event.place with
    | none => rfl
    | some n => rw [Option.map_some, Option.map_some, h n hn, Node.after_place]
  · rename_i hne
    cases net.node? id with
    | none => rfl
    | some n => rw [Option.map_some, Node.after_of_place_ne (Ne.symm hne)]

/-- An event at a node that is gone is not recorded. -/
private theorem node?_eq_after_of_none {net : Network} (event : Event)
    (h : net.node? event.place = none) (id : NodeId) :
    net.node? id = (net.node? id).map (Node.after id [event]) := by
  cases hn : net.node? id with
  | none => rfl
  | some n =>
    have hne : event.place ≠ id := by
      rintro rfl
      rw [h] at hn
      cases hn
    rw [Option.map_some, Node.after_of_place_ne hne]

/-- Nodes record every event. -/
theorem node?_apply {net : Network} (records : ∀ id n, net.node? id = some n → n.Records)
    (event : Event) (id : NodeId) :
    (net.apply event).node? id = (net.node? id).map (Node.after id [event]) := by
  cases event with
  | handed node length => exact node?_modifyNode_eq_after (.handed node length) (fun _ _ => rfl) id
  | received node => exact node?_modifyNode_eq_after (.received node) (fun _ _ => rfl) id
  | dropped node => exact node?_modifyNode_eq_after (.dropped node) (fun _ _ => rfl) id
  | relayed source target ingress recipient e broadcast =>
    exact node?_modifyNode_eq_after (.relayed source target ingress recipient e broadcast)
      (fun _ _ => rfl) id
  | reported node fault =>
    exact node?_modifyNode_eq_after (.reported node fault) (fun _ _ => rfl) id
  | arrived node e =>
    cases hn : net.node? node with
    | none =>
      simp only [apply, arrive, hn, Option.bind_none]
      rw [count, modifyNode_of_none hn]
      exact node?_eq_after_of_none (.arrived node e) hn id
    | some n =>
      cases hc : n.consumer with
      | none =>
        simp only [apply, arrive, hn, Option.bind_some, hc]
        refine node?_modifyNode_eq_after (.arrived node e) (fun n' hn' => ?_) id
        obtain rfl : n = n' := Option.some.inj (hn.symm.trans hn')
        rw [Node.record, hc]
        rfl
      | some c =>
        obtain ⟨items, rfl⟩ := records node n hn c hc
        simp only [apply, arrive, hn, Option.bind_some, hc, consume, note, count]
        rw [modifyNode_modifyNode]
        refine node?_modifyNode_eq_after (.arrived node e) (fun n' hn' => ?_) id
        obtain rfl : n = n' := Option.some.inj (hn.symm.trans hn')
        rw [Node.record, hc]
        rfl
  | transmitted node t =>
    cases hn : net.node? node with
    | none =>
      simp only [apply, transmit, hn]
      exact node?_eq_after_of_none (.transmitted node t) hn id
    | some n =>
      cases hm : n.medium with
      | wire attached sent =>
        simp only [apply, transmit, hn, hm]
        refine node?_modifyNode_eq_after (.transmitted node t) (fun n' hn' => ?_) id
        obtain rfl : n = n' := Option.some.inj (hn.symm.trans hn')
        rw [Node.record, hm]
      | tap link counts =>
        simp only [apply, transmit, hn, hm]
        refine node?_modifyNode_eq_after (.transmitted node t) (fun n' hn' => ?_) id
        obtain rfl : n = n' := Option.some.inj (hn.symm.trans hn')
        rw [Node.record, hm]

/-- Nodes that record keep recording. -/
theorem records_apply {net : Network} (records : ∀ id n, net.node? id = some n → n.Records)
    (event : Event) : ∀ id n, (net.apply event).node? id = some n → n.Records := by
  intro id n' hn'
  rw [node?_apply records] at hn'
  obtain ⟨n, hn, rfl⟩ := Option.map_eq_some_iff.mp hn'
  exact records id n hn

/-- Nodes record all events. -/
theorem node?_applyAll {net : Network} (records : ∀ id n, net.node? id = some n → n.Records)
    (events : List Event) (id : NodeId) :
    (net.applyAll events).node? id = (net.node? id).map (Node.after id events) := by
  induction events generalizing net with
  | nil =>
    cases hn : net.node? id with
    | none => exact hn
    | some n =>
      rw [Option.map_some, Node.after_nil]
      exact hn
  | cons event rest ih =>
    have hrest := ih (records_apply records event)
    rw [node?_apply records, Option.map_map] at hrest
    have hafter : Node.after id rest ∘ Node.after id [event] = Node.after id (event :: rest) := by
      funext n
      exact (Node.after_append id [event] rest n).symm
    rwa [hafter] at hrest

/-- Nodes record what links cause. -/
theorem LinkRun.node?_eq {net net' : Network} {events : List Event} (h : LinkRun net events net')
    (records : ∀ id n, net.node? id = some n → n.Records) (id : NodeId) :
    net'.node? id = (net.node? id).map (Node.after id events) := by
  induction h with
  | refl net =>
    cases hn : net.node? id with
    | none => rfl
    | some n => rw [Option.map_some, Node.after_nil]
  | @head net net' net'' k events rest first run ih =>
    have hfirst : ∀ id, net'.node? id = (net.node? id).map (Node.after id events) := by
      cases first with
      | @intro l f queue order link running pop recipients =>
        have hrecords : ∀ id n, (net.modifyLink k fun l => { l with queue }).node? id = some n →
            n.Records := records
        exact node?_applyAll hrecords _
    have hrecords : ∀ id n, net'.node? id = some n → n.Records := by
      intro id n' hn'
      rw [hfirst] at hn'
      obtain ⟨n, hn, rfl⟩ := Option.map_eq_some_iff.mp hn'
      exact records id n hn
    rw [ih hrecords, hfirst, Option.map_map]
    congr 1
    funext n
    exact (Node.after_append id events rest n).symm

end Network

/-! ## Order -/

/-- Media that have the same totals, and the same transmissions up to their order. -/
def Medium.Alike : Medium → Medium → Prop
  | .wire attached sent, .wire attached' sent' => attached = attached' ∧ sent.Perm sent'
  | .tap link counts, .tap link' counts' => link = link' ∧ counts = counts'
  | _, _ => False

/-- Nodes that are the same up to the order of what they have kept. -/
structure Node.Alike (n n' : Node) : Prop where
  /-- The stations are the same. -/
  station : n.station = n'.station
  /-- The media have the same totals. -/
  medium : n.medium.Alike n'.medium
  /-- Faults are kept or not. -/
  keepsFaults : n.keepsFaults = n'.keepsFaults
  /-- The same faults were reported. -/
  faults : n.faults.Perm n'.faults
  /-- The totals are the same. -/
  counts : n.counts = n'.counts
  /-- The consumers are the same. -/
  consumer : n.consumer = n'.consumer
  /-- The same envelopes were handed to the consumer. -/
  noted : n.noted.Perm n'.noted
  /-- The same requests have ended. -/
  outcomes : n.outcomes = n'.outcomes

theorem Medium.after_alike {events events' : List Event} (h : events.Perm events') (id : NodeId)
    (m : Medium) : (m.after id events).Alike (m.after id events') := by
  have hsent : (transmissions id events).Perm (transmissions id events') := h.filterMap _
  cases m with
  | wire attached sent => exact ⟨rfl, hsent.append_left sent⟩
  | tap link counts =>
    refine ⟨rfl, ?_⟩
    rw [(h.map _).sum_eq, (hsent.map _).sum_eq]

/-- What a node has kept does not depend on the order of events, up to its own order. -/
theorem Node.after_alike {events events' : List Event} (h : events.Perm events') (id : NodeId)
    (n : Node) : (n.after id events).Alike (n.after id events') where
  station := rfl
  medium := Medium.after_alike h id n.medium
  keepsFaults := rfl
  faults := by
    refine List.Perm.append_left _ ?_
    split
    · exact h.filterMap _
    · exact .refl _
  counts := by
    have harrivals : (arrivals id events).length = (arrivals id events').length :=
      (h.filterMap _).length_eq
    simp only [after, harrivals, h.countP_eq]
  consumer := rfl
  noted := by
    refine List.Perm.append_left _ ?_
    split
    · exact h.filterMap _
    · exact .refl _
  outcomes := rfl

end Fieldbus
