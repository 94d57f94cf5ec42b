import Fieldbus.Proofs.Records
import Fieldbus.Proofs.Termination

/-!
# The order of work does not matter

Where consumers only record, links that work until none can hand out a frame reach the same
state of rest in whatever order they work, and in whatever order a frame is handed to its
recipients (`rest_independent_of_order`): what a frame comes to depends on the wiring alone, so
every order causes the same events, and nodes keep the same of them.
-/

namespace Fieldbus

namespace Network

/-- Consumers that process nothing answer nothing. -/
theorem quiet_of_records {net : Network} (records : ∀ id n, net.node? id = some n → n.Records) :
    net.Quiet := by
  intro id setup application running hs happ
  obtain ⟨n, hn, rfl⟩ := Option.map_eq_some_iff.mp hs
  obtain ⟨c, hc, hsetup⟩ := Option.bind_eq_some_iff.mp happ
  obtain ⟨items, rfl⟩ := records id n hn c hc
  cases hsetup

/-- Links that all run come to rest without frames that wait. -/
theorem LinkRun.waiting_eq_zero {net net' : Network} {events : List Event}
    (run : LinkRun net events net') (running : ∀ l ∈ net.links, l.running = true)
    (rest : net'.LinksRest) : net'.waiting = 0 :=
  rest.waiting_eq_zero (running_of_wiring_eq run.wiring_eq running)

/-- Two orders of work cause the same events. -/
theorem LinkRun.perm {net net₁ net₂ : Network} {events₁ events₂ : List Event}
    (run₁ : LinkRun net events₁ net₁) (run₂ : LinkRun net events₂ net₂) (routed : net.Routed)
    (rest₁ : net₁.waiting = 0) (rest₂ : net₂.waiting = 0) : events₁.Perm events₂ := by
  have h₁ := run₁.events_eq routed rest₁
  have h₂ := run₂.events_eq routed rest₂
  exact Multiset.coe_eq_coe.mp (h₁.trans h₂.symm)

/-- Where consumers only record, links cannot work for ever, and any two orders in which they
work until none can hand out a frame cause the same events and leave the same state: no frame
waits, and every node has kept the same envelopes, faults and totals. -/
theorem rest_independent_of_order {net : Network} (routed : net.Routed)
    (running : ∀ l ∈ net.links, l.running = true)
    (records : ∀ id n, net.node? id = some n → n.Records) :
    (¬ ∃ run : Nat → Network, run 0 = net ∧
      ∀ i, ∃ k events, (run i).HandsOut k events (run (i + 1))) ∧
    ∀ events₁ net₁ events₂ net₂, LinkRun net events₁ net₁ → net₁.LinksRest →
      LinkRun net events₂ net₂ → net₂.LinksRest →
        events₁.Perm events₂ ∧ (∀ l ∈ net₁.links, l.queue = ∅) ∧ net₁.links = net₂.links ∧
          ∀ id, Option.Rel Node.Alike (net₁.node? id) (net₂.node? id) := by
  constructor
  · rintro ⟨run, hstart, hrun⟩
    refine not_exists_run (acc_step routed (quiet_of_records records)) ⟨run, hstart, fun i => ?_⟩
    obtain ⟨k, events, h⟩ := hrun i
    exact .handsOut h
  · intro events₁ net₁ events₂ net₂ run₁ rest₁ run₂ rest₂
    have hw₁ := run₁.waiting_eq_zero running rest₁
    have hw₂ := run₂.waiting_eq_zero running rest₂
    have hperm := run₁.perm run₂ routed hw₁ hw₂
    refine ⟨hperm, waiting_eq_zero_iff.mp hw₁, ?_, fun id => ?_⟩
    · rw [links_eq_of_waiting_eq_zero hw₁, links_eq_of_waiting_eq_zero hw₂, run₁.wiring_eq,
        run₂.wiring_eq]
    · rw [run₁.node?_eq records, run₂.node?_eq records]
      cases net.node? id with
      | none => exact .none
      | some n => exact .some (n.after_alike hperm id)

/-- A node of `relays` that routes to the other one and keeps what reaches it. -/
private def relayNode (link : LinkId) (segment other : Segment) (target : NodeId) : Node where
  station := {
    segment
    attachment := ⟨[1], [[1]], [0xFF], some 64⟩
    routes := ⟨segment, ⟨[(other, target)]⟩, [some other]⟩ }
  medium := .tap link {}
  keepsFaults := true
  consumer := some (.collector [])

/-- A link of `relays` on which a global broadcast of another node waits. -/
private def relayLink (segment : Segment) (id : NodeId) : Link where
  segment
  broadcastMac := [0xFF]
  maxFrameLength := 64
  registry := ⟨[([1], id)]⟩
  queue := ⟨[⟨[2], none, [1, 0x20, 0xFF, 0xFF, 0, 0xFF, 7]⟩]⟩
  running := true

/-- Two stations on links of their own that route to each other, with a global broadcast on either
link. -/
def relays : Network where
  nodes := [some (relayNode 0 10 20 1), some (relayNode 1 20 10 0)]
  links := [relayLink 10 0, relayLink 20 1]

theorem rest_relays_independent_of_order : relays.Routed ∧
    ∃ events net, LinkRun relays events net ∧ net.LinksRest ∧
      ∀ events' net', LinkRun relays events' net' → net'.LinksRest → events.Perm events' := by
  have hrouted : relays.Routed := Routed.of_forall_nodes (by decide)
  have hrunning : ∀ l ∈ relays.links, l.running = true := by decide
  have hrecords : ∀ id n, relays.node? id = some n → n.Records := by
    intro id n hn c hc
    rcases id with _ | _ | id
    · cases hn
      cases hc
      exact ⟨[], rfl⟩
    · cases hn
      cases hc
      exact ⟨[], rfl⟩
    · cases hn
  obtain ⟨events, net, hrun, hrest⟩ :=
    exists_linkRun (acc_step hrouted (quiet_of_records hrecords))
  refine ⟨hrouted, events, net, hrun, hrest, fun events' net' hrun' hrest' => ?_⟩
  have horder := (rest_independent_of_order hrouted hrunning hrecords).2
  exact (horder events net events' net' hrun hrest hrun' hrest').1

end Network

end Fieldbus
