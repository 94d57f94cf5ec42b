import Fieldbus.Proofs.Carriage

/-!
# Whom a transmission reaches on a link

A link resolves whom a transmission is for when it accepts the frame, and hands the frame out to
whoever is registered then (`Link.target_eq`). Main statements: a transmission for everybody reaches
every living node that is registered, and any other one reaches whoever is registered under the
sub-address it is for (`Network.handed_to_addressee`), but a transmission that names the broadcast
sub-address as its router reaches nobody but a node of that sub-address
(`Network.broadcast_router_reaches_nobody`).
-/

namespace Fieldbus

/-- The sub-address that a transmission is for on its link: that of the router, if it names one, and
else that of the recipient. -/
def Transmission.addressee (t : Transmission) : Option Bytes := t.router.or t.recipient.mac

namespace Link

/-- A transmission is for everybody on the link: it says so, its recipient is global, or the
sub-address it is for is missing or the one that reaches every station. -/
def IsForAll (l : Link) (t : Transmission) : Prop :=
  t.broadcast = true ∨ t.recipient.isGlobal = true ∨ t.addressee = none ∨
    t.addressee = some l.broadcastMac

/-- A transmission names the sub-address that reaches every station as its router, and nothing else
says that it is for everybody. -/
def BroadcastsByRouter (l : Link) (t : Transmission) : Prop :=
  t.broadcast = false ∧ t.recipient.isGlobal = false ∧ t.router = some l.broadcastMac

variable {l : Link} {t : Transmission}

theorem not_isForAll_iff : ¬ l.IsForAll t ↔ t.broadcast = false ∧ t.recipient.isGlobal = false ∧
    ∃ mac, t.addressee = some mac ∧ mac ≠ l.broadcastMac := by
  cases ha : t.addressee <;> simp [IsForAll, ha]

/-- Nothing is looked at behind a router, not even whether its sub-address reaches everybody. -/
theorem target_of_router {mac : Bytes} (broadcast : t.broadcast = false)
    (single : t.recipient.isGlobal = false) (router : t.router = some mac) :
    l.target t = some mac := by
  simp [target, broadcast, single, router]

/-- Only a transmission for everybody has no target, and it has none unless its router is what says
that it is for everybody. -/
theorem target_eq_none_iff :
    l.target t = none ↔ l.IsForAll t ∧ ¬ l.BroadcastsByRouter t := by
  cases hb : t.broadcast with
  | true => simp [target, IsForAll, BroadcastsByRouter, hb]
  | false =>
    cases hg : t.recipient.isGlobal with
    | true => simp [target, IsForAll, BroadcastsByRouter, hb, hg]
    | false =>
      cases hr : t.router with
      | some mac =>
        simp [target_of_router hb hg hr, IsForAll, BroadcastsByRouter, Transmission.addressee, hb, hg,
          hr]
      | none =>
        cases hm : t.recipient.mac <;>
          simp [target, IsForAll, BroadcastsByRouter, Transmission.addressee, hb, hg, hr, hm]

/-- A transmission that has a target has the sub-address for it that it is for. -/
theorem addressee_of_target {mac : Bytes} (h : l.target t = some mac) : t.addressee = some mac := by
  unfold target at h
  split at h
  · cases h
  · cases hr : t.router with
    | some router =>
      rw [hr] at h
      rw [Transmission.addressee, hr, Option.some_or]
      exact h
    | none =>
      rw [hr] at h
      rw [Transmission.addressee, hr, Option.none_or]
      exact (Option.filter_eq_some_iff.mp h).1

/-- What a transmission is for decides its target. -/
theorem target_eq : (l.IsForAll t → ¬ l.BroadcastsByRouter t → l.target t = none) ∧
    (¬ l.IsForAll t ∨ l.BroadcastsByRouter t →
      ∃ mac, t.addressee = some mac ∧ l.target t = some mac) := by
  refine ⟨fun hall hrouter => target_eq_none_iff.mpr ⟨hall, hrouter⟩, fun h => ?_⟩
  cases ht : l.target t with
  | none =>
    obtain ⟨hall, hrouter⟩ := target_eq_none_iff.mp ht
    exact absurd h (not_or_intro (not_not_intro hall) hrouter)
  | some mac => exact ⟨mac, addressee_of_target ht, rfl⟩

end Link

namespace Network

variable {net start accepting before : Network} {k : LinkId} {l accepts : Link} {id : NodeId}
  {f : LinkFrame} {order : List NodeId} {t : Transmission}

/-- The living node that is registered on a link under a sub-address. -/
def occupant? (net : Network) (k : LinkId) (mac : Bytes) : Option NodeId :=
  (net.holder? k mac).filter net.isAlive

namespace Orderly

/-- A frame without target goes to whoever occupies a place. -/
theorem mem_recipients_of_no_target (h : net.Orderly k l) (target : f.target = none) :
    id ∈ l.recipients net.isAlive f ↔ ∃ mac, net.occupant? k mac = some id := by
  rw [h.mem_recipients_iff, h.isRegistered_iff]
  simp only [target, reduceCtorEq, false_implies, implies_true, and_true, occupant?, holder?, h.link,
    Option.bind_some, Option.filter_eq_some_iff]

/-- A frame with a target goes to whoever occupies that place. -/
theorem recipients_of_target (h : net.Orderly k l) {mac : Bytes} (target : f.target = some mac) :
    l.recipients net.isAlive f = (net.occupant? k mac).toList := by
  rw [Link.recipients, target, occupant?, holder?, h.link, Option.bind_some]

end Orderly

/-- A frame that waits on a link since it was accepted for a transmission is handed to everybody who is
registered and alive when it is handed out, if the transmission is for everybody and its router is
not what says so; it reaches all of them unless one breaks off over it, which takes a node whose
sub-address is too long for an address. A frame for any other transmission is handed to nobody but the
living node that is then registered under the sub-address the transmission is for. -/
theorem handed_to_addressee (h : start.Orderly k l) {past : List Happening}
    (carries : Carries k start past net) (link : accepting.link? k = some accepts)
    (accepted : accepting.accepted? k (.transmitted id t) = some (id, f))
    (handed : .handedOut before f order ∈ past) :
    (∃ n, accepting.node? id = some n ∧ f.origin = n.station.attachment.mac) ∧ f.data = t.frame ∧
    (accepts.IsForAll t → ¬ accepts.BroadcastsByRouter t → ∃ everyone : List NodeId, everyone.Nodup ∧
      (∀ x, x ∈ everyone ↔ ∃ mac, before.occupant? k mac = some x) ∧
      order = before.directory.reached f everyone ∧
      ((Happening.handedOut before f order).breaksOff = false → order = everyone) ∧
      (f.origin.length ≤ maxMacLength → (Happening.handedOut before f order).breaksOff = false)) ∧
    (¬ accepts.IsForAll t ∨ accepts.BroadcastsByRouter t →
      ∃ mac, t.addressee = some mac ∧ order = (before.occupant? k mac).toList) := by
  obtain ⟨n, l₀, hn, hl, he⟩ := eq_of_accepted? accepted
  obtain rfl : l₀ = accepts := Option.some.inj (hl.symm.trans link)
  obtain rfl : f = _ := congrArg Prod.snd he
  cases carries.comesAbout _ handed with
  | @handedOut _ _ earlier _ _ everyone link' recipients =>
    obtain ⟨l', h', -⟩ := (earlier.proceeds h).orderly
    obtain rfl := Option.some.inj (h'.link.symm.trans link')
    refine ⟨⟨n, hn, rfl⟩, rfl, fun hall hrouter => ?_, fun hone => ?_⟩
    · have hnone := Link.target_eq.1 hall hrouter
      refine ⟨everyone, recipients.nodup_iff.mpr (h'.nodup_recipients _), fun x => ?_, rfl,
        fun hunbroken => Orderly.reached_eq recipients (Or.inl hunbroken),
        fun fits => Happening.breaksOff_of_fits fits _⟩
      rw [recipients.mem_iff, h'.mem_recipients_of_no_target hnone]
    · obtain ⟨mac, haddressee, hmac⟩ := Link.target_eq.2 hone
      have hsome : (l₀.target t).isSome = true := by rw [hmac, Option.isSome_some]
      rw [Orderly.reached_eq recipients (Or.inr hsome)]
      rw [h'.recipients_of_target hmac] at recipients
      refine ⟨mac, haddressee, ?_⟩
      cases hoccupant : before.occupant? k mac with
      | none =>
        rw [hoccupant] at recipients
        exact List.perm_nil.mp recipients
      | some x =>
        rw [hoccupant] at recipients
        exact List.perm_singleton.mp recipients

/-- A link that two nodes are registered on and whose worker does not run yet. -/
private def berth : Link where
  segment := 1
  broadcastMac := [255]
  maxFrameLength := 1500
  registry := ⟨[([1], 0), ([2], 1)]⟩

/-- The link and its nodes. -/
private def quay : Network where
  nodes := [[1], [2]].map fun mac => some {
    station := {
      segment := 1
      attachment := berth.attachment mac none
      routes := { home := 1 } }
    medium := .tap 0 {}
    keepsFaults := false }
  links := [berth]

private theorem orderly_quay : quay.Orderly 0 berth := by
  have hentry : ∀ {mac : Bytes} {id : NodeId}, berth.registry.get? mac = some id →
      mac = [1] ∧ id = 0 ∨ mac = [2] ∧ id = 1 := by
    intro mac id h
    simpa [berth] using Table.mem_of_get?_eq_some h
  refine ⟨rfl, by decide, fun h => ?_, fun h ha => ?_, fun {id a c} ha _ => ?_⟩
  · rcases hentry h with ⟨-, rfl⟩ | ⟨-, rfl⟩ <;> decide
  · rcases hentry h with ⟨rfl, rfl⟩ | ⟨rfl, rfl⟩ <;> cases ha <;> exact ⟨rfl, rfl⟩
  · rcases id with _ | _ | id <;> cases ha <;> rfl

/-- What the first node of `quay` transmits to a node of a segment through a router. -/
private def parcel (recipient : Address) (router : Option Bytes) : Transmission where
  recipient
  router
  frame := [1, 0, 7]
  broadcast := false
  expectsReply := false

/-- The state of `quay` in which its link hands out what the first node has transmitted. -/
private def posted (t : Transmission) : Network :=
  (quay.applyAll [.transmitted 0 t]).startLink 0

/-- The link of `quay` is started and hands out what the first node has transmitted. -/
private theorem carries_posted (t : Transmission) {l : Link} (link : (posted t).link? 0 = some l)
    (running : l.running = true) {queue : Mailbox LinkFrame} (pop : l.queue.pop = some (f, queue))
    (works : isStuck (quay.acceptances 0 [.transmitted 0 t]) = false)
    (fits : f.origin.length ≤ maxMacLength) : ∃ past net', Carries 0 quay past net' ∧
      .handedOut (posted t) f (l.recipients (posted t).isAlive f) ∈ past := by
  have hunhanded : ∀ {id length}, .handed id length ∈ [Event.transmitted 0 t] →
      quay.counts? 0 id = none := fun hmem => by cases List.mem_singleton.mp hmem
  have hstart : Carries 0 quay [] quay := .refl
  have hworked := (hstart.events hunhanded).startLink.handOut link running works pop fits
  exact ⟨_, _, hworked, List.mem_append_right _ List.mem_cons_self⟩

/-- A parcel to everybody is handed to both nodes, and one for the second node to that node. -/
theorem handed_to_addressee_quay :
    (∃ order, order.Nodup ∧ 0 ∈ order ∧ 1 ∈ order ∧ ∃ past net', Carries 0 quay past net' ∧
      .handedOut (posted (parcel (Address.all 1) none)) ⟨[1], none, [1, 0, 7]⟩ order ∈ past) ∧
    ∃ past net', Carries 0 quay past net' ∧
      .handedOut (posted (parcel (Address.all 7) (some [2]))) ⟨[1], some [2], [1, 0, 7]⟩ [1] ∈ past := by
  obtain ⟨past, net', hcarries, hhanded⟩ := carries_posted (parcel (Address.all 1) none) rfl rfl rfl
    rfl (by decide)
  obtain ⟨past', net'', hcarries', hhanded'⟩ :=
    carries_posted (parcel (Address.all 7) (some [2])) rfl rfl rfl rfl (by decide)
  have hlink : quay.link? 0 = some berth := rfl
  have haccepted : quay.accepted? 0 (.transmitted 0 (parcel (Address.all 1) none)) =
      some (0, ⟨[1], none, [1, 0, 7]⟩) := rfl
  have haccepted' : quay.accepted? 0 (.transmitted 0 (parcel (Address.all 7) (some [2]))) =
      some (0, ⟨[1], some [2], [1, 0, 7]⟩) := rfl
  obtain ⟨-, -, hall, -⟩ := handed_to_addressee orderly_quay hcarries hlink haccepted hhanded
  obtain ⟨everyone, hnodup, hmem, -, heveryone, hunbroken⟩ := hall (.inr (.inr (.inl rfl))) fun h => by
    cases h.2.2
  obtain rfl := heveryone (hunbroken (by decide))
  obtain ⟨-, -, -, hone⟩ := handed_to_addressee orderly_quay hcarries' hlink haccepted' hhanded'
  obtain ⟨mac, hmac, horder⟩ :=
    hone (.inl (Link.not_isForAll_iff.mpr ⟨rfl, rfl, [2], rfl, by decide⟩))
  cases hmac
  refine ⟨⟨_, hnodup, (hmem 0).mpr ⟨[1], rfl⟩, (hmem 1).mpr ⟨[2], rfl⟩, past, net', hcarries,
    hhanded⟩, past', net'', hcarries', ?_⟩
  rw [horder] at hhanded'
  exact hhanded'

/-- Two nodes are registered and alive, and the sub-address that a parcel is for is the one that
reaches every station, but because it is named as a router the parcel is handed to nobody. -/
theorem broadcast_router_reaches_nobody :
    let t := parcel (Address.all 7) (some [255])
    quay.link? 0 = some berth ∧ berth.broadcastMac = [255] ∧ t.addressee = some [255] ∧
      quay.accepted? 0 (.transmitted 0 t) = some (0, ⟨[1], some [255], [1, 0, 7]⟩) ∧
      (posted t).occupant? 0 [1] = some 0 ∧ (posted t).occupant? 0 [2] = some 1 ∧
      ∃ past net', Carries 0 quay past net' ∧
        .handedOut (posted t) ⟨[1], some [255], [1, 0, 7]⟩ [] ∈ past := by
  intro t
  exact ⟨rfl, rfl, rfl, rfl, rfl, rfl, carries_posted t rfl rfl rfl rfl (by decide)⟩

end Network

end Fieldbus
