import Mathlib.Data.Finset.Card
import Mathlib.Data.Finset.Range
import Mathlib.Logic.Function.Basic
import Fieldbus.Proofs.Registrations

/-!
# The executors of a pool

A pool counts the transports that have joined it, but whether a transport may leave is kept at the
transport: in the executors it has joined and in whether it was terminated. `Network.IsManned` ties
the two together. Main statements: whatever else happens in a network, only starting, terminating
and dropping transports matters to the executors (`Step.keepsSeats`, `keepsSeats_submit`,
`keepsSeats_call`), each of these leaves a manned pool manned (`IsManned.turn`), and so the
executors live exactly as long as some transport that was started has neither been terminated nor
dropped (`executors_of_taken`).
-/

namespace Fieldbus

/-- What ties a transport to the executors of its pool. -/
structure Seat where
  /-- The pool of the transport. -/
  pool : PoolId
  /-- The executors the transport has joined. -/
  executors : Option Nat
  /-- The transport has been terminated. -/
  closed : Bool
  deriving DecidableEq, Repr

/-- The seat of a transport. -/
def Shared.seat (t : Shared) (pool : PoolId) : Seat := ⟨pool, t.executors, t.closed⟩

/-- The seat of a consumer; only shared transports have one. -/
def Consumer.seat? : Consumer → Option Seat
  | .shared pool t => some (t.seat pool)
  | _ => none

/-- A pool without the jobs that wait on it. -/
def Pool.idle (p : Pool) : Pool := { p with tasks := ∅ }

/-- The last to leave takes the executors with it. -/
theorem Pool.executors_release (p : Pool) :
    p.release.executors = if 1 < p.active then p.executors else none := by
  by_cases h : 1 < p.active
  · rw [release, if_pos (by omega), if_pos h]
  · rw [release, if_neg (by omega), if_neg h]

@[simp] theorem Pool.built_release (p : Pool) : p.release.built = p.built := by
  unfold release
  split <;> rfl

/-- The pool that a transport leaves behind when it gives up its seat. -/
def Seat.vacate (s : Seat) (p : Pool) : Pool := if s.executors.isSome then p.release else p

/-- A transport that starts joins the executors of the pool, unless it has joined before or is
closed. -/
theorem Shared.idle_start (t : Shared) (p : Pool) (pool : PoolId) :
    ((t.start p).1.seat pool, (t.start p).2.idle) =
      if t.executors = none ∧ t.closed = false
      then (⟨pool, some p.idle.acquire.1, false⟩, p.idle.acquire.2) else (t.seat pool, p.idle) := by
  obtain ⟨dispatcher, executors, closed⟩ := t
  have hacquire : p.acquire.1 = p.idle.acquire.1 ∧ p.acquire.2.idle = p.idle.acquire.2 := by
    unfold Pool.acquire Pool.idle
    cases p.executors <;> exact ⟨rfl, rfl⟩
  cases executors <;> cases closed <;> simp [start, seat, hacquire]

/-- A transport that is terminated for the first time gives up its seat for good. -/
theorem Shared.idle_terminate (t : Shared) (owner : NodeId) (p : Pool) (pool : PoolId) :
    ((t.terminate owner p).1.seat pool, (t.terminate owner p).2.1.idle) =
      if t.closed = false then (⟨pool, none, true⟩, (t.seat pool).vacate p.idle)
      else (t.seat pool, p.idle) := by
  obtain ⟨dispatcher, executors, closed⟩ := t
  have hrelease : (p.withdraw owner).2.release.idle = p.idle.release := by
    unfold Pool.release Pool.withdraw Pool.idle
    dsimp only
    split <;> rfl
  cases executors <;> cases closed <;> simp [terminate, seat, Seat.vacate, hrelease]
  rfl

namespace Network

/-- What is done to the transport of a node. -/
inductive Turn where
  /-- The transport is started. -/
  | start (id : NodeId)
  /-- The transport is terminated. -/
  | terminate (id : NodeId)
  /-- The transport ceases to exist. -/
  | drop (id : NodeId)
  deriving DecidableEq, Repr

/-- Does something to a transport. -/
def turn (net : Network) : Turn → Network
  | .start id => net.startTransport id
  | .terminate id => net.stopTransport id
  | .drop id => net.dropConsumer id

/-- Does something to transports in order. -/
def turnAll (net : Network) (turns : List Turn) : Network := turns.foldl turn net

/-- The seat of the transport at a node. -/
def seat? (net : Network) (id : NodeId) : Option Seat :=
  (net.node? id).bind fun n => n.consumer.bind Consumer.seat?

/-- A pool without the jobs that wait on it. -/
def idlePool? (net : Network) (k : PoolId) : Option Pool := (net.pool? k).map Pool.idle

/-- Seats and pools are as they were, but for the jobs that wait. -/
structure KeepsSeats (net net' : Network) : Prop where
  /-- Transports are tied to the executors they were tied to. -/
  seat : net'.seat? = net.seat?
  /-- Pools have the executors they had. -/
  pool : net'.idlePool? = net.idlePool?

/-- Turns are taken one after the other, and between them happens whatever keeps the seats. -/
inductive Taken (net : Network) : List Turn → Network → Prop
  | refl : Taken net [] net
  | turn {turns : List Turn} {net' : Network} (taken : Taken net turns net') (t : Turn) :
      Taken net (turns ++ [t]) (net'.turn t)
  | aside {turns : List Turn} {net' net'' : Network} (taken : Taken net turns net')
      (keeps : net'.KeepsSeats net'') : Taken net turns net''

/-- The nodes whose transport has joined a pool and not left it. -/
def crew (net : Network) (k : PoolId) : Finset NodeId :=
  (Finset.range net.nodes.length).filter fun id =>
    (net.seat? id).any fun s => s.pool == k && s.executors.isSome

/-- The nodes whose transport on a pool was started by turns and neither terminated nor dropped. -/
def joined (net : Network) (k : PoolId) (turns : List Turn) : Finset NodeId :=
  (Finset.range net.nodes.length).filter fun id =>
    ((net.seat? id).any fun s => s.pool == k) ∧
      .start id ∈ turns ∧ .terminate id ∉ turns ∧ .drop id ∉ turns

/-- The transports of a pool and the pool agree on who has joined which executors. -/
structure IsManned (net : Network) (k : PoolId) (p : Pool) : Prop where
  /-- The pool exists. -/
  pool : net.idlePool? k = some p
  /-- The pool counts those who have joined and not left. -/
  active : p.active = (net.crew k).card
  /-- Executors exist as long as somebody is there. -/
  running : p.executors.isSome = true ↔ 0 < p.active
  /-- The executors that exist are those that were built last. -/
  latest : ∀ g, p.executors = some g → p.built = g + 1
  /-- Whoever has joined is on the executors that exist. -/
  executors : ∀ id s, net.seat? id = some s → s.pool = k → s.executors.isSome = true →
    s.executors = p.executors
  /-- Whoever was terminated has left. -/
  closed : ∀ id s, net.seat? id = some s → s.pool = k → s.closed = true → s.executors = none

variable {net net' : Network} {id : NodeId} {k : PoolId}

/-! ## What keeps seats -/

theorem KeepsSeats.refl (net : Network) : net.KeepsSeats net := ⟨rfl, rfl⟩

theorem KeepsSeats.trans {net'' : Network} (h : net.KeepsSeats net') (h' : net'.KeepsSeats net'') :
    net.KeepsSeats net'' := ⟨h'.seat.trans h.seat, h'.pool.trans h.pool⟩

theorem seat?_of_shared? {t : Shared} (h : net.shared? id = some (k, t)) :
    net.seat? id = some (t.seat k) := by
  obtain ⟨n, hn, hc⟩ := shared?_eq_some_iff.mp h
  rw [seat?, hn, Option.bind_some, hc]
  rfl

/-- Whoever has a seat is a shared transport. -/
theorem exists_shared?_of_seat? {s : Seat} (h : net.seat? id = some s) :
    ∃ t, net.shared? id = some (s.pool, t) ∧ s = t.seat s.pool := by
  obtain ⟨n, hn, c, hc, hs⟩ : ∃ n, net.node? id = some n ∧ ∃ c, n.consumer = some c ∧
      c.seat? = some s := by
    simpa only [seat?, Option.bind_eq_some_iff] using h
  cases c with
  | collector items => cases hs
  | dedicated t => cases hs
  | shared pool t =>
    cases hs
    exact ⟨t, shared?_eq_some_iff.mpr ⟨n, hn, hc⟩, rfl⟩

/-- The seats after a node was changed. -/
theorem seat?_modifyNode (net : Network) (id : NodeId) (f : Node → Node) :
    (net.modifyNode id f).seat? = Function.update net.seat? id
      ((net.node? id).bind fun n => (f n).consumer.bind Consumer.seat?) := by
  funext id'
  simp only [seat?, node?_modifyNode, Function.update_apply]
  split
  · rename_i he
    rw [he, Option.bind_map]
    rfl
  · rfl

/-- A change to a node that keeps the seat of its consumer. -/
theorem keepsSeats_modifyNode {f : Node → Node} (h : ∀ n, net.node? id = some n →
    (f n).consumer.bind Consumer.seat? = n.consumer.bind Consumer.seat?) :
    net.KeepsSeats (net.modifyNode id f) where
  seat := by
    rw [seat?_modifyNode, Function.update_eq_self_iff, seat?]
    cases hn : net.node? id with
    | none => rfl
    | some n => exact h n hn
  pool := rfl

/-- A consumer with the seat of the one it takes the place of. -/
theorem keepsSeats_setConsumer {c c' : Consumer}
    (h : (net.node? id).bind (·.consumer) = some c) (same : c'.seat? = c.seat?) :
    net.KeepsSeats (net.setConsumer id (some c')) := by
  refine keepsSeats_modifyNode fun n hn => ?_
  rw [hn, Option.bind_some] at h
  rw [h]
  exact same

/-- The seats after a shared transport was changed. -/
theorem seat?_setShared {t : Shared} (h : net.shared? id = some (k, t)) (t' : Shared) :
    (net.setConsumer id (some (.shared k t'))).seat? =
      Function.update net.seat? id (some (t'.seat k)) := by
  obtain ⟨n, hn, -⟩ := shared?_eq_some_iff.mp h
  rw [setConsumer, seat?_modifyNode, hn]
  rfl

/-- The pools after one of them was changed. -/
theorem idlePool?_modifyPool {p : Pool} (h : net.pool? k = some p) (f : Pool → Pool) :
    (net.modifyPool k f).idlePool? = Function.update net.idlePool? k (some (f p).idle) := by
  funext k'
  simp only [idlePool?, pool?, modifyPool, List.getElem?_modify, Function.update_apply] at h ⊢
  by_cases he : k' = k
  · subst he
    simp [h]
  · simp [he, Ne.symm he]

/-- A change of the jobs that wait on a pool. -/
theorem keepsSeats_modifyPool {f : Pool → Pool} (h : ∀ p, (f p).idle = p.idle) :
    net.KeepsSeats (net.modifyPool k f) where
  seat := rfl
  pool := by
    funext k'
    simp only [idlePool?, pool?, modifyPool, List.getElem?_modify]
    split
    · cases net.pools[k']? <;> simp [h]
    · cases net.pools[k']? <;> rfl

theorem keepsSeats_modifyLink (net : Network) (k : LinkId) (f : Link → Link) :
    net.KeepsSeats (net.modifyLink k f) := ⟨rfl, rfl⟩

theorem keepsSeats_count (net : Network) (id : NodeId) (f : FrameCounts → FrameCounts) :
    net.KeepsSeats (net.count id f) :=
  keepsSeats_modifyNode fun _ _ => rfl

theorem keepsSeats_spawn (net : Network) (pool : PoolId) (owner : NodeId) (job : Nat × Job) :
    net.KeepsSeats (net.spawn pool owner job) := by
  refine keepsSeats_modifyPool fun p => ?_
  unfold Pool.spawn
  split <;> rfl

theorem keepsSeats_consume {c : Consumer} (h : (net.node? id).bind (·.consumer) = some c)
    (e : Envelope) : net.KeepsSeats (net.consume id e c) := by
  cases c with
  | collector items => exact keepsSeats_modifyNode fun _ _ => rfl
  | dedicated t => exact keepsSeats_setConsumer h rfl
  | shared pool t =>
    unfold consume
    dsimp only
    split
    · exact keepsSeats_spawn net pool id _
    · exact KeepsSeats.refl net

theorem keepsSeats_arrive (net : Network) (id : NodeId) (e : Envelope) :
    net.KeepsSeats (net.arrive id e) := by
  unfold arrive
  split
  · exact keepsSeats_count net id _
  · rename_i c hc
    refine (keepsSeats_count net id _).trans (keepsSeats_consume ?_ e)
    rw [count, node?_modifyNode, if_pos rfl, Option.bind_map]
    exact hc

/-- An event keeps seats. -/
theorem keepsSeats_apply (net : Network) (event : Event) : net.KeepsSeats (net.apply event) := by
  cases event with
  | handed id length =>
    refine keepsSeats_modifyNode fun n _ => ?_
    split <;> rfl
  | arrived id e => exact keepsSeats_arrive net id e
  | transmitted id t =>
    unfold apply transmit
    dsimp only
    split
    · exact KeepsSeats.refl net
    · split
      · exact keepsSeats_modifyNode fun _ _ => rfl
      · refine KeepsSeats.trans ?_ (keepsSeats_modifyLink _ _ _)
        exact keepsSeats_modifyNode fun _ _ => rfl
  | reported id fault =>
    refine keepsSeats_modifyNode fun n _ => ?_
    split <;> rfl
  | received id => exact keepsSeats_modifyNode fun _ _ => rfl
  | dropped id => exact keepsSeats_modifyNode fun _ _ => rfl
  | relayed source target ingress recipient e broadcast => exact keepsSeats_modifyNode fun _ _ => rfl

theorem keepsSeats_applyAll (net : Network) (events : List Event) :
    net.KeepsSeats (net.applyAll events) := by
  induction events generalizing net with
  | nil => exact KeepsSeats.refl net
  | cons event rest ih => exact (keepsSeats_apply net event).trans (ih (net.apply event))

/-- Whatever a station is called for keeps seats. -/
theorem keepsSeats_call (net : Network) (id : NodeId) (f : Directory → Member → Run) :
    net.KeepsSeats (net.call id f).2 := by
  unfold call
  split
  · exact KeepsSeats.refl net
  · exact keepsSeats_applyAll net _

theorem keepsSeats_perform (id : NodeId) (net : Network) (act : Act) :
    net.KeepsSeats (net.perform id act) := by
  cases act with
  | send msg => exact keepsSeats_call net id _
  | answerRouterQuery e => exact keepsSeats_call net id _
  | answerSegmentQuery e => exact keepsSeats_call net id _
  | learn mac segments => exact keepsSeats_modifyNode fun _ _ => rfl
  | note e => exact keepsSeats_modifyNode fun _ _ => rfl
  | resolve ticket outcome => exact keepsSeats_modifyNode fun _ _ => rfl

theorem keepsSeats_performAll (net : Network) (id : NodeId) (acts : List Act) :
    net.KeepsSeats (net.performAll id acts) := by
  induction acts generalizing net with
  | nil => exact KeepsSeats.refl net
  | cons act rest ih => exact (keepsSeats_perform id net act).trans (ih (net.perform id act))

theorem keepsSeats_stepDedicated (net : Network) (id : NodeId)
    (step : Dedicated → Dedicated × List Act) : net.KeepsSeats (net.stepDedicated id step) := by
  unfold stepDedicated
  split
  · exact KeepsSeats.refl net
  · rename_i t ht
    obtain ⟨n, hn, hc⟩ := dedicated?_eq_some_iff.mp ht
    have hconsumer : (net.node? id).bind (·.consumer) = some (.dedicated t) := by
      rw [hn, Option.bind_some, hc]
    refine KeepsSeats.trans (keepsSeats_setConsumer hconsumer ?_) (keepsSeats_performAll _ id _)
    rfl

theorem keepsSeats_doTask (net : Network) (now : Nat) (task : Task) :
    net.KeepsSeats (net.doTask now task) := by
  unfold doTask
  split
  · exact KeepsSeats.refl net
  · rename_i pool t ht
    obtain ⟨n, hn, hc⟩ := shared?_eq_some_iff.mp ht
    have hconsumer : (net.node? task.owner).bind (·.consumer) = some (.shared pool t) := by
      rw [hn, Option.bind_some, hc]
    refine (keepsSeats_setConsumer hconsumer ?_).trans (keepsSeats_performAll _ task.owner _)
    cases task.job <;> rfl

/-- A step of a network keeps seats. -/
theorem Step.keepsSeats (h : net.Step net') : net.KeepsSeats net' := by
  cases h with
  | handsOut h =>
    cases h with
    | intro link running pop recipients =>
      exact (keepsSeats_modifyLink net _ _).trans (keepsSeats_applyAll _ _)
  | executes now transport running waits => exact keepsSeats_stepDedicated net _ _
  | dispatches transport running waits => exact keepsSeats_stepDedicated net _ _
  | sweeps now transport running overdue => exact keepsSeats_stepDedicated net _ _
  | runs now pool tasks =>
    refine KeepsSeats.trans (keepsSeats_modifyPool ?_) (keepsSeats_doTask _ now _)
    exact fun _ => rfl

/-- Whatever an application has sent keeps seats. -/
theorem keepsSeats_submit (net : Network) (id : NodeId) (o : Outgoing) :
    net.KeepsSeats (net.submit id o) := by
  unfold submit
  split
  · exact KeepsSeats.refl net
  · rename_i items hc
    exact keepsSeats_setConsumer hc rfl
  · rename_i t hc
    refine KeepsSeats.trans (keepsSeats_setConsumer hc ?_) (keepsSeats_performAll _ id _)
    rfl
  · split
    · exact (keepsSeats_spawn net _ id _).trans (keepsSeats_performAll _ id _)
    · exact keepsSeats_performAll net id _

/-! ## Turns -/

/-- A node whose consumer is no shared transport has no seat. -/
theorem seat?_eq_none (h : ∀ pool t, (net.node? id).bind (·.consumer) ≠ some (.shared pool t)) :
    net.seat? id = none := by
  rw [Option.eq_none_iff_forall_ne_some]
  intro s hs
  obtain ⟨t, ht, -⟩ := exists_shared?_of_seat? hs
  obtain ⟨n, hn, hc⟩ := shared?_eq_some_iff.mp ht
  exact h s.pool t (by rw [hn, Option.bind_some, hc])

/-- The seats and the pools after a shared transport and its pool were changed. -/
theorem of_setShared {t : Shared} {p : Pool} (ht : net.shared? id = some (k, t))
    (hp : net.pool? k = some p) (t' : Shared) (p' : Pool) :
    ((net.setConsumer id (some (.shared k t'))).modifyPool k fun _ => p').seat? =
        Function.update net.seat? id (some (t'.seat k)) ∧
      ((net.setConsumer id (some (.shared k t'))).modifyPool k fun _ => p').idlePool? =
        Function.update net.idlePool? k (some p'.idle) :=
  ⟨seat?_setShared ht t', idlePool?_modifyPool hp fun _ => p'⟩

/-- A shared transport and its pool that are set to what they were before, but for jobs. -/
theorem keepsSeats_of_update {t : Shared} {p : Pool} (ht : net.shared? id = some (k, t))
    (hp : net.pool? k = some p)
    (seats : net'.seat? = Function.update net.seat? id (some (t.seat k)))
    (pools : net'.idlePool? = Function.update net.idlePool? k (some p.idle)) :
    net.KeepsSeats net' where
  seat := by rw [seats, Function.update_eq_self_iff, seat?_of_shared? ht]
  pool := by rw [pools, Function.update_eq_self_iff, idlePool?, hp, Option.map_some]

/-- A start has its transport join the pool, unless it has joined before or is closed. -/
theorem of_startTransport (net : Network) (id : NodeId) :
    net.KeepsSeats (net.startTransport id) ∧
        (∀ k, net.seat? id = some ⟨k, none, false⟩ → net.idlePool? k = none) ∨
      ∃ k p, net.seat? id = some ⟨k, none, false⟩ ∧ net.idlePool? k = some p ∧
        (net.startTransport id).seat? =
          Function.update net.seat? id (some ⟨k, some p.acquire.1, false⟩) ∧
        (net.startTransport id).idlePool? = Function.update net.idlePool? k (some p.acquire.2) := by
  unfold startTransport
  split
  · rename_i t hc
    refine Or.inl ⟨keepsSeats_setConsumer hc rfl, fun k hk => ?_⟩
    rw [seat?_eq_none (by simp [hc])] at hk
    cases hk
  · rename_i pool t hc
    obtain ⟨n, hn, hc⟩ := Option.bind_eq_some_iff.mp hc
    have ht : net.shared? id = some (pool, t) := shared?_eq_some_iff.mpr ⟨n, hn, hc⟩
    have hseat := seat?_of_shared? ht
    cases hp : net.pool? pool with
    | none =>
      refine Or.inl ⟨KeepsSeats.refl net, fun k hk => ?_⟩
      rw [hseat, Option.some.injEq, Shared.seat, Seat.mk.injEq] at hk
      rw [← hk.1, idlePool?, hp, Option.map_none]
    | some p =>
      have hidle := t.idle_start p pool
      obtain ⟨hseats, hpools⟩ := of_setShared ht hp (t.start p).1 (t.start p).2
      by_cases hfresh : t.executors = none ∧ t.closed = false
      · rw [if_pos hfresh, Prod.mk.injEq] at hidle
        refine Or.inr ⟨pool, p.idle, ?_, by rw [idlePool?, hp, Option.map_some], ?_, ?_⟩
        · rw [hseat, Shared.seat, hfresh.1, hfresh.2]
        · exact hidle.1 ▸ hseats
        · exact hidle.2 ▸ hpools
      · rw [if_neg hfresh, Prod.mk.injEq] at hidle
        refine Or.inl ⟨?_, fun k hk => ?_⟩
        · exact keepsSeats_of_update ht hp (hidle.1 ▸ hseats) (hidle.2 ▸ hpools)
        · rw [hseat, Option.some.injEq, Shared.seat, Seat.mk.injEq] at hk
          exact absurd hk.2 hfresh
  · rename_i hs
    refine Or.inl ⟨KeepsSeats.refl net, fun k hk => ?_⟩
    rw [seat?_eq_none hs] at hk
    cases hk

/-- The first termination of a transport has it give up its seat for good. -/
theorem of_stopTransport (net : Network) (id : NodeId) :
    net.KeepsSeats (net.stopTransport id) ∧
        (∀ s, net.seat? id = some s → s.closed = false → net.idlePool? s.pool = none) ∨
      ∃ s p, net.seat? id = some s ∧ s.closed = false ∧ net.idlePool? s.pool = some p ∧
        (net.stopTransport id).seat? = Function.update net.seat? id (some ⟨s.pool, none, true⟩) ∧
        (net.stopTransport id).idlePool? =
          Function.update net.idlePool? s.pool (some (s.vacate p)) := by
  unfold stopTransport
  split
  · rename_i t hc
    refine Or.inl ⟨?_, fun s hs => ?_⟩
    · refine KeepsSeats.trans (keepsSeats_setConsumer hc ?_) (keepsSeats_performAll _ id _)
      rfl
    · rw [seat?_eq_none (by simp [hc])] at hs
      cases hs
  · rename_i pool t hc
    obtain ⟨n, hn, hc⟩ := Option.bind_eq_some_iff.mp hc
    have ht : net.shared? id = some (pool, t) := shared?_eq_some_iff.mpr ⟨n, hn, hc⟩
    have hseat := seat?_of_shared? ht
    cases hp : net.pool? pool with
    | none =>
      refine Or.inl ⟨KeepsSeats.refl net, fun s hs _ => ?_⟩
      obtain rfl := Option.some.inj (hseat.symm.trans hs)
      exact congrArg (Option.map Pool.idle) hp
    | some p =>
      have hidle := t.idle_terminate id p pool
      have hacts := keepsSeats_performAll ((net.setConsumer id (some (.shared pool
        (t.terminate id p).1))).modifyPool pool fun _ => (t.terminate id p).2.1) id
        (t.terminate id p).2.2
      obtain ⟨hseats, hpools⟩ := of_setShared ht hp (t.terminate id p).1 (t.terminate id p).2.1
      rw [← hacts.seat] at hseats
      rw [← hacts.pool] at hpools
      cases hclosed : t.closed with
      | false =>
        rw [if_pos hclosed, Prod.mk.injEq] at hidle
        refine Or.inr ⟨t.seat pool, p.idle, hseat, hclosed, ?_, ?_, ?_⟩
        · exact congrArg (Option.map Pool.idle) hp
        · exact hidle.1 ▸ hseats
        · exact hidle.2 ▸ hpools
      | true =>
        rw [if_neg (by rw [hclosed]; exact Bool.true_eq_false.mp), Prod.mk.injEq] at hidle
        refine Or.inl ⟨?_, fun s hs hopened => ?_⟩
        · exact keepsSeats_of_update ht hp (hidle.1 ▸ hseats) (hidle.2 ▸ hpools)
        · obtain rfl := Option.some.inj (hseat.symm.trans hs)
          cases hclosed.symm.trans hopened
  · rename_i hs
    refine Or.inl ⟨KeepsSeats.refl net, fun s hs' => ?_⟩
    rw [seat?_eq_none hs] at hs'
    cases hs'

/-- A transport that ceases to exist is terminated before and leaves no seat behind. -/
theorem of_dropConsumer (net : Network) (id : NodeId) :
    (net.dropConsumer id).seat? = Function.update (net.stopTransport id).seat? id none ∧
      (net.dropConsumer id).idlePool? = (net.stopTransport id).idlePool? := by
  have hdropped : ∀ net : Network,
      (net.modifyNode id fun n => { n with consumer := none, noted := [] }).seat? =
        Function.update net.seat? id none := by
    intro net
    rw [seat?_modifyNode]
    cases net.node? id <;> rfl
  cases htaken : net.takeOutgoing id with
  | none =>
    unfold dropConsumer
    rw [htaken]
    exact ⟨hdropped _, rfl⟩
  | some taken =>
    -- A collector is not terminated; what it keeps is given up.
    obtain ⟨items, hc⟩ : ∃ items, (net.node? id).bind (·.consumer) = some (.collector items) := by
      unfold takeOutgoing at htaken
      split at htaken
      · exact ⟨_, ‹_›⟩
      · cases htaken
    have hstopped : net.stopTransport id = net := by
      unfold stopTransport
      rw [hc]
    have hkeeps : net.KeepsSeats taken.2 := by
      have htaken' : net.takeOutgoing id = some (items,
          (net.setConsumer id (some (.collector []))).cancelAll id items) := by
        unfold takeOutgoing
        rw [hc]
      obtain rfl := Option.some.inj (htaken'.symm.trans htaken)
      refine KeepsSeats.trans (keepsSeats_setConsumer hc ?_) (keepsSeats_performAll _ id _)
      rfl
    unfold dropConsumer
    rw [htaken, hstopped, ← hkeeps.seat, ← hkeeps.pool]
    exact ⟨hdropped _, rfl⟩

/-! ## Manned pools -/

variable {p : Pool} {s : Seat}

theorem lt_length_of_seat? (h : net.seat? id = some s) : id < net.nodes.length := by
  obtain ⟨n, hn, -⟩ := Option.bind_eq_some_iff.mp h
  rw [node?, Option.join_eq_some_iff] at hn
  exact (List.getElem?_eq_some_iff.mp hn).1

theorem mem_crew_iff : id ∈ net.crew k ↔
    ∃ s, net.seat? id = some s ∧ s.pool = k ∧ s.executors.isSome = true := by
  simp only [crew, Finset.mem_filter, Finset.mem_range, Option.any_eq_true, Bool.and_eq_true,
    beq_iff_eq, and_iff_right_iff_imp]
  rintro ⟨s, hs, -⟩
  exact lt_length_of_seat? hs

/-- A transport that takes a seat on executors is one more in the crew. -/
theorem crew_of_joins {s' : Seat} (seats : net'.seat? = Function.update net.seat? id (some s'))
    (pool : s'.pool = k) (joined : s'.executors.isSome = true) :
    net'.crew k = insert id (net.crew k) := by
  ext x
  rw [Finset.mem_insert, mem_crew_iff, mem_crew_iff, seats]
  by_cases hx : x = id
  · subst hx
    simp [pool, joined]
  · simp [hx]

/-- A transport that gives up its seat is none of the crew. -/
theorem crew_of_leaves {s' : Option Seat} (seats : net'.seat? = Function.update net.seat? id s')
    (left : ∀ t, s' = some t → t.pool = k → t.executors = none) :
    net'.crew k = (net.crew k).erase id := by
  ext x
  rw [Finset.mem_erase, mem_crew_iff, mem_crew_iff, seats]
  by_cases hx : x = id
  · subst hx
    simp only [Function.update_self, ne_eq, not_true_eq_false, false_and, iff_false]
    rintro ⟨t, ht, hpool, hjoined⟩
    rw [left t ht hpool] at hjoined
    cases hjoined
  · simp [hx]

namespace IsManned

/-- Whoever has joined is counted. -/
theorem pos_of_mem_crew (h : net.IsManned k p) (mem : id ∈ net.crew k) : 0 < p.active := by
  rw [h.active]
  exact Finset.card_pos.mpr ⟨id, mem⟩

theorem of_keepsSeats (h : net.IsManned k p) (keeps : net.KeepsSeats net') : net'.IsManned k p := by
  have hcrew : net'.crew k = net.crew k := by
    ext id
    rw [mem_crew_iff, mem_crew_iff, keeps.seat]
  constructor
  · rw [keeps.pool, h.pool]
  · rw [hcrew, h.active]
  · exact h.running
  · exact h.latest
  · rw [keeps.seat]
    exact h.executors
  · rw [keeps.seat]
    exact h.closed

/-- What becomes of a seat on another pool is no matter of a pool. -/
theorem of_elsewhere {s' : Option Seat} (h : net.IsManned k p)
    (seat : ∀ s, net.seat? id = some s → s.pool ≠ k) (away : ∀ t, s' = some t → t.pool ≠ k)
    (seats : net'.seat? = Function.update net.seat? id s')
    (pool : net'.idlePool? k = net.idlePool? k) : net'.IsManned k p := by
  have hstays : ∀ x s, net'.seat? x = some s → s.pool = k → net.seat? x = some s := by
    intro x s hs hk
    rw [seats, Function.update_apply] at hs
    split at hs
    · exact absurd hk (away s hs)
    · exact hs
  have hcrew : net'.crew k = net.crew k := by
    rw [crew_of_leaves seats fun t ht hk => absurd hk (away t ht)]
    refine Finset.erase_eq_of_notMem fun hmem => ?_
    obtain ⟨s, hs, hk, -⟩ := mem_crew_iff.mp hmem
    exact seat s hs hk
  constructor
  · rw [pool, h.pool]
  · rw [hcrew, h.active]
  · exact h.running
  · exact h.latest
  · exact fun x s hs hk => h.executors x s (hstays x s hs hk) hk
  · exact fun x s hs hk => h.closed x s (hstays x s hs hk) hk

/-- A transport that joins is on the executors that exist from then on, as are all others. -/
theorem joins (h : net.IsManned k p) (seat : net.seat? id = some ⟨k, none, false⟩)
    (seats : net'.seat? = Function.update net.seat? id (some ⟨k, some p.acquire.1, false⟩))
    (pool : net'.idlePool? k = some p.acquire.2) : net'.IsManned k p.acquire.2 := by
  have hnew : id ∉ net.crew k := by
    rw [mem_crew_iff, seat]
    rintro ⟨s, hs, -, hjoined⟩
    obtain rfl := Option.some.inj hs
    cases hjoined
  -- Executors are built anew only where nobody has joined.
  have hsame : ∀ x s, net.seat? x = some s → s.pool = k → s.executors.isSome = true →
      s.executors = p.acquire.2.executors := by
    intro x s hs hk hjoined
    have hpos := h.pos_of_mem_crew (mem_crew_iff.mpr ⟨s, hs, hk, hjoined⟩)
    obtain ⟨g, hg⟩ := Option.isSome_iff_exists.mp (h.running.mpr hpos)
    rw [h.executors x s hs hk hjoined, Pool.acquire, hg]
  constructor
  · exact pool
  · rw [crew_of_joins seats rfl rfl, Finset.card_insert_of_notMem hnew, ← h.active,
      Pool.active_acquire]
  · simp [Pool.executors_acquire]
  · intro g hg
    unfold Pool.acquire at hg ⊢
    split at hg
    · exact h.latest g hg
    · cases hg
      rfl
  · intro x s hs hk hjoined
    rw [seats, Function.update_apply] at hs
    split at hs
    · obtain rfl := Option.some.inj hs
      exact p.executors_acquire.symm
    · exact hsame x s hs hk hjoined
  · intro x s hs hk hclosed
    rw [seats, Function.update_apply] at hs
    split at hs
    · obtain rfl := Option.some.inj hs
      cases hclosed
    · exact h.closed x s hs hk hclosed

/-- A transport that leaves takes one off the count if it had joined, and takes the executors with
it if it was the last. -/
theorem leaves {s' : Option Seat} (h : net.IsManned k p) (seat : net.seat? id = some s)
    (here : s.pool = k) (left : ∀ t, s' = some t → t.executors = none)
    (seats : net'.seat? = Function.update net.seat? id s')
    (pool : net'.idlePool? k = some (s.vacate p)) : net'.IsManned k (s.vacate p) := by
  have hcrew : net'.crew k = (net.crew k).erase id := crew_of_leaves seats fun t ht _ => left t ht
  have hstays : ∀ x t, net'.seat? x = some t → net.seat? x = some t ∨ t.executors = none := by
    intro x t ht
    rw [seats, Function.update_apply] at ht
    split at ht
    · exact Or.inr (left t ht)
    · exact Or.inl ht
  have hclosed : ∀ x t, net'.seat? x = some t → t.pool = k → t.closed = true →
      t.executors = none := fun x t ht hk hc => (hstays x t ht).elim (h.closed x t · hk hc) fun hnone => hnone
  have hjoined : ∀ x t, net'.seat? x = some t → t.pool = k → t.executors.isSome = true →
      t.executors = p.executors := by
    intro x t ht hk hj
    rcases hstays x t ht with ht | hnone
    · exact h.executors x t ht hk hj
    · rw [hnone] at hj
      cases hj
  cases he : s.executors with
  | none =>
    have hout : id ∉ net.crew k := by
      rw [mem_crew_iff, seat]
      rintro ⟨t, ht, -, hj⟩
      obtain rfl := Option.some.inj ht
      rw [he] at hj
      cases hj
    have hp : s.vacate p = p := by rw [Seat.vacate, he, Option.isSome_none, if_neg Bool.false_ne_true]
    rw [hp] at pool ⊢
    refine ⟨pool, ?_, h.running, h.latest, hjoined, hclosed⟩
    rw [hcrew, Finset.erase_eq_of_notMem hout, h.active]
  | some g =>
    have hin : id ∈ net.crew k := mem_crew_iff.mpr ⟨s, seat, here, by rw [he, Option.isSome_some]⟩
    have hp : s.vacate p = p.release := by rw [Seat.vacate, he, Option.isSome_some, if_pos rfl]
    have hactive : p.release.active = (net'.crew k).card := by
      rw [hcrew, Finset.card_erase_of_mem hin, ← h.active, Pool.active_release]
    have hpos := h.pos_of_mem_crew hin
    have hrunning := h.running
    rw [hp] at pool ⊢
    refine ⟨pool, hactive, ?_, fun g hg => ?_, fun x t ht hk hj => ?_, hclosed⟩
    · rw [Pool.executors_release, Pool.active_release]
      split
      · rw [hrunning]
        omega
      · simp only [Option.isSome_none, Bool.false_eq_true, false_iff]
        omega
    · rw [Pool.executors_release] at hg
      split at hg
      · rw [Pool.built_release, h.latest g hg]
      · cases hg
    · -- Somebody else is still there, so the executors are.
      have hrest : 0 < p.release.active := by
        rw [hactive]
        exact Finset.card_pos.mpr ⟨x, mem_crew_iff.mpr ⟨t, ht, hk, hj⟩⟩
      rw [Pool.active_release] at hrest
      rw [Pool.executors_release, if_pos (by omega), hjoined x t ht hk hj]

/-- Whoever leaves takes exactly one off the count, and whoever has not joined takes none. -/
theorem active_terminate {p : Pool} {t : Shared} (h : net.IsManned k p.idle)
    (seat : net.seat? id = some (t.seat k)) (owner : NodeId) :
    (t.terminate owner p).2.1.active + (if t.executors.isSome then 1 else 0) = p.active := by
  have hidle := congrArg (fun x : Seat × Pool => x.2.active) (t.idle_terminate owner p k)
  replace hidle : (t.terminate owner p).2.1.active = _ := hidle
  rw [hidle]
  cases hj : t.executors with
  | none =>
    split
    · rw [Seat.vacate, Shared.seat, hj, Option.isSome_none, if_neg Bool.false_ne_true,
        if_neg Bool.false_ne_true]
      rfl
    · rfl
  | some g =>
    have hopened : t.closed = false := by
      by_contra hc
      cases hj.symm.trans (h.closed id _ seat rfl (Bool.not_eq_false _ ▸ hc))
    have hpos : 0 < p.active :=
      h.pos_of_mem_crew (mem_crew_iff.mpr ⟨_, seat, rfl, by rw [Shared.seat, hj, Option.isSome_some]⟩)
    rw [if_pos hopened, Seat.vacate, Shared.seat, hj, Option.isSome_some, if_pos rfl, if_pos rfl,
      Pool.active_release]
    exact Nat.sub_add_cancel hpos

/-- A transport on the pool has joined it after a start, unless it is closed. -/
theorem seat?_startTransport (h : net.IsManned k p) (seat : net.seat? id = some s)
    (here : s.pool = k) : ∃ e, (net.startTransport id).seat? id = some ⟨k, e, s.closed⟩ ∧
      (e.isSome = true ↔ s.closed = false) := by
  obtain ⟨pool, executors, closed⟩ := s
  obtain rfl : pool = k := here
  rcases of_startTransport net id with ⟨hkeeps, hfresh⟩ | ⟨k', q, hs, -, hseats, -⟩
  · refine ⟨executors, by rw [hkeeps.seat, seat], ?_⟩
    cases closed with
    | true => simpa using h.closed id _ seat rfl rfl
    | false =>
      cases executors with
      | some g => simp
      | none =>
        have hnone := hfresh pool seat
        rw [h.pool] at hnone
        cases hnone
  · cases seat.symm.trans hs
    exact ⟨_, by rw [hseats, Function.update_self], by simp⟩

/-- A transport on the pool that is terminated has left it for good. -/
theorem seat?_stopTransport (h : net.IsManned k p) (seat : net.seat? id = some s)
    (here : s.pool = k) : (net.stopTransport id).seat? id = some ⟨k, none, true⟩ := by
  obtain ⟨pool, executors, closed⟩ := s
  obtain rfl : pool = k := here
  rcases of_stopTransport net id with ⟨hkeeps, hclosed⟩ | ⟨s', q, hs', -, -, hseats, -⟩
  · rw [hkeeps.seat, seat]
    cases closed with
    | true => rw [show executors = none from h.closed id _ seat rfl rfl]
    | false =>
      have hnone := hclosed _ seat rfl
      rw [h.pool] at hnone
      cases hnone
  · cases seat.symm.trans hs'
    rw [hseats, Function.update_self]

/-- A pool is manned after one of the transports was terminated. -/
theorem stopTransport (h : net.IsManned k p) (id : NodeId) :
    ∃ p', (net.stopTransport id).IsManned k p' := by
  rcases of_stopTransport net id with ⟨hkeeps, -⟩ | ⟨s, q, hs, -, hq, hseats, hpools⟩
  · exact ⟨p, h.of_keepsSeats hkeeps⟩
  · have hk : (net.stopTransport id).idlePool? k = _ := congrFun hpools k
    by_cases here : s.pool = k
    · obtain rfl : p = q := Option.some.inj (h.pool.symm.trans (here ▸ hq))
      rw [here, Function.update_self] at hk
      refine ⟨_, h.leaves hs here (fun t ht => ?_) hseats hk⟩
      obtain rfl := Option.some.inj ht
      rfl
    · rw [Function.update_of_ne (Ne.symm here)] at hk
      refine ⟨p, h.of_elsewhere (fun t ht => ?_) (fun t ht => ?_) hseats hk⟩
      · exact Option.some.inj (hs.symm.trans ht) ▸ here
      · exact Option.some.inj ht ▸ here

/-- Whatever is done to a transport leaves a manned pool manned. -/
theorem turn (h : net.IsManned k p) (t : Turn) : ∃ p', (net.turn t).IsManned k p' := by
  cases t with
  | start id =>
    rcases of_startTransport net id with ⟨hkeeps, -⟩ | ⟨k', q, hs, hq, hseats, hpools⟩
    · exact ⟨p, h.of_keepsSeats hkeeps⟩
    · have hk : (net.startTransport id).idlePool? k = _ := congrFun hpools k
      by_cases here : k' = k
      · subst here
        obtain rfl : p = q := Option.some.inj (h.pool.symm.trans hq)
        rw [Function.update_self] at hk
        exact ⟨_, h.joins hs hseats hk⟩
      · rw [Function.update_of_ne (Ne.symm here)] at hk
        refine ⟨p, h.of_elsewhere (fun t ht => ?_) (fun t ht => ?_) hseats hk⟩
        · exact Option.some.inj (hs.symm.trans ht) ▸ here
        · exact Option.some.inj ht ▸ here
  | terminate id => exact h.stopTransport id
  | drop id =>
    obtain ⟨q, hq⟩ := h.stopTransport id
    obtain ⟨hseats, hpools⟩ := of_dropConsumer net id
    have hk : (net.dropConsumer id).idlePool? k = _ := congrFun hpools k
    have hnone : ∀ t, (none : Option Seat) = some t → t.executors = none := fun t ht => nomatch ht
    by_cases here : ∃ s, net.seat? id = some s ∧ s.pool = k
    · -- The transport has left the pool when it ceases to exist.
      obtain ⟨s, hs, here⟩ := here
      exact ⟨_, hq.leaves (h.seat?_stopTransport hs here) rfl hnone hseats (hk.trans hq.pool)⟩
    · refine ⟨q, hq.of_elsewhere (fun t ht hp => here ?_) (fun t ht => ?_) hseats hk⟩
      · rcases of_stopTransport net id with ⟨hkeeps, -⟩ | ⟨s, -, hs, -, -, hseats, -⟩
        · exact ⟨t, by rw [← ht, hkeeps.seat], hp⟩
        · rw [hseats, Function.update_self, Option.some.injEq] at ht
          subst ht
          exact ⟨s, hs, hp⟩
      · cases ht

end IsManned

/-! ## Any number of turns -/

/-- What is done to the transport of one node is no matter of the seats of others. -/
theorem seat?_turn_of_ne {x : NodeId} {t : Turn} (start : t ≠ .start x) (terminate : t ≠ .terminate x)
    (drop : t ≠ .drop x) : (net.turn t).seat? x = net.seat? x := by
  have hstopped : ∀ id, id ≠ x → (net.stopTransport id).seat? x = net.seat? x := by
    intro id hne
    rcases of_stopTransport net id with ⟨hkeeps, -⟩ | ⟨_, _, -, -, -, hseats, -⟩
    · rw [hkeeps.seat]
    · rw [hseats, Function.update_of_ne (Ne.symm hne)]
  cases t with
  | start id =>
    have hne : id ≠ x := fun he => start (congrArg Turn.start he)
    rcases of_startTransport net id with ⟨hkeeps, -⟩ | ⟨_, _, -, -, hseats, -⟩
    · exact congrFun hkeeps.seat x
    · exact (congrFun hseats x).trans (Function.update_of_ne (Ne.symm hne) _ _)
  | terminate id => exact hstopped id fun he => terminate (congrArg Turn.terminate he)
  | drop id =>
    have hne : id ≠ x := fun he => drop (congrArg Turn.drop he)
    refine (congrFun (of_dropConsumer net id).1 x).trans ?_
    rw [Function.update_of_ne (Ne.symm hne), hstopped id hne]

/-- Nobody takes a seat on a pool who was not there. -/
theorem exists_seat?_of_turn {t : Turn} (h : (net.turn t).seat? id = some s) :
    ∃ s', net.seat? id = some s' ∧ s'.pool = s.pool := by
  have hstopped : ∀ {x : NodeId} {s : Seat}, (net.stopTransport x).seat? id = some s →
      ∃ s', net.seat? id = some s' ∧ s'.pool = s.pool := by
    intro x s h
    rcases of_stopTransport net x with ⟨hkeeps, -⟩ | ⟨s', -, hs', -, -, hseats, -⟩
    · exact ⟨s, by rw [← h, hkeeps.seat], rfl⟩
    · rw [hseats, Function.update_apply] at h
      split at h
      · rename_i he
        cases he
        cases h
        exact ⟨s', hs', rfl⟩
      · exact ⟨s, h, rfl⟩
  cases t with
  | start x =>
    replace h : (net.startTransport x).seat? id = some s := h
    rcases of_startTransport net x with ⟨hkeeps, -⟩ | ⟨k, p, hs', -, hseats, -⟩
    · exact ⟨s, by rw [← h, hkeeps.seat], rfl⟩
    · rw [hseats, Function.update_apply] at h
      split at h
      · rename_i he
        cases he
        cases h
        exact ⟨_, hs', rfl⟩
      · exact ⟨s, h, rfl⟩
  | terminate x => exact hstopped h
  | drop x =>
    replace h : (net.dropConsumer x).seat? id = some s := h
    rw [(of_dropConsumer net x).1, Function.update_apply] at h
    split at h
    · cases h
    · exact hstopped h

namespace Taken

variable {turns : List Turn}

/-- Turns are taken where nothing else happens. -/
theorem of_turnAll (taken : net.Taken turns net') (more : List Turn) :
    net.Taken (turns ++ more) (net'.turnAll more) := by
  induction more generalizing turns net' with
  | nil => rwa [List.append_nil]
  | cons t rest ih =>
    rw [← List.singleton_append, ← List.append_assoc]
    exact ih (taken.turn t)

/-- A manned pool stays manned, whatever is done to transports. -/
theorem isManned (taken : net.Taken turns net') (h : net.IsManned k p) :
    ∃ p', net'.IsManned k p' := by
  induction taken with
  | refl => exact ⟨p, h⟩
  | turn taken t ih =>
    obtain ⟨q, hq⟩ := ih
    exact hq.turn t
  | aside taken keeps ih =>
    obtain ⟨q, hq⟩ := ih
    exact ⟨q, hq.of_keepsSeats keeps⟩

theorem exists_seat? (taken : net.Taken turns net') (h : net'.seat? id = some s) :
    ∃ s', net.seat? id = some s' ∧ s'.pool = s.pool := by
  induction taken generalizing s with
  | refl => exact ⟨s, h, rfl⟩
  | turn taken t ih =>
    obtain ⟨s', hs', hp'⟩ := exists_seat?_of_turn h
    obtain ⟨s'', hs'', hp''⟩ := ih hs'
    exact ⟨s'', hs'', hp''.trans hp'⟩
  | aside taken keeps ih => exact ih (by rw [← h, keeps.seat])

/-- What has become of a transport that had neither joined nor been terminated. -/
theorem seat?_eq (taken : net.Taken turns net') (h : net.IsManned k p)
    (fresh : net.seat? id = some ⟨k, none, false⟩) :
    if .drop id ∈ turns then net'.seat? id = none
    else ∃ e, net'.seat? id = some ⟨k, e, decide (.terminate id ∈ turns)⟩ ∧
      (e.isSome = true ↔ .start id ∈ turns ∧ .terminate id ∉ turns) := by
  induction taken with
  | refl => simpa using fresh
  | @turn turns net' taken t ih =>
    obtain ⟨q, hq⟩ := taken.isManned h
    by_cases hd : .drop id ∈ turns
    · -- What is gone does not come back.
      rw [if_pos hd] at ih
      rw [if_pos (List.mem_append_left _ hd), Option.eq_none_iff_forall_ne_some]
      intro s hs
      obtain ⟨s', hs', -⟩ := exists_seat?_of_turn hs
      cases ih.symm.trans hs'
    · rw [if_neg hd] at ih
      obtain ⟨e, hs, he⟩ := ih
      by_cases hstart : t = .start id
      · subst hstart
        obtain ⟨e', hs', he'⟩ := hq.seat?_startTransport hs rfl
        rw [if_neg (by simpa using hd)]
        refine ⟨e', ?_, ?_⟩
        · simpa [Network.turn] using hs'
        · simpa using he'
      by_cases hterminate : t = .terminate id
      · subst hterminate
        rw [if_neg (by simpa using hd)]
        refine ⟨none, ?_, by simp⟩
        simpa [Network.turn] using hq.seat?_stopTransport hs rfl
      by_cases hdrop : t = .drop id
      · subst hdrop
        rw [if_pos (by simp)]
        exact (congrFun (of_dropConsumer net' id).1 id).trans (Function.update_self _ _ _)
      rw [if_neg (by simp [hd, Ne.symm hdrop]), seat?_turn_of_ne hstart hterminate hdrop, hs]
      refine ⟨e, ?_, ?_⟩
      · simp [Ne.symm hterminate]
      · simpa [Ne.symm hterminate, Ne.symm hstart] using he
  | aside taken keeps ih => rwa [keeps.seat]

end Taken

/-- A pool nobody has joined yet is manned. -/
theorem isManned_of_fresh {p : Pool} (pool : net.pool? k = some p) (unused : p.active = 0)
    (vacant : p.executors = none)
    (fresh : ∀ id t, net.shared? id = some (k, t) → t.executors = none ∧ t.closed = false) :
    net.IsManned k p.idle := by
  have hfresh : ∀ id s, net.seat? id = some s → s.pool = k → s.executors = none := by
    rintro id s hs rfl
    obtain ⟨t, ht, he⟩ := exists_shared?_of_seat? hs
    rw [he]
    exact (fresh id t ht).1
  have hcrew : net.crew k = ∅ := by
    rw [Finset.eq_empty_iff_forall_notMem]
    intro id hid
    obtain ⟨s, hs, hk, hj⟩ := mem_crew_iff.mp hid
    rw [hfresh id s hs hk] at hj
    cases hj
  refine ⟨congrArg (Option.map Pool.idle) pool, ?_, ?_, fun g hg => ?_, fun id s hs hk hj => ?_,
    fun id s hs hk _ => hfresh id s hs hk⟩
  · rw [hcrew, Finset.card_empty]
    exact unused
  · show p.executors.isSome = true ↔ 0 < p.active
    simp [unused, vacant]
  · cases vacant.symm.trans hg
  · rw [hfresh id s hs hk] at hj
    cases hj

/-- The crew of a pool is those who were started and neither terminated nor dropped. -/
theorem crew_of_taken {p : Pool} {turns : List Turn} (h : net.IsManned k p)
    (fresh : ∀ id s, net.seat? id = some s → s.pool = k → s = ⟨k, none, false⟩)
    (taken : net.Taken turns net') : net'.crew k = net.joined k turns := by
  ext id
  simp only [mem_crew_iff, joined, Finset.mem_filter, Finset.mem_range, Option.any_eq_true, beq_iff_eq]
  constructor
  · rintro ⟨s', hs', hk', hj⟩
    obtain ⟨s, hs, hk⟩ := taken.exists_seat? hs'
    have hsame := fresh id s hs (hk.trans hk')
    have hnow := taken.seat?_eq h (hsame ▸ hs)
    split at hnow
    · cases hs'.symm.trans hnow
    · rename_i hd
      obtain ⟨e, he, hiff⟩ := hnow
      cases hs'.symm.trans he
      exact ⟨lt_length_of_seat? hs, ⟨s, hs, hk⟩, (hiff.mp hj).1, (hiff.mp hj).2, hd⟩
  · rintro ⟨-, ⟨s, hs, hk⟩, hstart, hterminate, hdrop⟩
    have hsame := fresh id s hs hk
    have hnow := taken.seat?_eq h (hsame ▸ hs)
    rw [if_neg hdrop] at hnow
    obtain ⟨e, he, hiff⟩ := hnow
    exact ⟨_, he, rfl, hiff.mpr ⟨hstart, hterminate⟩⟩

/-- Whatever has been done to the transports on a pool, in any order and with any repetition, the
pool counts those that were started and neither terminated nor dropped; its executors exist exactly
as long as there are any, and those are on the executors that exist, which were built last; whoever
was terminated has left for good, and whoever leaves takes one off the count. -/
theorem executors_of_taken {p : Pool} {turns : List Turn} (pool : net.pool? k = some p)
    (unused : p.active = 0) (vacant : p.executors = none)
    (fresh : ∀ id t, net.shared? id = some (k, t) → t.executors = none ∧ t.closed = false)
    (taken : net.Taken turns net') :
    ∃ p', net'.pool? k = some p' ∧
      p'.active = (net.joined k turns).card ∧
      (p'.isRunning = true ↔ 0 < p'.active) ∧
      (∀ g, p'.executors = some g → p'.built = g + 1) ∧
      ∀ id t, net'.shared? id = some (k, t) →
        (.start id ∈ turns → .terminate id ∉ turns →
          t.executors.isSome = true ∧ t.executors = p'.executors) ∧
        (.terminate id ∈ turns → t.executors = none ∧ t.start p' = (t, p')) ∧
        (t.terminate id p').2.1.active + (if t.executors.isSome then 1 else 0) = p'.active := by
  have hmanned := isManned_of_fresh pool unused vacant fresh
  have hseats : ∀ id s, net.seat? id = some s → s.pool = k → s = ⟨k, none, false⟩ := by
    rintro id s hs rfl
    obtain ⟨t, ht, he⟩ := exists_shared?_of_seat? hs
    obtain ⟨hnone, hopened⟩ := fresh id t ht
    rw [he, Shared.seat, hnone, hopened]
  obtain ⟨q, hq⟩ := taken.isManned hmanned
  have hjoined := hq.active
  rw [crew_of_taken hmanned hseats taken] at hjoined
  obtain ⟨p', hp', rfl⟩ := Option.map_eq_some_iff.mp hq.pool
  refine ⟨p', hp', hjoined, hq.running, hq.latest, fun id t ht => ?_⟩
  have hseat := seat?_of_shared? ht
  obtain ⟨s, hs, hk⟩ := taken.exists_seat? hseat
  have hnow := taken.seat?_eq hmanned (hseats id s hs hk ▸ hs)
  split at hnow
  · cases hseat.symm.trans hnow
  · obtain ⟨e, he, hiff⟩ := hnow
    have hsame := Option.some.inj (hseat.symm.trans he)
    rw [Shared.seat, Seat.mk.injEq] at hsame
    obtain ⟨-, rfl, hclosed⟩ := hsame
    refine ⟨fun hstart hterminate => ?_, fun hterminate => ?_, ?_⟩
    · have hj := hiff.mpr ⟨hstart, hterminate⟩
      exact ⟨hj, hq.executors id _ hseat rfl hj⟩
    · have hc : t.closed = true := by rw [hclosed, decide_eq_true hterminate]
      refine ⟨hq.closed id _ hseat rfl hc, ?_⟩
      rw [Shared.start, hc, Bool.or_true, if_pos rfl]
    · exact hq.active_terminate hseat id

/-- A node of `trio`. -/
private def trioNode (mac : Bytes) (consumer : Consumer) : Node where
  station := { segment := 1, attachment := wireAttachment mac none, routes := { home := 1 } }
  medium := .wire false []
  keepsFaults := false
  consumer

/-- Three nodes with transports on one pool that have not been started. -/
private def trio : Network where
  nodes := [[1], [2], [3]].map fun mac =>
    some (trioNode mac (.shared 0 { dispatcher := { segment := 1, application := .recorder false } }))
  pools := [{}]

/-- The last of three transports is terminated before its first start, the second one is dropped,
and the first one, which was started twice, is left: one transport on executors that exist. -/
theorem executors_of_taken_trio : ∃ p',
    (trio.turnAll [.start 0, .start 0, .terminate 2, .start 1, .start 2, .drop 1]).pool? 0 = some p' ∧
      p'.active = 1 ∧ p'.isRunning = true := by
  have hfresh : ∀ id t, trio.shared? id = some (0, t) → t.executors = none ∧ t.closed = false := by
    rintro (_ | _ | _ | id) t ht <;> cases ht <;> exact ⟨rfl, rfl⟩
  obtain ⟨p', hp', hactive, hrunning, -⟩ := executors_of_taken rfl rfl rfl hfresh
    (Taken.refl.of_turnAll [.start 0, .start 0, .terminate 2, .start 1, .start 2, .drop 1])
  have hone : p'.active = 1 := hactive.trans (by decide)
  exact ⟨p', hp', hone, hrunning.mpr (by omega)⟩

end Network

end Fieldbus
