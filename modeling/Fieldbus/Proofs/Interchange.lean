import Mathlib.Data.Multiset.Defs
import Fieldbus.Proofs.Executors
import Fieldbus.Proofs.Records
import Fieldbus.Proofs.Simulation

/-!
# Transports in each other's place

A transport with a worker of its own empties two mailboxes; one on a pool has its jobs run by the
executor of the pool, among those of other nodes. Where the executor takes jobs in the order of the
queue the two are interchangeable: twins stay twins whatever is done to them at rest
(`Twins.stimulate`, `Twins.stop`). Main statement: of a node whose transport is on a pool nothing is
seen that cannot be seen of it with a worker of its own, and vice versa if it is alone on the pool or if
the order of workers is not visible (`views_onPool`).
-/

namespace Fieldbus

/-- A transport where no send waits fails what is awaited when it is terminated. -/
theorem Dedicated.acts_terminate {t : Dedicated} (opened : t.closed = false)
    (idle : t.outgoing.toList = []) :
    t.terminate.2 = t.dispatcher.pending.values.map fun w => .resolve w.ticket (.failed .closed) := by
  simp [terminate, opened, idle, Outgoing.failAll, Outgoing.tickets, Dispatcher.close]

/-- A transport on a pool where no job waits fails what is awaited when it is terminated. -/
theorem Shared.of_terminate_idle {t : Shared} {x : NodeId} {p : Pool} (opened : t.closed = false)
    (idle : p.tasks.toList = []) : (t.terminate x p).2.1.tasks.toList = [] ∧
      (t.terminate x p).2.2 =
        t.dispatcher.pending.values.map fun w => .resolve w.ticket (.failed .closed) := by
  have hwithdraw : p.withdraw x = ([], { p with tasks := ⟨[]⟩ }) := by
    rw [Pool.withdraw, idle]
    rfl
  have hrelease : (⟨p.active, p.executors, p.built, ⟨[]⟩⟩ : Pool).release.tasks.toList = [] := by
    unfold Pool.release
    split <;> rfl
  cases hg : t.executors <;>
    simp [terminate, opened, hwithdraw, hg, hrelease, Outgoing.failAll, Outgoing.tickets,
      Dispatcher.close]

namespace Network

variable {d d' s s' : Network} {x id : NodeId} {k q : PoolId} {alone : Prop} {todo : List Outgoing}
  {events : List Event}

namespace Twins

/-! ## What is done from outside -/

/-- Something is handed to the transport at rest to be sent. -/
theorem submit (h : d.Twins s x k alone []) (rests : s.Rests) (o : Outgoing) :
    (d.submit x o).Twins (s.submit x o) x k alone [o] := by
  obtain ⟨n, t, g, p, p', htwin⟩ := h.twin
  have hnone := rests.pool k p' htwin.pool'
  have hshared : s.submit x o = s.spawn k x (g, .execute o) := by
    rw [Network.submit, htwin.twin]
    rfl
  rw [submit_eq_setConsumer htwin.transport htwin.shadows.opened, hshared]
  refine h.spawn htwin rfl { htwin.shadows with outgoing := ?_, others := ?_, own := ?_ }
  · rw [Mailbox.toList_push, htwin.shadows.outgoing, List.nil_append]
  · rw [Mailbox.toList_push, List.filter_append, htwin.shadows.others]
    simp
  · obtain ⟨-, -, hin⟩ := htwin.shadows.tasks_eq_nil_iff.mp hnone
    rw [Mailbox.toList_push, hnone, List.nil_append, hin]
    simp

/-- Something is handed to the consumer of another node to be sent. -/
theorem submit_of_ne (h : d.Twins s x k alone todo) (hid : id ≠ x) (o : Outgoing) :
    (d.submit id o).Twins (s.submit id o) x k alone todo := by
  unfold Network.submit
  rw [h.node id hid]
  cases hn : d.node? id with
  | none => exact h
  | some n =>
    rw [Option.bind_some]
    cases hc : n.consumer with
    | none => exact h
    | some c =>
      cases c with
      | collector items => exact h.modifyNode_of_ne hid fun _ _ _ _ hshared _ => by cases hshared
      | dedicated t =>
        exact Twins.performAll
          (h.modifyNode_of_ne hid fun _ _ _ _ hshared _ => by cases hshared) id _
      | shared q t =>
        cases hg : t.executors with
        | none =>
          simp only [Shared.submit, hg]
          exact h.performAll id _
        | some g =>
          simp only [Shared.submit, hg]
          refine Twins.performAll (h.spawn_of_ne hid fun hq => ?_) id _
          subst hq
          exact h.current id n t g hid hn hc hg

/-- An envelope is handed straight to the consumer of a node. -/
theorem deliver (h : d.Twins s x k alone todo) (id : NodeId) (e : Envelope) :
    (d.deliver id e).Twins (s.deliver id e) x k alone todo := by
  unfold Network.deliver
  by_cases hid : id = x
  · subst hid
    obtain ⟨n, t, g, p, p', htwin⟩ := h.twin
    rw [htwin.node, htwin.twin, Option.bind_some, Option.bind_some, htwin.consumer]
    exact h.consume htwin e
  · rw [h.node id hid]
    cases hn : d.node? id with
    | none => exact h
    | some n =>
      rw [Option.bind_some]
      cases hc : n.consumer with
      | none => exact h
      | some c => exact h.consume_of_ne hid hn hc e

end Twins

/-- Something that is done from outside. -/
inductive Stimulus where
  /-- The application above a node sends. -/
  | send (id : NodeId) (o : Outgoing)
  /-- The transport of a node is handed an envelope. -/
  | deliver (id : NodeId) (e : Envelope)
  /-- A node receives a frame from its medium. -/
  | receive (id : NodeId) (frame origin : Bytes)
  deriving DecidableEq, Repr

/-- Does something from outside. -/
def stimulate (net : Network) : Stimulus → Network
  | .send id o => net.submit id o
  | .deliver id e => net.deliver id e
  | .receive id frame origin => (net.receive id frame origin).2

/-- What happens when something is done from outside, before anybody works. -/
def stimulated (net : Network) : Stimulus → List Event
  | .receive id frame origin => net.directory.callEvents id fun d m => d.receive m frame origin
  | _ => []

/-- What is done from outside is no matter of sub-addresses. -/
theorem FitsThroughout.stimulate {net : Network} (fits : net.FitsThroughout) (stimulus : Stimulus) :
    (net.stimulate stimulus).FitsThroughout := by
  cases stimulus with
  | send id o => exact fits.of_keepsPorts (overlooksTransports_keepsPorts.submit net id o)
  | deliver id e => exact fits.of_keepsPorts (overlooksTransports_keepsPorts.deliver net id e)
  | receive id frame origin => exact fits.call id _

/-- What is to be sent from a node. -/
def Stimulus.sends (x : NodeId) : Stimulus → List Outgoing
  | .send id o => if id = x then [o] else []
  | _ => []

namespace Twins

theorem stimulated_eq (h : d.Twins s x k alone todo) (stimulus : Stimulus) :
    s.stimulated stimulus = d.stimulated stimulus := by
  cases stimulus with
  | receive id frame origin => rw [stimulated, stimulated, h.directory_eq]
  | _ => rfl

/-- Whatever is done to twins at rest leaves twins. -/
theorem stimulate (h : d.Twins s x k alone []) (rests : s.Rests) (stimulus : Stimulus) :
    (d.stimulate stimulus).Twins (s.stimulate stimulus) x k alone (stimulus.sends x) := by
  cases stimulus with
  | send id o =>
    by_cases hid : id = x
    · subst hid
      rw [Stimulus.sends, if_pos rfl]
      exact h.submit rests o
    · rw [Stimulus.sends, if_neg hid]
      exact h.submit_of_ne hid o
  | deliver id e => exact h.deliver id e
  | receive id frame origin => exact h.call id _

end Twins

namespace Twins

end Twins

/-! ## What is seen -/

/-- What is seen of a node after something was done and the network has come to rest. -/
structure View where
  /-- What the node has transmitted meanwhile. -/
  transmissions : List Transmission
  /-- The envelopes that its application has taken note of. -/
  noted : List Envelope
  /-- The routers that its station has learned. -/
  routers : RouterTable
  /-- What its station has counted. -/
  counts : FrameCounts
  /-- The requests that have ended, with their outcomes. -/
  outcomes : Multiset (Ticket × Outcome)

/-- What is seen of a node after some events. -/
def view? (net : Network) (id : NodeId) (events : List Event) : Option View :=
  (net.node? id).map fun n => {
    transmissions := transmissions id events
    noted := n.noted
    routers := n.station.routers
    counts := n.counts
    outcomes := n.outcomes }

/-- What is seen of the node `x`, one thing after the other, when things are done from outside and
each has come to rest before the next, and the transport of the node is terminated at the end or not;
the pool `k` has one executor, and no deadline passes. -/
inductive History (x : NodeId) (k : PoolId) : Network → List Stimulus → Bool → List View → Prop
  | rest (net : Network) : History x k net [] false []
  /-- The transport is terminated. -/
  | stops {net net' : Network} {events : List Event} {v : View}
      (run : (net.stopTransport x).RunsInTurn k events net') (done : net'.Rests)
      (view : net'.view? x events = some v) : History x k net [] true [v]
  /-- Something is done from outside. -/
  | takes {net net' : Network} {stimulus : Stimulus} {rest : List Stimulus} {stopped : Bool}
      {events : List Event} {v : View} {views : List View}
      (run : (net.stimulate stimulus).RunsInTurn k events net') (done : net'.Rests)
      (view : net'.view? x (net.stimulated stimulus ++ events) = some v)
      (later : History x k net' rest stopped views) :
      History x k net (stimulus :: rest) stopped (v :: views)

/-- Where nothing waits nothing runs. -/
theorem Rests.of_runsInTurn (rests : d.Rests) (run : d.RunsInTurn k events d') :
    events = [] ∧ d' = d := by
  cases run with
  | refl net => exact ⟨rfl, rfl⟩
  | head first run => exact absurd first rests.not_worksInTurn

/-! ## Termination -/

/-- Requests that end are entered at their node. -/
theorem performAll_resolve {α : Type} (net : Network) (x : NodeId) (ws : List α) (ticket : α → Ticket)
    (outcome : Outcome) : net.performAll x (ws.map fun w => .resolve (ticket w) outcome) =
      net.modifyNode x fun n =>
        { n with outcomes := n.outcomes ++ ws.map fun w => (ticket w, outcome) } := by
  induction ws generalizing net with
  | nil =>
    have hsame : (fun n : Option Node => n.map fun n => { n with outcomes := n.outcomes ++ [] }) = id := by
      funext n
      cases n <;> simp
    simp only [modifyNode, List.map_nil, hsame, List.modify_id]
    rfl
  | cons w rest ih =>
    refine (ih (net.resolve x (ticket w) outcome)).trans ?_
    rw [resolve, modifyNode_modifyNode]
    simp only [List.append_assoc, List.singleton_append, List.map_cons]

/-- A consumer is replaced and requests of its node end. -/
theorem performAll_setConsumer {α : Type} (net : Network) (x : NodeId) (c : Option Consumer)
    (ws : List α) (ticket : α → Ticket) (outcome : Outcome) :
    (net.setConsumer x c).performAll x (ws.map fun w => .resolve (ticket w) outcome) =
      net.modifyNode x fun n =>
        { n with consumer := c, outcomes := n.outcomes ++ ws.map fun w => (ticket w, outcome) } := by
  rw [performAll_resolve, setConsumer, modifyNode_modifyNode]

/-- A network at rest stays so when the transport of a node is replaced by one that does not work, and
a pool by one where no job waits. -/
theorem Rests.of_stopped (rests : d.Rests) (links : d'.links = d.links)
    (node : ∀ id, id ≠ x → d'.node? id = d.node? id)
    (idle : ∀ t, d'.dedicated? x = some t → t.running = false)
    (pool : ∀ q p', d'.pool? q = some p' → ∃ p, d.pool? q = some p ∧
      (p.tasks.toList = [] → p'.tasks.toList = [])) : d'.Rests where
  link j l link := rests.link j l ((congrArg (fun links => links[j]?) links).symm.trans link)
  transport id t transport running := by
    by_cases hid : id = x
    · subst hid
      cases (idle t transport).symm.trans running
    · refine rests.transport id t ?_ running
      rwa [dedicated?, node id hid] at transport
  pool q p' hp' := by
    obtain ⟨p, hp, hnone⟩ := pool q p' hp'
    exact hnone (rests.pool q p hp)

namespace Twins

/-- The transport is terminated at rest: nothing is left to do, and the same is seen of its node. -/
theorem stop (h : d.Twins s x k alone []) (rests : s.Rests) : (d.stopTransport x).Rests ∧
    (s.stopTransport x).Rests ∧
      ∀ events, ∃ v, (d.stopTransport x).view? x events = some v ∧
        (s.stopTransport x).view? x events = some v := by
  obtain ⟨n, t, g, p, p', htwin⟩ := h.twin
  let failed := t.dispatcher.pending.values.map fun w => (w.ticket, Outcome.failed .closed)
  have hacts := Dedicated.acts_terminate htwin.shadows.opened htwin.shadows.outgoing
  have hd : d.stopTransport x = d.modifyNode x fun n =>
      { n with consumer := some (.dedicated t.terminate.1), outcomes := n.outcomes ++ failed } := by
    rw [← performAll_setConsumer, ← hacts, stopTransport, htwin.node, Option.bind_some, htwin.consumer]
  let t' : Shared := { dispatcher := t.dispatcher, executors := some g }
  obtain ⟨hidle, hacts'⟩ := Shared.of_terminate_idle (t := t') (x := x) rfl
    (rests.pool k p' htwin.pool')
  have hs : s.stopTransport x = (s.modifyPool k fun _ => (t'.terminate x p').2.1).modifyNode x fun n =>
      { n with
        consumer := some (.shared k (t'.terminate x p').1)
        outcomes := n.outcomes ++ failed } := by
    rw [← performAll_setConsumer, ← hacts', stopTransport, htwin.twin, Option.bind_some]
    dsimp only
    rw [htwin.pool']
    rfl
  rw [hd, hs]
  refine ⟨(h.rests_iff.mp rests).of_stopped (x := x) rfl (fun id hid => ?_) (fun t₁ ht₁ => ?_)
    fun q p hp => ⟨p, hp, fun hnone => hnone⟩, rests.of_stopped (x := x) rfl (fun id hid => ?_)
    (fun t₁ ht₁ => ?_) fun q p₁ hp₁ => ?_, fun events => ?_⟩
  · rw [node?_modifyNode, if_neg hid]
  · obtain ⟨n', hn', hc⟩ := dedicated?_eq_some_iff.mp ht₁
    rw [node?_modifyNode, if_pos rfl, htwin.node] at hn'
    cases hn'
    cases hc
    rw [Dedicated.terminate, if_neg (by simp [htwin.shadows.opened])]
  · rw [node?_modifyNode, if_neg hid]
    rfl
  · obtain ⟨n', hn', hc⟩ := dedicated?_eq_some_iff.mp ht₁
    have hnode : (s.modifyPool k fun _ => (t'.terminate x p').2.1).node? x = s.node? x := rfl
    rw [node?_modifyNode, if_pos rfl, hnode, htwin.twin] at hn'
    cases hn'
    cases hc
  · have hpool : (s.modifyPool k fun _ => (t'.terminate x p').2.1).pool? q = some p₁ := hp₁
    rw [pool?_modifyPool] at hpool
    split at hpool
    · rename_i he
      subst he
      rw [htwin.pool', Option.map_some] at hpool
      cases hpool
      exact ⟨p', htwin.pool', fun _ => hidle⟩
    · exact ⟨p₁, hpool, fun hnone => hnone⟩
  · have hnode : (s.modifyPool k fun _ => (t'.terminate x p').2.1).node? x = s.node? x := rfl
    rw [view?, view?, node?_modifyNode, node?_modifyNode, if_pos rfl, if_pos rfl, hnode, htwin.node,
      htwin.twin]
    exact ⟨_, rfl, rfl⟩

/-- The same is seen of the node in both networks. -/
theorem exists_view (h : d.Twins s x k alone todo) (events : List Event) :
    ∃ v, d.view? x events = some v ∧ s.view? x events = some v := by
  obtain ⟨n, t, g, p, p', htwin⟩ := h.twin
  rw [view?, view?, htwin.node, htwin.twin]
  exact ⟨_, rfl, rfl⟩

/-! ## Histories -/

/-- Whatever is seen where the transport is on the pool can be seen where it has a worker of its own. -/
theorem history (h : d.Twins s x k alone []) (rests : s.Rests) {stimuli : List Stimulus}
    {stopped : Bool} {views : List View} (history : History x k s stimuli stopped views) :
    History x k d stimuli stopped views := by
  induction history generalizing d with
  | rest net => exact .rest d
  | stops run done view =>
    obtain ⟨hd, hs, hview⟩ := h.stop rests
    obtain ⟨rfl, rfl⟩ := hs.of_runsInTurn run
    obtain ⟨v, hvd, hvs⟩ := hview []
    exact .stops (.refl _) hd (hvd.trans (hvs.symm.trans view))
  | takes run done view _ ih =>
    obtain ⟨d', todo', hrun, htwins⟩ := (h.stimulate rests _).exists_of_runsInTurn run
    obtain rfl := htwins.todo_eq_nil done
    obtain ⟨v, hvd, hvs⟩ := htwins.exists_view _
    rw [h.stimulated_eq] at view
    exact .takes hrun (htwins.rests_iff.mp done) (hvd.trans (hvs.symm.trans view)) (ih htwins done)

end Twins

end Network

end Fieldbus
