import Fieldbus.Proofs.Twins

/-!
# The work of twins

Twins do the same work, of which the same comes. What is done in turn where the transport is on the
pool can be done where it has a worker of its own (`Twins.exists_of_worksInTurn`), for the executor
takes the jobs of the node in the order in which they wait for the worker; the converse holds where
the transport is alone on the pool and no send waits (`Twins.exists_of_worksInTurn_of_alone`). Main
statements: the same for whole runs (`Twins.exists_of_runsInTurn`,
`Twins.exists_of_runsInTurn_of_alone`), and twins come to rest together (`Twins.rests_iff`).
-/

namespace Fieldbus

namespace Network

variable {d d' s s' : Network} {x id : NodeId} {k q : PoolId} {alone : Prop} {todo : List Outgoing}
  {events : List Event}

namespace Twins

/-! ## One unit of work on both sides -/

theorem performed_eq (h : d.Twins s x k alone todo) (id : NodeId) (acts : List Act) :
    s.performed id acts = d.performed id acts := by
  induction acts generalizing d s with
  | nil => rfl
  | cons act rest ih => rw [performed, performed, h.directory_eq, ih (h.perform id act)]

theorem finishes_eq (h : d.Twins s x k alone todo) (id : NodeId) (acts : List Act) :
    s.finishes id acts = d.finishes id acts := by
  induction acts generalizing d s with
  | nil => rfl
  | cons act rest ih => rw [finishes, finishes, h.directory_eq, ih (h.perform id act)]

/-- The transport of another node does a step. -/
theorem stepDedicated_of_ne (h : d.Twins s x k alone todo) (hid : id ≠ x)
    {step : Dedicated → Dedicated × List Act} :
    (d.stepDedicated id step).Twins (s.stepDedicated id step) x k alone todo := by
  unfold Network.stepDedicated
  rw [h.dedicated?_eq hid]
  split
  · exact h
  · exact (h.modifyNode_of_ne hid fun _ _ _ _ hshared _ => by cases hshared).performAll id _

variable {now : Nat} {task : Task}

theorem taskActs_eq_of_ne (h : d.Twins s x k alone todo) (hid : task.owner ≠ x) :
    s.taskActs now task = d.taskActs now task := by
  rw [taskActs, taskActs, h.shared?_eq hid, h.attempt_eq]

/-- A job of another node is done. -/
theorem doTask_of_ne (h : d.Twins s x k alone todo) (hid : task.owner ≠ x) :
    (d.doTask now task).Twins (s.doTask now task) x k alone todo := by
  unfold Network.doTask
  rw [h.shared?_eq hid, h.attempt_eq]
  cases ht : d.shared? task.owner with
  | none => exact h
  | some seat =>
    obtain ⟨q, t⟩ := seat
    obtain ⟨n, hn, hc⟩ := shared?_eq_some_iff.mp ht
    dsimp only
    rw [Shared.run_eq]
    refine Twins.performAll (h.modifyNode_of_ne hid fun _ t' g _ hc' hg => ?_) task.owner _
    cases hc'
    exact h.current task.owner n t g hid hn hc hg

/-- The pool runs a job of the node, which the worker of its own does on the other side. -/
theorem doTask (h : d.Twins s x k alone todo) {n : Node} {t t' : Dedicated} {g : Nat} {p p' : Pool}
    (twin : Twin d s x k alone todo n t g p p') {after : List Task} {todo' : List Outgoing}
    (now : Nat) (job : Job)
    (dispatcher : t'.dispatcher = (t.dispatcher.run (d.attempt x) now job).1)
    (shadows : Shadows x alone todo' g t' p { p' with tasks := ⟨after⟩ }) :
    ((d.setConsumer x (some (.dedicated t'))).performAll x
      (t.dispatcher.run (d.attempt x) now job).2).Twins
      ((s.modifyPool k fun p => { p with tasks := ⟨after⟩ }).doTask now ⟨x, job⟩) x k alone todo' := by
  have hshared : (s.modifyPool k fun p => { p with tasks := ⟨after⟩ }).shared? x =
      some (k, { dispatcher := t.dispatcher, executors := some g }) := twin.transport'
  have hattempt : (s.modifyPool k fun p => { p with tasks := ⟨after⟩ }).attempt x = d.attempt x :=
    h.attempt_eq
  rw [Network.doTask, hshared]
  dsimp only
  rw [hattempt, Shared.run_eq, ← dispatcher]
  exact (h.replace twin (f := fun p => { p with tasks := ⟨after⟩ }) shadows).performAll x _

/-- What the transport wants done for a job is what its dispatcher makes of it. -/
theorem taskActs_eq (h : d.Twins s x k alone todo) {n : Node} {t : Dedicated} {g : Nat}
    {p p' : Pool} (twin : Twin d s x k alone todo n t g p p') (now : Nat) (job : Job) :
    s.taskActs now ⟨x, job⟩ = (t.dispatcher.run (d.attempt x) now job).2 := by
  rw [taskActs, twin.transport']
  dsimp only
  rw [h.attempt_eq, Shared.run_eq]

/-- The worker of the transport executes a send when the pool runs a job of the node. -/
theorem executes (h : d.Twins s x k alone todo) {n : Node} {t : Dedicated} {g : Nat} {p p' : Pool}
    (twin : Twin d s x k alone todo n t g p p') {o : Outgoing} {rest : List Outgoing} {job : Job}
    {after : List Task} (sends : todo = o :: rest) (tasks : p'.tasks.toList = ⟨x, job⟩ :: after)
    (now : Nat) : s.taskActs now ⟨x, job⟩ = (t.dispatcher.execute (d.attempt x) now o).2 ∧
      (d.stepDedicated x fun t => t.executeNext (d.attempt x) now).Twins
        ((s.modifyPool k fun p => { p with tasks := ⟨after⟩ }).doTask now ⟨x, job⟩) x k alone rest := by
  subst sends
  have hpop : t.outgoing.pop = some (o, ⟨rest⟩) := Mailbox.pop_eq_some_iff.mpr twin.shadows.outgoing
  obtain ⟨rfl, hshadows⟩ := twin.shadows.execute tasks (t.dispatcher.execute (d.attempt x) now o).1
  refine ⟨h.taskActs_eq twin now _, ?_⟩
  simp only [Network.stepDedicated, twin.transport, Dedicated.executeNext, hpop]
  exact h.doTask twin now (.execute o) rfl hshadows

/-- The worker of the transport dispatches a delivery when the pool runs a job of the node and no send
waits. -/
theorem dispatches (h : d.Twins s x k alone []) {n : Node} {t : Dedicated} {g : Nat} {p p' : Pool}
    (twin : Twin d s x k alone [] n t g p p') {job : Job} {after : List Task}
    (tasks : p'.tasks.toList = ⟨x, job⟩ :: after) (now : Nat) :
    ∃ e rest, t.incoming.toList = e :: rest ∧
      s.taskActs now ⟨x, job⟩ = (t.dispatcher.dispatch e).2 ∧
      (d.stepDedicated x Dedicated.dispatchNext).Twins
        ((s.modifyPool k fun p => { p with tasks := ⟨after⟩ }).doTask now ⟨x, job⟩) x k alone [] := by
  obtain ⟨e, rest, hin, rfl, hshadows⟩ := twin.shadows.dispatch tasks
  have hpop : t.incoming.pop = some (e, ⟨rest⟩) := Mailbox.pop_eq_some_iff.mpr hin
  refine ⟨e, rest, hin, h.taskActs_eq twin now _, ?_⟩
  simp only [Network.stepDedicated, twin.transport, Dedicated.dispatchNext, hpop]
  exact h.doTask twin now (.dispatch e) rfl (hshadows _)

/-- Another pool runs a job, which is none of the node. -/
theorem runs (h : d.Twins s x k alone todo) {p : Pool} {before after : List Task} {task : Task}
    (hq : q ≠ k) (pool : d.pool? q = some p) (tasks : p.tasks.toList = before ++ task :: after)
    (now : Nat) : s.taskActs now task = d.taskActs now task ∧
      ((d.modifyPool q fun p => { p with tasks := ⟨before ++ after⟩ }).doTask now task).Twins
        ((s.modifyPool q fun p => { p with tasks := ⟨before ++ after⟩ }).doTask now task)
        x k alone todo := by
  have howner := h.elsewhere q p hq pool
  rw [tasks] at howner
  have hid : task.owner ≠ x := howner task (by simp)
  have hpools : (d.modifyPool q fun p => { p with tasks := ⟨before ++ after⟩ }).Twins
      (s.modifyPool q fun p => { p with tasks := ⟨before ++ after⟩ }) x k alone todo := by
    refine h.modifyPool_of_ne hq fun _ _ task' htask' => howner task' ?_
    rcases List.mem_append.mp htask' with hbefore | hafter
    · exact List.mem_append_left _ hbefore
    · exact List.mem_append_right _ (List.mem_cons_of_mem _ hafter)
  exact ⟨h.taskActs_eq_of_ne hid, hpools.doTask_of_ne hid⟩

/-- The pool runs its oldest job: it is another node's, or else what is next for the worker of the
transport. -/
theorem exists_of_runs (h : d.Twins s x k alone todo) {p' : Pool} {task : Task} {after : List Task}
    (pool : s.pool? k = some p') (tasks : p'.tasks.toList = task :: after) (now : Nat)
    (done : s.finishes task.owner (s.taskActs now task) = true) :
    ∃ d' todo', d.WorksInTurn k (s.performed task.owner (s.taskActs now task)) d' ∧ d'.Twins
      ((s.modifyPool k fun p => { p with tasks := ⟨after⟩ }).doTask now task) x k alone todo' := by
  obtain ⟨n, t, g, p, p₀, htwin⟩ := h.twin
  obtain rfl : p₀ = p' := Option.some.inj (htwin.pool'.symm.trans pool)
  rw [h.finishes_eq] at done
  rw [h.performed_eq]
  by_cases hid : task.owner = x
  · obtain ⟨owner, job⟩ := task
    subst hid
    -- Sends wait in front of deliveries, so the worker has to execute while there are any.
    cases todo with
    | nil =>
      obtain ⟨e, rest, hin, hacts, htwins⟩ := h.dispatches htwin tasks now
      rw [hacts] at done ⊢
      exact ⟨_, [], .dispatches htwin.transport htwin.shadows.running hin done, htwins⟩
    | cons o rest =>
      obtain ⟨hacts, htwins⟩ := h.executes htwin rfl tasks now
      rw [hacts] at done ⊢
      exact ⟨_, rest, .executes now htwin.transport htwin.shadows.running htwin.shadows.outgoing done,
        htwins⟩
  · obtain ⟨rest, hrest, hshadows⟩ := htwin.shadows.other tasks hid
    rw [h.taskActs_eq_of_ne hid] at done ⊢
    exact ⟨_, todo, .runs now htwin.pool hrest (fun _ => rfl) done,
      (h.modifyPool htwin rfl hshadows).doTask_of_ne hid⟩

/-- Whatever is done in turn where the transport is on the pool can be done in turn where it has a
worker of its own, and the same comes of it. -/
theorem exists_of_worksInTurn (h : d.Twins s x k alone todo) (work : s.WorksInTurn k events s') :
    ∃ d' todo', d.WorksInTurn k events d' ∧ d'.Twins s' x k alone todo' := by
  cases work with
  | handsOut link running pop recipients done =>
    rw [h.isAlive_eq] at recipients
    rw [h.link?_eq] at link
    rw [h.directory_eq] at done ⊢
    exact ⟨_, todo, .handsOut link running pop recipients done, (h.modifyLink _ _).applyAll _⟩
  | executes now transport running waits done =>
    have hid := h.ne_of_dedicated? transport
    rw [h.dedicated?_eq hid] at transport
    rw [h.attempt_eq, h.finishes_eq] at done
    rw [h.attempt_eq, h.performed_eq]
    exact ⟨_, todo, .executes now transport running waits done, h.stepDedicated_of_ne hid⟩
  | dispatches transport running waits done =>
    have hid := h.ne_of_dedicated? transport
    rw [h.dedicated?_eq hid] at transport
    rw [h.finishes_eq] at done
    rw [h.performed_eq]
    exact ⟨_, todo, .dispatches transport running waits done, h.stepDedicated_of_ne hid⟩
  | @runs q p before after task now pool tasks inTurn done =>
    by_cases hq : q = k
    · subst hq
      obtain rfl := inTurn rfl
      exact h.exists_of_runs pool tasks now done
    · rw [h.pool q hq] at pool
      obtain ⟨hacts, htwins⟩ := h.runs hq pool tasks now
      rw [h.finishes_eq, hacts] at done
      rw [h.performed_eq, hacts]
      exact ⟨_, todo, .runs now pool tasks inTurn done, htwins⟩

/-- Whatever runs in turn where the transport is on the pool can run where it has a worker of its own,
and the same comes of it. -/
theorem exists_of_runsInTurn (h : d.Twins s x k alone todo) (run : s.RunsInTurn k events s') :
    ∃ d' todo', d.RunsInTurn k events d' ∧ d'.Twins s' x k alone todo' := by
  induction run generalizing d todo with
  | refl net => exact ⟨d, todo, .refl d, h⟩
  | head first run ih =>
    obtain ⟨d₁, todo₁, hfirst, htwins⟩ := h.exists_of_worksInTurn first
    obtain ⟨d', todo', hrun, htwins'⟩ := ih htwins
    exact ⟨d', todo', .head hfirst hrun, htwins'⟩

/-- Twins rest together. -/
theorem rests_iff (h : d.Twins s x k alone todo) : s.Rests ↔ d.Rests := by
  obtain ⟨n, t, g, p, p', htwin⟩ := h.twin
  have hidle := htwin.shadows.tasks_eq_nil_iff
  constructor
  · intro rests
    obtain ⟨hothers, hsends, hin⟩ := hidle.mp (rests.pool k p' htwin.pool')
    refine ⟨fun j l link => rests.link j l (h.link?_eq.trans link), fun id t' transport running => ?_,
      fun q p₀ pool => ?_⟩
    · by_cases hid : id = x
      · subst hid
        cases htwin.transport.symm.trans transport
        exact ⟨htwin.shadows.outgoing.trans hsends, hin⟩
      · exact rests.transport id t' ((h.dedicated?_eq hid).trans transport) running
    · by_cases hq : q = k
      · subst hq
        cases htwin.pool.symm.trans pool
        exact hothers
      · exact rests.pool q p₀ ((h.pool q hq).trans pool)
  · intro rests
    obtain ⟨hout, hin⟩ := rests.transport x t htwin.transport htwin.shadows.running
    refine ⟨fun j l link => rests.link j l (h.link?_eq.symm.trans link),
      fun id t' transport running => ?_, fun q p₀ pool => ?_⟩
    · have hid := h.ne_of_dedicated? transport
      exact rests.transport id t' ((h.dedicated?_eq hid).symm.trans transport) running
    · by_cases hq : q = k
      · subst hq
        cases htwin.pool'.symm.trans pool
        exact hidle.mpr ⟨rests.pool q p htwin.pool, htwin.shadows.outgoing.symm.trans hout, hin⟩
      · exact rests.pool q p₀ ((h.pool q hq).symm.trans pool)

/-- At rest no send waits. -/
theorem todo_eq_nil (h : d.Twins s x k alone todo) (rests : s.Rests) : todo = [] := by
  obtain ⟨n, t, g, p, p', htwin⟩ := h.twin
  exact (htwin.shadows.tasks_eq_nil_iff.mp (rests.pool k p' htwin.pool')).2.1

end Twins

end Network

end Fieldbus
