import Fieldbus.Proofs.TaskOrder

/-!
# Twins

Two networks differ at one node alone: in the first its transport has a worker of its own, in the
second a pool works for it. What waits for the worker in the first network waits on the pool in the
second, in the same order, among the jobs of other nodes (`Network.Twins`). Main statements: events and
acts keep networks twins (`Twins.applyAll`, `Twins.performAll`), and so does the transport when it is
handed something, or a job of it is taken, on both sides (`Twins.replace`).
-/

namespace Fieldbus

/-- What waits for a transport with a worker of its own also waits on a pool, in the same order, next
to what other nodes have waiting there.

`p` is the pool without the transport and `p'` the pool with it. Sends wait in front of deliveries;
those that wait are `todo`. -/
structure Shadows (x : NodeId) (alone : Prop) (todo : List Outgoing) (g : Nat) (t : Dedicated)
    (p p' : Pool) : Prop where
  /-- The worker runs. -/
  running : t.running = true
  /-- The transport has not been terminated. -/
  opened : t.closed = false
  /-- The sends that wait. -/
  outgoing : t.outgoing.toList = todo
  /-- The executors that the transport has joined on the pool exist. -/
  executors : p'.executors = some g
  /-- Other nodes have joined no others. -/
  single : ∀ g' ∈ p.executors, g' = g
  /-- The jobs of other nodes wait as they do without the transport. -/
  others : p'.tasks.toList.filter (fun task => task.owner != x) = p.tasks.toList
  /-- The jobs of the node wait as they do for its worker. -/
  own : p'.tasks.toList.filter (fun task => task.owner == x) =
    (todo.map Job.execute ++ t.incoming.toList.map Job.dispatch).map (Task.mk x)
  /-- No other node has joined the pool, if the transport is to be alone. -/
  solitary : alone → p.executors = none ∧ p.tasks.toList = []

namespace Shadows

variable {x : NodeId} {alone : Prop} {todo : List Outgoing} {g : Nat} {t : Dedicated} {p p' : Pool}

/-- Nothing waits on the pool exactly if nothing waits for the worker and no other node has a job
there. -/
theorem tasks_eq_nil_iff (h : Shadows x alone todo g t p p') : p'.tasks.toList = [] ↔
    p.tasks.toList = [] ∧ todo = [] ∧ t.incoming.toList = [] := by
  constructor
  · intro hnone
    have hothers := h.others
    have hown := h.own
    rw [hnone, List.filter_nil] at hothers hown
    have hempty := hown.symm
    simp only [List.map_eq_nil_iff, List.append_eq_nil_iff] at hempty
    exact ⟨hothers.symm, hempty⟩
  · rintro ⟨hothers, rfl, hin⟩
    have hother := h.others
    have hown := h.own
    rw [hothers, List.filter_eq_nil_iff] at hother
    rw [hin, List.map_nil, List.map_nil, List.append_nil, List.map_nil, List.filter_eq_nil_iff] at hown
    refine List.eq_nil_iff_forall_not_mem.mpr fun task htask => hown task htask ?_
    have hsame := hother task htask
    rwa [bne, Bool.not_eq_true', Bool.not_eq_false] at hsame

variable {after : List Task}

/-- The oldest job on the pool is the node's own and a send waits: it is the oldest send. -/
theorem execute {o : Outgoing} {rest : List Outgoing} {job : Job}
    (h : Shadows x alone (o :: rest) g t p p') (tasks : p'.tasks.toList = ⟨x, job⟩ :: after)
    (d : Dispatcher) : job = .execute o ∧ Shadows x alone rest g
      { t with dispatcher := d, outgoing := ⟨rest⟩ } p { p' with tasks := ⟨after⟩ } := by
  have hothers := h.others
  have hown := h.own
  rw [tasks, List.filter_cons_of_neg (by simp)] at hothers
  rw [tasks, List.filter_cons_of_pos (by simp), List.map_cons, List.cons_append, List.map_cons,
    List.cons.injEq, Task.mk.injEq] at hown
  obtain ⟨⟨-, hjob⟩, hrest⟩ := hown
  exact ⟨hjob, { h with outgoing := rfl, others := hothers, own := hrest }⟩

/-- The oldest job on the pool is the node's own and no send waits: it is the oldest delivery. -/
theorem dispatch {job : Job} (h : Shadows x alone [] g t p p')
    (tasks : p'.tasks.toList = ⟨x, job⟩ :: after) : ∃ e rest, t.incoming.toList = e :: rest ∧
      job = .dispatch e ∧ ∀ d : Dispatcher, Shadows x alone [] g
        { t with dispatcher := d, incoming := ⟨rest⟩ } p { p' with tasks := ⟨after⟩ } := by
  have hothers := h.others
  have hown := h.own
  rw [tasks, List.filter_cons_of_neg (by simp)] at hothers
  rw [tasks, List.filter_cons_of_pos (by simp), List.map_nil, List.nil_append] at hown
  cases hin : t.incoming.toList with
  | nil =>
    rw [hin] at hown
    cases hown
  | cons e rest =>
    rw [hin, List.map_cons, List.map_cons, List.cons.injEq, Task.mk.injEq] at hown
    obtain ⟨⟨-, hjob⟩, hrest⟩ := hown
    exact ⟨e, rest, rfl, hjob, fun d => { h with others := hothers, own := hrest }⟩

/-- The oldest job on the pool is another node's: it is so without the transport. -/
theorem other {task : Task} (h : Shadows x alone todo g t p p')
    (tasks : p'.tasks.toList = task :: after) (hne : task.owner ≠ x) :
    ∃ rest, p.tasks.toList = task :: rest ∧ Shadows x alone todo g t { p with tasks := ⟨rest⟩ }
      { p' with tasks := ⟨after⟩ } := by
  have hothers := h.others
  have hown := h.own
  rw [tasks, List.filter_cons_of_pos (by simpa using hne)] at hothers
  rw [tasks, List.filter_cons_of_neg (by simpa using hne)] at hown
  refine ⟨_, hothers.symm, { h with others := rfl, own := hown, solitary := fun halone => ?_ }⟩
  have hnone := (h.solitary halone).2
  rw [← hothers] at hnone
  cases hnone

end Shadows

namespace Network

/-- A transport with a worker of its own in one network and its twin on a pool in the other. -/
structure Twin (d s : Network) (x : NodeId) (k : PoolId) (alone : Prop) (todo : List Outgoing)
    (n : Node) (t : Dedicated) (g : Nat) (p p' : Pool) : Prop where
  /-- The node in the first network. -/
  node : d.node? x = some n
  /-- Its transport has a worker of its own. -/
  consumer : n.consumer = some (.dedicated t)
  /-- The node in the second network is the same but for its transport, which is on the pool. -/
  twin : s.node? x = some
    { n with consumer := some (.shared k { dispatcher := t.dispatcher, executors := some g }) }
  /-- The pool without the transport. -/
  pool : d.pool? k = some p
  /-- The pool with the transport. -/
  pool' : s.pool? k = some p'
  /-- The same waits in both networks. -/
  shadows : Shadows x alone todo g t p p'

/-- Two networks differ at one node alone, whose transport has a worker of its own in the first and is
on a pool in the second. -/
structure Twins (d s : Network) (x : NodeId) (k : PoolId) (alone : Prop) (todo : List Outgoing) :
    Prop where
  /-- The links are the same. -/
  links : s.links = d.links
  /-- The other nodes are the same. -/
  node : ∀ id, id ≠ x → s.node? id = d.node? id
  /-- The other pools are the same. -/
  pool : ∀ q, q ≠ k → s.pool? q = d.pool? q
  /-- No job of the node waits on another pool. -/
  elsewhere : ∀ q p, q ≠ k → d.pool? q = some p → ∀ task ∈ p.tasks.toList, task.owner ≠ x
  /-- The other nodes have joined no executors of the pool that do not exist. -/
  current : ∀ id n t g, id ≠ x → d.node? id = some n → n.consumer = some (.shared k t) →
    t.executors = some g → (d.pool? k).bind Pool.executors = some g
  /-- The transport has a twin. -/
  twin : ∃ n t g p p', Twin d s x k alone todo n t g p p'

variable {d s : Network} {x id : NodeId} {k q : PoolId} {alone : Prop} {todo : List Outgoing}

theorem pool?_modifyPool (net : Network) (q q' : PoolId) (f : Pool → Pool) :
    (net.modifyPool q f).pool? q' = if q' = q then (net.pool? q').map f else net.pool? q' := by
  simp only [pool?, modifyPool, List.getElem?_modify]
  by_cases h : q' = q
  · subst h
    cases net.pools[q']? <;> simp
  · have h' : ¬ q = q' := fun he => h he.symm
    cases net.pools[q']? <;> simp [h, h']

theorem node?_setConsumer {n : Node} (hn : d.node? x = some n) (c : Option Consumer) :
    (d.setConsumer x c).node? x = some { n with consumer := c } := by
  rw [setConsumer, node?_modifyNode, if_pos rfl, hn, Option.map_some]

theorem Twin.transport {n : Node} {t : Dedicated} {g : Nat} {p p' : Pool}
    (twin : Twin d s x k alone todo n t g p p') : d.dedicated? x = some t :=
  dedicated?_eq_some_iff.mpr ⟨n, twin.node, twin.consumer⟩

theorem Twin.transport' {n : Node} {t : Dedicated} {g : Nat} {p p' : Pool}
    (twin : Twin d s x k alone todo n t g p p') :
    s.shared? x = some (k, { dispatcher := t.dispatcher, executors := some g }) :=
  shared?_eq_some_iff.mpr ⟨_, twin.twin, rfl⟩

namespace Twins

/-! ## What twins have in common -/

theorem directory_eq (h : d.Twins s x k alone todo) : s.directory = d.directory := by
  obtain ⟨n, t, g, p, p', htwin⟩ := h.twin
  funext id
  by_cases he : id = x
  · rw [he, directory, directory, htwin.node, htwin.twin]
    rfl
  · rw [directory, directory, h.node id he]

theorem isAlive_eq (h : d.Twins s x k alone todo) : s.isAlive = d.isAlive := by
  have halive : ∀ net : Network, net.isAlive = fun id => (net.directory id).isSome := by
    intro net
    funext id
    simp [isAlive, directory]
  rw [halive, halive, h.directory_eq]

theorem link?_eq (h : d.Twins s x k alone todo) {j : LinkId} : s.link? j = d.link? j :=
  congrArg (fun links => links[j]?) h.links

theorem attempt_eq (h : d.Twins s x k alone todo) : s.attempt id = d.attempt id := by
  funext msg
  rw [attempt, attempt, member?, member?, h.directory_eq]

theorem dedicated?_eq (h : d.Twins s x k alone todo) (hid : id ≠ x) :
    s.dedicated? id = d.dedicated? id := by rw [dedicated?, dedicated?, h.node id hid]

/-- Whoever has a worker of its own in the second network is another node. -/
theorem ne_of_dedicated? (h : d.Twins s x k alone todo) {t : Dedicated}
    (transport : s.dedicated? id = some t) : id ≠ x := by
  rintro rfl
  obtain ⟨n, t, g, p, p', htwin⟩ := h.twin
  obtain ⟨n', hn', hc⟩ := dedicated?_eq_some_iff.mp transport
  cases hn'.symm.trans htwin.twin
  cases hc

theorem shared?_eq (h : d.Twins s x k alone todo) (hid : id ≠ x) :
    s.shared? id = d.shared? id := by rw [shared?, shared?, h.node id hid]

/-! ## Changes on both sides -/

theorem modifyLink (h : d.Twins s x k alone todo) (link : LinkId) (f : Link → Link) :
    (d.modifyLink link f).Twins (s.modifyLink link f) x k alone todo where
  links := congrArg (fun links => links.modify link f) h.links
  node := h.node
  pool := h.pool
  elsewhere := h.elsewhere
  current := h.current
  twin := by
    obtain ⟨n, t, g, p, p', htwin⟩ := h.twin
    exact ⟨n, t, g, p, p', { htwin with }⟩

/-- Another node is changed; if it is on the pool then on the executors that exist. -/
theorem modifyNode_of_ne (h : d.Twins s x k alone todo) (hid : id ≠ x) {f : Node → Node}
    (current : ∀ n t g, d.node? id = some n → (f n).consumer = some (.shared k t) →
      t.executors = some g → (d.pool? k).bind Pool.executors = some g) :
    (d.modifyNode id f).Twins (s.modifyNode id f) x k alone todo where
  links := h.links
  node id' hid' := by rw [node?_modifyNode, node?_modifyNode, h.node id' hid']
  pool := h.pool
  elsewhere := h.elsewhere
  current id' n' t g hid' hn' hc hg := by
    rw [node?_modifyNode] at hn'
    split at hn'
    · rename_i he
      subst he
      obtain ⟨n, hn, rfl⟩ := Option.map_eq_some_iff.mp hn'
      exact current n t g hn hc hg
    · exact h.current id' n' t g hid' hn' hc hg
  twin := by
    obtain ⟨n, t, g, p, p', htwin⟩ := h.twin
    refine ⟨n, t, g, p, p', { htwin with node := ?_, twin := ?_ }⟩
    · rw [node?_modifyNode, if_neg (Ne.symm hid), htwin.node]
    · rw [node?_modifyNode, if_neg (Ne.symm hid), htwin.twin]

/-- A node is changed in a way that its consumer is no matter of. -/
theorem modifyNode (h : d.Twins s x k alone todo) (id : NodeId) {f : Node → Node}
    (blind : ∀ n c, f { n with consumer := c } = { f n with consumer := c }) :
    (d.modifyNode id f).Twins (s.modifyNode id f) x k alone todo := by
  have hconsumer : ∀ n, (f n).consumer = n.consumer := fun n =>
    (congrArg Node.consumer (blind n n.consumer) :)
  by_cases hid : id = x
  · subst hid
    refine ⟨h.links, fun id' hid' => ?_, h.pool, h.elsewhere, fun id' n' t g hid' hn' hc hg => ?_, ?_⟩
    · rw [node?_modifyNode, node?_modifyNode, h.node id' hid']
    · rw [node?_modifyNode, if_neg hid'] at hn'
      exact h.current id' n' t g hid' hn' hc hg
    · obtain ⟨n, t, g, p, p', htwin⟩ := h.twin
      refine ⟨f n, t, g, p, p', { htwin with node := ?_, consumer := ?_, twin := ?_ }⟩
      · rw [node?_modifyNode, if_pos rfl, htwin.node, Option.map_some]
      · rw [hconsumer, htwin.consumer]
      · rw [node?_modifyNode, if_pos rfl, htwin.twin, Option.map_some, blind]
  · refine h.modifyNode_of_ne hid fun n t g hn hc hg => ?_
    rw [hconsumer] at hc
    exact h.current id n t g hid hn hc hg

/-- Another pool is changed. -/
theorem modifyPool_of_ne (h : d.Twins s x k alone todo) (hq : q ≠ k) {f : Pool → Pool}
    (elsewhere : ∀ p, d.pool? q = some p → ∀ task ∈ (f p).tasks.toList, task.owner ≠ x) :
    (d.modifyPool q f).Twins (s.modifyPool q f) x k alone todo where
  links := h.links
  node := h.node
  pool q' hq' := by rw [pool?_modifyPool, pool?_modifyPool, h.pool q' hq']
  elsewhere q' p' hq' hp' := by
    rw [pool?_modifyPool] at hp'
    split at hp'
    · rename_i he
      subst he
      obtain ⟨p, hp, rfl⟩ := Option.map_eq_some_iff.mp hp'
      exact elsewhere p hp
    · exact h.elsewhere q' p' hq' hp'
  current id' n' t g hid' hn' hc hg := by
    rw [pool?_modifyPool, if_neg (Ne.symm hq)]
    exact h.current id' n' t g hid' hn' hc hg
  twin := by
    obtain ⟨n, t, g, p, p', htwin⟩ := h.twin
    refine ⟨n, t, g, p, p', { htwin with pool := ?_, pool' := ?_ }⟩
    · rw [pool?_modifyPool, if_neg (Ne.symm hq), htwin.pool]
    · rw [pool?_modifyPool, if_neg (Ne.symm hq), htwin.pool']

/-- The pool is changed on both sides, which has the executors it had. -/
theorem modifyPool (h : d.Twins s x k alone todo) {n : Node} {t : Dedicated} {g : Nat} {p p' : Pool}
    (twin : Twin d s x k alone todo n t g p p') {f f' : Pool → Pool}
    (executors : (f p).executors = p.executors) (shadows : Shadows x alone todo g t (f p) (f' p')) :
    (d.modifyPool k f).Twins (s.modifyPool k f') x k alone todo where
  links := h.links
  node := h.node
  pool q' hq' := by
    rw [pool?_modifyPool, pool?_modifyPool, if_neg hq', if_neg hq', h.pool q' hq']
  elsewhere q' p' hq' hp' := by
    rw [pool?_modifyPool, if_neg hq'] at hp'
    exact h.elsewhere q' p' hq' hp'
  current id' n' t' g' hid' hn' hc hg := by
    have hcurrent := h.current id' n' t' g' hid' hn' hc hg
    rw [twin.pool] at hcurrent
    rw [pool?_modifyPool, if_pos rfl, twin.pool]
    exact executors.trans hcurrent
  twin := by
    refine ⟨n, t, g, f p, f' p', { twin with pool := ?_, pool' := ?_, shadows := shadows }⟩
    · rw [pool?_modifyPool, if_pos rfl, twin.pool, Option.map_some]
    · rw [pool?_modifyPool, if_pos rfl, twin.pool', Option.map_some]

/-- The transport is replaced on both sides, and the pool that the second one is on. -/
theorem replace (h : d.Twins s x k alone todo) {n : Node} {t t' : Dedicated} {g : Nat} {p p' : Pool}
    (twin : Twin d s x k alone todo n t g p p') {f : Pool → Pool} {todo' : List Outgoing}
    (shadows : Shadows x alone todo' g t' p (f p')) :
    (d.setConsumer x (some (.dedicated t'))).Twins ((s.modifyPool k f).setConsumer x
      (some (.shared k { dispatcher := t'.dispatcher, executors := some g }))) x k alone todo' where
  links := h.links
  node id' hid' := by
    rw [setConsumer, setConsumer, node?_modifyNode, node?_modifyNode, if_neg hid', if_neg hid']
    exact h.node id' hid'
  pool q' hq' := by
    show (s.modifyPool k f).pool? q' = d.pool? q'
    rw [pool?_modifyPool, if_neg hq', h.pool q' hq']
  elsewhere := h.elsewhere
  current id' n' t g hid' hn' hc hg := by
    rw [setConsumer, node?_modifyNode, if_neg hid'] at hn'
    exact h.current id' n' t g hid' hn' hc hg
  twin := by
    refine ⟨{ n with consumer := some (.dedicated t') }, t', g, p, f p', ?_⟩
    refine ⟨?_, rfl, ?_, twin.pool, ?_, shadows⟩
    · exact node?_setConsumer twin.node _
    · have hnode : (s.modifyPool k f).node? x = s.node? x := rfl
      exact node?_setConsumer (hnode.trans twin.twin) _
    · show (s.modifyPool k f).pool? k = some (f p')
      rw [pool?_modifyPool, if_pos rfl, twin.pool', Option.map_some]

/-! ## Events -/

theorem count (h : d.Twins s x k alone todo) (id : NodeId) (f : FrameCounts → FrameCounts) :
    (d.count id f).Twins (s.count id f) x k alone todo :=
  h.modifyNode id fun _ _ => rfl

/-- Another node has a job queued, on the executors that it has joined. -/
theorem spawn_of_ne (h : d.Twins s x k alone todo) (hid : id ≠ x) {job : Nat × Job}
    (current : q = k → (d.pool? k).bind Pool.executors = some job.1) :
    (d.spawn q id job).Twins (s.spawn q id job) x k alone todo := by
  by_cases hq : q = k
  · subst hq
    obtain ⟨n, t, g, p, p', htwin⟩ := h.twin
    have hp : p.executors = some job.1 := by
      have hcurrent := current rfl
      rwa [htwin.pool] at hcurrent
    have hp' : p'.executors = some job.1 := by
      rw [htwin.shadows.executors, htwin.shadows.single job.1 hp]
    have hspawn : p.spawn job.1 ⟨id, job.2⟩ = { p with tasks := p.tasks.push ⟨id, job.2⟩ } := if_pos hp
    have hspawn' : p'.spawn job.1 ⟨id, job.2⟩ = { p' with tasks := p'.tasks.push ⟨id, job.2⟩ } :=
      if_pos hp'
    refine h.modifyPool htwin (by rw [hspawn]) ?_
    rw [hspawn, hspawn']
    have hother : (id == x) = false := beq_false_of_ne hid
    refine { htwin.shadows with others := ?_, own := ?_, solitary := fun halone => ?_ }
    · rw [Mailbox.toList_push, List.filter_append, htwin.shadows.others, Mailbox.toList_push]
      simp [hid]
    · rw [Mailbox.toList_push, List.filter_append, htwin.shadows.own]
      simp [hother]
    · cases (htwin.shadows.solitary halone).1.symm.trans hp
  · refine h.modifyPool_of_ne hq fun p hp task htask => ?_
    unfold Pool.spawn at htask
    split at htask
    · rw [Mailbox.toList_push, List.mem_append, List.mem_singleton] at htask
      rcases htask with htask | rfl
      · exact h.elsewhere q p hq hp task htask
      · exact hid
    · exact h.elsewhere q p hq hp task htask

/-- The consumer of another node is handed an envelope. -/
theorem consume_of_ne (h : d.Twins s x k alone todo) (hid : id ≠ x) {n : Node} {c : Consumer}
    (hn : d.node? id = some n) (hc : n.consumer = some c) (e : Envelope) :
    (d.consume id e c).Twins (s.consume id e c) x k alone todo := by
  cases c with
  | collector items => exact h.modifyNode id fun _ _ => rfl
  | dedicated t => exact h.modifyNode_of_ne hid fun _ _ _ _ hshared _ => by cases hshared
  | shared q t =>
    simp only [consume, Shared.deliver]
    cases hg : t.executors with
    | none => exact h
    | some g =>
      refine h.spawn_of_ne hid fun hq => ?_
      subst hq
      exact h.current id n t g hid hn hc hg

/-- The transport has a job queued. -/
theorem spawn (h : d.Twins s x k alone todo) {n : Node} {t t' : Dedicated} {g : Nat} {p p' : Pool}
    (twin : Twin d s x k alone todo n t g p p') {todo' : List Outgoing} {job : Job}
    (dispatcher : t'.dispatcher = t.dispatcher)
    (shadows : Shadows x alone todo' g t' p { p' with tasks := p'.tasks.push ⟨x, job⟩ }) :
    (d.setConsumer x (some (.dedicated t'))).Twins (s.spawn k x (g, job)) x k alone todo' := by
  have hspawn : p'.spawn g ⟨x, job⟩ = { p' with tasks := p'.tasks.push ⟨x, job⟩ } :=
    if_pos twin.shadows.executors
  rw [← hspawn] at shadows
  have hreplace := h.replace twin (f := fun p => p.spawn g ⟨x, job⟩) shadows
  have hkept : (s.modifyPool k fun p => p.spawn g ⟨x, job⟩).setConsumer x
      (some (.shared k { dispatcher := t.dispatcher, executors := some g })) =
      s.modifyPool k fun p => p.spawn g ⟨x, job⟩ := by
    have hnode : (s.modifyPool k fun p => p.spawn g ⟨x, job⟩).node? x = s.node? x := rfl
    exact setConsumer_self (hnode.trans twin.twin) rfl
  rw [dispatcher, hkept] at hreplace
  exact hreplace

/-- The transport is handed an envelope. -/
theorem consume (h : d.Twins s x k alone todo) {n : Node} {t : Dedicated} {g : Nat} {p p' : Pool}
    (twin : Twin d s x k alone todo n t g p p') (e : Envelope) :
    (d.consume x e (.dedicated t)).Twins
      (s.consume x e (.shared k { dispatcher := t.dispatcher, executors := some g })) x k alone todo := by
  have hdeliver : t.deliver e = { t with incoming := t.incoming.push e } := by
    rw [Dedicated.deliver, twin.shadows.opened]
    rfl
  rw [Network.consume, hdeliver]
  refine h.spawn twin rfl { twin.shadows with others := ?_, own := ?_ }
  · rw [Mailbox.toList_push, List.filter_append, twin.shadows.others]
    simp
  · rw [Mailbox.toList_push, List.filter_append, twin.shadows.own, Mailbox.toList_push]
    simp

theorem arrive (h : d.Twins s x k alone todo) (id : NodeId) (e : Envelope) :
    (d.arrive id e).Twins (s.arrive id e) x k alone todo := by
  have hcounted : ∀ f, (d.count id f).Twins (s.count id f) x k alone todo := h.count id
  have hnode : ∀ {net : Network} {n : Node}, net.node? id = some n →
      (net.count id fun c => { c with delivered := c.delivered + 1 }).node? id =
        some { n with counts := { n.counts with delivered := n.counts.delivered + 1 } } := by
    intro net n hn
    rw [Network.count, node?_modifyNode, if_pos rfl, hn, Option.map_some]
  unfold Network.arrive
  by_cases hid : id = x
  · subst hid
    obtain ⟨n, t, g, p, p', htwin⟩ := h.twin
    rw [htwin.node, htwin.twin, Option.bind_some, Option.bind_some, htwin.consumer]
    have htwin' : Twin (d.count id fun c => { c with delivered := c.delivered + 1 })
        (s.count id fun c => { c with delivered := c.delivered + 1 }) id k alone todo
        { n with counts := { n.counts with delivered := n.counts.delivered + 1 } } t g p p' :=
      ⟨hnode htwin.node, htwin.consumer, hnode htwin.twin, htwin.pool, htwin.pool', htwin.shadows⟩
    exact (hcounted _).consume htwin' e
  · rw [h.node id hid]
    cases hn : d.node? id with
    | none => exact hcounted _
    | some n =>
      rw [Option.bind_some]
      cases hc : n.consumer with
      | none => exact hcounted _
      | some c => exact (hcounted _).consume_of_ne hid (hnode hn) hc e

theorem transmit (h : d.Twins s x k alone todo) (id : NodeId) (t : Transmission) :
    (d.transmit id t).Twins (s.transmit id t) x k alone todo := by
  have hsame : (s.node? id).map (fun n => (n.medium, n.station)) =
      (d.node? id).map fun n => (n.medium, n.station) := by
    by_cases hid : id = x
    · obtain ⟨n, t, g, p, p', htwin⟩ := h.twin
      rw [hid, htwin.node, htwin.twin]
      rfl
    · rw [h.node id hid]
  unfold Network.transmit
  cases hn : d.node? id with
  | none =>
    rw [hn, Option.map_none, Option.map_eq_none_iff] at hsame
    rw [hsame]
    exact h
  | some n =>
    rw [hn, Option.map_some, Option.map_eq_some_iff] at hsame
    obtain ⟨n', hn', he⟩ := hsame
    rw [Prod.mk.injEq] at he
    obtain ⟨hmedium, hstation⟩ := he
    rw [hn']
    dsimp only
    rw [hmedium, hstation]
    cases n.medium with
    | wire attached sent => exact h.modifyNode id fun _ _ => rfl
    | tap link counts => exact Twins.modifyLink (h.modifyNode id fun _ _ => rfl) link _

/-- An event keeps networks twins. -/
theorem apply (h : d.Twins s x k alone todo) (event : Event) :
    (d.apply event).Twins (s.apply event) x k alone todo := by
  cases event with
  | handed id length =>
    refine h.modifyNode id fun n c => ?_
    cases hm : n.medium <;> simp only [hm]
  | received id => exact h.count id fun c => { c with received := c.received + 1 }
  | dropped id => exact h.count id fun c => { c with dropped := c.dropped + 1 }
  | arrived id e => exact h.arrive id e
  | relayed source target ingress recipient e broadcast =>
    exact h.count source fun c => { c with forwarded := c.forwarded + 1 }
  | transmitted id t => exact h.transmit id t
  | reported id fault =>
    refine h.modifyNode id fun n c => ?_
    cases hk : n.keepsFaults <;> simp [hk]

theorem applyAll (h : d.Twins s x k alone todo) (events : List Event) :
    (d.applyAll events).Twins (s.applyAll events) x k alone todo := by
  induction events generalizing d s with
  | nil => exact h
  | cons event rest ih => exact ih (h.apply event)

/-! ## Acts -/

theorem call (h : d.Twins s x k alone todo) (id : NodeId) (f : Directory → Member → Run) :
    (d.call id f).2.Twins (s.call id f).2 x k alone todo := by
  rw [call_eq_applyAll, call_eq_applyAll, h.directory_eq]
  exact h.applyAll _

theorem perform (h : d.Twins s x k alone todo) (id : NodeId) (act : Act) :
    (d.perform id act).Twins (s.perform id act) x k alone todo := by
  cases act with
  | send msg => exact h.call id _
  | answerRouterQuery e => exact h.call id _
  | answerSegmentQuery e => exact h.call id _
  | learn mac segments => exact h.modifyNode id fun _ _ => rfl
  | note e => exact h.modifyNode id fun _ _ => rfl
  | resolve ticket outcome => exact h.modifyNode id fun _ _ => rfl

/-- Acts keep networks twins. -/
theorem performAll (h : d.Twins s x k alone todo) (id : NodeId) (acts : List Act) :
    (d.performAll id acts).Twins (s.performAll id acts) x k alone todo := by
  induction acts generalizing d s with
  | nil => exact h
  | cons act rest ih => exact ih (h.perform id act)

end Twins

end Network

end Fieldbus
