import Fieldbus.Proofs.Tallies
import Fieldbus.Proofs.Termination

/-!
# What stations account for

A history of a network keeps every scene in it: which station was made to do what, and in which
network (`Network.Chronicle`). Main statements: nodes have counted what happened in the scenes of
their history, and nothing else (`Network.Chronicle.books`), so that every frame is accounted for
(`Network.accounts_for_frames`), and histories go on with whatever workers do
(`Network.Chronicle.step`).
-/

namespace Fieldbus

namespace Network

variable {net net' : Network}

/-- A node has somebody who takes the envelopes for it. -/
def consumes (net : Network) (id : NodeId) : Bool :=
  (net.node? id).any fun n => n.consumer.isSome

end Network

/-! ## Histories -/

namespace Scene

/-- How many frames a given node takes in. -/
def takesIn (id : NodeId) (s : Scene) : Nat := s.events.countP (Event.isReception id)

/-- How many envelopes are handed to the consumer of a given node. -/
def handed (id : NodeId) (s : Scene) : Nat :=
  if s.net.consumes id then (arrivals id s.events).length else 0

/-- How many calls a given node makes to hand an envelope on to a neighbor. -/
def handsOn (id : NodeId) (s : Scene) : Nat := s.events.countP (Event.isForward id)

/-- How much is discarded at a given node: frames, and envelopes that nobody takes. -/
def discards (id : NodeId) (s : Scene) : Nat :=
  s.events.countP (Event.isDrop id) +
    if s.net.consumes id then 0 else (arrivals id s.events).length

end Scene

/-- What a node counts in the scenes of a history. -/
def tallied (id : NodeId) (past : List Scene) : FrameCounts where
  received := (past.map (Scene.takesIn id)).sum
  delivered := (past.map (Scene.handed id)).sum
  forwarded := (past.map (Scene.handsOn id)).sum
  dropped := (past.map (Scene.discards id)).sum

/-- What a station is made to do by an act of its transport. -/
def Act.summons? : Act → Option Summons
  | .send msg => some (.send msg)
  | .answerRouterQuery query => some (.answerRouterQuery query)
  | .answerSegmentQuery query => some (.answerSegmentQuery query)
  | _ => none

namespace Network

/-- The station of a node is made to do something, unless the node is gone. -/
def scene? (net : Network) (id : NodeId) (summons : Summons) : Option Scene :=
  (net.member? id).map fun m => ⟨net, m, summons⟩

/-- The scenes while that is done which the transport of a node wants done. -/
def errands (net : Network) (id : NodeId) : List Act → List Scene
  | [] => []
  | act :: rest => (act.summons?.bind (net.scene? id)).toList ++ (net.perform id act).errands id rest

/-- The scenes while a link hands a frame to stations, one after the other. -/
def hearings (net : Network) (f : LinkFrame) : List NodeId → List Scene
  | [] => []
  | id :: rest =>
    let net := net.apply (.handed id f.data.length)
    (net.scene? id (.receive f.data f.origin)).toList ++
      (net.receive id f.data f.origin).2.hearings f rest

/-- What becomes of the transport of a node in one step, and what it wants done. -/
inductive Attends (net : Network) (id : NodeId) : Consumer → List Act → Prop
  /-- A transport with a worker executes a send. -/
  | executes {t : Dedicated} (transport : net.dedicated? id = some t) (now : Nat) :
      Attends net id (.dedicated (t.executeNext (net.attempt id) now).1)
        (t.executeNext (net.attempt id) now).2
  /-- A transport with a worker dispatches an envelope. -/
  | dispatches {t : Dedicated} (transport : net.dedicated? id = some t) :
      Attends net id (.dedicated t.dispatchNext.1) t.dispatchNext.2
  /-- A transport with a worker fails the requests that are overdue. -/
  | sweeps {t : Dedicated} (transport : net.dedicated? id = some t) (now : Nat) :
      Attends net id (.dedicated (t.sweep now).1) (t.sweep now).2
  /-- A transport on a pool does a job. -/
  | runs {pool : PoolId} {t : Shared} (transport : net.shared? id = some (pool, t)) (now : Nat)
      (job : Job) :
      Attends net id (.shared pool (t.run (net.attempt id) now job).1)
        (t.run (net.attempt id) now job).2
  /-- A transport on a pool fails the requests that are overdue. -/
  | expires {pool : PoolId} {t : Shared} (transport : net.shared? id = some (pool, t)) (now : Nat) :
      Attends net id (.shared pool (t.sweep now).1) (t.sweep now).2

/-- The network has come to be from nothing, and these are the scenes so far, the oldest first. -/
inductive Chronicle : List Scene → Network → Prop
  /-- There is nothing at first. -/
  | empty : Chronicle [] {}
  /-- Somebody outside uses the network. -/
  | uses {past : List Scene} {net net' : Network} (h : Chronicle past net) (uses : net.Uses net') :
      Chronicle past net'
  /-- A station learns routers. -/
  | learns {past : List Scene} {net : Network} (h : Chronicle past net) (id : NodeId) (mac : Bytes)
      (segments : List Segment) : Chronicle past (net.learn id mac segments)
  /-- An envelope is handed straight to the consumer of a node. -/
  | delivers {past : List Scene} {net : Network} (h : Chronicle past net) (id : NodeId)
      (e : Envelope) : Chronicle past (net.deliver id e)
  /-- A station is made to do something. -/
  | summoned {past : List Scene} {net : Network} (h : Chronicle past net) (id : NodeId)
      (summons : Summons) : Chronicle (past ++ (net.scene? id summons).toList)
        (net.call id fun d m => summons.run d m).2
  /-- A link hands out its oldest frame, to its recipients in some order. -/
  | handsOut {past : List Scene} {net : Network} {k : LinkId} {l : Link} {f : LinkFrame}
      {queue : Mailbox LinkFrame} {order : List NodeId} (h : Chronicle past net)
      (link : net.link? k = some l) (pop : l.queue.pop = some (f, queue))
      (recipients : order.Perm (l.recipients net.isAlive f)) :
      Chronicle (past ++ (net.modifyLink k fun l => { l with queue }).hearings f order)
        ((net.modifyLink k fun l => { l with queue }).applyAll
          (order.flatMap (net.directory.handing f)))
  /-- A transport does a step, and all that it wants done is done. -/
  | attends {past : List Scene} {net : Network} {id : NodeId} {c : Consumer} {acts : List Act}
      (h : Chronicle past net) (attends : net.Attends id c acts) :
      Chronicle (past ++ (net.setConsumer id (some c)).errands id acts)
        ((net.setConsumer id (some c)).performAll id acts)
  /-- A pool gives a job away. -/
  | takes {past : List Scene} {net : Network} {k : PoolId} {p : Pool} {before after : List Task}
      {task : Task} (h : Chronicle past net) (hp : net.pool? k = some p)
      (tasks : p.tasks.toList = before ++ task :: after) :
      Chronicle past (net.modifyPool k fun p => { p with tasks := ⟨before ++ after⟩ })

/-- A history goes on with whatever workers do. -/
theorem Chronicle.step {past : List Scene} (h : Chronicle past net) (step : net.Step net') :
    ∃ more, Chronicle (past ++ more) net' := by
  cases step with
  | handsOut handsOut =>
    cases handsOut with
    | intro link _ pop recipients => exact ⟨_, h.handsOut link pop recipients⟩
  | executes now transport =>
    have hstep := h.attends (.executes transport now)
    simp only [stepDedicated, transport]
    exact ⟨_, hstep⟩
  | dispatches transport =>
    have hstep := h.attends (.dispatches transport)
    simp only [stepDedicated, transport]
    exact ⟨_, hstep⟩
  | sweeps now transport =>
    have hstep := h.attends (.sweeps transport now)
    simp only [stepDedicated, transport]
    exact ⟨_, hstep⟩
  | @runs k p before after task now hp tasks =>
    have htaken := h.takes hp tasks
    cases transport : (net.modifyPool k fun p => { p with tasks := ⟨before ++ after⟩ }).shared?
        task.owner with
    | none =>
      simp only [doTask, transport]
      exact ⟨[], by rw [List.append_nil]; exact htaken⟩
    | some joined =>
      have hstep := htaken.attends (.runs transport now task.job)
      simp only [doTask, transport]
      exact ⟨_, hstep⟩

end Network

/-! ## Books -/

namespace Scene

variable {s : Scene} {id : NodeId}

/-- A node at which nothing happens counts nothing. -/
theorem tallied_eq_zero (h : ∀ event ∈ s.events, event.place ≠ id) :
    s.takesIn id = 0 ∧ s.handed id = 0 ∧ s.handsOn id = 0 ∧ s.discards id = 0 := by
  obtain ⟨hreception, harrival, hforward, hdrop⟩ := of_not_isCounted fun event he _ => h event he
  refine ⟨hreception, ?_, hforward, ?_⟩
  · rw [handed, harrival, ite_self]
  · rw [discards, harrival, hdrop, ite_self]

/-- The handling of a frame breaks off only if the node that put it on the medium has a sub-address
that is too long. The frame has been taken in, and nothing else happens. -/
theorem of_breaksOff (h : s.breaksOff id = true) : s.events = [.received id] ∧
    ∃ frame origin, s.summons = .receive frame origin ∧ maxMacLength < origin.length := by
  obtain ⟨net, m, summons⟩ := s
  cases summons with
  | receive frame origin =>
    have hresult : (run ⟨net, m, .receive frame origin⟩).result ≠ .ok () := fun hok => by
      rw [breaksOff, hok] at h
      simp at h
    have hactive : m.station.terminated = false := eq_false_of_ne_true fun ht =>
      hresult (congrArg Run.result (Directory.receive_of_terminated ht frame origin))
    refine ⟨?_, frame, origin, rfl,
      Nat.lt_of_not_le fun hle => hresult (Directory.result_receive hle)⟩
    rw [breaksOff_receive hactive, Bool.and_eq_true, beq_iff_eq] at h
    obtain ⟨rfl, hbroken⟩ := h
    refine (Directory.events_receive hactive frame origin).trans ?_
    cases hfate : net.directory.fate m frame origin with
    | brokenOff overlong => rfl
    | _ =>
      rw [hfate] at hbroken
      cases hbroken
  | _ => cases h

/-- What a node counts in a scene is balanced. -/
theorem balance_tallied (station : s.net.directory s.member.id = some s.member.station)
    (id : NodeId) : s.handed id + s.discards id + (s.passesOn id).toNat + (s.breaksOff id).toNat =
      s.takesIn id + s.spreads id := by
  have hbalance := balance station id
  rw [← length_arrivals] at hbalance
  unfold handed discards takesIn
  split <;> omega

end Scene

theorem tallied_append_singleton (id : NodeId) (past : List Scene) (s : Scene) :
    tallied id (past ++ [s]) = ⟨(tallied id past).received + s.takesIn id,
      (tallied id past).delivered + s.handed id, (tallied id past).forwarded + s.handsOn id,
      (tallied id past).dropped + s.discards id⟩ := by
  simp [tallied]

/-- A node at which nothing has happened has counted nothing. -/
theorem tallied_eq_empty {id : NodeId} {past : List Scene}
    (h : ∀ s ∈ past, ∀ event ∈ s.events, event.place ≠ id) : tallied id past = {} := by
  have hzero : ∀ {f : Scene → Nat}, (∀ s ∈ past, f s = 0) → (past.map f).sum = 0 := fun hf =>
    List.sum_eq_zero fun x hx => by
      obtain ⟨s, hs, rfl⟩ := List.mem_map.mp hx
      exact hf s hs
  unfold tallied
  rw [hzero fun s hs => (Scene.tallied_eq_zero (h s hs)).1,
    hzero fun s hs => (Scene.tallied_eq_zero (h s hs)).2.1,
    hzero fun s hs => (Scene.tallied_eq_zero (h s hs)).2.2.1,
    hzero fun s hs => (Scene.tallied_eq_zero (h s hs)).2.2.2]

/-- What a node counts in a history is balanced. -/
theorem balance_tallied {past : List Scene}
    (station : ∀ s ∈ past, s.net.directory s.member.id = some s.member.station) (id : NodeId) :
    (tallied id past).delivered + (tallied id past).dropped + past.countP (Scene.passesOn id) +
        past.countP (Scene.breaksOff id) =
      (tallied id past).received + (past.map (Scene.spreads id)).sum := by
  induction past with
  | nil => rfl
  | cons s rest ih =>
    obtain ⟨hs, hrest⟩ := List.forall_mem_cons.mp station
    have hfirst := Scene.balance_tallied hs id
    have hlater := ih hrest
    simp only [tallied, List.map_cons, List.sum_cons, List.countP_cons] at hlater ⊢
    cases hpasses : s.passesOn id <;> cases hbreaks : s.breaksOff id <;>
      simp only [hpasses, hbreaks, Bool.toNat_true, Bool.toNat_false, ite_true, ite_false,
        Bool.false_eq_true] at hfirst ⊢ <;> omega

namespace Network

variable {net net' : Network} {past : List Scene}

/-- What nodes have counted is what happened in the scenes of a history. -/
structure Books (past : List Scene) (net : Network) : Prop where
  /-- Nodes have counted what happened to them. -/
  counts : ∀ {id : NodeId} {n : Node}, net.node? id = some n → n.counts = tallied id past
  /-- Nothing has happened to nodes that have yet to be added. -/
  placed : ∀ s ∈ past, ∀ event ∈ s.events, event.place < net.nodes.length
  /-- Stations were those of their networks. -/
  station : ∀ s ∈ past, s.net.directory s.member.id = some s.member.station

namespace Books

theorem empty : Books [] {} where
  counts hn := by simp [node?] at hn
  placed _ h := nomatch h
  station _ h := nomatch h

/-- Books stay right while nothing is counted. -/
theorem keeps (h : Books past net) (keeps : net.KeepsCounts net') : Books past net' where
  counts hn' := by
    rcases keeps.counts hn' with ⟨n, hn, hcounts⟩ | ⟨hle, hnone⟩
    · exact hcounts.trans (h.counts hn)
    · refine hnone.trans (tallied_eq_empty fun s hs event he hplace => ?_).symm
      have hlt := h.placed s hs event he
      exact absurd (hplace ▸ hlt) (Nat.not_lt_of_le hle)
  placed s hs event he := Nat.lt_of_lt_of_le (h.placed s hs event he) keeps.length_le
  station := h.station

/-- Books stay right when a station is made to do something. -/
theorem summoned (h : Books past net) (id : NodeId) (summons : Summons) :
    Books (past ++ (net.scene? id summons).toList)
      (net.call id fun d m => summons.run d m).2 := by
  unfold scene? call
  cases hm : net.member? id with
  | none =>
    rw [Option.map_none, Option.toList_none, List.append_nil]
    exact h
  | some m =>
    obtain ⟨station, hstation, rfl⟩ := Option.map_eq_some_iff.mp hm
    have hentered := enters_applyAll net (summons.run net.directory ⟨id, station⟩).events
    refine ⟨fun {id' n'} hn' => ?_, fun s hs event he => ?_, fun s hs => ?_⟩
    · obtain ⟨n, hn, hcounts, -⟩ := hentered.counts hn'
      have hconsumes : net.consumes id' = n.consumer.isSome := by rw [consumes, hn, Option.any_some]
      refine hcounts.trans ?_
      rw [Option.map_some, Option.toList_some, tallied_append_singleton, ← h.counts hn]
      simp only [Node.after, Scene.takesIn, Scene.handed, Scene.handsOn, Scene.discards, hconsumes,
        Nat.add_assoc]
      rfl
    · rw [hentered.length_eq]
      rcases List.mem_append.mp hs with hs | hs
      · exact h.placed s hs event he
      · obtain rfl := List.mem_singleton.mp hs
        rcases Scene.isActive_place hstation he with ⟨hplace, -⟩ | hactive
        · exact hplace ▸ lt_length_of_directory hstation
        · obtain ⟨s, hs, -⟩ := (Option.any_eq_true _ _).mp hactive
          exact lt_length_of_directory hs
    · rcases List.mem_append.mp hs with hs | hs
      · exact h.station s hs
      · obtain rfl := List.mem_singleton.mp hs
        exact hstation

/-- Books stay right while that is done which a transport wants done. -/
theorem performAll (h : Books past net) (id : NodeId) (acts : List Act) :
    Books (past ++ net.errands id acts) (net.performAll id acts) := by
  induction acts generalizing net past with
  | nil =>
    rw [errands, List.append_nil]
    exact h
  | cons act rest ih =>
    rw [errands, ← List.append_assoc]
    refine ih ?_
    have hkeeps : ∀ f : Node → Node, (∀ n, (f n).counts = n.counts) →
        Books (past ++ []) (net.modifyNode id f) := fun f hf =>
      (List.append_nil past).symm ▸ h.keeps (keepsCounts_modifyNode net id hf)
    cases act with
    | send msg => exact h.summoned id (.send msg)
    | answerRouterQuery query => exact h.summoned id (.answerRouterQuery query)
    | answerSegmentQuery query => exact h.summoned id (.answerSegmentQuery query)
    | learn mac segments => exact hkeeps _ fun _ => rfl
    | note e => exact hkeeps _ fun _ => rfl
    | resolve ticket outcome => exact hkeeps _ fun _ => rfl

/-- Books stay right while a link hands a frame to stations. -/
theorem hears (h : Books past net) (f : LinkFrame) (order : List NodeId) :
    Books (past ++ net.hearings f order)
      (net.applyAll (order.flatMap (net.directory.handing f))) := by
  induction order generalizing net past with
  | nil =>
    rw [hearings, List.append_nil]
    exact h
  | cons id rest ih =>
    have hhanded : Books past (net.apply (.handed id f.data.length)) := by
      refine h.keeps (Enters.keepsCounts (enters_modifyNode_nil fun n _ => ?_))
      split <;> exact ⟨rfl, rfl⟩
    have hreceive : ((net.apply (.handed id f.data.length)).receive id f.data f.origin).2 =
        net.applyAll (net.directory.handing f id) := by
      unfold receive call member? Directory.handing
      rw [directory_apply]
      cases net.directory.member? id <;> rfl
    have hheard : Books
        (past ++ ((net.apply (.handed id f.data.length)).scene? id
          (.receive f.data f.origin)).toList)
        (net.applyAll (net.directory.handing f id)) :=
      hreceive ▸ hhanded.summoned id (.receive f.data f.origin)
    have hrest := ih hheard
    rw [directory_applyAll] at hrest
    rw [hearings, List.flatMap_cons, ← List.append_assoc, applyAll, List.foldl_append]
    rw [hreceive]
    exact hrest

end Books

/-- Nodes have counted what happened in the scenes of their history, and nothing else. -/
theorem Chronicle.books (h : Chronicle past net) : Books past net := by
  induction h with
  | empty => exact Books.empty
  | uses _ uses ih => exact ih.keeps uses.keepsCounts
  | learns _ id mac segments ih => exact ih.keeps (keepsCounts_modifyNode _ id fun _ => rfl)
  | delivers _ id e ih => exact ih.keeps (overlooksTransports_keepsCounts.deliver _ id e)
  | summoned _ id summons ih => exact ih.summoned id summons
  | @handsOut past net k l f queue order _ link pop recipients ih =>
    have hpopped : net.KeepsCounts (net.modifyLink k fun l => { l with queue }) :=
      keepsCounts_of_nodes_eq rfl
    exact (ih.keeps hpopped).hears f order
  | attends _ attends ih =>
    exact (ih.keeps (overlooksTransports_keepsCounts.setConsumer _ _ _)).performAll _ _
  | takes _ hp tasks ih => exact ih.keeps (keepsCounts_of_nodes_eq rfl)

/-! ## Termination -/

/-- A node has counted what it had counted after events that are not counted at it. -/
theorem counts_applyAll_of_not_isCounted {id : NodeId} {n : Node} {events : List Event}
    (node : net.node? id = some n)
    (h : ∀ event ∈ events, event.isCounted = true → event.place ≠ id) :
    ((net.applyAll events).node? id).map Node.counts = some n.counts := by
  have hstation : ((net.applyAll events).node? id).map Node.station = some n.station := by
    have hdirectory := congrFun (directory_applyAll net events) id
    rwa [directory, directory, node, Option.map_some] at hdirectory
  obtain ⟨n', hn', -⟩ := Option.map_eq_some_iff.mp hstation
  obtain ⟨n'', hn, hcounts, -⟩ := (enters_applyAll net events).counts hn'
  cases node.symm.trans hn
  rw [hn', Option.map_some, hcounts, Node.counts_after_of_not_isCounted h]

section

variable {id : NodeId} {n : Node}

/-- A terminated station is not active. -/
theorem isActive_of_terminated (node : net.node? id = some n)
    (terminated : n.station.terminated = true) : net.directory.isActive id = false := by
  rw [Directory.isActive_of_apply (s := n.station) (by rw [directory, node, Option.map_some]),
    terminated]
  rfl

/-- A node whose station is terminated counts only what the station is made to send. -/
theorem counts_call_of_terminated (node : net.node? id = some n)
    (terminated : n.station.terminated = true) {id' : NodeId} {summons : Summons}
    (incoming : id' = id → summons.isIncoming = true) :
    ((net.call id' fun d m => summons.run d m).2.node? id).map Node.counts = some n.counts := by
  unfold call
  cases hm : net.member? id' with
  | none =>
    rw [node]
    rfl
  | some m =>
    obtain ⟨station, hstation, rfl⟩ := Option.map_eq_some_iff.mp hm
    refine counts_applyAll_of_not_isCounted node fun event he _ hplace => ?_
    rcases Scene.isActive_place (s := ⟨net, ⟨id', station⟩, summons⟩) hstation he with
      ⟨hself, houtgoing⟩ | hactive
    · exact Bool.false_ne_true (houtgoing.symm.trans (incoming (hself.symm.trans hplace)))
    · rw [hplace, isActive_of_terminated node terminated] at hactive
      cases hactive

/-- A node whose station is terminated does not count what a link hands out. -/
theorem HandsOut.counts_of_terminated (node : net.node? id = some n)
    (terminated : n.station.terminated = true) {k : LinkId} {events : List Event}
    (handsOut : net.HandsOut k events net') :
    (net'.node? id).map Node.counts = some n.counts := by
  obtain @⟨l, f, queue, order, -, -, -, -⟩ := handsOut
  have hnode : (net.modifyLink k fun l => { l with queue }).node? id = some n := node
  refine counts_applyAll_of_not_isCounted hnode fun event he hcounted hplace => ?_
  obtain ⟨id', -, he⟩ := List.mem_flatMap.mp he
  unfold Directory.handing at he
  rcases List.mem_cons.mp he with rfl | he
  · cases hcounted
  · cases hm : net.directory.member? id' with
    | none =>
      rw [hm] at he
      cases he
    | some m =>
      rw [hm, Option.map_some, Option.getD_some] at he
      obtain ⟨station, hstation, rfl⟩ := Option.map_eq_some_iff.mp hm
      have hactive := Directory.isActive_place_receive hstation he
      rw [hplace, isActive_of_terminated node terminated] at hactive
      cases hactive

end

/-- A node has delivered what was handed to its consumer and forwarded what it has handed on to
neighbors, and every frame is accounted for: what was delivered, dropped or passed on for a specific
destination, and the frames whose handling broke off at an origin that is too long, are what was
received and what neighbors spread to it while it was active. A terminated station counts nothing that
it is handed, and nothing that comes of what others do or of what a link hands out. -/
theorem accounts_for_frames {past : List Scene} {net : Network} (history : Chronicle past net)
    {id : NodeId} {n : Node} (node : net.node? id = some n) :
    n.counts.delivered = (past.map (Scene.handed id)).sum ∧
    n.counts.forwarded = (past.map (Scene.handsOn id)).sum ∧
    n.counts.delivered + n.counts.dropped + past.countP (Scene.passesOn id) +
        past.countP (Scene.breaksOff id) =
      n.counts.received + (past.map (Scene.spreads id)).sum ∧
    (∀ s ∈ past, s.breaksOff id = true → s.events = [.received id] ∧
      ∃ frame origin, s.summons = .receive frame origin ∧ maxMacLength < origin.length) ∧
    (n.station.terminated = true →
      (∀ id' (summons : Summons), (id' = id → summons.isIncoming = true) →
        ((net.call id' fun d m => summons.run d m).2.node? id).map Node.counts = some n.counts) ∧
      ∀ k events net', net.HandsOut k events net' →
        (net'.node? id).map Node.counts = some n.counts) := by
  have hbooks := history.books
  refine ⟨congrArg FrameCounts.delivered (hbooks.counts node),
    congrArg FrameCounts.forwarded (hbooks.counts node), ?_, fun s _ hbreaks => ?_,
    fun hterminated => ⟨fun id' summons => counts_call_of_terminated node hterminated,
      fun k events net' => HandsOut.counts_of_terminated node hterminated⟩⟩
  · rw [hbooks.counts node]
    exact balance_tallied hbooks.station id
  · exact s.of_breaksOff hbreaks

private theorem chronicle_pair : Chronicle [] pair := by
  have hone := Chronicle.empty.uses (.addNode
    (rfl : Network.addNode {} 1 (wireAttachment [1] none) (.wire false []) true = .ok (0, _)))
  have htwo := hone.uses (.addNode
    (rfl : Network.addNode _ 2 (wireAttachment [2] none) (.wire false []) true = .ok (1, _)))
  exact htwo.uses (.addRoute (rfl : Network.addRoute _ 0 1 = .ok (1, _)))

/-- A router passes a frame on to segment two and is terminated, after which it counts nothing. -/
theorem accounts_for_frames_pair : ∃ (past : List Scene) (net : Network) (n : Node),
    Chronicle past net ∧ net.node? 0 = some n ∧ n.counts = { received := 1, forwarded := 1 } ∧
      (past.map (Scene.handsOn 0)).sum = 1 ∧ past.countP (Scene.passesOn 0) = 1 ∧
      ((net.receive 0 [1, 0, 5] [9]).2.node? 0).map Node.counts = some n.counts := by
  let summons : Summons := .receive [1, 0x20, 0, 2, 1, 7, 0xFF, 5] [9]
  have history : Chronicle [⟨pair, pairRouter, summons⟩]
      ((pair.call 0 fun d m => summons.run d m).2.terminate 0) :=
    (chronicle_pair.summoned 0 summons).uses (.terminate 0)
  obtain ⟨n, node⟩ : ∃ n, ((pair.call 0 fun d m => summons.run d m).2.terminate 0).node? 0 = some n :=
    ⟨_, rfl⟩
  have hcounts : n.counts = { received := 1, forwarded := 1 } := by
    cases node
    rfl
  obtain ⟨-, hforwarded, hbalance, -, hterminated⟩ := accounts_for_frames history node
  refine ⟨_, _, n, history, node, hcounts, ?_, ?_, (hterminated ?_).1 0 (.receive [1, 0, 5] [9])
    fun _ => rfl⟩
  · rw [← hforwarded, hcounts]
  · decide
  · cases node
    rfl

/-- A frame without a sender from a node with an overlong sub-address is taken in, and then neither
delivered nor dropped nor passed on. -/
theorem unaccounted_pair : ∃ (past : List Scene) (net : Network) (n : Node),
    Chronicle past net ∧ net.node? 0 = some n ∧
      n.counts.delivered + n.counts.dropped + past.countP (Scene.passesOn 0) ≠
        n.counts.received + (past.map (Scene.spreads 0)).sum := by
  let summons : Summons := .receive [1, 0, 5] (List.replicate 256 0)
  have history : Chronicle [⟨pair, pairRouter, summons⟩] (pair.call 0 fun d m => summons.run d m).2 :=
    chronicle_pair.summoned 0 summons
  have hcounts : ((pair.call 0 fun d m => summons.run d m).2.node? 0).map Node.counts =
      some { received := 1 } := by decide +kernel
  obtain ⟨n, node, hn⟩ := Option.map_eq_some_iff.mp hcounts
  refine ⟨_, _, n, history, node, ?_⟩
  rw [hn]
  decide +kernel

end Network

end Fieldbus
