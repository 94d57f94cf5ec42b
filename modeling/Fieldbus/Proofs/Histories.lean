import Fieldbus.Proofs.Reachable

/-!
# Histories of networks

A history starts from nothing and goes on by what outsiders do with a network, by frames that
media hand to stations, and by the work of workers (`Network.Lives`). It keeps which frames were
handed to which stations and which messages stations were made to send. What a station learns in a
history it learns from its own transport. Main statements: networks with a history are reachable
(`Lives.reachable`), and a history goes on with whatever workers do (`Lives.step`).
-/

namespace Fieldbus

/-- What a history keeps. -/
inductive Deed where
  /-- The medium of a station handed it a frame that the node `origin` had put there. -/
  | heard (m : Member) (frame origin : Bytes)
  /-- A station was made to send a message. -/
  | sent (m : Member) (msg : Message)

/-- What a history keeps of what the transport of a station wants done. -/
def Act.deed? (m : Member) : Act → Option Deed
  | .send msg => some (.sent m msg)
  | _ => none

namespace Network

/-- What somebody outside a network does with it that makes no station send or take anything in. -/
inductive Uses (net : Network) : Network → Prop
  | addLink {segment : Segment} {broadcastMac : Bytes} {maxFrameLength : Nat} {k : LinkId}
      {net' : Network} (added : net.addLink segment broadcastMac maxFrameLength = .ok (k, net')) :
      Uses net net'
  | addPool : Uses net net.addPool.2
  | startLink (k : LinkId) : Uses net (net.startLink k)
  | terminateLink (k : LinkId) : Uses net (net.terminateLink k)
  | addNode {segment : Segment} {attachment : Attachment} {medium : Medium} {keepsFaults : Bool}
      {id : NodeId} {net' : Network}
      (added : net.addNode segment attachment medium keepsFaults = .ok (id, net')) : Uses net net'
  | start {id : NodeId} {net' : Network} (started : net.start id = .ok net') : Uses net net'
  | terminate (id : NodeId) : Uses net (net.terminate id)
  | addRoute {id target : NodeId} {slot : Nat} {net' : Network}
      (added : net.addRoute id target = .ok (slot, net')) : Uses net net'
  | addRouteAt {id target : NodeId} {slot : Nat} {net' : Network}
      (added : net.addRouteAt id slot target = .ok net') : Uses net net'
  | replaceConsumer (id : NodeId) (kind : Option ConsumerKind) :
      Uses net (net.replaceConsumer id kind)
  | startTransport (id : NodeId) : Uses net (net.startTransport id)
  | stopTransport (id : NodeId) : Uses net (net.stopTransport id)
  | takeOutgoing {id : NodeId} {items : List Outgoing} {net' : Network}
      (taken : net.takeOutgoing id = some (items, net')) : Uses net net'
  | submit (id : NodeId) (o : Outgoing) : Uses net (net.submit id o)
  | emit {id : NodeId} {t : Transmission} {net' : Network} (emitted : net.emit id t = .ok net') :
      Uses net net'
  | drop (id : NodeId) : Uses net (net.drop id)

/-- The network has come to be from nothing, and this is what was heard and sent meanwhile. -/
inductive Lives : List Deed → Network → Prop
  /-- There is nothing at first. -/
  | empty : Lives [] {}
  /-- Somebody outside uses the network. -/
  | uses {past : List Deed} {net net' : Network} (h : Lives past net) (uses : net.Uses net') :
      Lives past net'
  /-- A station is made to send a message. -/
  | sends {past : List Deed} {net : Network} {id : NodeId} {m : Member} (h : Lives past net)
      (member : net.member? id = some m) (msg : Message) :
      Lives (.sent m msg :: past) (net.send id msg).2
  /-- A station is made to answer a query for a router. -/
  | answersRouterQuery {past : List Deed} {net : Network} (h : Lives past net) (id : NodeId)
      (query : Envelope) : Lives past (net.answerRouterQuery id query).2
  /-- A station is made to answer a query for the number of its segment. -/
  | answersSegmentQuery {past : List Deed} {net : Network} (h : Lives past net) (id : NodeId)
      (query : Envelope) : Lives past (net.answerSegmentQuery id query).2
  /-- A medium hands a frame to a station. -/
  | receives {past : List Deed} {net : Network} {id : NodeId} {m : Member} (h : Lives past net)
      (member : net.member? id = some m) (frame origin : Bytes) :
      Lives (.heard m frame origin :: past) (net.receive id frame origin).2
  /-- A link hands out its oldest frame, to its recipients in some order. -/
  | handsOut {past : List Deed} {net : Network} {k : LinkId} {l : Link} {f : LinkFrame}
      {queue : Mailbox LinkFrame} {order : List NodeId} (h : Lives past net)
      (link : net.link? k = some l) (pop : l.queue.pop = some (f, queue))
      (recipients : order.Perm (l.recipients net.isAlive f)) :
      Lives ((order.filterMap net.member?).map (.heard · f.data f.origin) ++ past)
        ((net.modifyLink k fun l => { l with queue }).applyAll
          (order.flatMap (net.directory.handing f)))
  /-- A transport with a worker executes a send. -/
  | executes {past : List Deed} {net : Network} {id : NodeId} {m : Member} {t : Dedicated}
      (h : Lives past net) (member : net.member? id = some m)
      (transport : net.dedicated? id = some t) (now : Nat) :
      Lives ((t.executeNext (net.attempt id) now).2.filterMap (Act.deed? m) ++ past)
        (net.stepDedicated id fun t => t.executeNext (net.attempt id) now)
  /-- A transport with a worker dispatches an envelope. -/
  | dispatches {past : List Deed} {net : Network} {id : NodeId} {m : Member} {t : Dedicated}
      (h : Lives past net) (member : net.member? id = some m)
      (transport : net.dedicated? id = some t) :
      Lives (t.dispatchNext.2.filterMap (Act.deed? m) ++ past)
        (net.stepDedicated id Dedicated.dispatchNext)
  /-- A transport with a worker fails the requests that are overdue. -/
  | sweeps {past : List Deed} {net : Network} (h : Lives past net) (id : NodeId) (now : Nat) :
      Lives past (net.stepDedicated id fun t => t.sweep now)
  /-- A pool runs any of its jobs. -/
  | runs {past : List Deed} {net : Network} {k pool : PoolId} {p : Pool} {before after : List Task}
      {task : Task} {m : Member} {t : Shared} (h : Lives past net) (hp : net.pool? k = some p)
      (tasks : p.tasks.toList = before ++ task :: after)
      (member : net.member? task.owner = some m)
      (transport : net.shared? task.owner = some (pool, t)) (now : Nat) :
      Lives ((t.run (net.attempt task.owner) now task.job).2.filterMap (Act.deed? m) ++ past)
        ((net.modifyPool k fun p => { p with tasks := ⟨before ++ after⟩ }).doTask now task)
  /-- A pool gives up a job whose transport is gone. -/
  | discards {past : List Deed} {net : Network} {k : PoolId} {p : Pool} {before after : List Task}
      {task : Task} (h : Lives past net) (hp : net.pool? k = some p)
      (tasks : p.tasks.toList = before ++ task :: after) :
      Lives past (net.modifyPool k fun p => { p with tasks := ⟨before ++ after⟩ })
  /-- A transport on a pool fails the requests that are overdue. -/
  | expires {past : List Deed} {net : Network} {id : NodeId} {pool : PoolId} {t : Shared}
      (h : Lives past net) (transport : net.shared? id = some (pool, t)) (now : Nat) :
      Lives past
        ((net.setConsumer id (some (.shared pool (t.sweep now).1))).performAll id (t.sweep now).2)

section

variable {net net' : Network}

/-- A call with a result that was changed had one. -/
theorem exists_of_map_eq_ok {ε α β : Type} {f : α → β} {x : Except ε α} {b : β}
    (h : x.map f = .ok b) : ∃ a, x = .ok a ∧ f a = b := by
  cases x with
  | error e => cases h
  | ok a => exact ⟨a, rfl, Except.ok.inj h⟩

/-- A link is added behind the others. -/
theorem of_addLink {segment : Segment} {broadcastMac : Bytes} {maxFrameLength : Nat} {k : LinkId}
    (h : net.addLink segment broadcastMac maxFrameLength = .ok (k, net')) :
    ∃ l, net' = { net with links := net.links ++ [l] } := by
  obtain ⟨l, -, h⟩ := exists_of_map_eq_ok h
  cases h
  exact ⟨l, rfl⟩

/-- A station that starts changes its medium. -/
theorem of_start {id : NodeId} (h : net.start id = .ok net') :
    net' = net ∨ (∃ sent, net' = net.modifyNode id fun n => { n with medium := .wire true sent }) ∨
      ∃ k l, net' = net.modifyLink k fun _ => l := by
  unfold Network.start at h
  split at h
  · cases h
    exact Or.inl rfl
  split at h
  · cases h
    exact Or.inr (Or.inl ⟨_, rfl⟩)
  split at h
  · cases h
    exact Or.inl rfl
  · obtain ⟨l, -, rfl⟩ := exists_of_map_eq_ok h
    exact Or.inr (Or.inr ⟨_, l, rfl⟩)

/-- A frame that is put straight onto a medium is transmitted. -/
theorem of_emit {id : NodeId} {t : Transmission} (h : net.emit id t = .ok net') :
    net' = net ∨ net' = net.apply (.transmitted id t) := by
  unfold Network.emit at h
  split at h
  · cases h
    exact Or.inl rfl
  · rename_i m hm
    obtain ⟨event, hevent, rfl⟩ := exists_of_map_eq_ok h
    obtain ⟨s, -, rfl⟩ := Option.map_eq_some_iff.mp hm
    unfold Member.emit at hevent
    split at hevent
    · cases hevent
      exact Or.inr rfl
    · cases hevent

end

/-! ## Networks with a history are reachable -/

namespace Reachable

variable {net net' : Network} {id : NodeId}

theorem start (h : net.Reachable) (started : net.start id = .ok net') : net'.Reachable := by
  rcases of_start started with rfl | ⟨sent, rfl⟩ | ⟨k, l, rfl⟩
  · exact h
  · exact h.modifyNode id fun _ => rfl
  · exact h.modifyLink k _

theorem startTransport (h : net.Reachable) (id : NodeId) : (net.startTransport id).Reachable := by
  unfold Network.startTransport
  split
  · exact h.setConsumer id _
  · split
    · exact h
    · exact (h.setConsumer id _).modifyPool _ _
  · exact h

theorem submit (h : net.Reachable) (id : NodeId) (o : Outgoing) : (net.submit id o).Reachable := by
  unfold Network.submit
  split
  · exact h
  · exact h.setConsumer id _
  · exact (h.setConsumer id _).performAll id _
  · split
    · exact (h.modifyPool _ _).performAll id _
    · exact h.performAll id _

theorem uses (h : net.Reachable) (uses : net.Uses net') : net'.Reachable := by
  cases uses with
  | addLink added =>
    obtain ⟨l, rfl⟩ := of_addLink added
    exact h.unseen rfl rfl
  | addPool => exact h.unseen rfl rfl
  | startLink k => exact h.modifyLink k _
  | terminateLink k => exact h.modifyLink k _
  | addNode added => exact h.addNode added
  | start started => exact h.start started
  | terminate id => exact h.terminate id
  | addRoute added => exact h.addRoute added
  | addRouteAt added => exact h.addRouteAt added
  | replaceConsumer id kind => exact (h.dropConsumer id).modifyNode id fun _ => rfl
  | startTransport id => exact h.startTransport id
  | stopTransport id => exact h.stopTransport id
  | takeOutgoing taken => exact h.takeOutgoing taken
  | submit id o => exact h.submit id o
  | emit emitted =>
    rcases of_emit emitted with rfl | rfl
    · exact h
    · exact h.applyAll [.transmitted _ _]
  | drop id => exact h.drop id

end Reachable

/-- A node that has something has a station. -/
theorem member?_of_node? {net : Network} {id : NodeId} {n : Node} (h : net.node? id = some n) :
    net.member? id = some ⟨id, n.station⟩ := by
  simp only [member?, Directory.member?, directory, h, Option.map_some]

namespace Lives

variable {past : List Deed} {net net' : Network}

theorem reachable (h : Lives past net) : net.Reachable := by
  induction h with
  | empty => exact .empty
  | uses _ uses ih => exact ih.uses uses
  | sends _ _ msg ih => exact ih.call _ _
  | answersRouterQuery _ id query ih => exact ih.call id _
  | answersSegmentQuery _ id query ih => exact ih.call id _
  | receives _ _ frame origin ih => exact ih.call _ _
  | handsOut _ link pop recipients ih => exact (ih.modifyLink _ _).applyAll _
  | executes _ _ _ now ih => exact ih.stepDedicated _ _
  | dispatches _ _ _ ih => exact ih.stepDedicated _ _
  | sweeps _ id now ih => exact ih.stepDedicated id _
  | runs _ hp tasks _ _ now ih => exact (ih.modifyPool _ _).doTask now _
  | discards _ hp tasks ih => exact ih.modifyPool _ _
  | expires _ transport now ih => exact (ih.setConsumer _ _).performAll _ _

/-- A history goes on with whatever workers do. -/
theorem step (h : Lives past net) (step : net.Step net') : ∃ more, Lives (more ++ past) net' := by
  cases step with
  | handsOut handsOut =>
    cases handsOut with
    | intro link _ pop recipients => exact ⟨_, h.handsOut link pop recipients⟩
  | executes now transport =>
    obtain ⟨n, hn, -⟩ := dedicated?_eq_some_iff.mp transport
    exact ⟨_, h.executes (member?_of_node? hn) transport now⟩
  | dispatches transport =>
    obtain ⟨n, hn, -⟩ := dedicated?_eq_some_iff.mp transport
    exact ⟨_, h.dispatches (member?_of_node? hn) transport⟩
  | sweeps now => exact ⟨[], h.sweeps _ now⟩
  | @runs k p before after task now hp tasks =>
    cases transport : net.shared? task.owner with
    | none =>
      refine ⟨[], ?_⟩
      have hgone : (net.modifyPool k fun p => { p with tasks := ⟨before ++ after⟩ }).shared?
          task.owner = none := transport
      simp only [doTask, hgone]
      exact h.discards hp tasks
    | some joined =>
      obtain ⟨n, hn, -⟩ := shared?_eq_some_iff.mp transport
      exact ⟨_, h.runs hp tasks (member?_of_node? hn) transport now⟩

end Lives

/-- A station on segment one that leads to segment two. -/
def pairRouter : Member :=
  ⟨0, { segment := 1, attachment := wireAttachment [1] none, routes := ⟨1, ⟨[(2, 1)]⟩, [some 2]⟩ }⟩

/-- A router and its neighbor on segment two, which leads nowhere. -/
def pair : Network where
  nodes := [
    some { station := pairRouter.station, medium := .wire false [], keepsFaults := true },
    some {
      station := { segment := 2, attachment := wireAttachment [2] none, routes := { home := 2 } }
      medium := .wire false []
      keepsFaults := true }]

theorem lives_pair : Lives [] pair := by
  have hone := Lives.empty.uses (.addNode
    (rfl : Network.addNode {} 1 (wireAttachment [1] none) (.wire false []) true = .ok (0, _)))
  have htwo := hone.uses (.addNode
    (rfl : Network.addNode _ 2 (wireAttachment [2] none) (.wire false []) true = .ok (1, _)))
  exact htwo.uses (.addRoute (rfl : Network.addRoute _ 0 1 = .ok (1, _)))

end Network

end Fieldbus
