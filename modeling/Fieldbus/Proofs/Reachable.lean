import Fieldbus.Proofs.Steps

/-!
# Reachable networks

A network is reachable if it is made from nothing by adding and dropping nodes, adding routes,
learning routers and terminating stations, while anything else may happen that routing does not
look at (`Network.Reachable`). Main statements: routes of a reachable network lead where they are
said to lead (`Reachable.routed`), its stations have learned routers for segments that can have one
only (`Reachable.learnsRemote`), and it stays reachable while workers work (`Reachable.step`).
-/

namespace Fieldbus

/-- The station has learned routers only for segments that can have one. -/
def Station.LearnsRemote (s : Station) : Prop :=
  ∀ w ∈ s.routers.segments, RouterTable.admits s.segment w = true

/-- Announcements of segments that can have no router are passed over. -/
theorem Station.LearnsRemote.learn {s : Station} (h : s.LearnsRemote) (mac : Bytes)
    (segments : List Segment) : (s.learn mac segments).LearnsRemote := by
  intro w hw
  obtain ⟨router, hr⟩ := RouterTable.mem_segments_iff.mp hw
  have hlearned := RouterTable.router?_learn s.routers s.segment mac segments w
  by_cases hnamed : w ∈ segments ∧ RouterTable.admits s.segment w = true
  · exact hnamed.2
  · rw [if_neg hnamed] at hlearned
    exact h w (RouterTable.mem_segments_iff.mpr ⟨router, hlearned.symm.trans hr⟩)

namespace Network

/-- Networks that are made from nothing. -/
inductive Reachable : Network → Prop
  /-- There is nothing at first. -/
  | empty : Reachable {}
  /-- A node is added. -/
  | addNode {net net' : Network} {segment : Segment} {attachment : Attachment} {medium : Medium}
      {keepsFaults : Bool} {id : NodeId} (h : Reachable net)
      (added : net.addNode segment attachment medium keepsFaults = .ok (id, net')) : Reachable net'
  /-- A route is added. -/
  | addRoute {net net' : Network} {id target : NodeId} {slot : Nat} (h : Reachable net)
      (added : net.addRoute id target = .ok (slot, net')) : Reachable net'
  /-- A route is added at a slot. -/
  | addRouteAt {net net' : Network} {id target : NodeId} {slot : Nat} (h : Reachable net)
      (added : net.addRouteAt id slot target = .ok net') : Reachable net'
  /-- A station learns a router. -/
  | learn {net : Network} (h : Reachable net) (id : NodeId) (mac : Bytes)
      (segments : List Segment) : Reachable (net.learn id mac segments)
  /-- A station is terminated. -/
  | terminated {net : Network} (h : Reachable net) (id : NodeId) :
      Reachable (net.modifyStation id fun s => { s with terminated := true })
  /-- A node ceases to exist. -/
  | gone {net : Network} (h : Reachable net) (id : NodeId) :
      Reachable { net with nodes := net.nodes.set id none }
  /-- Something happens that routing does not look at. -/
  | unseen {net net' : Network} (h : Reachable net)
      (length : net'.nodes.length = net.nodes.length) (directory : net'.directory = net.directory) :
      Reachable net'

/-- What holds of every station holds after one of them was changed so as to keep it. -/
theorem of_directory_modifyStation {net : Network} {good : Station → Prop} {id id' : NodeId}
    {f : Station → Station} {s : Station} (hs : (net.modifyStation id f).directory id' = some s)
    (h : ∀ {id' s}, net.directory id' = some s → good s) (hf : ∀ s, good s → good (f s)) :
    good s := by
  rw [directory_modifyStation] at hs
  split at hs
  · obtain ⟨s', hs', rfl⟩ := Option.map_eq_some_iff.mp hs
    exact hf s' (h hs')
  · exact h hs

namespace Reachable

variable {net net' : Network} {id : NodeId}

/-- Routes lead where they are said to lead. -/
theorem routed (h : net.Reachable) : net.Routed := by
  induction h with
  | empty => exact Routed.empty
  | addNode _ added ih => exact ih.addNode added
  | addRoute _ added ih => exact ih.addRoute added
  | addRouteAt _ added ih => exact ih.addRouteAt added
  | learn _ id mac segments ih =>
    exact ih.of_keepsRoutes (keepsRoutes_modifyStation _ id (fun _ => rfl) fun _ => rfl)
  | terminated _ id ih =>
    exact ih.of_keepsRoutes (keepsRoutes_modifyStation _ id (fun _ => rfl) fun _ => rfl)
  | gone _ id ih => exact ih.of_keepsRoutes (keepsRoutes_set_none _ id)
  | unseen _ length directory ih =>
    exact ih.of_keepsRoutes ⟨Nat.le_of_eq length.symm, fun hs => ⟨_, directory ▸ hs, rfl, rfl⟩⟩

/-- Stations have learned routers only for segments that can have one. -/
theorem learnsRemote (h : net.Reachable) {s : Station} (hs : net.directory id = some s) :
    s.LearnsRemote := by
  induction h generalizing id s with
  | empty => simp [Network.directory, node?] at hs
  | addNode _ added ih =>
    rcases (of_addNode added).2.2 hs with hs | ⟨-, rfl⟩
    · exact ih hs
    · intro w hw
      obtain ⟨mac, hmac⟩ := RouterTable.mem_segments_iff.mp hw
      cases hmac
  | addRoute _ added ih =>
    rcases of_addRoute added with rfl | ⟨_, _, _, -, -, -, rfl⟩
    · exact ih hs
    · exact of_directory_modifyStation hs ih fun _ h => h
  | addRouteAt _ added ih =>
    rcases of_addRouteAt added with rfl | ⟨_, _, _, -, -, -, rfl⟩
    · exact ih hs
    · exact of_directory_modifyStation hs ih fun _ h => h
  | learn _ _ mac segments ih =>
    exact of_directory_modifyStation hs ih fun _ h => h.learn mac segments
  | terminated _ _ ih => exact of_directory_modifyStation hs ih fun _ h => h
  | gone _ _ ih => exact ih (directory_of_set_none hs)
  | unseen _ _ directory ih => exact ih (directory ▸ hs)

/-! ## What keeps networks reachable -/

/-- A change to a node that keeps its station. -/
theorem modifyNode (h : net.Reachable) (id : NodeId) {f : Node → Node}
    (hf : ∀ n, (f n).station = n.station) : (net.modifyNode id f).Reachable :=
  h.unseen (length_nodes_modifyNode net id f) (directory_modifyNode net id hf)

theorem setConsumer (h : net.Reachable) (id : NodeId) (c : Option Consumer) :
    (net.setConsumer id c).Reachable :=
  h.modifyNode id fun _ => rfl

theorem modifyLink (h : net.Reachable) (k : LinkId) (f : Link → Link) :
    (net.modifyLink k f).Reachable :=
  h.unseen rfl rfl

theorem modifyPool (h : net.Reachable) (id : PoolId) (f : Pool → Pool) :
    (net.modifyPool id f).Reachable :=
  h.unseen rfl rfl

theorem applyAll (h : net.Reachable) (events : List Event) : (net.applyAll events).Reachable :=
  h.unseen (keepsSetup_applyAll net events).length_eq (directory_applyAll net events)

/-- Whatever a node is called for. -/
theorem call (h : net.Reachable) (id : NodeId) (f : Directory → Member → Run) :
    (net.call id f).2.Reachable := by
  unfold Network.call
  split
  · exact h
  · exact h.applyAll _

/-- What a transport has done. -/
theorem perform (h : net.Reachable) (id : NodeId) (act : Act) : (net.perform id act).Reachable := by
  cases act with
  | send msg => exact h.call id _
  | answerRouterQuery e => exact h.call id _
  | answerSegmentQuery e => exact h.call id _
  | learn mac segments => exact h.learn id mac segments
  | note e => exact h.modifyNode id fun _ => rfl
  | resolve ticket outcome => exact h.modifyNode id fun _ => rfl

theorem performAll (h : net.Reachable) (id : NodeId) (acts : List Act) :
    (net.performAll id acts).Reachable := by
  induction acts generalizing net with
  | nil => exact h
  | cons act rest ih => exact ih (h.perform id act)

theorem stepDedicated (h : net.Reachable) (id : NodeId) (step : Dedicated → Dedicated × List Act) :
    (net.stepDedicated id step).Reachable := by
  unfold Network.stepDedicated
  split
  · exact h
  · exact (h.setConsumer id _).performAll id _

theorem doTask (h : net.Reachable) (now : Nat) (task : Task) : (net.doTask now task).Reachable := by
  unfold Network.doTask
  split
  · exact h
  · exact (h.setConsumer _ _).performAll _ _

/-- Workers keep a network reachable. -/
theorem step (h : net.Reachable) (hs : net.Step net') : net'.Reachable := by
  cases hs with
  | handsOut h' =>
    cases h' with
    | intro => exact (h.modifyLink _ _).applyAll _
  | executes => exact h.stepDedicated _ _
  | dispatches => exact h.stepDedicated _ _
  | sweeps => exact h.stepDedicated _ _
  | runs => exact (h.modifyPool _ _).doTask _ _

theorem detach (h : net.Reachable) (id : NodeId) : (net.detach id).Reachable := by
  unfold Network.detach
  split
  · exact h
  · split
    · exact h.modifyNode id fun _ => rfl
    · exact h.modifyLink _ _

/-- A station that is terminated is detached from its medium. -/
theorem terminate (h : net.Reachable) (id : NodeId) : (net.terminate id).Reachable := by
  unfold Network.terminate
  split
  · exact h
  · split
    · exact h
    · exact (h.terminated id).detach id

theorem stopTransport (h : net.Reachable) (id : NodeId) : (net.stopTransport id).Reachable := by
  unfold Network.stopTransport
  split
  · exact (h.setConsumer id _).performAll id _
  · split
    · exact h
    · exact ((h.setConsumer id _).modifyPool _ _).performAll id _
  · exact h

theorem takeOutgoing (h : net.Reachable) {items : List Outgoing}
    (taken : net.takeOutgoing id = some (items, net')) : net'.Reachable := by
  unfold Network.takeOutgoing at taken
  split at taken
  · cases taken
    exact (h.setConsumer id _).performAll id _
  · cases taken

theorem dropConsumer (h : net.Reachable) (id : NodeId) : (net.dropConsumer id).Reachable := by
  unfold Network.dropConsumer
  dsimp only
  split
  · rename_i taken
    exact (h.takeOutgoing taken).modifyNode id fun _ => rfl
  · exact (h.stopTransport id).modifyNode id fun _ => rfl

/-- A node that is dropped gives up its consumer. -/
theorem drop (h : net.Reachable) (id : NodeId) : (net.drop id).Reachable :=
  (h.dropConsumer id).gone id

end Reachable

end Network

end Fieldbus
