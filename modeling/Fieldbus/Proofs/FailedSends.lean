import Fieldbus.Proofs.Service
import Fieldbus.Proofs.SplitHorizon

/-!
# Sends that fail

A message for one segment that cannot be sent leaves everything as it is. A message for every segment
is handed to the neighbors before the station puts it onto its own segment, so a send that fails there
has reached the neighbors all the same. Main statement: it has done to the last event what it would
have done on a medium that takes the frame, short of handing the frame to that medium
(`Network.failed_send`). For how long a frame the medium of a station takes matters neither to what
comes of the calls it makes (`Call.Outward.events_withLimit`) nor to what events do
(`Network.applyAll_withLimit`).
-/

namespace Fieldbus

/-! ## Stations on another medium -/

/-- The station on a medium that takes frames up to another length. -/
def Station.withLimit (limit : Option Nat) (s : Station) : Station :=
  { s with attachment := { s.attachment with maxFrameLength := limit } }

/-- A member of the directory if the node `x` is on such a medium. -/
def Member.withLimit (x : NodeId) (limit : Option Nat) (n : Member) : Member :=
  if n.id = x then { n with station := n.station.withLimit limit } else n

/-- The directory if the node `x` is on such a medium. -/
def Directory.withLimit (d : Directory) (x : NodeId) (limit : Option Nat) : Directory := fun id =>
  if id = x then (d id).map (Station.withLimit limit) else d id

/-- The node on such a medium. -/
def Node.withLimit (limit : Option Nat) (n : Node) : Node :=
  { n with station := n.station.withLimit limit }

/-- The network if the node `x` is on such a medium. -/
def Network.withLimit (net : Network) (x : NodeId) (limit : Option Nat) : Network :=
  net.modifyNode x (Node.withLimit limit)

namespace Member

variable {x : NodeId} {limit : Option Nat}

theorem withLimit_of_ne {n : Member} (h : n.id ≠ x) : n.withLimit x limit = n := if_neg h

@[simp] theorem segment_withLimit (n : Member) :
    (n.withLimit x limit).station.segment = n.station.segment := by
  unfold withLimit
  split <;> rfl

end Member

namespace Directory

variable {d : Directory} {x : NodeId} {limit : Option Nat}

theorem member?_withLimit (id : NodeId) :
    (d.withLimit x limit).member? id = (d.member? id).map (Member.withLimit x limit) := by
  unfold member? withLimit
  cases d id with
  | none => split <;> rfl
  | some s => by_cases h : id = x <;> simp [h, Member.withLimit]

/-- A station keeps its neighbors. -/
theorem neighbors_withLimit (s : Station) :
    (d.withLimit x limit).neighbors s = (d.neighbors s).map (Member.withLimit x limit) := by
  simp only [neighbors, RouteTable.live, List.map_filterMap]
  congr 1
  funext segment
  simp only [RouteTable.bySegment]
  cases s.routes.neighbors.get? segment with
  | none => rfl
  | some id => exact member?_withLimit id

/-- If the node is not among the neighbors of a station then nothing changes for the station. -/
theorem neighbors_withLimit_of_ne {s : Station} (h : ∀ n ∈ d.neighbors s, n.id ≠ x) :
    (d.withLimit x limit).neighbors s = d.neighbors s := by
  rw [neighbors_withLimit]
  exact (List.map_congr_left fun n hn => Member.withLimit_of_ne (h n hn)).trans (List.map_id _)

end Directory

namespace Call

variable {d : Directory} {x : NodeId} {limit : Option Nat} {c : Call}

/-- A neighbor makes the same calls if none of them is to the node. -/
theorem next_withLimit (h : ∀ c' ∈ c.next d, c'.target.id ≠ x) :
    c.next (d.withLimit x limit) = c.next d := by
  unfold next at h ⊢
  split
  · rfl
  rename_i hcalls
  rw [if_neg hcalls] at h
  cases hhops : c.envelope.hopCount.toNat with
  | zero => rfl
  | succ hops =>
    rw [hhops] at h
    simp only [Directory.copies, List.forall_mem_map] at h ⊢
    rw [Directory.neighbors_withLimit, List.filter_map, List.map_map]
    simp only [Function.comp_def, Member.segment_withLimit]
    refine List.map_congr_left fun n hn => ?_
    rw [Member.withLimit_of_ne (h n hn)]

/-- What comes of a call does not depend on the medium of a node on the segment that the broadcast
comes from. -/
theorem Outward.events_withLimit {s : Station} (routed : d.Routed) (hs : d x = some s)
    (h : c.Outward d s.segment) : c.events (d.withLimit x limit) = c.events d := by
  -- Every call that is made in turn has fewer hops left.
  induction hn : c.envelope.hopCount.toNat using Nat.strongRecOn generalizing c with
  | ind n ih =>
    have hnext : ∀ c' ∈ c.next d, c'.Outward d s.segment := fun c' hc' => h.of_mem_next routed hc'
    have hother : ∀ c' ∈ c.next d, c'.target.id ≠ x := by
      rintro c' hc' rfl
      have htarget := Directory.apply_of_mem_neighbors (hnext c' hc').neighbor
      rw [hs] at htarget
      cases htarget
      exact (hnext c' hc').origin rfl
    rw [events_eq, events_eq, next_withLimit hother]
    congr 2
    refine List.flatMap_congr fun c' hc' => ?_
    have hhops := hopCount_of_mem_next hc'
    exact ih _ (by omega) (hnext c' hc') rfl

end Call

namespace Directory

variable {d : Directory} {limit : Option Nat} {m : Member} {msg : Message}

/-- A station hands a message to the same neighbors, whatever its medium takes. -/
theorem audience_withLimit (routed : d.Routed) (station : d m.id = some m.station) :
    (d.withLimit m.id limit).audience (m.station.withLimit limit) msg = d.audience m.station msg := by
  have hneighbors : (d.withLimit m.id limit).neighbors m.station = d.neighbors m.station := by
    apply neighbors_withLimit_of_ne
    intro n hn hid
    have hsame := apply_of_mem_neighbors hn
    rw [hid, station, Option.some.injEq] at hsame
    exact (routed.segment_ne_of_mem station hn).2.2 (by rw [hsame])
  unfold audience
  split
  · rfl
  · exact hneighbors

/-- What comes of handing a message to neighbors does not depend on the medium of the station. -/
theorem handOver_withLimit (routed : d.Routed) (station : d m.id = some m.station)
    {sender : Address} (address : m.station.address = .ok sender) {neighbors : List Member}
    (h : ∀ n ∈ neighbors, n ∈ d.neighbors m.station) :
    (d.withLimit m.id limit).handOver ⟨m.id, m.station.withLimit limit⟩ msg sender neighbors =
      d.handOver m msg sender neighbors := by
  rw [handOver_eq_flatMap_events, handOver_eq_flatMap_events, List.flatMap_map, List.flatMap_map]
  refine List.flatMap_congr fun n hn => ?_
  -- Of the station that calls, only its name and its segment go into what comes of the call.
  show (msg.call m sender n).events (d.withLimit m.id limit) = (msg.call m sender n).events d
  exact (outward_call routed station address (h n hn)).events_withLimit routed station

/-- A send for every segment breaks off before anything happens, or the station puts the message onto
its segment after it was handed to the neighbors. -/
theorem sendEverywhere_withLimit (routed : d.Routed) (station : d m.id = some m.station)
    (msg : Message) :
    (∃ overlong, d.sendEverywhere m msg = .brokenOff overlong) ∨
    ∃ handed, d.sendEverywhere m msg = (m.put msg msg.header none).after handed ∧
      ∀ limit, (d.withLimit m.id limit).sendEverywhere ⟨m.id, m.station.withLimit limit⟩ msg =
        (Member.put ⟨m.id, m.station.withLimit limit⟩ msg msg.header none).after handed := by
  simp only [sendEverywhere, audience_withLimit routed station]
  cases haudience : d.audience m.station msg with
  | nil => exact Or.inr ⟨[], rfl, fun _ => rfl⟩
  | cons first rest =>
    cases haddress : m.station.address with
    | error overlong => exact Or.inl ⟨overlong, rfl⟩
    | ok sender =>
      refine Or.inr ⟨_, rfl, fun limit => ?_⟩
      have hsame : (m.station.withLimit limit).address = .ok sender := haddress
      have hneighbors : ∀ n ∈ first :: rest, n ∈ d.neighbors m.station := fun n hn =>
        mem_neighbors_of_mem_audience (haudience ▸ hn)
      simp only [hsame, handOver_withLimit routed station haddress hneighbors]

end Directory

namespace Member

/-- A medium that does not take the frame of a message refuses it. -/
theorem put_of_not_takes {m : Member} (msg : Message) {header : Header}
    (takes : ¬ m.station.attachment.Takes (header.bytes ++ msg.payload).length)
    (router : Option Bytes) : m.put msg header router =
      .refused (.frameTooLarge (header.bytes ++ msg.payload).length) := by
  have hemit : m.emit (msg.transmission header router) =
      .error (.frameTooLarge (header.bytes ++ msg.payload).length) := if_neg takes
  simp only [put, hemit]

end Member

namespace Network

variable {net : Network} {x id : NodeId} {limit : Option Nat}

/-! ## Events on another medium -/

/-- Changes to nodes that do not touch each other can be made in either order. -/
theorem modifyNode_comm (net : Network) (id id' : NodeId) {f g : Node → Node}
    (h : ∀ n, f (g n) = g (f n)) :
    (net.modifyNode id' g).modifyNode id f = (net.modifyNode id f).modifyNode id' g := by
  have hnodes : (net.nodes.modify id' fun n => n.map g).modify id (fun n => n.map f) =
      (net.nodes.modify id fun n => n.map f).modify id' fun n => n.map g := by
    apply List.ext_getElem?
    intro i
    simp only [List.getElem?_modify]
    cases net.nodes[i]? with
    | none => simp
    | some n =>
      by_cases hf : id = i <;> by_cases hg : id' = i <;> simp [hf, hg, Function.comp_def, h]
  simp only [modifyNode, hnodes]

theorem node?_withLimit (net : Network) (x : NodeId) (limit : Option Nat) (id : NodeId) :
    (net.withLimit x limit).node? id =
      if id = x then (net.node? id).map (Node.withLimit limit) else net.node? id :=
  node?_modifyNode ..

/-- A node is found with all that belongs to it but the limit. -/
theorem exists_node?_withLimit {n : Node} (x : NodeId) (limit : Option Nat)
    (hn : net.node? id = some n) : ∃ s : Station,
      (net.withLimit x limit).node? id = some { n with station := s } ∧
        s.attachment.mac = n.station.attachment.mac := by
  rw [node?_withLimit, hn]
  by_cases hx : id = x
  · exact ⟨n.station.withLimit limit, if_pos hx, rfl⟩
  · exact ⟨n.station, if_neg hx, rfl⟩

theorem directory_withLimit (net : Network) (x : NodeId) (limit : Option Nat) :
    (net.withLimit x limit).directory = net.directory.withLimit x limit := by
  funext id
  simp only [directory, node?_withLimit, Directory.withLimit]
  split
  · cases net.node? id <;> rfl
  · rfl

/-- A change that neither looks at the limit nor touches it can be made on either medium. -/
theorem modifyNode_withLimit (net : Network) (x id : NodeId) (limit : Option Nat) {f : Node → Node}
    (h : ∀ n : Node, f (n.withLimit limit) = (f n).withLimit limit) :
    (net.withLimit x limit).modifyNode id f = (net.modifyNode id f).withLimit x limit :=
  modifyNode_comm net id x h

theorem consumer_withLimit (net : Network) (x id : NodeId) (limit : Option Nat) :
    ((net.withLimit x limit).node? id).bind (·.consumer) = (net.node? id).bind (·.consumer) := by
  rw [node?_withLimit]
  split
  · cases net.node? id <;> rfl
  · rfl

theorem consume_withLimit (net : Network) (x id : NodeId) (limit : Option Nat) (e : Envelope)
    (c : Consumer) :
    (net.withLimit x limit).consume id e c = (net.consume id e c).withLimit x limit := by
  cases c with
  | collector items => exact modifyNode_withLimit net x id limit fun _ => rfl
  | dedicated t => exact modifyNode_withLimit net x id limit fun _ => rfl
  | shared pool t =>
    unfold consume
    dsimp only
    cases t.deliver e <;> rfl

theorem arrive_withLimit (net : Network) (x id : NodeId) (limit : Option Nat) (e : Envelope) :
    (net.withLimit x limit).arrive id e = (net.arrive id e).withLimit x limit := by
  unfold arrive
  rw [consumer_withLimit]
  cases (net.node? id).bind (·.consumer) with
  | none => exact modifyNode_withLimit net x id limit fun _ => rfl
  | some consumer =>
    dsimp only
    rw [← consume_withLimit]
    congr 1
    exact modifyNode_withLimit net x id limit fun _ => rfl

theorem transmit_withLimit (net : Network) (x id : NodeId) (limit : Option Nat) (t : Transmission) :
    (net.withLimit x limit).transmit id t = (net.transmit id t).withLimit x limit := by
  unfold transmit
  cases hn : net.node? id with
  | none => simp [node?_withLimit, hn]
  | some n =>
    obtain ⟨s, hs, hmac⟩ := exists_node?_withLimit x limit hn
    simp only [hs, hmac]
    cases n.medium with
    | wire attached sent => exact modifyNode_withLimit net x id limit fun _ => rfl
    | tap link counts =>
      let counted (n : Node) : Node :=
        { n with medium := .tap link { counts with bytesOut := counts.bytesOut + t.frame.length } }
      have hnode : (net.withLimit x limit).modifyNode id counted =
          (net.modifyNode id counted).withLimit x limit :=
        modifyNode_withLimit net x id limit fun _ => rfl
      exact congrArg (fun net : Network => net.modifyLink link fun l =>
        l.accept n.station.attachment.mac t) hnode

/-- An event does the same whatever the medium of a node takes. -/
theorem apply_withLimit (net : Network) (x : NodeId) (limit : Option Nat) (event : Event) :
    (net.withLimit x limit).apply event = (net.apply event).withLimit x limit := by
  cases event with
  | handed id length =>
    refine modifyNode_withLimit net x id limit fun n => ?_
    obtain ⟨station, medium, _⟩ := n
    cases medium <;> rfl
  | received id => exact modifyNode_withLimit net x id limit fun _ => rfl
  | dropped id => exact modifyNode_withLimit net x id limit fun _ => rfl
  | arrived id e => exact arrive_withLimit net x id limit e
  | relayed source target ingress recipient e broadcast =>
    exact modifyNode_withLimit net x source limit fun _ => rfl
  | transmitted id t => exact transmit_withLimit net x id limit t
  | reported id fault =>
    refine modifyNode_withLimit net x id limit fun n => ?_
    obtain ⟨station, medium, keepsFaults, _⟩ := n
    cases keepsFaults <;> rfl

/-- Events do the same whatever the medium of a node takes. -/
theorem applyAll_withLimit (net : Network) (x : NodeId) (limit : Option Nat)
    (events : List Event) :
    (net.withLimit x limit).applyAll events = (net.applyAll events).withLimit x limit := by
  induction events generalizing net with
  | nil => rfl
  | cons event rest ih =>
    show ((net.withLimit x limit).apply event).applyAll rest = _
    rw [apply_withLimit, ih]
    rfl

/-! ## What a failed send has done -/

/-- The networks differ at most in the medium of one node and in the link it is tapped to. -/
structure AgreesBut (x : NodeId) (net net' : Network) : Prop where
  /-- Other nodes have done the same and had the same done to them. -/
  others : ∀ id ≠ x, net'.node? id = net.node? id
  /-- The node itself has, apart from its medium. -/
  own : ∀ n, net.node? x = some n →
    ∃ limit medium, net'.node? x = some { n.withLimit limit with medium }
  /-- The same frames wait on other links. -/
  links : ∀ k, (∀ n, net.node? x = some n → n.medium.link? ≠ some k) → net'.link? k = net.link? k
  /-- The same jobs wait on pools. -/
  pools : net'.pools = net.pools
  /-- It is the same time. -/
  now : net'.now = net.now

/-- A node that hands a frame to its medium changes no other node and nothing else of its own, and no
link but the one it is tapped to. -/
theorem exists_transmit_eq (net : Network) (id : NodeId) (t : Transmission) :
    ∃ (medium : Node → Medium) (links : List Link),
      net.transmit id t = { net.modifyNode id fun n => { n with medium := medium n } with links } ∧
      ∀ k : LinkId, (∀ n, net.node? id = some n → n.medium.link? ≠ some k) →
        links[k]? = net.links[k]? := by
  unfold transmit
  cases hn : net.node? id with
  | none => exact ⟨Node.medium, net.links, (modifyNode_of_none hn _).symm, fun _ _ => rfl⟩
  | some n =>
    dsimp only
    split
    · exact ⟨fun _ => _, net.links, rfl, fun _ _ => rfl⟩
    · rename_i link counts hmedium
      refine ⟨fun _ => _, _, rfl, fun k hk => ?_⟩
      have hne : link ≠ k := fun h => hk n rfl (by rw [hmedium, h]; rfl)
      rw [List.getElem?_modify]
      simp [hne, modifyNode]

/-- A node on another medium hands a frame to it. -/
theorem agreesBut_transmit (net : Network) (x : NodeId) (limit : Option Nat) (t : Transmission) :
    net.AgreesBut x ((net.withLimit x limit).transmit x t) := by
  obtain ⟨medium, links, htransmit, hlinks⟩ := exists_transmit_eq (net.withLimit x limit) x t
  have hnode : ∀ id, ((net.withLimit x limit).transmit x t).node? id = if id = x then
      (net.node? id).map fun n => { n.withLimit limit with medium := medium (n.withLimit limit) }
      else net.node? id := by
    intro id
    rw [htransmit]
    refine (node?_modifyNode _ x id _).trans ?_
    rw [node?_withLimit]
    split
    · rw [Option.map_map]
      rfl
    · rfl
  constructor
  · intro id hid
    rw [hnode, if_neg hid]
  · intro n hn
    exact ⟨limit, _, by rw [hnode, if_pos rfl, hn, Option.map_some]⟩
  · intro k hk
    rw [htransmit]
    refine hlinks k fun limited hlimited => ?_
    rw [node?_withLimit, if_pos rfl] at hlimited
    obtain ⟨n, hn, rfl⟩ := Option.map_eq_some_iff.mp hlimited
    exact hk n hn
  · rw [htransmit]
    rfl
  · rw [htransmit]
    rfl

theorem send_everywhere {m : Member} {msg : Message} (hm : net.member? id = some m)
    (everywhere : msg.recipient.isGlobal = true) :
    net.send id msg = ((net.directory.sendEverywhere m msg).result,
      net.applyAll (net.directory.sendEverywhere m msg).events) := by
  simp only [send, call, hm, Directory.send, everywhere, ite_true]

/-- A send for every segment breaks off before anything happens, or hands the message to the
neighbors, whatever the medium takes, before the message is put onto it. -/
theorem send_withLimit {s : Station} {msg : Message} (reachable : net.Reachable)
    (hs : net.directory id = some s) (everywhere : msg.recipient.isGlobal = true) :
    (∃ overlong, net.send id msg = (.error (.overlong overlong), net)) ∨
    ∃ handed : List Event, net.send id msg = ((Member.put ⟨id, s⟩ msg msg.header none).result,
        (net.applyAll handed).applyAll (Member.put ⟨id, s⟩ msg msg.header none).events) ∧
      ∀ limit, (net.withLimit id limit).send id msg =
        ((Member.put ⟨id, s.withLimit limit⟩ msg msg.header none).result,
          ((net.applyAll handed).withLimit id limit).applyAll
            (Member.put ⟨id, s.withLimit limit⟩ msg msg.header none).events) := by
  have hm : net.member? id = some ⟨id, s⟩ := Option.map_eq_some_iff.mpr ⟨s, hs, rfl⟩
  rcases Directory.sendEverywhere_withLimit (m := ⟨id, s⟩) reachable.routed.directory hs msg with
    ⟨overlong, hoff⟩ | ⟨handed, hhere, hthere⟩
  · exact Or.inl ⟨overlong, by rw [send_everywhere hm everywhere, hoff]; rfl⟩
  refine Or.inr ⟨handed, ?_, fun limit => ?_⟩
  · rw [send_everywhere hm everywhere, hhere, Run.after, applyAll, List.foldl_append]
    rfl
  · have hlimited : (net.withLimit id limit).member? id = some ⟨id, s.withLimit limit⟩ := by
      rw [member?, directory_withLimit, Directory.member?, Directory.withLimit, if_pos rfl, hs]
      rfl
    rw [send_everywhere hlimited everywhere, directory_withLimit, hthere, Run.after, applyAll,
      List.foldl_append, ← applyAll_withLimit]
    rfl

/-- A send for one segment that fails changes nothing. -/
theorem send_eq_self_of_error {msg : Message} {failure : Failure}
    (single : msg.recipient.isGlobal = false) (h : (net.send id msg).1 = .error failure) :
    (net.send id msg).2 = net := by
  unfold send call at h ⊢
  split at h
  · cases h
  · simp only [Directory.events_send_eq_nil_of_error single h]
    rfl

/-- A router that is named for a message to every segment is passed over. -/
theorem send_router {msg : Message} (everywhere : msg.recipient.isGlobal = true)
    (router : Option Address) : net.send id { msg with router } = net.send id msg := by
  have hsend : ∀ (d : Directory) (m : Member), d.send m { msg with router } = d.send m msg := by
    intro d m
    rw [Directory.send, Directory.send, if_pos everywhere, if_pos everywhere]
    rfl
  simp only [send, hsend]

/-- A send for one segment that fails changes nothing. A send for every segment, for which it does
not matter whether a router is named, breaks off before anything happens, or fails because the medium
of the station refuses the frame. Then it has done all that it would have done on a medium that takes
the frame, short of handing the frame to it. -/
theorem failed_send (reachable : net.Reachable) (id : NodeId) (msg : Message) :
    (msg.recipient.isGlobal = false → ∀ failure, (net.send id msg).1 = .error failure →
      (net.send id msg).2 = net) ∧
    (msg.recipient.isGlobal = true →
      (∀ router, net.send id { msg with router } = net.send id msg) ∧
      ∀ failure, (net.send id msg).1 = .error failure →
        (∃ overlong, failure = .overlong overlong ∧ (net.send id msg).2 = net) ∨
        ∃ m fault, failure = .fault fault ∧ net.member? id = some m ∧
          m.emit (msg.transmission msg.header none) = .error fault ∧
          ∀ limit, (m.station.withLimit limit).attachment.Takes
              (msg.transmission msg.header none).frame.length →
            (net.withLimit id limit).send id msg =
              (.ok (), ((net.send id msg).2.withLimit id limit).transmit id
                (msg.transmission msg.header none)) ∧
            (net.send id msg).2.AgreesBut id ((net.withLimit id limit).send id msg).2) := by
  refine ⟨fun single failure => send_eq_self_of_error single,
    fun everywhere => ⟨send_router everywhere, fun failure hfailure => ?_⟩⟩
  cases hs : net.directory id with
  | none =>
    rw [send, call, member?, Directory.member?, hs] at hfailure
    cases hfailure
  | some s =>
    have hm : net.member? id = some ⟨id, s⟩ := Option.map_eq_some_iff.mpr ⟨s, hs, rfl⟩
    rcases send_withLimit reachable hs everywhere with ⟨overlong, hoff⟩ | ⟨handed, hhere, hthere⟩
    · rw [hoff] at hfailure ⊢
      cases hfailure
      exact Or.inl ⟨overlong, rfl, rfl⟩
    by_cases takes : s.attachment.Takes (msg.transmission msg.header none).frame.length
    · rw [hhere, Member.put_of_takes msg takes] at hfailure
      cases hfailure
    rw [Member.put_of_not_takes msg takes] at hhere
    rw [hhere] at hfailure ⊢
    cases hfailure
    refine Or.inr ⟨⟨id, s⟩, _, rfl, hm, if_neg takes, fun limit htakes => ?_⟩
    have hdone := hthere limit
    rw [Member.put_of_takes msg htakes] at hdone
    rw [hdone]
    exact ⟨rfl, agreesBut_transmit _ _ _ _⟩

/-- A station of `narrows`. -/
private def narrowsStation (segment : Segment) (limit : Option Nat) (routes : RouteTable NodeId) :
    Station where
  segment
  attachment := { wireAttachment [segment.toUInt8] none with maxFrameLength := limit }
  routes

/-- A router on a medium that takes two bytes, and a neighbor on one that takes any number. -/
def narrows : Network where
  nodes := [narrowsStation 1 (some 2) ⟨1, ⟨[(2, 1)]⟩, [some 2]⟩,
    narrowsStation 2 none { home := 2 }].map fun station =>
      some { station, medium := .wire false [], keepsFaults := true }

private theorem reachable_narrows : narrows.Reachable := by
  have hone := Reachable.empty.addNode
    (rfl : Network.addNode {} 1 (narrowsStation 1 (some 2) { home := 1 }).attachment
      (.wire false []) true = .ok (0, _))
  have htwo := hone.addNode
    (rfl : Network.addNode _ 2 (wireAttachment [2] none) (.wire false []) true = .ok (1, _))
  exact htwo.addRoute (rfl : Network.addRoute _ 0 1 = .ok (1, _))

/-- The router of `narrows` sends three bytes to its own segment in vain, and to every segment only as
far as its neighbor. -/
theorem failed_send_narrows :
    (narrows.send 0 { recipient := .all 1, payload := [9] }).1 =
      .error (.fault (.frameTooLarge 3)) ∧
    (narrows.send 0 { recipient := .all 1, payload := [9] }).2 = narrows ∧
    (narrows.send 0 { recipient := .everywhere, payload := [9] }).1 =
      .error (.fault (.frameTooLarge 3)) ∧
    ((narrows.withLimit 0 none).send 0 { recipient := .everywhere, payload := [9] }).1 = .ok () ∧
    (narrows.send 0 { recipient := .everywhere, payload := [9] }).2.AgreesBut 0
      ((narrows.withLimit 0 none).send 0 { recipient := .everywhere, payload := [9] }).2 ∧
    ((narrows.send 0 { recipient := .everywhere, payload := [9] }).2.node? 1).map Node.medium =
      some (.wire false [⟨.everywhere, none, [1, 0x28, 0xff, 0xff, 0, 0, 1, 1, 1, 255, 9], false,
        false⟩]) := by
  have hlocal : (narrows.send 0 { recipient := .all 1, payload := [9] }).1 =
      .error (.fault (.frameTooLarge 3)) := by decide +kernel
  have hglobal : (narrows.send 0 { recipient := .everywhere, payload := [9] }).1 =
      .error (.fault (.frameTooLarge 3)) := by decide +kernel
  have hunchanged := (failed_send reachable_narrows 0 { recipient := .all 1, payload := [9] }).1
    rfl _ hlocal
  rcases ((failed_send reachable_narrows 0 { recipient := .everywhere, payload := [9] }).2 rfl).2 _
    hglobal with ⟨overlong, hoff, -⟩ | ⟨m, fault, -, -, -, hdone⟩
  · cases hoff
  obtain ⟨hcomplete, hagrees⟩ := hdone none (by simp [Attachment.Takes, Station.withLimit])
  refine ⟨hlocal, hunchanged, hglobal, ?_, hagrees, by decide +kernel⟩
  rw [hcomplete]

end Network

end Fieldbus
