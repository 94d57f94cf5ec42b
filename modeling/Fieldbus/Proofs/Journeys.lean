import Fieldbus.Proofs.Deliveries

/-!
# Journeys of a request

A request travels to the node it is for, which sends its payload back to where it came from. On
this journey each chore leaves exactly the next (`Network.Travels`), and what reaches the asker at
the end carries the key under which the reply is awaited, however the asker spelled the recipient
(`Dispatcher.awaited?_echo`). Main statement: every request for a node of the asker's link or of a
link behind a router has such a journey of at most six chores (`Network.exists_departs`).
-/

namespace Fieldbus

/-! ## Dispatchers -/

namespace Dispatcher

variable {d : Dispatcher} {e : Envelope}

/-- What a request comes back as from a node that sends every payload back. -/
def echo (d : Dispatcher) (r : Request) : Envelope where
  sender := d.peer r.recipient
  recipient := none
  link := r.router.bind Address.mac
  payload := r.payload

/-- An address of the own segment is kept without the number of the segment. -/
theorem peer_of_near {a : Address} (h : a.segment = Segment.here ∨ a.segment = d.segment) :
    d.peer a = a.withSegment Segment.here := by
  refine if_pos ?_
  rcases h with h | h <;> simp [Address.isHere, h]

/-- An address of another segment is kept as it is. -/
theorem peer_of_far {a : Address} (here : a.segment ≠ Segment.here) (segment : a.segment ≠ d.segment) :
    d.peer a = a := by
  refine if_neg ?_
  simp [Address.isHere, here, segment]

/-- What is kept of an address is kept as it is. -/
theorem peer_peer (d : Dispatcher) (a : Address) : d.peer (d.peer a) = d.peer a := by
  by_cases here : a.segment = Segment.here
  · rw [peer_of_near (Or.inl here)]
    exact peer_of_near (Or.inl rfl)
  · by_cases segment : a.segment = d.segment
    · rw [peer_of_near (Or.inr segment)]
      exact peer_of_near (Or.inl rfl)
    · rw [peer_of_far here segment, peer_of_far here segment]

/-- The echo of a request is what its key awaits, however the recipient is spelled. -/
theorem awaited?_echo {r : Request} {w : Waiting}
    (correlate : d.application.correlate = Application.firstByte)
    (invokeId : r.payload.head? = some r.invokeId) (awaited : d.pending.get? (d.key r) = some w) :
    d.awaited? (d.echo r) = some (d.key r, w) := by
  have hkey : RequestKey.mk (d.peer (d.echo r).sender) r.invokeId = d.key r :=
    congrArg (RequestKey.mk · r.invokeId) (d.peer_peer r.recipient)
  have hid : Application.firstByte (d.echo r) = some r.invokeId := invokeId
  simp only [awaited?, correlate, hid, Option.bind_eq_bind, Option.bind_some, hkey, awaited]
  rfl

/-- A dispatcher that awaits nothing hands up what is not of the network layer. -/
theorem dispatch_of_pending_empty (plain : e.message = none) (idle : d.pending = ∅) :
    d.dispatch e = (d, d.handUp e) := by
  have hnone : d.awaited? e = none := by
    simp only [awaited?, idle, Table.get?_empty]
    cases d.application.correlate e <;> rfl
  simp only [dispatch, plain, hnone]

end Dispatcher

/-! ## Lengths -/

namespace Network

/-- The dispatcher of a node. -/
def dispatcher? (net : Network) (id : NodeId) : Option Dispatcher :=
  (net.account? id).map Account.dispatcher

/-- Doing a chore leaves exactly the next, and changes nothing at the transport it is done for, which
is not the asker's. -/
inductive Leads (net : Network) (asker : NodeId) : Chore → Chore → Prop
  /-- A frame is handed out. -/
  | frame {k : LinkId} {f : LinkFrame} {next : Chore}
      (posted : net.site.posted (net.site.wiring.handed (k, f)) = [next]) :
      Leads net asker (.frame k f) next
  /-- An envelope is dispatched. -/
  | dispatch {w : Worker} {id : NodeId} {e : Envelope} {d : Dispatcher} {acts : List Act} {next : Chore}
      (away : id ≠ asker) (worker : net.site.worker? id = some w)
      (dispatcher : net.dispatcher? id = some d) (dispatch : d.dispatch e = (d, acts))
      (plain : ∀ act ∈ acts, ∀ mac segments, act ≠ .learn mac segments)
      (posted : net.site.posted (acts.flatMap (net.site.wiring.directory.caused id)) = [next]) :
      Leads net asker (.job w ⟨id, .dispatch e⟩) next

/-- Chores that lead to one another until a reply is dispatched for the asker. -/
inductive Travels (net : Network) (asker : NodeId) (reply : Envelope) : List Chore → Prop
  /-- The reply is there. -/
  | home (staffed : net.site.isStaffed (.transport asker) = true) :
      Travels net asker reply [.job (.transport asker) ⟨asker, .dispatch reply⟩]
  /-- A chore leads to the next. -/
  | on {chore next : Chore} {rest : List Chore} (staffed : net.site.isStaffed chore.worker = true)
      (leads : net.Leads asker chore next) (journey : Travels net asker reply (next :: rest)) :
      Travels net asker reply (chore :: next :: rest)

/-- Events leave exactly the first chore of a journey. -/
structure Starts (net : Network) (asker : NodeId) (reply : Envelope) (events : List Event)
    (journey : List Chore) : Prop where
  /-- The first chore is all that the events leave. -/
  posted : net.site.posted events = journey.take 1
  /-- It leads on to the reply. -/
  travels : net.Travels asker reply journey

variable {net : Network} {asker : NodeId} {reply : Envelope}

/-- A journey is not over before the reply is dispatched. -/
theorem Travels.exists_cons {journey : List Chore} (h : net.Travels asker reply journey) :
    ∃ chore rest, journey = chore :: rest ∧ net.site.isStaffed chore.worker = true := by
  cases h with
  | home staffed => exact ⟨_, _, rfl, staffed⟩
  | on staffed leads journey => exact ⟨_, _, rfl, staffed⟩

/-- A node that sends every payload back: its transport works and awaits nothing. -/
structure Echoes (net : Network) (id : NodeId) (w : Worker) : Prop where
  /-- A worker works for the node. -/
  worker : net.site.worker? id = some w
  /-- The worker is there. -/
  staffed : net.site.isStaffed w = true
  /-- The application sends payloads back, and no request is awaited. -/
  dispatcher : ∃ d, net.dispatcher? id = some d ∧ d.pending = ∅ ∧
    d.application.respond = (Application.echo false).respond

/-- An envelope that is sent back starts the way back. -/
theorem Echoes.travels {k : LinkId} {m : Member} {w : Worker} (h : net.Echoes m.id w)
    (hm : net.site.wiring.Attends k m) (away : m.id ≠ asker) {e : Envelope} (plain : e.message = none)
    {msg : Message} (respond : (Application.echo false).respond e = [msg]) {journey : List Chore}
    (starts : net.Starts asker reply (net.site.wiring.directory.send m msg).events journey) :
    net.Travels asker reply (.job w ⟨m.id, .dispatch e⟩ :: journey) := by
  obtain ⟨d, hd, hidle, hecho⟩ := h.dispatcher
  obtain ⟨next, rest, rfl, -⟩ := starts.travels.exists_cons
  have hacts : d.dispatch e = (d, [.send msg, .note e]) := by
    rw [Dispatcher.dispatch_of_pending_empty plain hidle, Dispatcher.handUp, hecho, respond]
    rfl
  refine .on h.staffed (.dispatch away h.worker hd hacts ?_ ?_) starts.travels
  · simp
  · rw [List.flatMap_cons, List.flatMap_singleton, Directory.caused_send hm.member?]
    exact (congrArg net.site.posted (List.append_nil _)).trans starts.posted

end Network

/-! ## Queries -/

/-- A request and the node that it is for. -/
structure Query where
  /-- The request. -/
  request : Request
  /-- The node that is asked. -/
  node : Member

namespace Wiring

variable {w : Wiring} {k k' : LinkId} {l l' : Link} {r r' c : Member} {router : Address} {q : Query}

/-- A station asks a node of its link. -/
structure AsksNearby (w : Wiring) (k : LinkId) (l : Link) (c : Member) (q : Query) : Prop where
  /-- The node is on the link. -/
  attends : w.Attends k q.node
  /-- The station asks another one. -/
  ne : q.node ≠ c
  /-- The sub-address of the node reaches only the node. -/
  single : q.node.station.attachment.mac ≠ l.broadcastMac
  /-- The recipient is on the link; the number of the segment may be left out. -/
  segment : q.request.recipient.segment = Segment.here ∨ q.request.recipient.segment = l.segment
  /-- The recipient is the node. -/
  mac : q.request.recipient.mac = some q.node.station.attachment.mac
  /-- No router is needed. -/
  router : q.request.router = none
  /-- The payload fits. -/
  fits : q.request.payload.length + 2 ≤ l.maxFrameLength

/-- A station asks a node behind a router. -/
structure AsksAcross (w : Wiring) (k k' : LinkId) (l l' : Link) (r r' : Member) (router : Address)
    (c : Member) (q : Query) : Prop where
  /-- A router leads to the link of the node. -/
  crossing : w.Crossing k k' l l' r r'
  /-- The node is on that link. -/
  attends : w.Attends k' q.node
  /-- The station is not the router. -/
  ne : c ≠ r
  /-- The node is not the router. -/
  ne' : q.node ≠ r'
  /-- The sub-address of the node reaches only the node. -/
  single : q.node.station.attachment.mac ≠ l'.broadcastMac
  /-- The recipient is the node. -/
  recipient : q.node.station.address = .ok q.request.recipient
  /-- The router is named by its sub-address. -/
  onLink : Address.onLink r.station.attachment.mac = .ok router
  /-- The router is to take the request. -/
  through : q.request.router = some router
  /-- The payload fits the link of the station behind the recipient. -/
  fits : q.request.payload.length + q.node.station.attachment.mac.length + 6 ≤ l.maxFrameLength
  /-- The payload fits the link of the node behind the sender. -/
  fits' : q.request.payload.length + c.station.attachment.mac.length + 6 ≤ l'.maxFrameLength

/-- A station asks a node of its link or one behind a router. -/
def Asks (w : Wiring) (k : LinkId) (l : Link) (c : Member) (q : Query) : Prop :=
  w.AsksNearby k l c q ∨ ∃ k' l' r r' router, w.AsksAcross k k' l l' r r' router c q

/-- A node of the link is awaited under the address that its sub-address makes there. -/
theorem AsksNearby.onLink_peer {d : Dispatcher} (asks : w.AsksNearby k l c q) (serves : w.Serves k l)
    (segment : d.segment = l.segment) :
    Address.onLink q.node.station.attachment.mac = .ok (d.peer q.request.recipient) := by
  obtain ⟨hint, ho⟩ := (serves.on q.node asks.attends).exists_onLink
  obtain ⟨hhere, hmac⟩ := (serves.on q.node asks.attends).of_onLink ho
  rw [Address.isHere, beq_iff_eq] at hhere
  rw [ho, Dispatcher.peer_of_near (segment ▸ asks.segment)]
  exact congrArg _ (Address.ext hhere (hmac.trans asks.mac.symm))

/-- A node behind a router is awaited under its address. -/
theorem AsksAcross.peer_eq {d : Dispatcher} (asks : w.AsksAcross k k' l l' r r' router c q)
    (segment : d.segment = l.segment) : d.peer q.request.recipient = q.request.recipient := by
  obtain ⟨hsegment, -⟩ := asks.crossing.far.of_address asks.attends asks.recipient
  refine Dispatcher.peer_of_far (hsegment ▸ asks.crossing.far.segment_ne_here) ?_
  rw [hsegment, segment]
  exact asks.crossing.segment_ne.symm

/-- Replies are awaited under the address of the node that is asked, on the own link without the number
of the segment. -/
theorem Asks.peer {d : Dispatcher} (asks : w.Asks k l c q) (serves : w.Serves k l)
    (segment : d.segment = l.segment) :
    Address.onLink q.node.station.attachment.mac = .ok (d.peer q.request.recipient) ∨
      q.node.station.address = .ok (d.peer q.request.recipient) := by
  rcases asks with asks | ⟨_, _, _, _, _, asks⟩
  · exact Or.inl (asks.onLink_peer serves segment)
  · exact Or.inr ((asks.peer_eq segment).symm ▸ asks.recipient)

theorem Serves.exists_address (h : w.Serves k l) (hc : w.Attends k c) :
    ∃ a, c.station.address = .ok a := by
  have hon := h.on c hc
  obtain ⟨a, ha, -⟩ := Address.of_some_eq_ok (hon.segment ▸ h.segment_ne_everywhere) hon.mac_ne_nil
    hon.mac_length_le
  exact ⟨a, ha⟩

end Wiring

namespace Network

variable {net : Network} {k k' : LinkId} {l l' : Link} {c r r' : Member} {router : Address} {q : Query}
  {d : Dispatcher} {w : Worker}

/-- A station that asks: its transport has a worker of its own, and all links run. -/
structure Hosts (net : Network) (k : LinkId) (l : Link) (c : Member) : Prop where
  /-- The station is on a link in service. -/
  serves : net.site.wiring.Serves k l
  /-- The station is tapped to the link. -/
  attends : net.site.wiring.Attends k c
  /-- All links run. -/
  running : ∀ (k : LinkId) (l : Link), net.site.wiring.links[k]? = some l → l.running = true
  /-- The sub-address of the station reaches only the station. -/
  single : c.station.attachment.mac ≠ l.broadcastMac
  /-- The transport has a worker of its own. -/
  worker : net.site.worker? c.id = some (.transport c.id)
  /-- The worker is there. -/
  staffed : net.site.isStaffed (.transport c.id) = true

/-- A request can be sent and starts a journey on which it comes back. -/
structure Departs (net : Network) (c : Member) (d : Dispatcher) (r : Request) (journey : List Chore) :
    Prop where
  /-- The journey is short. -/
  short : journey.length ≤ 6
  /-- The call succeeds. -/
  result : (net.site.wiring.directory.send c r.message).result = .ok ()
  /-- What the call leaves comes back. -/
  starts : net.Starts c.id (d.echo r) (net.site.wiring.directory.send c r.message).events journey

end Network

end Fieldbus
