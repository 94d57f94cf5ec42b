import Fieldbus.Counter
import Fieldbus.Link
import Fieldbus.Transport.Consumer

/-!
# Networks

A network is made of links, pools and nodes. A node is a station with its medium, its counters
and its consumer, and with what can be observed of it: the frames on its wire, the faults it
reported, the envelopes its consumer took note of and the outcomes of its requests. Names are
positions: nodes, links and pools keep the name they are given when they are added, and the
name of a node that is gone is not given again.
-/

namespace Fieldbus

/-- What a station is attached to. -/
inductive Medium where
  /-- A wire of its own that keeps every transmission and delivers nothing. -/
  | wire (attached : Bool) (sent : List Transmission)
  /-- A tap on a link. -/
  | tap (link : LinkId) (counts : ByteCounts)
  deriving DecidableEq, Repr

/-- A station with all that belongs to it. -/
structure Node where
  /-- What routing looks at. -/
  station : Station
  /-- What the station is attached to. -/
  medium : Medium
  /-- Reported faults are kept. -/
  keepsFaults : Bool
  /-- The faults reported so far. -/
  faults : List Fault := []
  /-- What the station has counted. -/
  counts : FrameCounts := {}
  /-- Who takes the envelopes for the node. -/
  consumer : Option Consumer := none
  /-- The envelopes the present consumer took note of. -/
  noted : List Envelope := []
  /-- The outcomes of requests, in the order in which they became known. -/
  outcomes : List (Ticket × Outcome) := []

/-- Links, pools and the nodes on them. -/
structure Network where
  /-- The nodes by name; an empty place is a node that is gone. -/
  nodes : List (Option Node) := []
  /-- The links by name. -/
  links : List Link := []
  /-- The pools by name. -/
  pools : List Pool := []
  /-- The present time in milliseconds. -/
  now : Nat := 0

namespace Network

/-- The node of a name. -/
def node? (net : Network) (id : NodeId) : Option Node := net.nodes[id]?.join

/-- The link of a name. -/
def link? (net : Network) (id : LinkId) : Option Link := net.links[id]?

/-- The pool of a name. -/
def pool? (net : Network) (id : PoolId) : Option Pool := net.pools[id]?

/-- The nodes that exist. -/
def isAlive (net : Network) (id : NodeId) : Bool := (net.node? id).isSome

/-- The stations of the nodes that exist. -/
def directory (net : Network) : Directory := fun id => (net.node? id).map (·.station)

/-- The station of a node together with its name. -/
def member? (net : Network) (id : NodeId) : Option Member := net.directory.member? id

/-- Changes one node. -/
def modifyNode (net : Network) (id : NodeId) (f : Node → Node) : Network :=
  { net with nodes := net.nodes.modify id fun n => n.map f }

/-- Changes one link. -/
def modifyLink (net : Network) (id : LinkId) (f : Link → Link) : Network :=
  { net with links := net.links.modify id f }

/-- Changes one pool. -/
def modifyPool (net : Network) (id : PoolId) (f : Pool → Pool) : Network :=
  { net with pools := net.pools.modify id f }

/-- Changes the station of one node. -/
def modifyStation (net : Network) (id : NodeId) (f : Station → Station) : Network :=
  net.modifyNode id fun n => { n with station := f n.station }

/-- What a node finds when it looks itself up after a change to some node. -/
theorem node?_modifyNode (net : Network) (id id' : NodeId) (f : Node → Node) :
    (net.modifyNode id f).node? id' =
      if id' = id then (net.node? id').map f else net.node? id' := by
  unfold node? modifyNode
  simp only [List.getElem?_modify]
  by_cases h : id' = id
  · subst h
    cases net.nodes[id']? <;> simp
  · have h' : ¬ id = id' := fun he => h he.symm
    cases net.nodes[id']? <;> simp [h, h']

/-- A change that keeps stations keeps what routing looks at. -/
theorem directory_modifyNode (net : Network) (id : NodeId) {f : Node → Node}
    (h : ∀ n, (f n).station = n.station) : (net.modifyNode id f).directory = net.directory := by
  funext id'
  simp only [directory, node?_modifyNode]
  split
  · cases net.node? id' <;> simp [h]
  · rfl

@[simp] theorem directory_modifyLink (net : Network) (id : LinkId) (f : Link → Link) :
    (net.modifyLink id f).directory = net.directory := rfl

@[simp] theorem directory_modifyPool (net : Network) (id : PoolId) (f : Pool → Pool) :
    (net.modifyPool id f).directory = net.directory := rfl

end Network

end Fieldbus
