import Fieldbus.RouteTable
import Fieldbus.RouterTable
import Fieldbus.Transmission

/-!
# Stations

A station is attached to one segment and routes between it and the segments of its neighbors:
stations of the same process that it holds routes to. `Station` is what routing looks at and
never changes while a frame is handled; a `Directory` finds stations by the name of their
node, and a `Member` is a station together with that name.
-/

namespace Fieldbus

/-- The name of a node in its network. -/
abbrev NodeId := Nat

/-- What routing looks at in a node. -/
structure Station where
  /-- The segment the station is on; zero if its number is unknown. -/
  segment : Segment
  /-- How the station is attached to its medium. -/
  attachment : Attachment
  /-- The routes to neighbors. -/
  routes : RouteTable NodeId
  /-- The routers that announced themselves on the medium. -/
  routers : RouterTable := {}
  /-- The station has been terminated and ignores frames and relays. -/
  terminated : Bool := false
  deriving DecidableEq, Repr

namespace Station

/-- A new station without routes; the global segment has no stations. -/
def make (segment : Segment) (attachment : Attachment) : Except Fault Station :=
  if segment = Segment.everywhere then .error (.invalidSegment segment)
  else .ok { segment, attachment, routes := { home := segment } }

/-- The address of the station. -/
def address (s : Station) : Except Overlong Address :=
  Address.of s.segment (some s.attachment.mac)

/-- The address that reaches every node of the station's medium. -/
def broadcastAddress (s : Station) : Except Overlong Address :=
  Address.of s.segment (some s.attachment.broadcastMac)

/-- The address is on the station's segment. -/
def shares (s : Station) (a : Address) : Bool :=
  a.isHere || a.segment == s.segment

/-- The address reaches the station: it names every node of the segment or one of the
sub-addresses the station answers to. -/
def answersTo (s : Station) (a : Address) : Bool :=
  s.shares a && match a.mac with
    | none => true
    | some mac => s.attachment.macs.contains mac

/-- A sender's address as it is seen from other segments. -/
def departing (s : Station) (sender : Address) : Address :=
  if sender.isHere then sender.withSegment s.segment else sender

/-- Notes that a node of the medium routes to some segments. -/
def learn (s : Station) (mac : Bytes) (segments : List Segment) : Station :=
  { s with routers := s.routers.learn s.segment mac segments }

/-- The address of the router announced for a segment. -/
def routerFor (s : Station) (segment : Segment) : Option (Except Overlong Address) :=
  (s.routers.router? segment).map Address.onLink

end Station

/-- Finds stations by the name of their node. -/
abbrev Directory := NodeId → Option Station

/-- A station together with the name of its node. -/
structure Member where
  /-- The name of the node. -/
  id : NodeId
  /-- The station of the node. -/
  station : Station
  deriving DecidableEq, Repr

namespace Directory

/-- The station of a node that still exists. -/
def member? (d : Directory) (id : NodeId) : Option Member :=
  (d id).map (Member.mk id)

/-- The neighbors with a slot that still exist, in slot order. -/
def neighbors (d : Directory) (s : Station) : List Member :=
  s.routes.live d.member?

/-- The neighbor that leads to a segment. -/
def neighborOn? (d : Directory) (s : Station) (segment : Segment) : Option Member :=
  s.routes.bySegment d.member? segment

/-- The neighbor in a slot of the route table. -/
def neighborAt? (d : Directory) (s : Station) (slot : Nat) : Option Member :=
  s.routes.bySlot d.member? slot

end Directory

end Fieldbus
