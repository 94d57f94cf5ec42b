import Fieldbus.Mailbox
import Fieldbus.Station.Basic

/-!
# Links

A link is a broadcast medium within the process that stands for one segment. Stations register
under their sub-addresses, and frames are handed out in the order in which they were accepted:
to every registered station, or to the one under the sub-address the frame is for. A station
that is gone may leave its registration behind, so what is registered is judged by who is
`alive`. Main statement: a frame for the broadcast sub-address goes to everybody
(`target_broadcastMac`).
-/

namespace Fieldbus

/-- The name of a link in its network. -/
abbrev LinkId := Nat

/-- A frame on its way across a link. -/
structure LinkFrame where
  /-- The sub-address of the station that sent it. -/
  origin : Bytes
  /-- The sub-address it is for; absent for every station. -/
  target : Option Bytes
  /-- The frame itself. -/
  data : Bytes
  deriving DecidableEq, Repr

/-- A broadcast medium that stands for one segment. -/
structure Link where
  /-- The segment the link stands for. -/
  segment : Segment
  /-- The sub-address that reaches every station. -/
  broadcastMac : Bytes
  /-- The longest frame the link takes. -/
  maxFrameLength : Nat
  /-- The nodes that registered, by sub-address. -/
  registry : Table Bytes NodeId := ∅
  /-- The frames not yet handed out. -/
  queue : Mailbox LinkFrame := ∅
  /-- The worker that hands frames out runs. -/
  running : Bool := false
  deriving DecidableEq, Repr

namespace Link

/-- A new link; none stands for the global segment. -/
def make (segment : Segment) (broadcastMac : Bytes) (maxFrameLength : Nat) : Except Fault Link :=
  if segment = Segment.everywhere then .error (.invalidSegment segment)
  else .ok { segment, broadcastMac, maxFrameLength }

/-- The attachment of a station to the link; it may answer to other sub-addresses than its
own. -/
def attachment (l : Link) (mac : Bytes) (macs : Option (List Bytes)) : Attachment where
  mac
  macs := macs.getD [mac]
  broadcastMac := l.broadcastMac
  maxFrameLength := some l.maxFrameLength

/-- How many registered stations are alive. -/
def registered (l : Link) (alive : NodeId → Bool) : Nat :=
  (l.registry.values.filter alive).length

/-- Registers a node under a sub-address that no living node holds. -/
def register (l : Link) (alive : NodeId → Bool) (segment : Segment) (mac : Bytes) (id : NodeId) :
    Except Fault Link :=
  if segment ≠ l.segment then .error (.wrongSegment l.segment segment)
  else if (l.registry.get? mac).any alive then .error (.duplicateMac mac)
  else .ok { l with registry := l.registry.insert mac id }

/-- Frees a sub-address, whoever holds it. -/
def unregister (l : Link) (mac : Bytes) : Link :=
  { l with registry := l.registry.erase mac }

/-- The sub-address a transmission is for; absent for every station. -/
def target (l : Link) (t : Transmission) : Option Bytes :=
  if t.broadcast || t.recipient.isGlobal then none
  else
    match t.router with
    | some router => some router
    | none => t.recipient.mac.filter fun mac => mac != l.broadcastMac

/-- Queues a frame behind those accepted before. -/
def accept (l : Link) (origin : Bytes) (t : Transmission) : Link :=
  { l with queue := l.queue.push ⟨origin, l.target t, t.frame⟩ }

/-- The living stations a frame is handed to. -/
def recipients (l : Link) (alive : NodeId → Bool) (f : LinkFrame) : List NodeId :=
  match f.target with
  | none => l.registry.values.filter alive
  | some mac => ((l.registry.get? mac).filter alive).toList

/-- Starts the worker. -/
def start (l : Link) : Link := { l with running := true }

/-- Stops the worker and drops the frames it has not handed out; without a worker nothing is
dropped. -/
def terminate (l : Link) : Link :=
  if l.running then { l with queue := ∅, running := false } else l

/-- The worker runs and has a frame to hand out. -/
def isBusy (l : Link) : Bool := l.running && !l.queue.isEmpty

/-- A frame is queued behind those accepted before. -/
@[simp] theorem toList_queue_accept (l : Link) (origin : Bytes) (t : Transmission) :
    (l.accept origin t).queue.toList = l.queue.toList ++ [⟨origin, l.target t, t.frame⟩] := rfl

/-- A registration that succeeds gives the sub-address to the node. -/
theorem registry_of_register {l l' : Link} {alive : NodeId → Bool} {segment : Segment}
    {mac : Bytes} {id : NodeId} (h : l.register alive segment mac id = .ok l') :
    l'.registry = l.registry.insert mac id := by
  unfold register at h
  split at h
  · cases h
  split at h
  · cases h
  · cases h
    rfl

/-- Whoever a frame without target is handed to is registered and alive. -/
theorem mem_recipients_of_target_none {l : Link} {alive : NodeId → Bool} {f : LinkFrame}
    (h : f.target = none) {id : NodeId} :
    id ∈ l.recipients alive f ↔ id ∈ l.registry.values ∧ alive id = true := by
  simp [recipients, h]

/-- A frame with a target is handed to the living node registered under it. -/
theorem mem_recipients_of_target_some {l : Link} {alive : NodeId → Bool} {f : LinkFrame}
    {mac : Bytes} (h : f.target = some mac) {id : NodeId} :
    id ∈ l.recipients alive f ↔ l.registry.get? mac = some id ∧ alive id = true := by
  simp [recipients, h, Option.filter_eq_some_iff]

/-- A frame for the broadcast sub-address that names no router goes to everybody. -/
theorem target_broadcastMac {l : Link} {t : Transmission} (hr : t.router = none)
    (hm : t.recipient.mac = some l.broadcastMac) : l.target t = none := by
  simp [target, hr, hm]

end Link

end Fieldbus
