import Fieldbus.Network.Basic
import Fieldbus.Station.Discovery
import Fieldbus.Station.Receive

/-!
# Carrying out events and acts

Sending and routing are described by events, and transports say what they want done by acts.
`Network.apply` and `Network.perform` carry them out. Main statement: events change nothing
that routing looks at (`directory_applyAll`), so what a frame causes does not depend on what it
has caused so far.
-/

namespace Fieldbus

namespace Network

/-- Counts something at a node. -/
def count (net : Network) (id : NodeId) (f : FrameCounts → FrameCounts) : Network :=
  net.modifyNode id fun n => { n with counts := f n.counts }

/-- The tap of a node counts the bytes of a frame that is handed to its station. -/
def countIn (net : Network) (id : NodeId) (length : Nat) : Network :=
  net.modifyNode id fun n =>
    match n.medium with
    | .wire .. => n
    | .tap link counts =>
      { n with medium := .tap link { counts with bytesIn := counts.bytesIn + length } }

/-- A node reports a fault. -/
def report (net : Network) (id : NodeId) (fault : Fault) : Network :=
  net.modifyNode id fun n =>
    if n.keepsFaults then { n with faults := n.faults ++ [fault] } else n

/-- The consumer of a node takes note of an envelope. -/
def note (net : Network) (id : NodeId) (e : Envelope) : Network :=
  net.modifyNode id fun n => { n with noted := n.noted ++ [e] }

/-- A request of a node ends. -/
def resolve (net : Network) (id : NodeId) (ticket : Ticket) (outcome : Outcome) : Network :=
  net.modifyNode id fun n => { n with outcomes := n.outcomes ++ [(ticket, outcome)] }

/-- Changes the consumer of a node. -/
def setConsumer (net : Network) (id : NodeId) (consumer : Option Consumer) : Network :=
  net.modifyNode id fun n => { n with consumer }

/-- A job of the transport at a node is queued on a pool. -/
def spawn (net : Network) (pool : PoolId) (owner : NodeId) (job : Nat × Job) : Network :=
  net.modifyPool pool fun p => p.spawn job.1 ⟨owner, job.2⟩

/-- A consumer is handed an envelope. -/
def consume (net : Network) (id : NodeId) (e : Envelope) : Consumer → Network
  | .collector _ => net.note id e
  | .dedicated t => net.setConsumer id (some (.dedicated (t.deliver e)))
  | .shared pool t =>
    match t.deliver e with
    | some job => net.spawn pool id job
    | none => net

/-- An envelope has reached its node; without a consumer it is dropped. -/
def arrive (net : Network) (id : NodeId) (e : Envelope) : Network :=
  match (net.node? id).bind (·.consumer) with
  | none => net.count id fun c => { c with dropped := c.dropped + 1 }
  | some consumer =>
    (net.count id fun c => { c with delivered := c.delivered + 1 }).consume id e consumer

/-- The medium of a node has taken a frame. -/
def transmit (net : Network) (id : NodeId) (t : Transmission) : Network :=
  match net.node? id with
  | none => net
  | some n =>
    match n.medium with
    | .wire attached sent =>
      net.modifyNode id fun n => { n with medium := .wire attached (sent ++ [t]) }
    | .tap link counts =>
      let counts := { counts with bytesOut := counts.bytesOut + t.frame.length }
      (net.modifyNode id fun n => { n with medium := .tap link counts }).modifyLink link
        fun l => l.accept n.station.attachment.mac t

/-- Carries out an event. -/
def apply (net : Network) : Event → Network
  | .handed id length => net.countIn id length
  | .received id => net.count id fun c => { c with received := c.received + 1 }
  | .dropped id => net.count id fun c => { c with dropped := c.dropped + 1 }
  | .arrived id e => net.arrive id e
  | .relayed source .. => net.count source fun c => { c with forwarded := c.forwarded + 1 }
  | .transmitted id t => net.transmit id t
  | .reported id fault => net.report id fault

/-- Carries out events in order. -/
def applyAll (net : Network) (events : List Event) : Network :=
  events.foldl apply net

/-- Carries out what a call at a node causes; nothing is called at a node that is gone. -/
def call (net : Network) (id : NodeId) (f : Directory → Member → Run) :
    Except Failure Unit × Network :=
  match net.member? id with
  | none => (.ok (), net)
  | some m =>
    let run := f net.directory m
    (run.result, net.applyAll run.events)

/-- The result that sending a message from a node has. -/
def attempt (net : Network) (id : NodeId) (msg : Message) : Except Failure Unit :=
  match net.member? id with
  | none => .ok ()
  | some m => (net.directory.send m msg).result

/-- Does what the transport at a node wants done, as far as the calls get that it takes. -/
def perform (id : NodeId) (net : Network) : Act → Network
  | .send msg => (net.call id fun d m => d.send m msg).2
  | .answerRouterQuery query => (net.call id fun d m => d.answerRouterQuery m query).2
  | .answerSegmentQuery query => (net.call id fun d m => d.answerSegmentQuery m query).2
  | .learn mac segments => net.modifyStation id fun s => s.learn mac segments
  | .note e => net.note id e
  | .resolve ticket outcome => net.resolve id ticket outcome

/-- Does in order what the transport at a node wants done. -/
def performAll (net : Network) (id : NodeId) (acts : List Act) : Network :=
  acts.foldl (perform id) net

theorem directory_consume (net : Network) (id : NodeId) (e : Envelope) (c : Consumer) :
    (net.consume id e c).directory = net.directory := by
  cases c with
  | collector _ => exact directory_modifyNode _ _ fun _ => rfl
  | dedicated t => exact directory_modifyNode _ _ fun _ => rfl
  | shared pool t =>
    unfold consume
    dsimp only
    split <;> rfl

/-- An event changes nothing that routing looks at. -/
theorem directory_apply (net : Network) (event : Event) :
    (net.apply event).directory = net.directory := by
  cases event with
  | handed id length =>
    refine directory_modifyNode _ _ fun n => ?_
    split <;> rfl
  | received id => exact directory_modifyNode _ _ fun _ => rfl
  | dropped id => exact directory_modifyNode _ _ fun _ => rfl
  | arrived id e =>
    unfold apply arrive
    dsimp only
    split
    · exact directory_modifyNode _ _ fun _ => rfl
    · rw [directory_consume]
      exact directory_modifyNode _ _ fun _ => rfl
  | relayed source target ingress recipient e broadcast =>
    exact directory_modifyNode _ _ fun _ => rfl
  | transmitted id t =>
    unfold apply transmit
    dsimp only
    split
    · rfl
    · split
      · exact directory_modifyNode _ _ fun _ => rfl
      · exact directory_modifyNode _ _ fun _ => rfl
  | reported id fault =>
    refine directory_modifyNode _ _ fun n => ?_
    split <;> rfl

/-- Events change nothing that routing looks at. -/
@[simp] theorem directory_applyAll (net : Network) (events : List Event) :
    (net.applyAll events).directory = net.directory := by
  induction events generalizing net with
  | nil => rfl
  | cons event rest ih => exact (ih (net.apply event)).trans (directory_apply net event)

end Network

end Fieldbus
