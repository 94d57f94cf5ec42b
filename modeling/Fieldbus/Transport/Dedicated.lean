import Fieldbus.Mailbox
import Fieldbus.Transport.Dispatcher

/-!
# Transports with a worker of their own

A dedicated transport queues what is sent and what is delivered, and its worker repeats three
steps: execute one send, dispatch one envelope, fail the requests that are overdue. Work queued
before the start waits for it. Termination is final: what is still queued is dropped and every
request that is not resolved fails as closed. Main statements: what is queued waits in order
behind what was queued before (`toList_outgoing_submit`, `toList_incoming_deliver`), and nothing
waits after termination (`outgoing_terminate`, `incoming_terminate`).
-/

namespace Fieldbus

/-- A transport with a worker of its own. -/
structure Dedicated where
  /-- What executes sends and sorts deliveries. -/
  dispatcher : Dispatcher
  /-- Sends that wait for the worker. -/
  outgoing : Mailbox Outgoing := ∅
  /-- Deliveries that wait for the worker. -/
  incoming : Mailbox Envelope := ∅
  /-- The worker runs. -/
  running : Bool := false
  /-- The transport has been terminated. -/
  closed : Bool := false

namespace Dedicated

/-- Queues a delivery; a closed transport drops it. -/
def deliver (t : Dedicated) (e : Envelope) : Dedicated :=
  if t.closed then t else { t with incoming := t.incoming.push e }

/-- Queues a send; on a closed transport a request fails at once. -/
def submit (t : Dedicated) (o : Outgoing) : Dedicated × List Act :=
  if t.closed then (t, Outgoing.failAll [o] .closed)
  else ({ t with outgoing := t.outgoing.push o }, [])

/-- Starts the worker, unless the transport is closed. -/
def start (t : Dedicated) : Dedicated :=
  if t.closed then t else { t with running := true }

/-- Stops the worker for good and fails what is unresolved. -/
def terminate (t : Dedicated) : Dedicated × List Act :=
  if t.closed then (t, [])
  else
    let (dispatcher, pending) := t.dispatcher.close
    ({ t with dispatcher, outgoing := ∅, incoming := ∅, running := false, closed := true },
      Outgoing.failAll t.outgoing.toList .closed ++ pending)

/-- The first step of the worker: it executes the oldest send. -/
def executeNext (t : Dedicated) (attempt : Message → Except Failure Unit) (now : Nat) :
    Dedicated × List Act :=
  match t.outgoing.pop with
  | none => (t, [])
  | some (o, outgoing) =>
    let (dispatcher, acts) := t.dispatcher.execute attempt now o
    ({ t with dispatcher, outgoing }, acts)

/-- The second step of the worker: it dispatches the oldest delivery. -/
def dispatchNext (t : Dedicated) : Dedicated × List Act :=
  match t.incoming.pop with
  | none => (t, [])
  | some (e, incoming) =>
    let (dispatcher, acts) := t.dispatcher.dispatch e
    ({ t with dispatcher, incoming }, acts)

/-- The third step of the worker: it fails the requests that are overdue. -/
def sweep (t : Dedicated) (now : Nat) : Dedicated × List Act :=
  let (dispatcher, acts) := t.dispatcher.sweep now
  ({ t with dispatcher }, acts)

/-- The worker runs and has something to do. -/
def isBusy (t : Dedicated) (now : Nat) : Bool :=
  t.running && !(t.outgoing.isEmpty && t.incoming.isEmpty && (t.dispatcher.overdue now).isEmpty)

/-- A send waits behind those queued before it. -/
theorem toList_outgoing_submit {t : Dedicated} (h : t.closed = false) (o : Outgoing) :
    (t.submit o).1.outgoing.toList = t.outgoing.toList ++ [o] := by
  simp [submit, h]

/-- A delivery waits behind those queued before it. -/
theorem toList_incoming_deliver {t : Dedicated} (h : t.closed = false) (e : Envelope) :
    (t.deliver e).incoming.toList = t.incoming.toList ++ [e] := by
  simp [deliver, h]

/-- A closed transport queues no delivery. -/
theorem deliver_of_closed {t : Dedicated} (h : t.closed = true) (e : Envelope) :
    t.deliver e = t := by
  simp [deliver, h]

/-- No send waits after termination. -/
theorem outgoing_terminate {t : Dedicated} (h : t.closed = false) :
    t.terminate.1.outgoing = ∅ := by
  simp [terminate, h]

/-- No delivery waits after termination. -/
theorem incoming_terminate {t : Dedicated} (h : t.closed = false) :
    t.terminate.1.incoming = ∅ := by
  simp [terminate, h]

end Dedicated

end Fieldbus
