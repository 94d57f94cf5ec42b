import Fieldbus.Fault
import Fieldbus.Message.Basic

/-!
# Sends and confirmed requests

What an application hands to a transport is either a message or a confirmed request: a message
to one recipient whose reply is told apart by an invoke id and awaited until a deadline. Each
request carries a ticket under which its outcome is given back.
-/

namespace Fieldbus

/-- The name under which the outcome of a request is given back. -/
abbrev Ticket := Nat

/-- A span of time in milliseconds. The clock counts seconds in 63 bits, so it can tell the time
that is such a span ahead of the present one; of a span that leads past the last time the clock
can tell no deadline can be made. -/
abbrev Span := Fin UInt64.size

/-- A message whose reply is awaited. -/
structure Request where
  /-- Who is asked. -/
  recipient : Address
  /-- A node of the asker's segment that knows the way to a remote recipient. -/
  router : Option Address
  /-- The request itself. -/
  payload : Bytes
  /-- The number that the reply carries. -/
  invokeId : UInt8
  /-- How long the reply is awaited. -/
  timeout : Span
  /-- The name under which the outcome is given back. -/
  ticket : Ticket
  deriving DecidableEq, Repr

/-- The message that carries a request. -/
def Request.message (r : Request) : Message where
  recipient := r.recipient
  router := r.router
  payload := r.payload
  expectsReply := true

/-- What an application hands to a transport. -/
inductive Outgoing where
  /-- A message that nothing is awaited for. -/
  | message (message : Message)
  /-- A message whose reply is awaited. -/
  | request (request : Request)
  deriving DecidableEq, Repr

/-- How a request ended. -/
inductive Outcome where
  /-- The reply came. -/
  | replied (reply : Envelope)
  /-- The request failed. -/
  | failed (fault : Fault)
  /-- The request was given up without an answer. -/
  | canceled
  deriving DecidableEq, Repr

/-- The ticket of an outgoing request. -/
def Outgoing.ticket? : Outgoing → Option Ticket
  | message _ => none
  | request r => some r.ticket

/-- The tickets of the requests among what waits to be sent, in order. -/
def Outgoing.tickets (items : List Outgoing) : List Ticket :=
  items.filterMap Outgoing.ticket?

end Fieldbus
