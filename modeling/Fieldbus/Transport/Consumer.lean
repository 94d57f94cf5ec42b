import Fieldbus.Transport.Dedicated
import Fieldbus.Transport.Pool

/-!
# Consumers

A station hands the envelopes for its node to at most one consumer: a collector, which keeps
what it is given and processes nothing, or a transport above which an application sits.
-/

namespace Fieldbus

/-- Who takes the envelopes for a node. -/
inductive Consumer where
  /-- Keeps what is sent until somebody takes it. -/
  | collector (outgoing : List Outgoing)
  /-- A transport with a worker of its own. -/
  | dedicated (transport : Dedicated)
  /-- A transport on a pool. -/
  | shared (pool : PoolId) (transport : Shared)

/-- The choice of a consumer. -/
inductive ConsumerKind where
  | collector
  | dedicated (application : Application)
  | shared (pool : PoolId) (application : Application)

namespace Consumer

/-- A new consumer, which has not been started. -/
def make (segment : Segment) : ConsumerKind → Consumer
  | .collector => .collector []
  | .dedicated application => .dedicated { dispatcher := { segment, application } }
  | .shared pool application => .shared pool { dispatcher := { segment, application } }

/-- The segment of the station a transport works for; a collector works for none. -/
def segment? : Consumer → Option Segment
  | collector _ => none
  | dedicated t => some t.dispatcher.segment
  | shared _ t => some t.dispatcher.segment

end Consumer

end Fieldbus
