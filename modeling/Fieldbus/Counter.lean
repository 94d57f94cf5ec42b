/-!
# Counters and their exposition

A station counts the frames it handles, and an attachment to a link the bytes that pass it.
`Counter.exposition` writes counters as the text that monitoring tools collect: for each one
a line of help, a line with its type and its total, and a closing line at the end.
-/

namespace Fieldbus

/-- What a station counts. -/
structure FrameCounts where
  /-- Frames handed in by the medium. -/
  received : Nat := 0
  /-- Envelopes handed to the consumer. -/
  delivered : Nat := 0
  /-- Envelopes relayed to a neighbor. -/
  forwarded : Nat := 0
  /-- Frames discarded without delivery or relay. -/
  dropped : Nat := 0
  deriving DecidableEq, Repr

/-- What an attachment to a link counts. -/
structure ByteCounts where
  /-- Frame bytes handed to the attached station. -/
  bytesIn : Nat := 0
  /-- Frame bytes accepted for transmission. -/
  bytesOut : Nat := 0
  deriving DecidableEq, Repr

/-- A named total with a sentence that explains it. -/
structure Counter where
  /-- The name within its scope. -/
  name : String
  /-- The explanation, without its full stop. -/
  help : String
  /-- The total so far. -/
  total : Nat
  deriving DecidableEq, Repr

namespace Counter

/-- The three lines of one counter, named within a scope if there is one. -/
def lines (scope : Option String) (c : Counter) : String :=
  let name := match scope with
    | some s => s ++ "_" ++ c.name
    | none => c.name
  "# HELP " ++ name ++ " " ++ c.help ++ ".\n" ++
    "# TYPE " ++ name ++ " counter\n" ++
    name ++ "_total " ++ toString c.total ++ "\n"

/-- All counters in the order given, closed by a line that marks the end. -/
def exposition (scope : Option String) (counters : List Counter) : String :=
  String.join (counters.map (lines scope)) ++ "# EOF\n"

end Counter

/-- The counters of a station. -/
def FrameCounts.counters (m : FrameCounts) : List Counter :=
  [⟨"received", "Number of frames received from the medium", m.received⟩,
    ⟨"delivered", "Number of envelopes delivered to the transport", m.delivered⟩,
    ⟨"forwarded", "Number of envelopes relayed to a neighbor", m.forwarded⟩,
    ⟨"dropped", "Number of frames discarded", m.dropped⟩]

/-- The counters of an attachment. -/
def ByteCounts.counters (m : ByteCounts) : List Counter :=
  [⟨"bytes_in", "Number of frame bytes received", m.bytesIn⟩,
    ⟨"bytes_out", "Number of frame bytes sent", m.bytesOut⟩]

end Fieldbus
