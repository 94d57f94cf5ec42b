import Fieldbus.Station.Relay

/-!
# Sending

A global message goes to every neighbor and onto the station's own segment, a message for
that segment goes out directly, and a message for a remote segment goes to the neighbor there
or, under a full destination, to the external router that the caller names. Main statement: a
call for a recipient that is not global and that fails has caused nothing
(`events_send_eq_nil_of_error`).
-/

namespace Fieldbus

namespace Directory

/-- Hands a message of the station to some of its neighbors. -/
def handOver (d : Directory) (m : Member) (msg : Message) (sender : Address)
    (neighbors : List Member) : List Event :=
  neighbors.flatMap fun n =>
    .relayed m.id n.id m.station.segment msg.recipient (msg.envelope sender) msg.broadcast ::
      d.relay n m.station.segment msg.recipient (msg.envelope sender) msg.broadcast

/-- The neighbors that get a copy of a global message; the announcement of a segment's number
stays on the segment. -/
def audience (d : Directory) (s : Station) (msg : Message) : List Member :=
  if msg.kind = some .networkNumberIs then [] else d.neighbors s

/-- Sends a message to every segment within reach. -/
def sendEverywhere (d : Directory) (m : Member) (msg : Message) : Run :=
  match d.audience m.station msg with
  | [] => m.put msg msg.header none
  | neighbors =>
    match m.station.address with
    | .error overlong => .brokenOff overlong
    | .ok sender => (m.put msg msg.header none).after (d.handOver m msg sender neighbors)

/-- Sends a message to a remote segment through the neighbor there. -/
def sendAcross (d : Directory) (m : Member) (msg : Message) : Run :=
  match d.neighborOn? m.station msg.recipient.segment with
  | none => .refused (.unroutable msg.recipient.segment)
  | some neighbor =>
    match m.station.address with
    | .error overlong => .brokenOff overlong
    | .ok sender => { events := d.handOver m msg sender [neighbor] }

/-- Sends a message.

A router that is the station itself counts as none. -/
def send (d : Directory) (m : Member) (msg : Message) : Run :=
  if msg.recipient.isGlobal then d.sendEverywhere m msg
  else if m.station.shares msg.recipient then
    if msg.router.isSome then .refused (.routerForLocalRecipient msg.recipient)
    else m.put msg msg.header none
  else
    match msg.router.filter fun r => !m.station.answersTo r with
    | none => d.sendAcross m msg
    | some router => m.put msg msg.routedHeader router.mac

/-- A message that the medium refuses has caused nothing. -/
theorem events_put_eq_nil_of_error {m : Member} {msg : Message} {h : Header}
    {router : Option Bytes} {f : Failure} (hf : (m.put msg h router).result = .error f) :
    (m.put msg h router).events = [] := by
  unfold Member.put at hf ⊢
  generalize m.emit (msg.transmission h router) = r at hf ⊢
  cases r with
  | ok event => cases hf
  | error fault => rfl

/-- A failed call through a neighbor has caused nothing. -/
theorem events_sendAcross_eq_nil_of_error {d : Directory} {m : Member} {msg : Message}
    {f : Failure} (hf : (d.sendAcross m msg).result = .error f) :
    (d.sendAcross m msg).events = [] := by
  unfold sendAcross at hf ⊢
  generalize d.neighborOn? m.station msg.recipient.segment = n at hf ⊢
  cases n with
  | none => rfl
  | some neighbor =>
    dsimp only at hf ⊢
    generalize m.station.address = a at hf ⊢
    cases a with
    | error overlong => rfl
    | ok sender => cases hf

/-- A failed call for a recipient that is not global has caused nothing. -/
theorem events_send_eq_nil_of_error {d : Directory} {m : Member} {msg : Message} {f : Failure}
    (hg : msg.recipient.isGlobal = false) (hf : (d.send m msg).result = .error f) :
    (d.send m msg).events = [] := by
  unfold send at hf ⊢
  simp only [hg, Bool.false_eq_true, ite_false] at hf ⊢
  by_cases hs : m.station.shares msg.recipient = true
  · simp only [hs, ite_true] at hf ⊢
    by_cases hr : msg.router.isSome = true
    · simp only [hr, ite_true]
      rfl
    · simp only [hr, Bool.false_eq_true, ite_false] at hf ⊢
      exact events_put_eq_nil_of_error hf
  · simp only [hs, Bool.false_eq_true, ite_false] at hf ⊢
    generalize msg.router.filter _ = r at hf ⊢
    cases r with
    | none => exact events_sendAcross_eq_nil_of_error hf
    | some router => exact events_put_eq_nil_of_error hf

end Directory

end Fieldbus
