import Fieldbus.Proofs.Histories
import Fieldbus.Proofs.Termination

/-!
# Assertions

A sub-address of which an address is made has to fit behind a length byte, so has one that is
written, and an envelope from which a hop is taken has to have one left. `Checked` is what a station
does with all of that looked at wherever it has to hold, at the station itself and at every neighbor
it hands an envelope to. Main statement: if the sub-addresses of stations fit, no call ever breaks
off at an assertion, and it does what it does without them (`Network.no_breach`).
-/

namespace Fieldbus

/-- What has to hold and does not. -/
inductive Breach where
  /-- A sub-address does not fit behind a length byte. -/
  | overlong (cause : Overlong)
  /-- A hop is taken where none is left. -/
  | noHops
  deriving DecidableEq, Repr

/-- The sub-addresses of a station fit behind a length byte. -/
structure Attachment.Fits (a : Attachment) : Prop where
  /-- The one that the station has. -/
  mac : a.mac.length ≤ maxMacLength
  /-- The one that reaches every node of the medium. -/
  broadcastMac : a.broadcastMac.length ≤ maxMacLength

/-- If no element is in the way, what is collected is made of all of them. -/
theorem mapM_eq_ok {α β ε : Type} {f : α → Except ε β} {g : α → β} {xs : List α}
    (h : ∀ x ∈ xs, f x = .ok (g x)) : xs.mapM f = .ok (xs.map g) := by
  induction xs with
  | nil => rfl
  | cons x rest ih =>
    rw [List.mapM_cons, h x List.mem_cons_self, ih fun y hy => h y (List.mem_cons_of_mem _ hy)]
    rfl

namespace Checked

/-! ## What stations do -/

/-- The address of a segment and a sub-address, which has to fit. -/
def address (segment : Segment) (mac : Option Bytes) : Except Breach Address :=
  (Address.of segment mac).mapError .overlong

/-- The same sub-address, which has to fit, on another segment. -/
def withSegment (a : Address) (segment : Segment) : Except Breach Address :=
  address segment a.mac

/-- The sender of a copy as it is seen from other segments. -/
def departing (s : Station) (sender : Address) : Except Breach Address :=
  if sender.isHere then withSegment sender s.segment else .ok sender

/-- The sender of an envelope for one segment as it is seen from there. -/
def forwarding (s : Station) (sender : Address) : Except Breach Address :=
  if s.shares sender then withSegment sender s.segment else .ok sender

/-- The frame of a header, the sub-addresses of which have to fit, and a payload. -/
def frame (h : Header) (payload : Bytes) : Except Breach Bytes :=
  (encode h payload).mapError .overlong

/-- One hop less, which has to be there. -/
def oneLess (hopCount : UInt8) : Except Breach UInt8 :=
  if hopCount = 0 then .error .noHops else .ok (hopCount - 1)

/-- Writes a frame and hands it to the medium. -/
def emit (m : Member) (recipient : Address) (router : Option Bytes) (h : Header) (payload : Bytes)
    (broadcast expectsReply : Bool) : Except Breach (Except Fault Event) := do
  let frame ← Checked.frame h payload
  return m.emit { recipient, router, frame, broadcast, expectsReply }

/-- Puts a message onto the medium. -/
def put (m : Member) (msg : Message) (h : Header) (router : Option Bytes) : Except Breach Run := do
  match ← emit m msg.recipient router h msg.payload msg.broadcast msg.expectsReply with
  | .ok event => return { events := [event] }
  | .error fault => return .refused fault

/-- Puts an envelope onto the medium. -/
def putEnvelope (m : Member) (recipient : Address) (e : Envelope) (broadcast : Bool) :
    Except Breach (List Event) := do
  let e := m.station.landing e
  match ← emit m recipient none e.header e.payload broadcast e.expectsReply with
  | .ok event => return [event]
  | .error fault => return [.reported m.id fault]

/-- The hop that is taken was there. -/
theorem toNat_of_oneLess {hopCount hops : UInt8} (h : oneLess hopCount = .ok hops) :
    hops.toNat + 1 = hopCount.toNat := by
  unfold oneLess at h
  split at h
  · cases h
  · rename_i hne
    cases h
    have hz : hopCount.toNat ≠ 0 := fun hz => hne (UInt8.toNat_inj.mp hz)
    have hpos : (1 : UInt8).toNat ≤ hopCount.toNat := Nat.one_le_iff_ne_zero.mpr hz
    rw [UInt8.toNat_sub_of_le _ _ (UInt8.le_iff_toNat_le.mpr hpos)]
    exact Nat.sub_add_cancel hpos

mutual

/-- Passes a global broadcast to every neighbor that is not on a segment of `skip`. -/
def flood (d : Directory) (m : Member) (e : Envelope) (skip : List Segment) :
    Except Breach (List Event) := do
  if e.hopCount = 0 then return []
  let sender ← departing m.station e.sender
  let ahead := (d.neighbors m.station).filter fun n => !skip.contains n.station.segment
  let copies ← ahead.mapM fun n =>
    match _ : oneLess e.hopCount with
    | .error breach => .error breach
    | .ok hopCount => do
      let copy := { e with sender, link := none, hopCount }
      let events ← relay d n m.station.segment Address.everywhere copy true
      return .relayed m.id n.id m.station.segment Address.everywhere copy true :: events
  return copies.flatten
termination_by (e.hopCount.toNat, 0)
decreasing_by
  have := toNat_of_oneLess ‹_›
  exact Prod.Lex.left _ _ (by omega)

/-- What a station does with an envelope its neighbor on segment `ingress` hands it. -/
def relay (d : Directory) (m : Member) (ingress : Segment) (recipient : Address) (e : Envelope)
    (broadcast : Bool) : Except Breach (List Event) := do
  if m.station.terminated then return []
  let passed ←
    if recipient.isGlobal then do
      let copies ← flood d m e [ingress, e.sender.segment]
      pure (copies ++ [.arrived m.id e])
    else pure []
  let put ← putEnvelope m recipient e broadcast
  return passed ++ put
termination_by (e.hopCount.toNat, 1)

end

/-- Hands a message to some neighbors, each of which is told the address of the station. -/
def handOver (d : Directory) (m : Member) (msg : Message) (neighbors : List Member) :
    Except Breach (List Event) := do
  let copies ← neighbors.mapM fun n => do
    let sender ← address m.station.segment (some m.station.attachment.mac)
    let e := msg.envelope sender
    let events ← relay d n m.station.segment msg.recipient e msg.broadcast
    return .relayed m.id n.id m.station.segment msg.recipient e msg.broadcast :: events
  return copies.flatten

/-- Sends a message to every segment within reach. -/
def sendEverywhere (d : Directory) (m : Member) (msg : Message) : Except Breach Run := do
  let copies ← handOver d m msg (d.audience m.station msg)
  let run ← put m msg msg.header none
  return run.after copies

/-- Sends a message to a remote segment through the neighbor there. -/
def sendAcross (d : Directory) (m : Member) (msg : Message) : Except Breach Run :=
  match d.neighborOn? m.station msg.recipient.segment with
  | none => return .refused (.unroutable msg.recipient.segment)
  | some neighbor => return { events := ← handOver d m msg [neighbor] }

/-- Sends a message. -/
def send (d : Directory) (m : Member) (msg : Message) : Except Breach Run :=
  if msg.recipient.isGlobal then sendEverywhere d m msg
  else if m.station.shares msg.recipient then
    if msg.router.isSome then return .refused (.routerForLocalRecipient msg.recipient)
    else put m msg msg.header none
  else
    match msg.router.filter fun r => !m.station.answersTo r with
    | none => sendAcross d m msg
    | some router => put m msg msg.routedHeader router.mac

/-- What a station does with an envelope from its medium. -/
def route (d : Directory) (m : Member) (e : Envelope) (origin : Bytes) :
    Except Breach (List Event) := do
  if Directory.isOwn m.station e origin then return [.dropped m.id]
  match e.recipient.filter fun a => !m.station.answersTo a with
  | none => return [.arrived m.id e]
  | some recipient =>
    if recipient.isGlobal then
      return (← flood d m e [e.sender.segment]) ++ [.arrived m.id e]
    match d.neighborOn? m.station recipient.segment with
    | none => return [.dropped m.id]
    | some n =>
      let sender ← forwarding m.station e.sender
      let e := { e with sender, link := none }
      let events ← relay d n m.station.segment recipient e false
      return .relayed m.id n.id m.station.segment recipient e false :: events

/-- What a station does with a frame that the node `origin` put on its medium. -/
def receive (d : Directory) (m : Member) (frame origin : Bytes) : Except Breach Run :=
  if m.station.terminated then return {}
  else
    match d.parse m.station frame origin with
    | .ok (some e) => return { events := .received m.id :: (← route d m e origin) }
    | .ok none => return { events := [.received m.id, .dropped m.id] }
    | .error (.fault fault) =>
      return { events := [.received m.id, .dropped m.id, .reported m.id fault] }
    | .error (.overlong overlong) => throw (.overlong overlong)

/-- Sends an announcement to every node of the station's medium. -/
def announce (d : Directory) (m : Member) (message : Address → Message) : Except Breach Run := do
  let everyone ← address m.station.segment (some m.station.attachment.broadcastMac)
  send d m (message everyone)

/-- Answers a query for a router. -/
def answerRouterQuery (d : Directory) (m : Member) (e : Envelope) : Except Breach Run :=
  match RouterQuery.reader.run e.payload with
  | .error cause _ => return .refused (.codec (.codec cause))
  | .ok query _ =>
    match d.announced m.station query with
    | [] => return {}
    | segments => announce d m fun everyone => .routerAnnouncement everyone segments

/-- Answers a query for the number of the segment. -/
def answerSegmentQuery (d : Directory) (m : Member) (e : Envelope) : Except Breach Run :=
  if m.station.segment = Segment.here || !e.sender.isHere then return {}
  else announce d m fun everyone => .segmentAnnouncement everyone m.station.segment

/-! ## Nothing breaks off -/

variable {d : Directory} {m : Member}

theorem address_of_parts {segment : Segment} {mac : Option Bytes} {a : Address}
    (h : Address.of segment mac = .ok a) : address segment mac = .ok a := by
  rw [address, h]
  rfl

theorem emit_of_fits {h : Header} (fits : h.Fits) (m : Member) (recipient : Address)
    (router : Option Bytes) (payload : Bytes) (broadcast expectsReply : Bool) :
    emit m recipient router h payload broadcast expectsReply =
      .ok (m.emit ⟨recipient, router, h.bytes ++ payload, broadcast, expectsReply⟩) := by
  rw [emit, frame, encode_of_fits fits]
  rfl

/-- A message is written under either of its headers. -/
theorem put_of_fits {h : Header} (fits : h.Fits) (m : Member) (msg : Message)
    (router : Option Bytes) : put m msg h router = .ok (m.put msg h router) := by
  rw [put, emit_of_fits fits, Member.put, Message.transmission]
  generalize m.emit _ = emitted
  cases emitted <;> rfl

/-- An envelope can always be written. -/
theorem putEnvelope_eq (m : Member) (recipient : Address) (e : Envelope) (broadcast : Bool) :
    putEnvelope m recipient e broadcast = .ok (m.putEnvelope recipient e broadcast) := by
  rw [putEnvelope, emit_of_fits (m.station.landing e).header_fits, Member.putEnvelope,
    Envelope.transmission, Envelope.frame]
  generalize m.emit _ = emitted
  cases emitted <;> rfl

/-- A neighbor does what it does with an envelope if it passes on what it has to. -/
theorem relay_of_flood {e : Envelope}
    (hflood : ∀ m skip, flood d m e skip = .ok (d.flood e.hopCount.toNat m e skip)) (m : Member)
    (ingress : Segment) (recipient : Address) (broadcast : Bool) :
    relay d m ingress recipient e broadcast = .ok (d.relay m ingress recipient e broadcast) := by
  rw [relay, Directory.relay, hflood, putEnvelope_eq]
  split
  · rfl
  · split <;> rfl

/-- Moving an address to another segment always makes an address. -/
theorem withSegment_eq (a : Address) (segment : Segment) :
    withSegment a segment = .ok (a.withSegment segment) :=
  address_of_parts (a.of_withSegment segment)

/-- The sender of a copy has an address on other segments. -/
theorem departing_eq (s : Station) (sender : Address) :
    departing s sender = .ok (s.departing sender) := by
  unfold departing Station.departing
  split
  · exact withSegment_eq sender s.segment
  · rfl

/-- It does not matter whether a sender on the station's segment already has its number. -/
theorem forwarding_eq (s : Station) (sender : Address) :
    forwarding s sender = .ok (s.departing sender) := by
  rw [← departing_eq]
  unfold forwarding departing Station.shares
  by_cases here : sender.isHere = true
  · simp only [here, Bool.true_or, ite_true]
  · by_cases own : sender.segment = s.segment
    · simp only [here, own, BEq.rfl, Bool.or_true, ite_true, Bool.false_eq_true, ite_false]
      exact address_of_parts (own ▸ sender.of_parts)
    · simp [here, own]

/-- The copy that a station passes on. -/
theorem oneLess_eq {hopCount : UInt8} {hops : Nat} (h : hopCount.toNat = hops + 1) :
    oneLess hopCount = .ok hops.toUInt8 := by
  cases hless : oneLess hopCount with
  | error breach =>
    unfold oneLess at hless
    split at hless
    · rename_i hz
      rw [hz] at h
      cases h
    · cases hless
  | ok less =>
    have hlt := hopCount.toNat_lt
    have hnat := toNat_of_oneLess hless
    congr 1
    apply UInt8.toNat_inj.mp
    simp only [Nat.toUInt8_eq, UInt8.toNat_ofNat']
    omega

/-- Passing on takes hops that are there: the induction is on how many are left. -/
theorem flood_eq {hops : Nat} {e : Envelope} (h : e.hopCount.toNat = hops) (m : Member)
    (skip : List Segment) : flood d m e skip = .ok (d.flood hops m e skip) := by
  induction hops generalizing m e skip with
  | zero =>
    have hz : e.hopCount = 0 := UInt8.toNat_inj.mp h
    rw [flood, if_pos hz]
    rfl
  | succ hops ih =>
    have hlt := e.hopCount.toNat_lt
    have hnz : ¬ e.hopCount = 0 := fun hz => by rw [hz] at h; cases h
    have hcopy := e.toNat_hopCount_copyFrom (by omega : hops < 256) m.station
    have hless := oneLess_eq h
    -- Every copy is relayed like any other envelope, with the hops that are left.
    have hrelay (n : Member) := relay_of_flood (d := d) (e := e.copyFrom m.station hops)
      (fun m skip => by rw [hcopy]; exact ih hcopy m skip) n m.station.segment .everywhere true
    rw [flood, if_neg hnz, departing_eq, Directory.flood_eq_flatMap_relay d (by omega)]
    simp only [bind, Except.bind]
    rw [mapM_eq_ok (g := fun n =>
      .relayed m.id n.id m.station.segment Address.everywhere (e.copyFrom m.station hops) true ::
        d.relay n m.station.segment Address.everywhere (e.copyFrom m.station hops) true)]
    · rfl
    · intro n _
      split
      · rename_i hb
        rw [hless] at hb
        cases hb
      · rename_i hb
        rw [hless] at hb
        cases hb
        simp only [Envelope.copyFrom] at hrelay ⊢
        rw [hrelay]
        rfl

/-- A neighbor does what it does with an envelope. -/
theorem relay_eq (d : Directory) (m : Member) (ingress : Segment) (recipient : Address)
    (e : Envelope) (broadcast : Bool) :
    relay d m ingress recipient e broadcast = .ok (d.relay m ingress recipient e broadcast) :=
  relay_of_flood (fun m skip => flood_eq rfl m skip) m ingress recipient broadcast

/-- A message is handed to neighbors if the station has an address. -/
theorem handOver_eq {sender : Address} (hown : m.station.address = .ok sender) (msg : Message)
    (neighbors : List Member) :
    handOver d m msg neighbors = .ok (d.handOver m msg sender neighbors) := by
  rw [handOver, address_of_parts hown, mapM_eq_ok (g := fun n =>
    .relayed m.id n.id m.station.segment msg.recipient (msg.envelope sender) msg.broadcast ::
      d.relay n m.station.segment msg.recipient (msg.envelope sender) msg.broadcast)]
  · rfl
  · intro n _
    simp only [bind, Except.bind, relay_eq]
    rfl

theorem sendEverywhere_eq (fits : m.station.attachment.Fits) (msg : Message) :
    sendEverywhere d m msg = .ok (d.sendEverywhere m msg) := by
  obtain ⟨sender, hown⟩ := Station.exists_address fits.mac
  rw [sendEverywhere, handOver_eq hown, put_of_fits msg.header_fits, Directory.sendEverywhere]
  cases d.audience m.station msg with
  | nil => rfl
  | cons n rest =>
    simp only [hown]
    rfl

theorem sendAcross_eq (fits : m.station.attachment.Fits) (msg : Message) :
    sendAcross d m msg = .ok (d.sendAcross m msg) := by
  obtain ⟨sender, hown⟩ := Station.exists_address fits.mac
  unfold sendAcross Directory.sendAcross
  cases d.neighborOn? m.station msg.recipient.segment with
  | none => rfl
  | some neighbor =>
    simp only [hown, handOver_eq hown]
    rfl

/-- Sending does not break off. -/
theorem send_eq (fits : m.station.attachment.Fits) (msg : Message) :
    send d m msg = .ok (d.send m msg) := by
  unfold send Directory.send
  split
  · exact sendEverywhere_eq fits msg
  split
  · split
    · rfl
    · exact put_of_fits msg.header_fits m msg none
  cases msg.router.filter fun r => !m.station.answersTo r with
  | none => exact sendAcross_eq fits msg
  | some router => exact put_of_fits msg.routedHeader_fits m msg _

/-- What a station does with an envelope from its medium does not break off. -/
theorem route_eq (d : Directory) (m : Member) (e : Envelope) (origin : Bytes) :
    route d m e origin = .ok (d.route m e origin) := by
  unfold route Directory.route
  split
  · rfl
  cases e.recipient.filter fun a => !m.station.answersTo a with
  | none => rfl
  | some recipient =>
    dsimp only
    split
    · rw [flood_eq rfl]
      rfl
    cases d.neighborOn? m.station recipient.segment with
    | none => rfl
    | some n =>
      simp only [forwarding_eq, relay_eq, bind, Except.bind]
      rfl

/-- Receiving a frame does not break off. -/
theorem receive_eq {frame origin : Bytes} (ho : origin.length ≤ maxMacLength) :
    receive d m frame origin = .ok (d.receive m frame origin) := by
  unfold receive Directory.receive
  split
  · rfl
  cases hp : d.parse m.station frame origin with
  | ok parsed =>
    cases parsed with
    | none => rfl
    | some e =>
      simp only [route_eq]
      rfl
  | error failure =>
    cases failure with
    | fault fault => rfl
    | overlong overlong => exact absurd hp (Directory.parse_ne_overlong ho overlong)

/-- A call with all assertions looked at does what the call does, and neither breaks off. -/
structure Unbroken (checked : Except Breach Run) (run : Run) : Prop where
  /-- No assertion is in the way. -/
  eq_ok : checked = .ok run
  /-- The caller is told at most of a fault. -/
  result_ne : ∀ overlong, run.result ≠ .error (.overlong overlong)

/-- Sending does not break off. -/
theorem unbroken_send (fits : m.station.attachment.Fits) (msg : Message) :
    Unbroken (send d m msg) (d.send m msg) :=
  ⟨send_eq fits msg, Directory.result_send fits.mac msg⟩

/-- Receiving a frame does not break off. -/
theorem unbroken_receive {frame origin : Bytes} (ho : origin.length ≤ maxMacLength) :
    Unbroken (receive d m frame origin) (d.receive m frame origin) := by
  refine ⟨receive_eq ho, fun overlong h => ?_⟩
  rw [Directory.result_receive ho] at h
  cases h

/-- Sending an announcement does not break off. -/
theorem unbroken_announce (fits : m.station.attachment.Fits) (message : Address → Message) :
    Unbroken (announce d m message) (d.announce m message) := by
  obtain ⟨everyone, heveryone⟩ := Address.of_eq_ok m.station.segment
    (some m.station.attachment.broadcastMac) (by simpa using fits.broadcastMac)
  have hbroadcast : m.station.broadcastAddress = .ok everyone := heveryone
  rw [announce, Directory.announce, address_of_parts heveryone, hbroadcast]
  exact unbroken_send fits (message everyone)

/-- Answering a query for a router does not break off. -/
theorem unbroken_answerRouterQuery (fits : m.station.attachment.Fits) (e : Envelope) :
    Unbroken (answerRouterQuery d m e) (d.answerRouterQuery m e) := by
  unfold answerRouterQuery Directory.answerRouterQuery
  cases RouterQuery.reader.run e.payload with
  | error cause rest => exact ⟨rfl, fun overlong h => by cases h⟩
  | ok query rest =>
    dsimp only
    cases d.announced m.station query with
    | nil => exact ⟨rfl, fun overlong h => by cases h⟩
    | cons segment segments => exact unbroken_announce fits _

/-- Answering a query for the number of the segment does not break off. -/
theorem unbroken_answerSegmentQuery (fits : m.station.attachment.Fits) (e : Envelope) :
    Unbroken (answerSegmentQuery d m e) (d.answerSegmentQuery m e) := by
  unfold answerSegmentQuery Directory.answerSegmentQuery
  split
  · exact ⟨rfl, fun overlong h => by cases h⟩
  · exact unbroken_announce fits _

end Checked

namespace Network

/-- The sub-addresses of all stations fit behind a length byte. -/
def Fits (net : Network) : Prop :=
  ∀ id s, net.directory id = some s → s.attachment.Fits

/-- Calls a node with all assertions looked at. -/
def callChecked (net : Network) (id : NodeId) (f : Directory → Member → Except Breach Run) :
    Except Breach (Except Failure Unit × Network) :=
  match net.member? id with
  | none => return (.ok (), net)
  | some m => do
    let run ← f net.directory m
    return (run.result, net.applyAll run.events)

/-- A call of a node with all assertions looked at does what the call does, and neither breaks
off. -/
structure Unbroken (checked : Except Breach (Except Failure Unit × Network))
    (call : Except Failure Unit × Network) : Prop where
  /-- No assertion is in the way. -/
  eq_ok : checked = .ok call
  /-- The caller is told at most of a fault. -/
  result_ne : ∀ overlong, call.1 ≠ .error (.overlong overlong)

/-- A call of a node breaks off only if the station does. -/
theorem unbroken_call {net : Network} {id : NodeId} {f : Directory → Member → Except Breach Run}
    {g : Directory → Member → Run}
    (h : ∀ m, net.member? id = some m → Checked.Unbroken (f net.directory m) (g net.directory m)) :
    Unbroken (net.callChecked id f) (net.call id g) := by
  unfold callChecked call
  cases hm : net.member? id with
  | none => exact ⟨rfl, fun overlong h => by cases h⟩
  | some m =>
    obtain ⟨heq, hresult⟩ := h m hm
    exact ⟨by simp only [heq]; rfl, hresult⟩

/-- Whatever state a network is in and wherever its routes lead, no assertion is ever violated if
the sub-addresses of its stations fit, not by a message that a station sends, not by a frame that it
takes in, and not by an answer that it gives to a query, neither at the station nor at any that is
handed an envelope in consequence. -/
theorem no_breach {net : Network} (fits : net.Fits) (id : NodeId) :
    (∀ msg, Unbroken (net.callChecked id fun d m => Checked.send d m msg) (net.send id msg)) ∧
    (∀ frame origin, origin.length ≤ maxMacLength →
      Unbroken (net.callChecked id fun d m => Checked.receive d m frame origin)
        (net.receive id frame origin)) ∧
    (∀ query, Unbroken (net.callChecked id fun d m => Checked.answerRouterQuery d m query)
      (net.answerRouterQuery id query)) ∧
    ∀ query, Unbroken (net.callChecked id fun d m => Checked.answerSegmentQuery d m query)
      (net.answerSegmentQuery id query) := by
  have hfits : ∀ m, net.member? id = some m → m.station.attachment.Fits := by
    intro m hm
    obtain ⟨s, hs, rfl⟩ := Option.map_eq_some_iff.mp hm
    exact fits id s hs
  refine ⟨fun msg => ?_, fun frame origin ho => ?_, fun query => ?_, fun query => ?_⟩
  · exact unbroken_call fun m hm => Checked.unbroken_send (hfits m hm) msg
  · exact unbroken_call fun m _ => Checked.unbroken_receive ho
  · exact unbroken_call fun m hm => Checked.unbroken_answerRouterQuery (hfits m hm) query
  · exact unbroken_call fun m hm => Checked.unbroken_answerSegmentQuery (hfits m hm) query

/-- The sender of a frame may have the longest sub-address there is. -/
theorem no_breach_pair : pair.Fits ∧
    Unbroken (pair.callChecked 0 fun d m =>
        Checked.receive d m [1, 0x20, 0xff, 0xff, 0, 1, 7] (List.replicate 255 9))
      (pair.receive 0 [1, 0x20, 0xff, 0xff, 0, 1, 7] (List.replicate 255 9)) := by
  have hfits : pair.Fits := by
    intro id s hs
    rcases id with _ | _ | id
    · cases hs
      exact ⟨by decide, by decide⟩
    · cases hs
      exact ⟨by decide, by decide⟩
    · cases hs
  have horigin : (List.replicate 255 (9 : UInt8)).length ≤ maxMacLength :=
    Nat.le_of_eq List.length_replicate
  exact ⟨hfits, (no_breach hfits 0).2.1 _ _ horigin⟩

end Network

end Fieldbus
