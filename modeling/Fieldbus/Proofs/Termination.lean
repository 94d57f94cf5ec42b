import Fieldbus.Proofs.Load
import Fieldbus.Proofs.Spelling

/-!
# Networks come to rest

Whatever is queued in a network and wherever its routes lead, its links and transports run out
of work as long as no application answers what it is handed. Main statement: no sequence of
steps goes on for ever, the workers come to rest, no call breaks off, and every copy of a global
broadcast has one hop less than the envelope it was made from (`comes_to_rest`).
-/

namespace Fieldbus

/-! ## Calls do not break off -/

/-- A sub-address within the limit makes an address. -/
theorem Address.of_eq_ok (segment : Segment) (mac : Option Bytes)
    (h : ∀ m ∈ mac, m.length ≤ maxMacLength) : ∃ a, Address.of segment mac = .ok a := by
  cases ha : Address.of segment mac with
  | ok a => exact ⟨a, rfl⟩
  | error overlong =>
    obtain ⟨m, hm, -, hlong, -⟩ := Address.of_eq_error_iff.mp ha
    exact absurd (h m hm) (Nat.not_le.mpr hlong)

/-- A station whose sub-address is within the limit has an address. -/
theorem Station.exists_address {s : Station} (h : s.attachment.mac.length ≤ maxMacLength) :
    ∃ a, s.address = .ok a :=
  Address.of_eq_ok s.segment (some s.attachment.mac) (by simpa using h)

/-- A destination that fits names an address. -/
theorem Destination.exists_address {h : Header} (fits : h.Fits) {dst : Destination}
    (hdst : h.destination = some dst) : ∃ a, dst.address = .ok a :=
  Address.of_eq_ok dst.segment dst.mac fun mac hmac =>
    fits mac (by simp [Header.macs, hdst, Option.mem_def.mp hmac])

namespace Directory

variable {d : Directory} {m : Member}

theorem result_put (msg : Message) (header : Header) (router : Option Bytes) (overlong : Overlong) :
    (m.put msg header router).result ≠ .error (.overlong overlong) := by
  unfold Member.put
  split
  · exact fun h => by cases h
  · exact fun h => by cases h

/-- Sending never breaks off at a station whose sub-address is within the limit. -/
theorem result_send (hm : m.station.attachment.mac.length ≤ maxMacLength) (msg : Message)
    (overlong : Overlong) : (d.send m msg).result ≠ .error (.overlong overlong) := by
  obtain ⟨address, hown⟩ := Station.exists_address hm
  unfold send
  split
  · unfold sendEverywhere
    split
    · exact result_put msg _ _ overlong
    · rw [hown]
      exact result_put msg _ _ overlong
  split
  · split
    · exact fun h => by cases h
    · exact result_put msg _ _ overlong
  split
  · unfold sendAcross
    split
    · exact fun h => by cases h
    · rw [hown]
      exact fun h => by cases h
  · exact result_put msg _ _ overlong

/-- A frame that can be read has a recipient, or none. -/
theorem exists_recipientOf (s : Station) {frame payload : Bytes} {header : Header}
    (hd : decode frame = .ok (header, payload)) :
    ∃ recipient, recipientOf s header = .ok recipient := by
  unfold recipientOf
  split
  · exact ⟨none, rfl⟩
  · rename_i dst hdst
    split
    · exact ⟨none, rfl⟩
    · obtain ⟨a, ha⟩ := Destination.exists_address (fits_of_decode hd) hdst
      exact ⟨some a, by rw [ha]; rfl⟩

/-- A frame of a node whose sub-address is within the limit is taken apart or refused. -/
theorem parse_ne_overlong {s : Station} {frame origin : Bytes} (ho : origin.length ≤ maxMacLength)
    (overlong : Overlong) : d.parse s frame origin ≠ .error (.overlong overlong) := by
  unfold parse
  cases hd : decode frame with
  | error cause => exact fun h => by cases h
  | ok read =>
    obtain ⟨header, payload⟩ := read
    have hfits := fits_of_decode hd
    have hsender : ∃ sender, senderOf header origin = .ok sender := by
      unfold senderOf
      split
      · rename_i src hsrc
        exact Address.of_eq_ok src.segment src.mac fun mac hmac =>
          hfits mac (by simp [Header.macs, hsrc, Option.mem_def.mp hmac])
      · exact Address.of_eq_ok Segment.here (some origin) (by simpa using ho)
    obtain ⟨recipient, hr⟩ := exists_recipientOf s hd
    obtain ⟨sender, hs⟩ := hsender
    simp only [Except.mapError, bind, Except.bind, hr, hs]
    split <;> exact fun h => by cases h

/-- Receiving a frame of a node whose sub-address is within the limit always succeeds. -/
theorem result_receive {frame origin : Bytes} (ho : origin.length ≤ maxMacLength) :
    (d.receive m frame origin).result = .ok () := by
  unfold receive
  split
  · rfl
  split
  · rfl
  · rfl
  · rfl
  · rename_i overlong ho'
    exact absurd ho' (parse_ne_overlong ho overlong)

end Directory

/-! ## Copies of global broadcasts -/

/-- Whenever a station hands a copy on, it has been given an envelope with one hop more: one of
those in `given`, or one that was handed to it before. -/
def Copied : (given : List (NodeId × Envelope)) → List Event → Prop
  | _, [] => True
  | given, .relayed source target _ _ copy _ :: rest =>
    (∃ original, (source, original) ∈ given ∧
      copy.hopCount.toNat + 1 = original.hopCount.toNat) ∧ Copied ((target, copy) :: given) rest
  | given, _ :: rest => Copied given rest

namespace Copied

variable {given : List (NodeId × Envelope)} {events events' : List Event}

theorem mono {given given' : List (NodeId × Envelope)} {events : List Event}
    (h : Copied given events) (hs : given ⊆ given') : Copied given' events := by
  induction events generalizing given given' with
  | nil => trivial
  | cons event rest ih =>
    cases event with
    | relayed source target ingress recipient copy broadcast =>
      obtain ⟨⟨original, ho, hc⟩, hrest⟩ := h
      exact ⟨⟨original, hs ho, hc⟩, ih hrest (List.cons_subset_cons _ hs)⟩
    | _ => exact ih (show Copied given rest from h) hs

theorem append (h : Copied given events) (h' : Copied given events') :
    Copied given (events ++ events') := by
  induction events generalizing given with
  | nil => exact h'
  | cons event rest ih =>
    cases event with
    | relayed source target ingress recipient copy broadcast =>
      exact ⟨h.1, ih h.2 (h'.mono (List.subset_cons_self _ _))⟩
    | _ => exact ih (show Copied given rest from h) h'

theorem flatMap {α : Type} {xs : List α} {f : α → List Event} (h : ∀ x ∈ xs, Copied given (f x)) :
    Copied given (xs.flatMap f) := by
  induction xs with
  | nil => trivial
  | cons x rest ih =>
    rw [List.flatMap_cons]
    exact (h x List.mem_cons_self).append (ih fun y hy => h y (List.mem_cons_of_mem _ hy))

end Copied

namespace Directory

variable {d : Directory}

theorem copied_putEnvelope (given : List (NodeId × Envelope)) (m : Member) (recipient : Address)
    (e : Envelope) (broadcast : Bool) : Copied given (m.putEnvelope recipient e broadcast) := by
  unfold Member.putEnvelope Member.emit
  split
  · rename_i event he
    split at he
    · cases he
      trivial
    · cases he
  · trivial

/-- Every copy that a flood makes has one hop less than the envelope it is made from. -/
theorem copied_flood {hops : Nat} {e : Envelope} (hh : e.hopCount.toNat = hops) (m : Member)
    (skip : List Segment) : Copied [(m.id, e)] (d.flood hops m e skip) := by
  induction hops generalizing m e skip with
  | zero => trivial
  | succ hops ih =>
    have hlt := e.hopCount.toNat_lt
    have hcopy := e.toNat_hopCount_copyFrom (by omega : hops < 256) m.station
    refine Copied.flatMap fun n _ => ⟨⟨e, List.mem_singleton_self _, by rw [hcopy, hh]⟩, ?_⟩
    split
    · trivial
    · have hgiven : [(n.id, e.copyFrom m.station hops)] ⊆
          [(n.id, e.copyFrom m.station hops), (m.id, e)] := by simp
      exact ((ih hcopy n _).mono hgiven).append (copied_putEnvelope _ n _ _ true)

/-- Every copy that comes of an envelope handed to a neighbor has one hop less than the envelope
it is made from. -/
theorem copied_relay (m : Member) (ingress : Segment) (recipient : Address) (e : Envelope)
    (broadcast : Bool) : Copied [(m.id, e)] (d.relay m ingress recipient e broadcast) := by
  unfold relay
  split
  · trivial
  refine Copied.append ?_ (copied_putEnvelope _ m _ _ _)
  split
  · exact (copied_flood rfl m _).append trivial
  · trivial

end Directory

namespace Network

/-! ## No run goes on for ever -/

/-- A step lowers the load. -/
theorem Step.load_lt {net net' : Network} (h : net.Step net') (routed : net.Routed)
    (quiet : net.Quiet) : Multiset.IsDershowitzMannaLT net'.load net.load := by
  obtain ⟨rank, hs⟩ := h.exists_spends routed quiet
  exact hs.load_lt

theorem keepsSetup_of_reflTransGen {net net' : Network} (h : Relation.ReflTransGen Step net net') :
    net.KeepsSetup net' := by
  induction h with
  | refl => exact KeepsSetup.refl net
  | tail _ hs ih => exact ih.trans hs.keepsSetup

/-- Steps come to an end where routes lead where they are said to lead and no application
answers. -/
theorem acc_step {net : Network} (routed : net.Routed) (quiet : net.Quiet) :
    Acc (fun net' net : Network => net.Step net') net := by
  have hwf : WellFounded fun net' net : Network =>
      Multiset.IsDershowitzMannaLT net'.load net.load :=
    InvImage.wf Network.load Multiset.wellFounded_isDershowitzMannaLT
  induction net using hwf.induction with
  | _ net ih =>
    refine Acc.intro net fun net' hs => ih net' (hs.load_lt routed quiet) ?_ ?_
    · exact routed.of_keepsRoutes hs.keepsSetup.keepsRoutes
    · exact quiet.of_keepsSetup hs.keepsSetup

/-- Nothing accessible starts an infinite sequence. -/
theorem not_exists_run {net : Network} (h : Acc (fun net' net : Network => net.Step net') net) :
    ¬ ∃ run : Nat → Network, run 0 = net ∧ ∀ i, (run i).Step (run (i + 1)) := by
  induction h with
  | intro net _ ih =>
    rintro ⟨run, rfl, hrun⟩
    exact ih (run 1) (hrun 0) ⟨fun i => run (i + 1), rfl, fun i => hrun (i + 1)⟩

/-- Workers that take turns do steps, at least one if one of them has something to do. -/
private theorem steps_foldl_workers (net : Network) (workers : List Worker) :
    Relation.ReflTransGen Step net (workers.foldl (fun net w => (net.work? w).getD net) net) ∧
      ((∃ w ∈ workers, net.isBusy w = true) → Relation.TransGen Step net
        (workers.foldl (fun net w => (net.work? w).getD net) net)) := by
  induction workers generalizing net with
  | nil => exact ⟨.refl, by simp⟩
  | cons w rest ih =>
    rw [List.foldl_cons]
    cases hw : net.work? w with
    | some net' =>
      have hstep := transGen_step_of_work? hw
      obtain ⟨hrest, -⟩ := ih net'
      have hall := hstep.trans_left hrest
      exact ⟨hall.to_reflTransGen, fun _ => hall⟩
    | none =>
      obtain ⟨hrefl, htrans⟩ := ih net
      refine ⟨hrefl, fun ⟨w', hm, hb⟩ => htrans ⟨w', ?_, hb⟩⟩
      rcases List.mem_cons.mp hm with rfl | hm
      · simp [work?, hb] at hw
      · exact hm

/-- As long as the network is not at rest, a round does at least one step. -/
private theorem transGen_step_round {net : Network} (h : net.atRest = false) :
    Relation.TransGen Step net net.round := by
  refine (steps_foldl_workers net net.workers).2 ?_
  simpa [atRest] using h

/-- Rounds of workers are steps. -/
theorem reflTransGen_settle (rounds : Nat) (net : Network) :
    Relation.ReflTransGen Step net (settle rounds net) := by
  induction rounds generalizing net with
  | zero => exact .refl
  | succ rounds ih =>
    rw [settle]
    split
    · exact .refl
    · exact (steps_foldl_workers net net.workers).1.trans (ih net.round)

/-- A network that cannot do steps for ever comes to rest if its workers take turns. -/
theorem exists_atRest_settle {net : Network}
    (h : Acc (fun net' net : Network => net.Step net') net) :
    ∃ rounds, (settle rounds net).atRest = true := by
  replace h := h.transGen
  induction h with
  | intro net _ ih =>
    cases hrest : net.atRest with
    | true => exact ⟨0, hrest⟩
    | false =>
      obtain ⟨rounds, hr⟩ := ih net.round (Relation.transGen_swap.mpr (transGen_step_round hrest))
      refine ⟨rounds + 1, ?_⟩
      rw [settle, hrest]
      exact hr

/-- Every network comes to rest, whatever is queued in it: no sequence of steps goes on for ever,
and the workers have nothing left to do after some rounds. At every point on the way calls do not
break off, and every copy of a global broadcast has one hop less than the envelope it is made
from. -/
theorem comes_to_rest {net : Network} (routed : net.Routed) (quiet : net.Quiet)
    (macs : ∀ id s, net.directory id = some s → s.attachment.mac.length ≤ maxMacLength) :
    (¬ ∃ run : Nat → Network, run 0 = net ∧ ∀ i, (run i).Step (run (i + 1))) ∧
      (∃ rounds, (settle rounds net).atRest = true) ∧
      ∀ net', Relation.ReflTransGen Step net net' →
        (∀ id msg overlong, (net'.send id msg).1 ≠ .error (.overlong overlong)) ∧
        (∀ id frame origin, origin.length ≤ maxMacLength →
          (net'.receive id frame origin).1 = .ok ()) ∧
        (∀ m ingress recipient e broadcast,
          Copied [(m.id, e)] (net'.directory.relay m ingress recipient e broadcast)) ∧
        ∀ m e skip, Copied [(m.id, e)] (net'.directory.flood e.hopCount.toNat m e skip) := by
  have hacc := acc_step routed quiet
  refine ⟨not_exists_run hacc, exists_atRest_settle hacc, fun net' hsteps => ⟨?_, ?_, ?_, ?_⟩⟩
  · intro id msg overlong
    have hkeeps : net.KeepsSetup net' := keepsSetup_of_reflTransGen hsteps
    simp only [send, call]
    split
    · exact fun h => by cases h
    · rename_i m hm
      obtain ⟨s', hs', rfl⟩ := Option.map_eq_some_iff.mp hm
      obtain ⟨s, hs, he⟩ := hkeeps.station hs'
      have hmac : s'.attachment.mac = s.attachment.mac := congrArg (·.attachment.mac) he
      exact Directory.result_send (by rw [hmac]; exact macs id s hs) msg overlong
  · intro id frame origin ho
    simp only [receive, call]
    split
    · rfl
    · exact Directory.result_receive ho
  · exact fun m ingress recipient e broadcast =>
      Directory.copied_relay m ingress recipient e broadcast
  · exact fun m e skip => Directory.copied_flood rfl m skip

/-- A node of `circle` on one of its links, with a transport that takes note of envelopes. -/
private def circleNode (link : LinkId) (segment other : Segment) (target : NodeId) : Node where
  station := {
    segment
    attachment := ⟨[1], [[1]], [0xFF], some 64⟩
    routes := ⟨segment, ⟨[(other, target)]⟩, [some other]⟩ }
  medium := .tap link {}
  keepsFaults := true
  consumer := some (.dedicated
    { dispatcher := { segment, application := .recorder false }, running := true })

/-- A link of `circle`, on which a global broadcast, a query and a byte that is no frame wait. -/
private def circleLink (segment : Segment) (id : NodeId) : Link where
  segment
  broadcastMac := [0xFF]
  maxFrameLength := 64
  registry := ⟨[([1], id)]⟩
  queue := ⟨[⟨[2], none, [1, 0x20, 0xFF, 0xFF, 0, 0xFF, 7]⟩, ⟨[2], none, [1, 0x80, 0x12]⟩,
    ⟨[2], none, [1]⟩]⟩
  running := true

/-- Two stations on links of their own that route to each other. -/
def circle : Network where
  nodes := [some (circleNode 0 10 20 1), some (circleNode 1 20 10 0)]
  links := [circleLink 10 0, circleLink 20 1]

theorem comes_to_rest_circle : circle.Routed ∧ circle.Quiet ∧
    ∃ rounds, (settle rounds circle).atRest = true := by
  have hrouted : circle.Routed := Routed.of_forall_nodes (by decide)
  have hnodes : ∀ id n, circle.node? id = some n →
      n = circleNode 0 10 20 1 ∨ n = circleNode 1 20 10 0 := by
    intro id n hn
    rcases id with _ | _ | id
    · cases hn
      exact Or.inl rfl
    · cases hn
      exact Or.inr rfl
    · cases hn
  have hquiet : circle.Quiet := by
    intro id setup application running hs happ e
    obtain ⟨n, hn, rfl⟩ := Option.map_eq_some_iff.mp hs
    rcases hnodes id n hn with rfl | rfl <;> cases happ <;> rfl
  refine ⟨hrouted, hquiet, (comes_to_rest hrouted hquiet ?_).2.1⟩
  intro id s hs
  obtain ⟨n, hn, rfl⟩ := Option.map_eq_some_iff.mp hs
  rcases hnodes id n hn with rfl | rfl <;> decide

end Network

end Fieldbus
