import Fieldbus.Proofs.Assertions
import Fieldbus.Proofs.Ports

/-!
# Breaking off

A call that needs an address which cannot be made breaks off, and so does the worker that made the
call: a link hands the frame to nobody else, and a transport does nothing else for the job. Main
statements: a frame whose origin makes an address reaches everybody it is handed out to
(`Directory.reached_of_fits`), where sub-addresses fit everything is done that transports want done
(`Network.Fits.finishes`), and the frames on links then are from sub-addresses that fit, whatever
stations transmit (`Network.FitsThroughout.applyAll`).
-/

namespace Fieldbus

/-- A call with this result broke off. -/
def brokeOff : Except Failure Unit → Bool
  | .error (.overlong _) => true
  | _ => false

theorem brokeOff_eq_false {result : Except Failure Unit}
    (h : ∀ overlong, result ≠ .error (.overlong overlong)) : brokeOff result = false := by
  unfold brokeOff
  split
  · rename_i overlong
    exact absurd rfl (h overlong)
  · rfl

namespace Directory

variable {d : Directory} {f : LinkFrame} {id : NodeId} {order : List NodeId}

/-- A call at a node breaks off; none does at a node that is gone. -/
def callBreaksOff (d : Directory) (id : NodeId) (call : Directory → Member → Run) : Bool :=
  (d.member? id).any fun m => brokeOff (call d m).result

theorem callBreaksOff_eq_false {call : Directory → Member → Run}
    (h : ∀ m, d.member? id = some m → ∀ overlong, (call d m).result ≠ .error (.overlong overlong)) :
    d.callBreaksOff id call = false := by
  unfold callBreaksOff
  cases hm : d.member? id with
  | none => rfl
  | some m => exact brokeOff_eq_false (h m hm)

/-! ## Frames -/

/-- The station of a node breaks off over a frame that it is handed. -/
def breaksOffOver (d : Directory) (f : LinkFrame) (id : NodeId) : Bool :=
  d.callBreaksOff id fun d m => d.receive m f.data f.origin

/-- Whom a frame reaches of those that it is to be handed to in this order: everybody up to the first
whose station breaks off over it. -/
def reached (d : Directory) (f : LinkFrame) : List NodeId → List NodeId
  | [] => []
  | id :: rest => id :: if d.breaksOffOver f id then [] else d.reached f rest

/-- Nobody breaks off over a frame whose origin makes an address. -/
theorem breaksOffOver_of_fits (fits : f.origin.length ≤ maxMacLength) (id : NodeId) :
    d.breaksOffOver f id = false := by
  refine callBreaksOff_eq_false fun m _ overlong h => ?_
  rw [result_receive fits] at h
  cases h

/-- A frame reaches everybody if nobody it reaches breaks off over it. -/
theorem reached_eq_self (h : ∀ id ∈ d.reached f order, d.breaksOffOver f id = false) :
    d.reached f order = order := by
  induction order with
  | nil => rfl
  | cons id rest ih =>
    rw [reached] at h ⊢
    obtain ⟨hid, hrest⟩ := List.forall_mem_cons.mp h
    rw [if_neg (Bool.eq_false_iff.mp hid)] at hrest ⊢
    rw [ih hrest]

/-- A frame whose origin makes an address reaches everybody. -/
theorem reached_of_fits (fits : f.origin.length ≤ maxMacLength) (order : List NodeId) :
    d.reached f order = order :=
  reached_eq_self fun id _ => breaksOffOver_of_fits fits id

/-- Whom a frame reaches come first. -/
theorem reached_prefix (d : Directory) (f : LinkFrame) (order : List NodeId) :
    d.reached f order <+: order := by
  induction order with
  | nil => exact List.prefix_refl []
  | cons id rest ih =>
    rw [reached]
    split
    · exact ⟨rest, rfl⟩
    · exact (List.prefix_cons_inj id).mpr ih

/-- A frame that is for two nodes reaches only one of them if its origin makes no address. -/
example : Directory.reached (fun id => if id < 2 then some {
      segment := 1
      attachment := { mac := [1], macs := [[1]], broadcastMac := [255], maxFrameLength := none }
      routes := { home := 1 } } else none)
    ⟨List.replicate 256 0, none, [1, 0, 5]⟩ [0, 1] = [0] := by decide +kernel

/-- The first one is reached, whether its station breaks off or not. -/
theorem reached_singleton (d : Directory) (f : LinkFrame) (id : NodeId) :
    d.reached f [id] = [id] := by
  rw [reached]
  split <;> rfl

/-! ## Acts -/

/-- The station of a node breaks off over what an act of its transport makes it do. -/
def breaksOffOn (d : Directory) (id : NodeId) : Act → Bool
  | .send msg => d.callBreaksOff id fun d m => d.send m msg
  | .answerRouterQuery query => d.callBreaksOff id fun d m => d.answerRouterQuery m query
  | .answerSegmentQuery query => d.callBreaksOff id fun d m => d.answerSegmentQuery m query
  | _ => false

end Directory

namespace Network

variable {net net' : Network}

/-- Everything that the transport of a node wants done is done: no call on the way breaks off. -/
def finishes (net : Network) (id : NodeId) : List Act → Bool
  | [] => true
  | act :: rest => !net.directory.breaksOffOn id act && (net.perform id act).finishes id rest

/-- What links and transports do is no matter of sub-addresses. -/
theorem Fits.of_keepsSetup (fits : net.Fits) (keeps : net.KeepsSetup net') : net'.Fits := by
  intro id s' hs'
  obtain ⟨s, hs, he⟩ := keeps.station hs'
  have hattachment : s'.attachment = s.attachment := congrArg (fun s => s.attachment) he
  rw [hattachment]
  exact fits id s hs

/-- Where sub-addresses fit no act makes a station break off. -/
theorem Fits.breaksOffOn (fits : net.Fits) (id : NodeId) (act : Act) :
    net.directory.breaksOffOn id act = false := by
  have hfits : ∀ m, net.directory.member? id = some m → m.station.attachment.Fits := by
    intro m hm
    obtain ⟨s, hs, rfl⟩ := Option.map_eq_some_iff.mp hm
    exact fits id s hs
  unfold Directory.breaksOffOn
  cases act with
  | send msg =>
    exact Directory.callBreaksOff_eq_false fun m hm => Directory.result_send (hfits m hm).mac msg
  | answerRouterQuery query =>
    exact Directory.callBreaksOff_eq_false fun m hm =>
      (Checked.unbroken_answerRouterQuery (hfits m hm) query).result_ne
  | answerSegmentQuery query =>
    exact Directory.callBreaksOff_eq_false fun m hm =>
      (Checked.unbroken_answerSegmentQuery (hfits m hm) query).result_ne
  | _ => rfl

/-- Where sub-addresses fit everything is done that a transport wants done. -/
theorem Fits.finishes (fits : net.Fits) (id : NodeId) (acts : List Act) :
    net.finishes id acts = true := by
  induction acts generalizing net with
  | nil => rfl
  | cons act rest ih =>
    rw [Network.finishes, fits.breaksOffOn id act, Bool.not_false, Bool.true_and]
    exact ih (fits.of_keepsSetup (keepsSetup_perform id net act))

theorem fits_iff : net.Fits ↔ ∀ id a, net.attachment? id = some a → a.Fits := by
  simp [Fits, directory, attachment?]

/-- What does not pass a port is no matter of sub-addresses. -/
theorem Fits.of_keepsPorts (fits : net.Fits) (keeps : net.KeepsPorts net') : net'.Fits := by
  rw [fits_iff, keeps.attachment, ← fits_iff]
  exact fits

theorem Fits.stepDedicated (fits : net.Fits) (id : NodeId)
    (step : Dedicated → Dedicated × List Act) : (net.stepDedicated id step).Fits := by
  unfold Network.stepDedicated
  split
  · exact fits
  · exact (fits.of_keepsPorts (overlooksTransports_keepsPorts.setConsumer net id _)).of_keepsSetup
      (keepsSetup_performAll _ id _)

/-- Sub-addresses fit: those of the nodes, and those of the frames that wait on a link that runs. -/
structure FitsThroughout (net : Network) : Prop where
  /-- A node has a sub-address that makes an address. -/
  nodes : net.Fits
  /-- A frame is from such a sub-address. -/
  frames : ∀ k l, net.link? k = some l → l.running = true →
    ∀ f ∈ l.queue.toList, f.origin.length ≤ maxMacLength

namespace FitsThroughout

/-- What does not pass a port is no matter of sub-addresses. -/
theorem of_keepsPorts (keeps : net.KeepsPorts net') (h : net.FitsThroughout) :
    net'.FitsThroughout where
  nodes := h.nodes.of_keepsPorts keeps
  frames k l link := by
    rw [link?, keeps.links] at link
    exact h.frames k l link

/-- The frames that are put on links are from nodes. -/
theorem applyAll (h : net.FitsThroughout) (events : List Event) :
    (net.applyAll events).FitsThroughout where
  nodes := h.nodes.of_keepsSetup (keepsSetup_applyAll net events)
  frames k l' link' running' := by
    have hidle : (net.link? k).map Link.idle = some l'.idle := by
      rw [← links_wiring, ← wiring_applyAll net events, links_wiring, link', Option.map_some]
    obtain ⟨l, link, he⟩ := Option.map_eq_some_iff.mp hidle
    have running : l.running = true := (congrArg Link.running he).trans running'
    have hqueue := queued_applyAll net events k
    simp only [queued, link', link, Option.map_some, Option.getD_some] at hqueue
    rw [hqueue]
    intro f hf
    rcases List.mem_append.mp hf with hf | hf
    · exact h.frames k l link running f hf
    · obtain ⟨x, hmem, rfl⟩ := List.mem_map.mp hf
      obtain ⟨event, -, haccepted⟩ := List.mem_filterMap.mp hmem
      obtain ⟨t, rfl⟩ := of_accepted? haccepted
      obtain ⟨n, l₀, hn, -, hx⟩ := eq_of_accepted? haccepted
      rw [congrArg (fun x => x.2.origin) hx]
      exact (h.nodes x.1 n.station (by rw [directory, hn, Option.map_some])).mac

theorem setConsumer (h : net.FitsThroughout) (id : NodeId) (c : Option Consumer) :
    (net.setConsumer id c).FitsThroughout :=
  h.of_keepsPorts (overlooksTransports_keepsPorts.setConsumer net id c)

theorem call (h : net.FitsThroughout) (id : NodeId) (f : Directory → Member → Run) :
    (net.call id f).2.FitsThroughout := by
  unfold Network.call
  split
  · exact h
  · exact h.applyAll _

theorem performAll (h : net.FitsThroughout) (id : NodeId) (acts : List Act) :
    (net.performAll id acts).FitsThroughout := by
  induction acts generalizing net with
  | nil => exact h
  | cons act rest ih =>
    have hact : (net.perform id act).FitsThroughout := by
      cases act with
      | send | answerRouterQuery | answerSegmentQuery => exact h.call id _
      | learn | note | resolve =>
        exact h.of_keepsPorts (keepsPorts_modifyNode net id (fun _ _ => rfl) fun _ _ _ => rfl)
    exact ih hact

/-- The worker of a transport does a step. -/
theorem stepDedicated (h : net.FitsThroughout) (id : NodeId)
    (step : Dedicated → Dedicated × List Act) : (net.stepDedicated id step).FitsThroughout := by
  unfold Network.stepDedicated
  split
  · exact h
  · exact (h.setConsumer id _).performAll id _

/-- A job of a shared transport is done. -/
theorem doTask (h : net.FitsThroughout) (now : Nat) (task : Task) :
    (net.doTask now task).FitsThroughout := by
  unfold Network.doTask
  split
  · exact h
  · exact (h.setConsumer task.owner _).performAll task.owner _

/-- A link gives up a frame. -/
theorem handOut {k : LinkId} {l : Link} {f : LinkFrame} {queue : Mailbox LinkFrame}
    (h : net.FitsThroughout) (link : net.link? k = some l) (pop : l.queue.pop = some (f, queue)) :
    (net.modifyLink k fun l => { l with queue }).FitsThroughout where
  nodes := h.nodes.of_keepsSetup (keepsSetup_modifyLink net k _)
  frames j l' link' := by
    rw [Network.modifyLink, link?, List.getElem?_modify] at link'
    obtain ⟨l₀, hl₀, rfl⟩ := Option.map_eq_some_iff.mp link'
    split
    · rename_i he
      subst he
      obtain rfl : l = l₀ := Option.some.inj (link.symm.trans hl₀)
      intro running f' hf'
      refine h.frames k l link running f' ?_
      rw [Mailbox.pop_eq_some_iff.mp pop]
      exact List.mem_cons_of_mem f hf'
    · exact h.frames j l₀ hl₀

end FitsThroughout

end Network

end Fieldbus
