import Fieldbus.Proofs.Breakdowns
import Fieldbus.Proofs.Ports

/-!
# Carriage on a link

A link accepts frames from ports and hands them out while ports come and go and its worker is
stopped and started again. If a station breaks off over a frame then so does the worker: the frame
reaches nobody else, and what waits is handed out by a new worker, if the link is terminated and
started before. `Network.Carries` lists what happens on the link in the course of this. Main
statements: each operation keeps registrations in order and accounts for every frame and every byte
(`Proceeds`), and so a link loses, duplicates and reorders nothing (`carries_faithfully`).
-/

namespace Fieldbus

/-- Something that happens on a link. -/
inductive Happening where
  /-- The link accepts a frame from a node. -/
  | accepted (node : NodeId) (f : LinkFrame)
  /-- The link hands out a frame to some nodes, in the state that the network is in before. -/
  | handedOut (before : Network) (f : LinkFrame) (recipients : List NodeId)
  /-- The link is terminated and drops frames, in the state that the network is in before. -/
  | terminated (before : Network) (lost : List LinkFrame)

namespace Happening

/-- The frame that was accepted, and the node it is from. -/
def acceptance? : Happening → Option (NodeId × LinkFrame)
  | accepted node f => some (node, f)
  | _ => none

/-- The frame that was handed out, and the nodes it was handed to. -/
def handing? : Happening → Option (LinkFrame × List NodeId)
  | handedOut _ f recipients => some (f, recipients)
  | _ => none

/-- The frames that do not wait any more. -/
def settled : Happening → List LinkFrame
  | accepted _ _ => []
  | handedOut _ f _ => [f]
  | terminated _ lost => lost

/-- The worker of the link breaks off: one of those it hands a frame to does. -/
def breaksOff : Happening → Bool
  | handedOut before f recipients => recipients.any (before.directory.breaksOffOver f)
  | _ => false

/-- Nobody breaks off over a frame whose origin makes an address. -/
theorem breaksOff_of_fits {before : Network} {f : LinkFrame} (fits : f.origin.length ≤ maxMacLength)
    (recipients : List NodeId) : (handedOut before f recipients).breaksOff = false :=
  List.any_eq_false.mpr fun id _ => Bool.eq_false_iff.mp (Directory.breaksOffOver_of_fits fits id)

/-- The worker of the link has broken off after something happens, if it had before or had not. -/
def leavesStuck (stuck : Bool) : Happening → Bool
  | terminated .. => false
  | x => stuck || x.breaksOff

end Happening

/-- The worker of the link has broken off, and the link has not been terminated since then. -/
def isStuck (past : List Happening) : Bool := past.foldl Happening.leavesStuck false

/-- The frames that were accepted, in order. -/
def accepted (past : List Happening) : List LinkFrame :=
  (past.filterMap Happening.acceptance?).map Prod.snd

/-- The frames that were accepted from a node, in order. -/
def acceptedFrom (id : NodeId) (past : List Happening) : List LinkFrame :=
  ((past.filterMap Happening.acceptance?).filter fun x => x.1 = id).map Prod.snd

/-- The frames that were handed out or dropped, in order. -/
def settled (past : List Happening) : List LinkFrame := past.flatMap Happening.settled

/-- The frames that were handed to a node, in order. -/
def handedTo (id : NodeId) (past : List Happening) : List LinkFrame :=
  ((past.filterMap Happening.handing?).filter fun x => id ∈ x.2).map Prod.fst

/-- How many bytes frames have. -/
def bytesOf (frames : List LinkFrame) : Nat := (frames.map fun f => f.data.length).sum

namespace Network

/-- Something happens that is no matter of a link: the link and its ports are as they were, and new
ports have counted nothing. -/
structure Aside (net : Network) (k : LinkId) (net' : Network) : Prop where
  /-- The link is as it was. -/
  link : net'.link? k = net.link? k
  /-- No name is taken back. -/
  length_le : net.nodes.length ≤ net'.nodes.length
  /-- Whoever was there is attached as before. -/
  attachment : ∀ {id}, id < net.nodes.length → net'.attachment? id = net.attachment? id
  /-- The ports that were there have counted what they had counted. -/
  counts : ∀ {id}, id < net.nodes.length → net'.counts? k id = net.counts? k id
  /-- New ports have counted nothing. -/
  new_counts : ∀ {id c}, net.nodes.length ≤ id → net'.counts? k id = some c → c = {}
  /-- New ports take what the link takes. -/
  new_limit : ∀ {id c a l}, net.nodes.length ≤ id → net'.counts? k id = some c →
    net'.attachment? id = some a → net.link? k = some l → a.maxFrameLength = some l.maxFrameLength

/-- The link accepts the frames that events transmit there. -/
def acceptances (net : Network) (k : LinkId) (events : List Event) : List Happening :=
  (events.filterMap (net.accepted? k)).map fun x => .accepted x.1 x.2

/-- A link is at work in a network from a state on, in the course of which things happen on it. -/
inductive Carries (k : LinkId) (start : Network) : List Happening → Network → Prop
  | refl : Carries k start [] start
  /-- Stations transmit, and nothing is handed to the ports of the link. -/
  | events {past : List Happening} {net : Network} (carries : Carries k start past net)
      {events : List Event}
      (unhanded : ∀ {id length}, .handed id length ∈ events → net.counts? k id = none) :
      Carries k start (past ++ net.acceptances k events) (net.applyAll events)
  /-- A node is started, terminated or dropped. -/
  | move {past : List Happening} {net : Network} (carries : Carries k start past net) (m : Move) :
      Carries k start past (net.move m)
  /-- A node is detached. -/
  | detach {past : List Happening} {net : Network} (carries : Carries k start past net)
      (id : NodeId) : Carries k start past (net.detach id)
  /-- The link is started. -/
  | startLink {past : List Happening} {net : Network} (carries : Carries k start past net) :
      Carries k start past (net.startLink k)
  /-- The link is terminated; what waited before and does not wait afterwards is lost. -/
  | terminateLink {past : List Happening} {net : Network} (carries : Carries k start past net)
      (lost : List LinkFrame) (gone : net.queued k = lost ++ (net.terminateLink k).queued k) :
      Carries k start (past ++ [.terminated net lost]) (net.terminateLink k)
  /-- The link hands out a frame, to its recipients in some order, up to the first that breaks off. -/
  | handsOut {past : List Happening} {net : Network} (carries : Carries k start past net)
      {l : Link} {f : LinkFrame} {queue : Mailbox LinkFrame} {order : List NodeId}
      (link : net.link? k = some l) (running : l.running = true) (works : isStuck past = false)
      (pop : l.queue.pop = some (f, queue))
      (recipients : order.Perm (l.recipients net.isAlive f)) :
      Carries k start
        (past ++ .handedOut net f (net.directory.reached f order) ::
          net.acceptances k ((net.directory.reached f order).flatMap (net.directory.handing f)))
        ((net.modifyLink k fun l => { l with queue }).applyAll
          ((net.directory.reached f order).flatMap (net.directory.handing f)))
  /-- Something happens that is no matter of the link. -/
  | aside {past : List Happening} {net net' : Network} (carries : Carries k start past net)
      (aside : net.Aside k net') : Carries k start past net'

/-- Who is registered on a link and still exists is there with the sub-address it is registered
under, and nodes take what the link takes. -/
structure Orderly (net : Network) (k : LinkId) (l : Link) : Prop where
  /-- The link exists. -/
  link : net.link? k = some l
  /-- Sub-addresses are registered once. -/
  single : l.registry.keys.Nodup
  /-- The names of nodes that are registered have been given. -/
  known : ∀ {mac id}, l.registry.get? mac = some id → id < net.nodes.length
  /-- Nodes are registered under their own sub-address. -/
  holder : ∀ {mac id a}, l.registry.get? mac = some id → net.attachment? id = some a →
    a.mac = mac ∧ (net.counts? k id).isSome = true
  /-- Nodes take what the link takes. -/
  limit : ∀ {id a c}, net.attachment? id = some a → net.counts? k id = some c →
    a.maxFrameLength = some l.maxFrameLength

/-- What happens on a link accounts for the frames that wait and for the bytes that ports count. -/
structure Passes (net : Network) (k : LinkId) (news : List Happening) (net' : Network) : Prop where
  /-- No name is taken back. -/
  length_le : net.nodes.length ≤ net'.nodes.length
  /-- What waited and what was accepted is settled or waits, in this order. -/
  queued : net.queued k ++ accepted news = settled news ++ net'.queued k
  /-- Only nodes that have been there send and are handed frames. -/
  unknown : ∀ {id}, net'.nodes.length ≤ id → acceptedFrom id news = [] ∧ handedTo id news = []
  /-- Whoever was there has a port if it had one. -/
  port : ∀ {id c}, id < net.nodes.length → net'.counts? k id = some c →
    (net.counts? k id).isSome = true
  /-- Ports count what is handed to them. -/
  bytesIn : ∀ {id c}, net'.counts? k id = some c →
    c.bytesIn = ((net.counts? k id).getD {}).bytesIn + bytesOf (handedTo id news)
  /-- Ports count what is accepted from them. -/
  bytesOut : ∀ {id c}, net'.counts? k id = some c →
    c.bytesOut = ((net.counts? k id).getD {}).bytesOut + bytesOf (acceptedFrom id news)

/-- Registrations are in order on a link that takes what it took before, and what has happened there
accounts for frames and bytes. -/
structure Proceeds (net : Network) (k : LinkId) (l : Link) (news : List Happening) (net' : Network) :
    Prop where
  /-- Registrations are in order. -/
  orderly : ∃ l', net'.Orderly k l' ∧ l'.maxFrameLength = l.maxFrameLength
  /-- Frames and bytes are accounted for. -/
  passes : net.Passes k news net'

variable {net net' net'' : Network} {id : NodeId} {k : LinkId} {l l' : Link}
  {news news' : List Happening}

/-! ## What happens adds up -/

section Append

variable (past past' : List Happening)

theorem accepted_append : accepted (past ++ past') = accepted past ++ accepted past' := by
  simp [accepted]

theorem acceptedFrom_append (id : NodeId) :
    acceptedFrom id (past ++ past') = acceptedFrom id past ++ acceptedFrom id past' := by
  simp [acceptedFrom]

theorem settled_append : settled (past ++ past') = settled past ++ settled past' := by
  simp [settled]

theorem handedTo_append (id : NodeId) :
    handedTo id (past ++ past') = handedTo id past ++ handedTo id past' := by
  simp [handedTo]

theorem bytesOf_append (frames frames' : List LinkFrame) :
    bytesOf (frames ++ frames') = bytesOf frames + bytesOf frames' := by
  simp [bytesOf]

end Append

/-- Names that have not been given are no nodes. -/
theorem counts?_of_length_le (h : net.nodes.length ≤ id) : net.counts? k id = none := by
  rw [counts?, node?, List.getElem?_eq_none h]
  rfl

theorem lt_length_of_counts? {c : ByteCounts} (h : net.counts? k id = some c) :
    id < net.nodes.length := by
  by_contra hge
  cases (counts?_of_length_le (Nat.le_of_not_lt hge)).symm.trans h

namespace Passes

/-- What waits and what ports have counted is as it was. -/
theorem of_same (length_le : net.nodes.length ≤ net'.nodes.length)
    (queued : net'.queued k = net.queued k)
    (port : ∀ {id c}, id < net.nodes.length → net'.counts? k id = some c → net.counts? k id = some c)
    (new : ∀ {id c}, net.nodes.length ≤ id → net'.counts? k id = some c → c = {}) :
    net.Passes k [] net' where
  length_le := length_le
  queued := by rw [queued]; exact List.append_nil _
  unknown _ := ⟨rfl, rfl⟩
  port hid hc := by rw [port hid hc]; rfl
  bytesIn {id c} hc := by
    rcases Nat.lt_or_ge id net.nodes.length with hid | hid
    · rw [port hid hc]
      rfl
    · rw [new hid hc, counts?_of_length_le hid]
      rfl
  bytesOut {id c} hc := by
    rcases Nat.lt_or_ge id net.nodes.length with hid | hid
    · rw [port hid hc]
      rfl
    · rw [new hid hc, counts?_of_length_le hid]
      rfl

theorem refl (net : Network) : net.Passes k [] net :=
  of_same (Nat.le_refl _) rfl (fun _ hc => hc) fun hid hc => by
    rw [counts?_of_length_le hid] at hc
    cases hc

/-- The bytes that a port has counted after what happens first are those it has counted at all, if it
is still to come. -/
theorem counted (h : net.Passes k news net') (id : NodeId) :
    ((net'.counts? k id).isSome = true ∨ net'.nodes.length ≤ id) →
      ((net'.counts? k id).getD {}).bytesIn =
          ((net.counts? k id).getD {}).bytesIn + bytesOf (handedTo id news) ∧
        ((net'.counts? k id).getD {}).bytesOut =
          ((net.counts? k id).getD {}).bytesOut + bytesOf (acceptedFrom id news) := by
  rintro (hsome | hid)
  · obtain ⟨c, hc⟩ := Option.isSome_iff_exists.mp hsome
    rw [hc]
    exact ⟨h.bytesIn hc, h.bytesOut hc⟩
  · obtain ⟨hsent, hhanded⟩ := h.unknown hid
    rw [counts?_of_length_le hid, counts?_of_length_le (Nat.le_trans h.length_le hid), hsent, hhanded]
    exact ⟨rfl, rfl⟩

theorem trans (h : net.Passes k news net') (h' : net'.Passes k news' net'') :
    net.Passes k (news ++ news') net'' := by
  have hcounted : ∀ {id c}, net''.counts? k id = some c → _ := fun {id c} hc =>
    h.counted id ((Nat.lt_or_ge id net'.nodes.length).imp (fun hid => h'.port hid hc) fun hid => hid)
  constructor
  · exact Nat.le_trans h.length_le h'.length_le
  · rw [accepted_append, settled_append, ← List.append_assoc, h.queued, List.append_assoc, h'.queued,
      List.append_assoc]
  · intro id hid
    obtain ⟨hsent, hhanded⟩ := h.unknown (Nat.le_trans h'.length_le hid)
    obtain ⟨hsent', hhanded'⟩ := h'.unknown hid
    rw [acceptedFrom_append, handedTo_append, hsent, hsent', hhanded, hhanded']
    exact ⟨rfl, rfl⟩
  · intro id c hid hc
    obtain ⟨c', hc'⟩ := Option.isSome_iff_exists.mp (h'.port (Nat.lt_of_lt_of_le hid h.length_le) hc)
    exact h.port hid hc'
  · intro id c hc
    rw [h'.bytesIn hc, (hcounted hc).1, handedTo_append, bytesOf_append, Nat.add_assoc]
  · intro id c hc
    rw [h'.bytesOut hc, (hcounted hc).2, acceptedFrom_append, bytesOf_append, Nat.add_assoc]

end Passes

/-! ## What keeps registrations in order -/

/-- Registrations stay in order where nodes stay as they are attached, new nodes take what the link
takes, and whoever is registered newly has the sub-address of its place. -/
theorem Orderly.of_entries (h : net.Orderly k l) (link : net'.link? k = some l')
    (limit : l'.maxFrameLength = l.maxFrameLength) (single : l'.registry.keys.Nodup)
    (entries : ∀ {mac id}, l'.registry.get? mac = some id →
      l.registry.get? mac = some id ∨ net.port? id = some (k, mac))
    (length_le : net.nodes.length ≤ net'.nodes.length)
    (attachment : ∀ {id a}, id < net.nodes.length → net'.attachment? id = some a →
      net.attachment? id = some a ∧ (net'.counts? k id).isSome = (net.counts? k id).isSome)
    (new : ∀ {id a c}, net.nodes.length ≤ id → net'.attachment? id = some a →
      net'.counts? k id = some c → a.maxFrameLength = some l.maxFrameLength) :
    net'.Orderly k l' := by
  have hknown : ∀ {mac id}, l'.registry.get? mac = some id → id < net.nodes.length := by
    intro mac id hid
    rcases entries hid with hold | hport
    · exact h.known hold
    · obtain ⟨⟨c, hc⟩, -⟩ := port?_eq_some_iff.mp hport
      exact lt_length_of_counts? hc
  refine ⟨link, single, fun hid => Nat.lt_of_lt_of_le (hknown hid) length_le, ?_, ?_⟩
  · intro mac id a hid ha
    obtain ⟨ha, hc⟩ := attachment (hknown hid) ha
    rw [hc]
    rcases entries hid with hold | hport
    · exact h.holder hold ha
    · obtain ⟨⟨c, hc⟩, a', ha', hmac⟩ := port?_eq_some_iff.mp hport
      obtain rfl := Option.some.inj (ha'.symm.trans ha)
      exact ⟨hmac, by rw [hc, Option.isSome_some]⟩
  · intro id a c ha hc
    rw [limit]
    rcases Nat.lt_or_ge id net.nodes.length with hid | hid
    · obtain ⟨ha, hsame⟩ := attachment hid ha
      rw [hc, Option.isSome_some] at hsame
      obtain ⟨c', hc'⟩ := Option.isSome_iff_exists.mp hsame.symm
      exact h.limit ha hc'
    · exact new hid ha hc

theorem attachment?_of_length_le (h : net.nodes.length ≤ id) : net.attachment? id = none := by
  rw [attachment?, node?, List.getElem?_eq_none h]
  rfl

/-- A change to the link that keeps what it takes keeps registrations in order if those it adds are
of nodes with the sub-address of their place. -/
theorem Orderly.modifyLink (h : net.Orderly k l) {f : Link → Link}
    (limit : (f l).maxFrameLength = l.maxFrameLength) (single : (f l).registry.keys.Nodup)
    (entries : ∀ {mac id}, (f l).registry.get? mac = some id →
      l.registry.get? mac = some id ∨ net.port? id = some (k, mac)) :
    (net.modifyLink k f).Orderly k (f l) := by
  have hlink : (net.modifyLink k f).link? k = some (f l) := by
    have hl := h.link
    rw [link?] at hl
    simp [link?, Network.modifyLink, hl]
  refine h.of_entries hlink limit single entries (Nat.le_refl _) (fun _ ha => ⟨ha, rfl⟩) ?_
  intro id a c hid ha
  have hnone : net.attachment? id = none := attachment?_of_length_le hid
  cases hnone.symm.trans ha

/-- What waits on a link after it was changed. -/
theorem queued_modifyLink (link : net.link? k = some l) (f : Link → Link) :
    (net.modifyLink k f).queued k = (f l).queue.toList := by
  rw [link?] at link
  simp [queued, link?, Network.modifyLink, link]

theorem queued_of_link? (link : net.link? k = some l) : net.queued k = l.queue.toList := by
  rw [queued, link]
  rfl

theorem queued_eq_of_link?_eq (h : net'.link? k = net.link? k) : net'.queued k = net.queued k := by
  rw [queued, queued, h]

/-! ## Asides -/

theorem KeepsPorts.aside (h : net.KeepsPorts net') (k : LinkId) : net.Aside k net' where
  link := by rw [link?, link?, h.links]
  length_le := Nat.le_of_eq h.length_eq.symm
  attachment _ := by rw [h.attachment]
  counts _ := by rw [h.counts]
  new_counts hid hc := absurd (lt_length_of_counts? (h.counts _ ▸ hc)) (Nat.not_lt.mpr hid)
  new_limit hid hc := absurd (lt_length_of_counts? (h.counts _ ▸ hc)) (Nat.not_lt.mpr hid)

/-- What is done to another link is no matter of a link. -/
theorem aside_modifyLink {j : LinkId} (h : j ≠ k) (net : Network) (f : Link → Link) :
    net.Aside k (net.modifyLink j f) where
  link := by
    simp only [link?, Network.modifyLink, List.getElem?_modify]
    cases net.links[k]? <;> simp [h]
  length_le := Nat.le_refl _
  attachment _ := rfl
  counts _ := rfl
  new_counts hid hc := absurd (lt_length_of_counts? hc) (Nat.not_lt.mpr hid)
  new_limit hid hc := absurd (lt_length_of_counts? hc) (Nat.not_lt.mpr hid)

theorem Orderly.aside (h : net.Orderly k l) (aside : net.Aside k net') : net.Proceeds k l [] net' where
  orderly := by
    refine ⟨l, h.of_entries (aside.link.trans h.link) rfl h.single (fun hid => Or.inl hid)
      aside.length_le (fun hid ha => ?_) (fun hid ha hc => aside.new_limit hid hc ha h.link), rfl⟩
    rw [aside.attachment hid] at ha
    rw [aside.counts hid]
    exact ⟨ha, rfl⟩
  passes := Passes.of_same aside.length_le (queued_eq_of_link?_eq aside.link)
    (fun hid hc => by rwa [aside.counts hid] at hc) fun hid hc => aside.new_counts hid hc

theorem Proceeds.trans (h : net.Proceeds k l news net')
    (h' : ∀ l', net'.Orderly k l' → l'.maxFrameLength = l.maxFrameLength →
      net'.Proceeds k l' news' net'') : net.Proceeds k l (news ++ news') net'' := by
  obtain ⟨l', horderly, hlimit⟩ := h.orderly
  have hnext := h' l' horderly hlimit
  obtain ⟨l'', horderly', hlimit'⟩ := hnext.orderly
  exact ⟨⟨l'', horderly', hlimit'.trans hlimit⟩, h.passes.trans hnext.passes⟩

/-- What does not happen on the link is no matter of it. -/
theorem Proceeds.trans_nil (h : net.Proceeds k l news net')
    (h' : ∀ l', net'.Orderly k l' → net'.Proceeds k l' [] net'') : net.Proceeds k l news net'' := by
  have hall := h.trans fun l' horderly _ => h' l' horderly
  rwa [List.append_nil] at hall

/-- What happens after an aside. -/
theorem Orderly.aside_trans (h : net.Orderly k l) (aside : net.Aside k net')
    (h' : ∀ l', net'.Orderly k l' → net'.Proceeds k l' news net'') : net.Proceeds k l news net'' :=
  (h.aside aside).trans fun l' horderly _ => h' l' horderly

/-! ## Coming and going -/

namespace Orderly

/-- A change to the registrations or the worker of the link, after which the same frames wait. -/
theorem proceeds_modifyLink (h : net.Orderly k l) {f : Link → Link}
    (limit : (f l).maxFrameLength = l.maxFrameLength) (queue : (f l).queue = l.queue)
    (single : (f l).registry.keys.Nodup)
    (entries : ∀ {mac id}, (f l).registry.get? mac = some id →
      l.registry.get? mac = some id ∨ net.port? id = some (k, mac)) :
    net.Proceeds k l [] (net.modifyLink k f) where
  orderly := ⟨f l, h.modifyLink limit single entries, limit⟩
  passes := by
    refine Passes.of_same (Nat.le_refl _) ?_ (fun _ hc => hc) fun hid hc =>
      absurd (lt_length_of_counts? hc) (Nat.not_lt.mpr hid)
    rw [queued_modifyLink h.link, queue, queued_of_link? h.link]

theorem start (h : net.Orderly k l) (x : NodeId) : net.Proceeds k l [] (net.move (.start x)) := by
  rcases move_start_cases net x with hkeeps | ⟨j, mac, lj, hport, hlj, hmove⟩
  · exact h.aside (hkeeps.aside k)
  · rw [hmove]
    by_cases hj : j = k
    · subst hj
      obtain rfl := Option.some.inj (h.link.symm.trans hlj)
      refine h.proceeds_modifyLink rfl rfl (Table.nodup_keys_insert h.single mac x) fun hid => ?_
      rw [Table.get?_insert] at hid
      split at hid
      · rename_i hmac
        cases hid
        exact Or.inr (hmac ▸ hport)
      · exact Or.inl hid
    · exact h.aside (aside_modifyLink hj net _)

theorem detach (h : net.Orderly k l) (x : NodeId) : net.Proceeds k l [] (net.detach x) := by
  rcases detach_cases net x with hkeeps | ⟨j, mac, hport, hdetach⟩
  · exact h.aside (hkeeps.aside k)
  · rw [hdetach]
    by_cases hj : j = k
    · subst hj
      refine h.proceeds_modifyLink rfl rfl (Table.nodup_keys_erase h.single mac) fun {mac'} _ hid => ?_
      rw [Link.unregister] at hid
      by_cases hmac : mac' = mac
      · rw [hmac, Table.get?_erase_self] at hid
        cases hid
      · rw [Table.get?_erase_of_ne _ hmac] at hid
        exact Or.inl hid
    · exact h.aside (aside_modifyLink hj net _)

theorem terminate (h : net.Orderly k l) (x : NodeId) : net.Proceeds k l [] (net.terminate x) := by
  cases hactive : net.isActive x with
  | false =>
    rw [terminate_of_not_isActive hactive]
    exact h.aside ((KeepsPorts.refl net).aside k)
  | true =>
    rw [terminate_of_isActive hactive]
    have hmarked : net.KeepsPorts (net.modifyStation x fun s => { s with terminated := true }) :=
      keepsPorts_modifyNode net x (fun _ _ => rfl) fun _ _ _ => rfl
    exact h.aside_trans (hmarked.aside k) fun l' h' => h'.detach x

/-- A node that ceases to exist leaves its place behind. -/
theorem drop (h : net.Orderly k l) (x : NodeId) : net.Proceeds k l [] (net.drop x) := by
  refine h.aside_trans ((overlooksTransports_keepsPorts.dropConsumer net x).aside k) fun l' h' => ?_
  have hnode := node?_drop net x
  have hlength : (net.drop x).nodes.length = (net.dropConsumer x).nodes.length :=
    List.length_set ..
  have hcounts : ∀ {id c}, (net.drop x).counts? k id = some c →
      (net.dropConsumer x).counts? k id = some c := by
    intro id c hc
    rw [counts?, hnode] at hc
    split at hc
    · cases hc
    · exact hc
  constructor
  · refine ⟨l', h'.of_entries h'.link rfl h'.single (fun hid => Or.inl hid) (Nat.le_of_eq hlength.symm)
      (fun {id a} _ ha => ?_) (fun hid ha => ?_), rfl⟩
    · rw [attachment?, hnode] at ha
      rw [counts?, hnode]
      split at ha
      · cases ha
      · rename_i hne
        rw [if_neg hne]
        exact ⟨ha, rfl⟩
    · rw [attachment?_of_length_le (hlength ▸ hid)] at ha
      cases ha
  · refine Passes.of_same (Nat.le_of_eq hlength.symm) rfl (fun _ hc => hcounts hc) fun hid hc => ?_
    cases (counts?_of_length_le hid).symm.trans (hcounts hc)

/-- Whatever is done to a node keeps registrations in order and is no matter of frames. -/
theorem move (h : net.Orderly k l) (m : Move) : net.Proceeds k l [] (net.move m) := by
  cases m with
  | start x => exact h.start x
  | terminate x => exact h.terminate x
  | drop x => exact h.drop x

/-! ## The link at work -/

theorem startLink (h : net.Orderly k l) : net.Proceeds k l [] (net.startLink k) :=
  h.proceeds_modifyLink rfl rfl h.single fun hid => Or.inl hid

/-- What a link drops when it is terminated is lost. -/
theorem terminateLink (h : net.Orderly k l) {lost : List LinkFrame}
    (gone : net.queued k = lost ++ (net.terminateLink k).queued k) :
    net.Proceeds k l [.terminated net lost] (net.terminateLink k) where
  orderly := by
    have hregistry : l.terminate.registry = l.registry ∧
        l.terminate.maxFrameLength = l.maxFrameLength := by
      unfold Link.terminate
      split <;> exact ⟨rfl, rfl⟩
    refine ⟨_, h.modifyLink hregistry.2 ?_ fun hid => ?_, hregistry.2⟩
    · rw [hregistry.1]
      exact h.single
    · rw [hregistry.1] at hid
      exact Or.inl hid
  passes := by
    refine ⟨Nat.le_refl _, ?_, fun _ => ⟨rfl, rfl⟩, fun _ hc => ?_, fun {id c} hc => ?_,
      fun {id c} hc => ?_⟩
    · rw [gone]
      simp [accepted, settled, Happening.acceptance?, Happening.settled]
    · exact Option.isSome_iff_exists.mpr ⟨_, hc⟩
    · have hold : net.counts? k id = some c := hc
      rw [hold]
      rfl
    · have hold : net.counts? k id = some c := hc
      rw [hold]
      rfl

/-- Events keep registrations in order. -/
theorem applyAll (h : net.Orderly k l) (events : List Event) :
    ∃ l', (net.applyAll events).Orderly k l' ∧ l'.maxFrameLength = l.maxFrameLength := by
  have hwiring := wiring_applyAll net events
  have hlength := (keepsSetup_applyAll net events).length_eq
  obtain ⟨l', hl', hidle⟩ : ∃ l', (net.applyAll events).link? k = some l' ∧ l'.idle = l.idle := by
    have hlinks := links_wiring (net.applyAll events) k
    rw [hwiring, links_wiring, h.link, Option.map_some] at hlinks
    exact Option.map_eq_some_iff.mp hlinks.symm
  have hregistry : l'.registry = l.registry := (congrArg Link.registry hidle :)
  have hlimit : l'.maxFrameLength = l.maxFrameLength := (congrArg Link.maxFrameLength hidle :)
  have hattachment : (net.applyAll events).attachment? = net.attachment? := by
    funext id
    have hdirectory := congrFun (directory_applyAll net events) id
    simp only [directory] at hdirectory
    have := congrArg (Option.map Station.attachment) hdirectory
    rwa [Option.map_map, Option.map_map] at this
  refine ⟨l', h.of_entries hl' hlimit (hregistry ▸ h.single) (fun hid => Or.inl (hregistry ▸ hid))
    (Nat.le_of_eq hlength.symm) (fun {id a} _ ha => ⟨hattachment ▸ ha, ?_⟩) fun hid ha => ?_, hlimit⟩
  · rw [counts?_applyAll, Option.isSome_map]
  · rw [attachment?_of_length_le (hlength ▸ hid)] at ha
    cases ha

/-! ## Who a frame is handed to -/

/-- A frame is handed to nobody twice. -/
theorem nodup_recipients (h : net.Orderly k l) (f : LinkFrame) :
    (l.recipients net.isAlive f).Nodup := by
  refine Link.nodup_recipients h.single (fun {mac mac' id} hentry hentry' halive => ?_) f
  rw [isAlive_eq_attachment?] at halive
  obtain ⟨a, ha⟩ := Option.isSome_iff_exists.mp halive
  have hmac := h.holder (Table.get?_eq_some_of_mem h.single hentry) ha
  have hmac' := h.holder (Table.get?_eq_some_of_mem h.single hentry') ha
  rw [← hmac.1, ← hmac'.1]

section

variable {f : LinkFrame} {order : List NodeId}
  (recipients : order.Perm (l.recipients net.isAlive f))

include recipients

/-- Whoever a frame reaches is one of those it is for. -/
theorem mem_of_mem_reached (mem : id ∈ net.directory.reached f order) :
    id ∈ l.recipients net.isAlive f :=
  recipients.mem_iff.mp ((net.directory.reached_prefix f order).subset mem)

/-- A frame reaches nobody twice. -/
theorem nodup_reached (h : net.Orderly k l) : (net.directory.reached f order).Nodup :=
  (recipients.nodup_iff.mpr (h.nodup_recipients f)).sublist
    (net.directory.reached_prefix f order).sublist

/-- A frame that nobody breaks off over, or one with a target, reaches everybody it is for. -/
theorem reached_eq (h : (Happening.handedOut net f (net.directory.reached f order)).breaksOff = false ∨
    f.target.isSome = true) : net.directory.reached f order = order := by
  rcases h with hunbroken | htarget
  · exact Directory.reached_eq_self fun id hid =>
      Bool.eq_false_iff.mpr (List.any_eq_false.mp hunbroken id hid)
  · obtain ⟨mac, ht⟩ := Option.isSome_iff_exists.mp htarget
    rw [Link.recipients, ht] at recipients
    dsimp only at recipients
    cases hholder : (l.registry.get? mac).filter net.isAlive with
    | none =>
      rw [hholder] at recipients
      rw [List.perm_nil.mp recipients]
      rfl
    | some id =>
      rw [hholder] at recipients
      rw [List.perm_singleton.mp recipients]
      exact net.directory.reached_singleton f id

end

/-- A node is registered if it exists and its name is found in some place. -/
theorem isRegistered_iff (h : net.Orderly k l) : net.IsRegistered k id ↔
    ∃ mac, l.registry.get? mac = some id ∧ net.isAlive id = true := by
  constructor
  · rintro ⟨mac, hport, hholder⟩
    rw [holder?, h.link, Option.bind_some] at hholder
    exact ⟨mac, hholder, isAlive_of_port? hport⟩
  · rintro ⟨mac, hholder, halive⟩
    rw [isAlive_eq_attachment?] at halive
    obtain ⟨a, ha⟩ := Option.isSome_iff_exists.mp halive
    obtain ⟨hmac, hport⟩ := h.holder hholder ha
    refine ⟨mac, port?_eq_some_iff.mpr ⟨Option.isSome_iff_exists.mp hport, a, ha, hmac⟩, ?_⟩
    rw [holder?, h.link, Option.bind_some, hholder]

/-- A frame without target is handed to everybody who is registered, and a frame with a target to
whoever is registered under it. -/
theorem mem_recipients_iff (h : net.Orderly k l) {f : LinkFrame} :
    id ∈ l.recipients net.isAlive f ↔
      net.IsRegistered k id ∧ ∀ mac, f.target = some mac → net.port? id = some (k, mac) := by
  cases ht : f.target with
  | none =>
    rw [Link.mem_recipients_of_target_none ht, h.isRegistered_iff]
    simp only [reduceCtorEq, false_implies, implies_true, and_true]
    constructor
    · rintro ⟨hvalue, halive⟩
      obtain ⟨⟨mac, id'⟩, hentry, rfl⟩ := List.mem_map.mp hvalue
      exact ⟨mac, Table.get?_eq_some_of_mem h.single hentry, halive⟩
    · rintro ⟨mac, hholder, halive⟩
      exact ⟨List.mem_map.mpr ⟨_, Table.mem_of_get?_eq_some hholder, rfl⟩, halive⟩
  | some mac =>
    rw [Link.mem_recipients_of_target_some ht]
    constructor
    · rintro ⟨hholder, halive⟩
      have hregistered := h.isRegistered_iff.mpr ⟨mac, hholder, halive⟩
      refine ⟨hregistered, fun mac' hmac => ?_⟩
      obtain rfl := Option.some.inj hmac
      rw [isAlive_eq_attachment?] at halive
      obtain ⟨a, ha⟩ := Option.isSome_iff_exists.mp halive
      obtain ⟨hown, hport⟩ := h.holder hholder ha
      exact port?_eq_some_iff.mpr ⟨Option.isSome_iff_exists.mp hport, a, ha, hown⟩
    · rintro ⟨⟨mac', hport, hholder⟩, htarget⟩
      cases hport.symm.trans (htarget mac rfl)
      rw [holder?, h.link, Option.bind_some] at hholder
      exact ⟨hholder, isAlive_of_port? hport⟩

end Orderly

/-! ## Frames and bytes of events -/

theorem accepted_acceptances (net : Network) (k : LinkId) (events : List Event) :
    accepted (net.acceptances k events) = (events.filterMap (net.accepted? k)).map Prod.snd := by
  simp [accepted, acceptances, List.filterMap_map, Function.comp_def, Happening.acceptance?]

theorem acceptedFrom_acceptances (net : Network) (k : LinkId) (id : NodeId) (events : List Event) :
    acceptedFrom id (net.acceptances k events) =
      ((events.filterMap (net.accepted? k)).filter fun x => x.1 = id).map Prod.snd := by
  simp [acceptedFrom, acceptances, List.filterMap_map, Function.comp_def, Happening.acceptance?]

theorem settled_acceptances (net : Network) (k : LinkId) (events : List Event) :
    settled (net.acceptances k events) = [] := by
  rw [settled, List.flatMap_eq_nil_iff]
  intro x hx
  obtain ⟨y, -, rfl⟩ := List.mem_map.mp hx
  rfl

theorem handedTo_acceptances (net : Network) (k : LinkId) (id : NodeId) (events : List Event) :
    handedTo id (net.acceptances k events) = [] := by
  simp [handedTo, acceptances, List.filterMap_map, Function.comp_def, Happening.handing?]

/-- A frame that is handed out is handed to whom it is handed to. -/
theorem handedTo_handedOut (id : NodeId) (before : Network) (f : LinkFrame) (order : List NodeId)
    (past : List Happening) : handedTo id (.handedOut before f order :: past) =
      (if id ∈ order then [f] else []) ++ handedTo id past := by
  have hcons : (Happening.handedOut before f order :: past).filterMap Happening.handing? =
      (f, order) :: past.filterMap Happening.handing? := List.filterMap_cons_some rfl
  rw [handedTo, hcons, List.filter_cons]
  by_cases h : id ∈ order
  · simp [handedTo, h]
  · simp [handedTo, h]

/-- Whoever a frame is accepted from is a node. -/
theorem acceptedFrom_eq_nil (h : net.nodes.length ≤ id) (events : List Event) :
    acceptedFrom id (net.acceptances k events) = [] := by
  rw [acceptedFrom_acceptances, List.map_eq_nil_iff, List.filter_eq_nil_iff]
  intro x hx hid
  obtain ⟨event, -, hevent⟩ := List.mem_filterMap.mp hx
  obtain ⟨t, rfl⟩ := of_accepted? hevent
  obtain ⟨p, hp, -⟩ := Option.bind_eq_some_iff.mp hevent
  rw [posted?_transmitted] at hp
  obtain ⟨n, hn, -⟩ := Option.bind_eq_some_iff.mp hp
  rw [of_decide_eq_true hid, node?, List.getElem?_eq_none h] at hn
  cases hn

/-- What ports have counted after events: what was handed to them and what was accepted from them. -/
theorem of_counts?_applyAll (link : (net.link? k).isSome = true) {events : List Event} {c : ByteCounts}
    (h : (net.applyAll events).counts? k id = some c) :
    ∃ c', net.counts? k id = some c' ∧
      c.bytesIn = c'.bytesIn + (events.map (Event.bytesTo id)).sum ∧
      c.bytesOut = c'.bytesOut + bytesOf (acceptedFrom id (net.acceptances k events)) := by
  rw [counts?_applyAll] at h
  obtain ⟨c', hc', rfl⟩ := Option.map_eq_some_iff.mp h
  refine ⟨c', hc', rfl, ?_⟩
  have hframes := congrArg (List.map List.length) (frames_accepted hc' link events)
  rw [List.map_map, List.map_map] at hframes
  rw [acceptedFrom_acceptances, bytesOf, List.map_map]
  exact congrArg (c'.bytesOut + List.sum ·) hframes.symm

/-- What a frame hands to a port, if it is handed to nobody twice. -/
theorem bytesTo_flatMap_handing (d : Directory) (f : LinkFrame) {order : List NodeId}
    (single : order.Nodup) (id : NodeId) :
    ((order.flatMap (d.handing f)).map (Event.bytesTo id)).sum =
      if id ∈ order then f.data.length else 0 := by
  induction order with
  | nil => rfl
  | cons x rest ih =>
    obtain ⟨hx, hrest⟩ := List.nodup_cons.mp single
    rw [List.flatMap_cons, List.map_append, List.sum_append, d.bytesTo_handing, ih hrest]
    by_cases he : x = id
    · subst he
      rw [if_pos rfl, if_neg hx, if_pos List.mem_cons_self]
      rfl
    · rw [if_neg he, Nat.zero_add]
      simp only [List.mem_cons, Ne.symm he, false_or]

namespace Orderly

/-- Whatever stations transmit is queued behind what waits, and counted by the ports. -/
theorem events (h : net.Orderly k l) {events : List Event}
    (unhanded : ∀ {id length}, .handed id length ∈ events → net.counts? k id = none) :
    net.Proceeds k l (net.acceptances k events) (net.applyAll events) where
  orderly := h.applyAll events
  passes := by
    have hlength := (keepsSetup_applyAll net events).length_eq
    have hlink : (net.link? k).isSome = true := by rw [h.link, Option.isSome_some]
    refine ⟨Nat.le_of_eq hlength.symm, ?_, fun hid => ?_, fun _ hc => ?_, fun {id c} hc => ?_,
      fun {id c} hc => ?_⟩
    · rw [queued_applyAll, accepted_acceptances, settled_acceptances, List.nil_append]
    · rw [hlength] at hid
      exact ⟨acceptedFrom_eq_nil hid events, handedTo_acceptances net k _ events⟩
    · obtain ⟨c', hc', -⟩ := of_counts?_applyAll hlink hc
      rw [hc', Option.isSome_some]
    · obtain ⟨c', hc', hin, -⟩ := of_counts?_applyAll hlink hc
      have hnone : (events.map (Event.bytesTo id)).sum = 0 := by
        refine List.sum_eq_zero fun x hx => ?_
        obtain ⟨event, hevent, rfl⟩ := List.mem_map.mp hx
        cases event with
        | handed node length =>
          refine if_neg ?_
          rintro rfl
          cases (unhanded hevent).symm.trans hc'
        | _ => rfl
      rw [hc', handedTo_acceptances, hin, hnone]
      rfl
    · obtain ⟨c', hc', -, hout⟩ := of_counts?_applyAll hlink hc
      rw [hc', hout]
      rfl

/-- A frame that is handed out is the one that waited longest; what those transmit who are handed it
is queued behind what waits. -/
theorem handsOut (h : net.Orderly k l) {f : LinkFrame} {queue : Mailbox LinkFrame}
    {order : List NodeId} (pop : l.queue.pop = some (f, queue)) (single : order.Nodup)
    (recipients : ∀ id ∈ order, id ∈ l.recipients net.isAlive f) :
    net.Proceeds k l
      (.handedOut net f order :: net.acceptances k (order.flatMap (net.directory.handing f)))
      ((net.modifyLink k fun l => { l with queue }).applyAll
        (order.flatMap (net.directory.handing f))) := by
  have hpopped : (net.modifyLink k fun l => { l with queue }).Orderly k { l with queue } :=
    h.modifyLink rfl h.single fun hid => Or.inl hid
  have haccepted : (net.modifyLink k fun l => { l with queue }).accepted? k = net.accepted? k := by
    have hwiring : (net.modifyLink k fun l => { l with queue }).wiring = net.wiring := by
      refine wiring_modifyLink net k ?_
      exact fun _ => rfl
    funext event
    rw [accepted?, accepted?, hwiring]
  have hacceptances : ∀ events, (net.modifyLink k fun l => { l with queue }).acceptances k events =
      net.acceptances k events := fun events => by rw [acceptances, haccepted, acceptances]
  have hlength : ∀ events, ((net.modifyLink k fun l => { l with queue }).applyAll events).nodes.length =
      net.nodes.length := fun events => (keepsSetup_applyAll _ events).length_eq
  have hlink : ((net.modifyLink k fun l => { l with queue }).link? k).isSome = true := by
    rw [hpopped.link, Option.isSome_some]
  refine ⟨hpopped.applyAll _, Nat.le_of_eq (hlength _).symm, ?_, fun {id} hid => ?_,
    fun {id c} _ hc => ?_, fun {id c} hc => ?_, fun {id c} hc => ?_⟩
  · rw [queued_applyAll, queued_modifyLink h.link, queued_of_link? h.link,
      Mailbox.pop_eq_some_iff.mp pop, haccepted]
    have hrest := accepted_acceptances net k (order.flatMap (net.directory.handing f))
    have hnone := settled_acceptances net k (order.flatMap (net.directory.handing f))
    show (f :: queue.toList) ++ accepted (net.acceptances k _) =
      (f :: settled (net.acceptances k _)) ++ _
    rw [hrest, hnone]
    rfl
  · rw [hlength] at hid
    have hout : id ∉ order := fun hmem => by
      obtain ⟨⟨mac, hport, -⟩, -⟩ := h.mem_recipients_iff.mp (recipients id hmem)
      obtain ⟨⟨c, hc⟩, -⟩ := port?_eq_some_iff.mp hport
      cases (counts?_of_length_le hid).symm.trans hc
    refine ⟨acceptedFrom_eq_nil hid _, ?_⟩
    rw [handedTo_handedOut, if_neg hout, handedTo_acceptances]
    rfl
  · obtain ⟨c', hc', -⟩ := of_counts?_applyAll hlink hc
    have hc'' : net.counts? k id = some c' := hc'
    rw [hc'', Option.isSome_some]
  · obtain ⟨c', hc', hin, -⟩ := of_counts?_applyAll hlink hc
    have hc'' : net.counts? k id = some c' := hc'
    rw [hin, hc'', bytesTo_flatMap_handing _ _ single, handedTo_handedOut, handedTo_acceptances]
    split <;> rfl
  · obtain ⟨c', hc', -, hout⟩ := of_counts?_applyAll hlink hc
    have hc'' : net.counts? k id = some c' := hc'
    rw [hout, hc'', hacceptances]
    rfl

end Orderly

/-! ## Any course of things -/

/-- Whatever happens on a link and beside it, registrations stay in order, and frames and bytes are
accounted for. -/
theorem Carries.proceeds {past : List Happening} (carries : Carries k net past net')
    (h : net.Orderly k l) : net.Proceeds k l past net' := by
  induction carries with
  | refl => exact ⟨⟨l, h, rfl⟩, Passes.refl net⟩
  | events carries unhanded ih => exact ih.trans fun l' h' _ => h'.events unhanded
  | move carries m ih => exact ih.trans_nil fun l' h' => h'.move m
  | detach carries id ih => exact ih.trans_nil fun l' h' => h'.detach id
  | startLink carries ih => exact ih.trans_nil fun l' h' => h'.startLink
  | terminateLink carries lost gone ih => exact ih.trans fun l' h' _ => h'.terminateLink gone
  | handsOut carries link running works pop recipients ih =>
    refine ih.trans fun l' h' _ => ?_
    obtain rfl := Option.some.inj (h'.link.symm.trans link)
    exact h'.handsOut pop (h'.nodup_reached recipients) fun id => Orderly.mem_of_mem_reached recipients
  | aside carries aside ih => exact ih.trans_nil fun l' h' => h'.aside aside

/-- How something comes to happen on a link that is at work from a state on. -/
inductive ComesAbout (k : LinkId) (start : Network) : Happening → Prop
  | accepted (node : NodeId) (f : LinkFrame) : ComesAbout k start (.accepted node f)
  | handedOut {past : List Happening} {net : Network} (carries : Carries k start past net) {l : Link}
      {f : LinkFrame} {order : List NodeId} (link : net.link? k = some l)
      (recipients : order.Perm (l.recipients net.isAlive f)) :
      ComesAbout k start (.handedOut net f (net.directory.reached f order))
  | terminated {past : List Happening} {net : Network} (carries : Carries k start past net)
      {lost : List LinkFrame} (gone : net.queued k = lost ++ (net.terminateLink k).queued k) :
      ComesAbout k start (.terminated net lost)

/-- Whatever happens on a link comes about in the course of its work. -/
theorem Carries.comesAbout {past : List Happening} (carries : Carries k net past net') :
    ∀ x ∈ past, ComesAbout k net x := by
  have haccepted : ∀ (now : Network) (events : List Event), ∀ x ∈ now.acceptances k events,
      ComesAbout k net x := by
    intro now events x hx
    obtain ⟨y, -, rfl⟩ := List.mem_map.mp hx
    exact .accepted y.1 y.2
  induction carries with
  | refl => exact List.forall_mem_nil _
  | events carries unhanded ih => exact List.forall_mem_append.mpr ⟨ih, haccepted _ _⟩
  | move carries m ih => exact ih
  | detach carries id ih => exact ih
  | startLink carries ih => exact ih
  | terminateLink carries lost gone ih =>
    exact List.forall_mem_append.mpr ⟨ih, List.forall_mem_singleton.mpr (.terminated carries gone)⟩
  | handsOut carries link running works pop recipients ih =>
    refine List.forall_mem_append.mpr ⟨ih, List.forall_mem_cons.mpr ⟨?_, haccepted _ _⟩⟩
    exact .handedOut carries link recipients
  | aside carries aside ih => exact ih

/-- A port refuses exactly the frames that are too long for its link; the others are accepted. -/
theorem Orderly.emit (h : net.Orderly k l) {mac : Bytes} (port : net.port? id = some (k, mac))
    (t : Transmission) : net.emit id t =
      if l.maxFrameLength < t.frame.length then .error (.frameTooLarge t.frame.length)
      else .ok (net.apply (.transmitted id t)) := by
  obtain ⟨⟨c, hc⟩, a, ha, -⟩ := port?_eq_some_iff.mp port
  have hlimit := h.limit ha hc
  obtain ⟨n, hn, rfl⟩ := Option.map_eq_some_iff.mp ha
  have hmember : net.member? id = some ⟨id, n.station⟩ := by
    simp [member?, Directory.member?, directory, hn]
  have htakes : n.station.attachment.Takes t.frame.length ↔ t.frame.length ≤ l.maxFrameLength := by
    simp [Attachment.Takes, hlimit]
  rw [Network.emit, hmember]
  simp only [Member.emit, htakes]
  by_cases hlong : l.maxFrameLength < t.frame.length
  · rw [if_neg (Nat.not_le_of_lt hlong), if_pos hlong]
    rfl
  · rw [if_pos (Nat.le_of_not_lt hlong), if_neg hlong]
    rfl

/-- The worker of a link that hands out a frame whose origin makes an address. -/
theorem Carries.handOut {past : List Happening} (carries : Carries k net past net')
    {f : LinkFrame} {queue : Mailbox LinkFrame} (link : net'.link? k = some l)
    (running : l.running = true) (works : isStuck past = false)
    (pop : l.queue.pop = some (f, queue)) (fits : f.origin.length ≤ maxMacLength) :
    Carries k net
      (past ++ .handedOut net' f (l.recipients net'.isAlive f) ::
        net'.acceptances k (net'.deliveries l f)) (net'.handOut k) := by
  have hhanded := carries.handsOut link running works pop (List.Perm.refl _)
  rw [Directory.reached_of_fits fits] at hhanded
  simp only [Network.handOut, link, pop]
  exact hhanded

/-- A station that sends a message. -/
theorem Carries.send {past : List Happening} (carries : Carries k net past net') (id : NodeId)
    (msg : Message) : ∃ events, Carries k net (past ++ net'.acceptances k events) (net'.send id msg).2 := by
  unfold Network.send call
  cases hm : net'.member? id with
  | none => exact ⟨[], by rw [acceptances]; simpa using carries⟩
  | some m =>
    exact ⟨_, carries.events fun hmem => absurd hmem (net'.directory.not_handed_send m msg _ _)⟩

end Network

end Fieldbus
