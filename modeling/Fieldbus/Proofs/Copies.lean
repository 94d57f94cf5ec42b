import Fieldbus.Proofs.Segments

/-!
# Copies of a global broadcast

A station that is handed a copy of a global broadcast by a neighbor puts it on its link, and every
station there passes it on to its neighbors, but not to the segment it came from. What comes of a
copy is described by what is seen of it on one link (`Wiring.sight?`). Main statement: where
segments have no loops, a copy is seen exactly once on the links of the segments beyond that are
within its hops (`Wiring.Joins.seen_relay`).
-/

namespace Fieldbus

/-- What can be seen on a link. -/
inductive Sight where
  /-- A frame was put there. -/
  | frame (f : LinkFrame)
  /-- An envelope arrived at a node that is tapped to the link. -/
  | arrival (node : NodeId) (e : Envelope)

namespace Envelope

/-- The same envelope with another number of hops left. -/
def withHops (e : Envelope) (hops : Nat) : Envelope := { e with hopCount := hops.toUInt8 }

theorem toNat_hopCount_withHops {hops : Nat} (lt : hops < 256) (e : Envelope) :
    (e.withHops hops).hopCount.toNat = hops := by
  simp only [withHops, Nat.toUInt8_eq, UInt8.toNat_ofNat']
  omega

/-- The number of hops takes the same room, whatever it is. -/
theorem length_frame_withHops (e : Envelope) (hops : Nat) :
    (e.withHops hops).frame.length = e.frame.length := by
  have hsize : (e.withHops hops).header.size = e.header.size := by
    cases hr : e.recipient <;> simp [withHops, header, Header.size, hr, Destination.to]
  rw [frame, frame, List.length_append, List.length_append, Header.length_bytes,
    Header.length_bytes, hsize]
  rfl

/-- A global broadcast above the network layer, as a neighbor hands it on. -/
structure Global (e : Envelope) : Prop where
  /-- The envelope is for everybody. -/
  recipient : e.recipient = some Address.everywhere
  /-- The envelope does not belong to the network layer itself. -/
  plain : e.message = none
  /-- The envelope has not come from a medium. -/
  link : e.link = none
  /-- The sender has left its segment. -/
  sender : e.sender.segment ≠ Segment.here

variable {e : Envelope}

theorem Global.withHops (h : e.Global) (hops : Nat) : (e.withHops hops).Global :=
  ⟨h.recipient, h.plain, h.link, h.sender⟩

/-- What a station passes on of a global broadcast is the broadcast with other hops. -/
theorem Global.copyFrom_withHops (h : e.Global) (s : Station) (hops hops' : Nat) :
    (e.withHops hops).copyFrom s hops' = e.withHops hops' := by
  have hhere : e.sender.isHere = false := by simpa [Address.isHere] using h.sender
  have hsender : s.departing e.sender = e.sender := by
    rw [Station.departing, hhere, if_neg Bool.false_ne_true]
  obtain ⟨sender, recipient, link, payload, hopCount, expectsReply, priority, message⟩ := e
  obtain rfl : link = none := h.link
  exact congrArg (fun a => Envelope.mk a recipient none payload hops'.toUInt8 expectsReply priority
    message) hsender

/-- What the node `m` takes note of if the node `n` puts a global broadcast on their link. -/
def heard (e : Envelope) (n m : Member) : Envelope :=
  if m = n then e else { e with link := some n.station.attachment.mac }

@[simp] theorem heard_self (e : Envelope) (n : Member) : e.heard n n = e := if_pos rfl

end Envelope

namespace Directory

variable {d : Directory} {m : Member} {e : Envelope}

/-- A flood depends on what it skips of the neighbors, and not on who put the frame on the
medium. -/
theorem flood_congr {skip skip' : List Segment}
    (h : ∀ n ∈ d.neighbors m.station, n.station.segment ∈ skip ↔ n.station.segment ∈ skip')
    (hops : Nat) (link : Option Bytes) :
    d.flood hops m { e with link } skip = d.flood hops m e skip' := by
  cases hops with
  | zero => rfl
  | succ hops =>
    have hahead : ((d.neighbors m.station).filter fun n => !skip.contains n.station.segment) =
        (d.neighbors m.station).filter fun n => !skip'.contains n.station.segment := by
      refine List.filter_congr fun n hn => ?_
      rw [Bool.not_inj_iff, Bool.eq_iff_iff, List.contains_iff_mem, List.contains_iff_mem]
      exact h n hn
    rw [flood, hahead, flood]
    rfl

end Directory

namespace Wiring

/-- The frame that an event leaves on a given link. -/
def frame? (w : Wiring) (k : LinkId) (event : Event) : Option LinkFrame :=
  (w.posted? event).bind fun p => if p.1 = k then some p.2 else none

/-- What is seen of an event on a link. -/
def sight? (w : Wiring) (k : LinkId) : Event → Option Sight
  | .transmitted id t => (w.frame? k (.transmitted id t)).map .frame
  | .arrived id e => if w.tap? id = some k then some (.arrival id e) else none
  | _ => none

variable {w : Wiring} {k k' : LinkId} {l : Link} {n m : Member} {e : Envelope}

namespace Serves

/-- What a station reads of a global broadcast that a station of its link put there. -/
theorem events_receive_global (h : w.Serves k l) (hn : w.Attends k n) (hm : w.Attends k m)
    (he : e.Global) (segment : e.sender.segment ≠ l.segment) :
    (w.directory.receive m e.frame n.station.attachment.mac).events = .received m.id ::
      w.directory.route m { e with link := some n.station.attachment.mac }
        n.station.attachment.mac := by
  have honn := h.on n hn
  have honm := h.on m hm
  obtain ⟨hint, ho⟩ := honn.exists_onLink
  have hhere : e.sender.isHere = false := by simpa [Address.isHere] using he.sender
  have hshares : m.station.shares e.sender = false :=
    Station.shares_eq_false he.sender (honm.segment ▸ segment)
  have hfar : (Segment.everywhere != m.station.segment) = true := by
    rw [honm.segment]
    simpa using h.segment_ne_everywhere.symm
  have hread : m.station.reading e n.station.attachment.mac hint =
      { e with link := some n.station.attachment.mac } := by
    simp only [Station.reading, hhere, Bool.false_eq_true, ite_false, hshares, he.recipient,
      Option.filter_some, Address.segment_everywhere, hfar, ite_true, Option.isSome_some]
  have hknown : ∀ a ∈ e.recipient, a.isGlobal = true ∨ a.segment = m.station.segment ∨
      (w.directory.neighborOn? m.station a.segment).isSome = true := by
    intro a ha
    rw [he.recipient] at ha
    exact Or.inl (Address.isGlobal_iff.mpr (Option.some.inj ha).symm)
  rw [Directory.events_receive_frame honm.active he.plain ho hknown, hread]

/-- A station drops a global broadcast that it put on its link itself. -/
theorem events_receive_own (h : w.Serves k l) (hn : w.Attends k n) (he : e.Global)
    (segment : e.sender.segment ≠ l.segment) :
    (w.directory.receive n e.frame n.station.attachment.mac).events =
      [.received n.id, .dropped n.id] := by
  have hglobal : Address.everywhere.isGlobal = true := rfl
  rw [h.events_receive_global hn hn he segment, Directory.route_of_isOwn]
  simp [Directory.isOwn, he.recipient, hglobal, (h.on n hn).macs_eq]

/-- Any other station passes it on and takes note of it. -/
theorem events_receive_copy (h : w.Serves k l) (hn : w.Attends k n) (hm : w.Attends k m)
    (ne : m ≠ n) (he : e.Global) (segment : e.sender.segment ≠ l.segment) :
    (w.directory.receive m e.frame n.station.attachment.mac).events = .received m.id ::
      (w.directory.flood e.hopCount.toNat m { e with link := some n.station.attachment.mac }
          [e.sender.segment]
        ++ [.arrived m.id { e with link := some n.station.attachment.mac }]) := by
  have honm := h.on m hm
  have hshares : m.station.shares e.sender = false :=
    Station.shares_eq_false he.sender (honm.segment ▸ segment)
  have hmac : m.station.attachment.macs.contains n.station.attachment.mac = false := by
    rw [honm.macs_eq, Bool.eq_false_iff]
    intro hc
    rw [List.contains_iff_mem, List.mem_singleton] at hc
    exact ne (h.eq_of_mac_eq hm hn hc.symm)
  have hown : Directory.isOwn m.station { e with link := some n.station.attachment.mac }
      n.station.attachment.mac = false := by
    simp only [Directory.isOwn, Station.answersTo_eq_false hshares, hmac, Bool.and_false,
      Bool.or_self]
  have hsegment : m.station.segment ≠ Segment.everywhere :=
    honm.segment ▸ h.segment_ne_everywhere
  rw [h.events_receive_global hn hm he segment]
  exact congrArg _ (Directory.route_of_recipient_eq_everywhere hown hsegment he.recipient)

end Serves

/-- What is seen on a link: a frame there, and at every node the envelope it has `heard`, if any. -/
def scene (w : Wiring) (l : Link) (f : LinkFrame) (heard : Member → Option Envelope) :
    Multiset Sight :=
  {.frame f} + ((w.stations l).map fun m => ↑((heard m).map (Sight.arrival m.id)).toList).sum

/-- What is seen on a link where a station puts a global broadcast. -/
def landing (w : Wiring) (l : Link) (n : Member) (e : Envelope) : Multiset Sight :=
  w.scene l ⟨n.station.attachment.mac, none, e.frame⟩ fun m => some (e.heard n m)

/-- What is seen on the link `k` of one node of the link `k'` if the node `n` puts a global
broadcast there: the arrival, and what comes of the copies that the node passes on. -/
def seenAt (w : Wiring) (k k' : LinkId) (ingress : Segment) (e : Envelope) (n m : Member) :
    Multiset Sight :=
  w.observed (w.sight? k) (w.directory.flood e.hopCount.toNat m e [ingress]) +
    if k' = k then {.arrival m.id (e.heard n m)} else 0

/-- An arrival is seen on the link of the node and on no other. -/
theorem Attends.observed_arrived (hm : w.Attends k' m) (e : Envelope) (k : LinkId) :
    w.observed (w.sight? k) [.arrived m.id e] = if k' = k then {.arrival m.id e} else 0 := by
  rw [observed_singleton _ rfl]
  simp only [sight?, hm.tap, Option.some.injEq]
  split <;> rfl

namespace Serves

/-- A frame for everybody is seen on the link it is put on, and then what every station there makes
of it. -/
theorem observed_transmitted_global (h : w.Serves k' l) (routed : w.directory.Routed)
    (hn : w.Attends k' n) {t : Transmission} (global : t.recipient.isGlobal = true) (k : LinkId) :
    w.observed (w.sight? k) [.transmitted n.id t] =
      (if k' = k then {.frame ⟨n.station.attachment.mac, none, t.frame⟩} else 0) +
        ((w.stations l).map fun m => w.observed (w.sight? k)
          (w.directory.receive m t.frame n.station.attachment.mac).events).sum := by
  have htarget : l.target t = none := by rw [Link.target, global, Bool.or_true, if_pos rfl]
  have hframe : ((w.sight? k (.transmitted n.id t)).toList : Multiset Sight) =
      if k' = k then {.frame ⟨n.station.attachment.mac, none, t.frame⟩} else 0 := by
    simp only [sight?, frame?, posted?_transmitted hn h.link, htarget, Option.bind_some]
    split <;> rfl
  have heach : ∀ m ∈ w.stations l, w.observed (w.sight? k) (w.directory.handing
      ⟨n.station.attachment.mac, none, t.frame⟩ m.id) = w.observed (w.sight? k)
        (w.directory.receive m t.frame n.station.attachment.mac).events := fun m hm =>
    (h.mem_stations_iff.mp hm).observed_handing _ rfl
  rw [observed_transmitted _ routed hn.station hn.tap h.link, htarget,
    recipients_of_target_none rfl, List.map_map, hframe, ← List.map_congr_left heach]
  rfl

/-- A station that is handed a global broadcast passes it on, takes note of it and puts it on its
link as it is. -/
theorem relay_global (h : w.Serves k' l) (hn : w.Attends k' n) (he : e.Global)
    (fits : e.frame.length ≤ l.maxFrameLength) (ingress : Segment) (broadcast : Bool) :
    w.directory.relay n ingress Address.everywhere e broadcast =
      w.directory.flood e.hopCount.toNat n e [ingress, e.sender.segment] ++ [.arrived n.id e] ++
        [.transmitted n.id (e.transmission Address.everywhere broadcast)] := by
  have hon := h.on n hn
  have hglobal : Address.everywhere.isGlobal = true := rfl
  have hlanding : n.station.landing e = e := by
    have hshares : n.station.shares Address.everywhere = false :=
      Station.shares_eq_false (by decide) (hon.segment ▸ h.segment_ne_everywhere.symm)
    have hr : e.recipient.filter (fun a => !n.station.shares a) = e.recipient := by
      rw [he.recipient, Option.filter_some, hshares, Bool.not_false, if_pos rfl]
    exact congrArg (fun r => { e with recipient := r }) hr
  have htakes : n.station.attachment.Takes (n.station.landing e).frame.length := by
    rw [hlanding]
    exact hon.takes fits
  simp only [Directory.relay, hon.active, hglobal, Bool.false_eq_true, ite_false, ite_true]
  rw [Member.putEnvelope_of_takes htakes, hlanding]

/-- A station that is handed a global broadcast has it land on its link, and every station of the
link passes it on to all segments but the one it came from. -/
theorem observed_relay_global (h : w.Serves k' l) (routed : w.directory.Routed)
    (hn : w.Attends k' n) (he : e.Global) (segment : e.sender.segment ≠ l.segment)
    (fits : e.frame.length ≤ l.maxFrameLength) (ingress : Segment)
    (behind : ∀ m, w.Attends k' m → ∀ y ∈ w.directory.neighbors m.station,
      y.station.segment = e.sender.segment → y.station.segment = ingress)
    (single : ∀ m, w.Attends k' m → ∀ y ∈ w.directory.neighbors m.station,
      y.station.segment = ingress → m = n) (broadcast : Bool) (k : LinkId) :
    w.observed (w.sight? k) (w.directory.relay n ingress Address.everywhere e broadcast) =
      (if k' = k then w.landing l n e else 0) + ((w.stations l).map fun m =>
        w.observed (w.sight? k) (w.directory.flood e.hopCount.toNat m e [ingress])).sum := by
  have hflood : w.directory.flood e.hopCount.toNat n e [ingress, e.sender.segment] =
      w.directory.flood e.hopCount.toNat n e [ingress] := by
    refine Directory.flood_congr (fun y hy => ?_) _ e.link
    simp only [List.mem_cons, List.not_mem_nil, or_false]
    exact ⟨fun hs => hs.elim id (behind n hn y hy), Or.inl⟩
  -- A station adds the same, whether it puts the broadcast on the link or is handed the frame.
  have heach : ∀ m ∈ w.stations l, w.observed (w.sight? k)
      (w.directory.receive m e.frame n.station.attachment.mac).events =
        if m = n then 0 else w.seenAt k k' ingress e n m := by
    intro m hm
    have hattends := h.mem_stations_iff.mp hm
    by_cases ne : m = n
    · subst ne
      rw [if_pos rfl, h.events_receive_own hattends he segment]
      rfl
    · have hskip : w.directory.flood e.hopCount.toNat m (e.heard n m) [e.sender.segment] =
          w.directory.flood e.hopCount.toNat m e [ingress] := by
        rw [Envelope.heard, if_neg ne]
        refine Directory.flood_congr (fun y hy => ?_) _ _
        simp only [List.mem_singleton]
        exact ⟨behind m hattends y hy, fun hs => absurd (single m hattends y hy hs) ne⟩
      have hheard : { e with link := some n.station.attachment.mac } = e.heard n m :=
        (if_neg ne).symm
      rw [if_neg ne, h.events_receive_copy hn hattends ne he segment, hheard,
        observed_cons_of_eq_none _ rfl rfl, observed_append, hskip, hattends.observed_arrived]
      rfl
  have hshares := sum_map_eq_add_others h.nodup_stations (h.mem_stations_iff.mpr hn)
    (w.seenAt k k' ingress e n)
  have hsplit : ((w.stations l).map (w.seenAt k k' ingress e n)).sum = _ + _ := List.sum_map_add
  calc w.observed (w.sight? k) (w.directory.relay n ingress Address.everywhere e broadcast)
    _ = w.seenAt k k' ingress e n n +
          ((if k' = k then {.frame ⟨n.station.attachment.mac, none, e.frame⟩} else 0) +
            ((w.stations l).map fun m =>
              if m = n then 0 else w.seenAt k k' ingress e n m).sum) := by
      rw [h.relay_global hn he fits, hflood, observed_append, observed_append,
        hn.observed_arrived, h.observed_transmitted_global routed hn rfl,
        ← List.map_congr_left heach]
      simp only [seenAt, Envelope.heard_self]
      rfl
    _ = (if k' = k then {.frame ⟨n.station.attachment.mac, none, e.frame⟩} else 0) +
          ((w.stations l).map (w.seenAt k k' ingress e n)).sum := by
      rw [hshares, add_left_comm]
    _ = (if k' = k then w.landing l n e else 0) + ((w.stations l).map fun m =>
          w.observed (w.sight? k) (w.directory.flood e.hopCount.toNat m e [ingress])).sum := by
      rw [hsplit]
      by_cases hk : k' = k
      · simp only [hk, ite_true, landing, scene, Option.map_some, Option.toList_some,
          Multiset.coe_singleton]
        ac_rfl
      · simp [hk]

end Serves

/-- The copies that the stations of a link pass on go to the exits of the link. -/
theorem Serves.sum_observed_flood (h : w.Serves k' l) (he : e.Global) {hops : Nat} (lt : hops < 256)
    (hops' : Nat) (ingress : Segment) (k : LinkId) :
    ((w.stations l).map fun m => w.observed (w.sight? k)
        (w.directory.flood (hops + 1) m (e.withHops hops') [ingress])).sum =
      ((w.exits l ingress).map fun n => w.observed (w.sight? k)
        (w.directory.relay n l.segment Address.everywhere (e.withHops hops) true)).sum := by
  have heach : ∀ m ∈ w.stations l, w.observed (w.sight? k)
      (w.directory.flood (hops + 1) m (e.withHops hops') [ingress]) =
        w.observed (w.sight? k) (((w.directory.neighbors m.station).filter fun n =>
          n.station.segment != ingress).flatMap fun n =>
            w.directory.relay n l.segment Address.everywhere (e.withHops hops) true) := by
    intro m hm
    have hahead : ((w.directory.neighbors m.station).filter fun n =>
        !([ingress].contains n.station.segment)) =
          (w.directory.neighbors m.station).filter fun n => n.station.segment != ingress := by
      refine List.filter_congr fun n _ => ?_
      rw [List.contains_cons, List.contains_nil, Bool.or_false]
      rfl
    have hsegment := (h.on m (h.mem_stations_iff.mp hm)).segment
    rw [Directory.flood_eq_flatMap_relay _ lt, hahead, he.copyFrom_withHops, hsegment,
      observed_flatMap, observed_flatMap]
    refine congrArg List.sum (List.map_congr_left fun n _ => ?_)
    exact observed_cons_of_eq_none _ rfl rfl _
  rw [List.map_congr_left heach, ← observed_flatMap, ← observed_flatMap, exits, List.flatMap_assoc]

/-! ## Copies on their way -/

/-- What is seen on a link of copies that start with a number of hops, if the link is `away` from
where they start by a number of edges: they land once if the hops are enough, and otherwise not at
all. -/
inductive Seen (w : Wiring) (k : LinkId) (l : Link) (e : Envelope) (hops : Nat)
    (away : Nat → Prop) : Multiset Sight → Prop
  | lands {d : Nat} {n : Member} (le : d ≤ hops) (distance : away d) (attends : w.Attends k n) :
    Seen w k l e hops away (w.landing l n (e.withHops (hops - d)))
  | misses (far : ∀ d ≤ hops, ¬ away d) : Seen w k l e hops away 0

theorem Seen.eq_zero {away : Nat → Prop} {hops : Nat} {s : Multiset Sight}
    (h : w.Seen k l e hops away s) (far : ∀ d ≤ hops, ¬ away d) : s = 0 := by
  cases h with
  | lands le distance attends => exact absurd distance (far _ le)
  | misses far => rfl

/-- Copies for several segments next to a segment are seen where one of them is. -/
theorem Seen.sum {away : Nat → Prop} {hops : Nat} {segment : Segment} (loopFree : w.LoopFree)
    {ns : List Member} (nodup : ns.Nodup)
    (adj : ∀ n ∈ ns, w.graph.Adj segment n.station.segment)
    (eq : ∀ n ∈ ns, ∀ n' ∈ ns, n.station.segment = n'.station.segment → n = n')
    {seen : Member → Multiset Sight}
    (each : ∀ n ∈ ns,
      w.Seen k l e hops (Beyond w.graph segment n.station.segment l.segment) (seen n))
    (distance : ∀ d, away d ↔ ∃ n ∈ ns, ∃ d', d = d' + 1 ∧
      Beyond w.graph segment n.station.segment l.segment d') :
    w.Seen k l e (hops + 1) away (ns.map seen).sum := by
  by_cases hreached : ∃ n ∈ ns, ∃ d ≤ hops, Beyond w.graph segment n.station.segment l.segment d
  · obtain ⟨n, hn, d, le, hd⟩ := hreached
    have hothers : ∀ n' ∈ ns, n' ≠ n → seen n' = 0 := by
      intro n' hn' ne
      refine (each n' hn').eq_zero fun d' _ hd' => ne ?_
      exact eq n' hn' n hn (Beyond.unique loopFree.acyclic (adj n' hn') (adj n hn) hd' hd).1
    rw [sum_map_eq_single nodup hn hothers]
    generalize hs : seen n = s
    have hseen := each n hn
    rw [hs] at hseen
    cases hseen with
    | @lands d' r le' hd' attends =>
      rw [← Nat.add_sub_add_right hops 1 d']
      exact .lands (by omega) ((distance _).mpr ⟨n, hn, d', rfl, hd'⟩) attends
    | misses far => exact absurd hd (far d le)
  · have hsum : (ns.map seen).sum = 0 := by
      refine List.sum_eq_zero fun s hs => ?_
      obtain ⟨n, hn, rfl⟩ := List.mem_map.mp hs
      exact (each n hn).eq_zero fun d le hd => hreached ⟨n, hn, d, le, hd⟩
    rw [hsum]
    refine .misses fun d le hd => hreached ?_
    obtain ⟨n, hn, d', rfl, hd'⟩ := (distance d).mp hd
    exact ⟨n, hn, d', by omega, hd'⟩

/-- Where a copy lands the sender is behind the segment it came from, so a station passes it on to
all other segments. -/
theorem Joins.observed_relay (routed : w.directory.Routed) (serve : w.InService)
    (loopFree : w.LoopFree) (he : e.Global) {hops : Nat} (lt : hops < 256) {q : Member}
    (joins : w.Joins q n)
    (behind : ∃ d, Beyond w.graph n.station.segment q.station.segment e.sender.segment d)
    (hn : w.Attends k' n) (hl : w.links[k']? = some l) (fits : e.frame.length ≤ l.maxFrameLength)
    (broadcast : Bool) (k : LinkId) :
    w.observed (w.sight? k) (w.directory.relay n q.station.segment Address.everywhere
        (e.withHops hops) broadcast) =
      (if k' = k then w.landing l n (e.withHops hops) else 0) + ((w.stations l).map fun m =>
        w.observed (w.sight? k) (w.directory.flood hops m (e.withHops hops)
          [q.station.segment])).sum := by
  obtain ⟨d, hbehind⟩ := behind
  have hserves := serve.serves hl
  have hsegment : ∀ {m}, w.Attends k' m → m.station.segment = n.station.segment := fun hm =>
    (hserves.on _ hm).segment.trans (hserves.on n hn).segment.symm
  have hadj := joins.symm.adj routed
  have hsender : e.sender.segment ≠ l.segment := (hserves.on n hn).segment ▸ hbehind.ne
  have hall := hserves.observed_relay_global routed hn (he.withHops hops) hsender
    ((Envelope.length_frame_withHops e hops).symm ▸ fits) q.station.segment ?_ ?_ broadcast k
  · rw [Envelope.toNat_hopCount_withHops lt] at hall
    exact hall
  · intro m hm y hy hs
    have hnext := (loopFree.joins hm.station hy).adj routed
    rw [hsegment hm] at hnext
    have hthere : Beyond w.graph n.station.segment y.station.segment e.sender.segment 0 := by
      have hat : e.sender.segment = y.station.segment := hs.symm
      rw [hat]
      exact Beyond.refl hnext.ne
    exact (Beyond.unique loopFree.acyclic hnext hadj hthere hbehind).1
  · intro m hm y hy hs
    exact (loopFree.single (loopFree.joins hm.station hy) joins.symm (hsegment hm) hs).1

/-- What is seen of a copy follows from what is seen of the copies that are passed on. -/
theorem Joins.seen_relay_of_seen (routed : w.directory.Routed) (serve : w.InService)
    (loopFree : w.LoopFree) (he : e.Global) (hl : w.links[k]? = some l) {hops : Nat}
    (lt : hops < 256) {q : Member} (joins : w.Joins q n)
    (behind : ∃ d, Beyond w.graph n.station.segment q.station.segment e.sender.segment d)
    {l' : Link} (hn : w.Attends k' n) (hl' : w.links[k']? = some l')
    (fits : e.frame.length ≤ l'.maxFrameLength) (broadcast : Bool)
    (rest : w.Seen k l e hops
      (fun d => d ≠ 0 ∧ Beyond w.graph q.station.segment n.station.segment l.segment d)
      ((w.stations l').map fun m => w.observed (w.sight? k) (w.directory.flood hops m
        (e.withHops hops) [q.station.segment])).sum) :
    w.Seen k l e hops (Beyond w.graph q.station.segment n.station.segment l.segment)
      (w.observed (w.sight? k) (w.directory.relay n q.station.segment Address.everywhere
        (e.withHops hops) broadcast)) := by
  have hsegment := ((serve.serves hl').on n hn).segment
  rw [joins.observed_relay routed serve loopFree he lt behind hn hl' fits]
  by_cases hk : k' = k
  · subst hk
    obtain rfl : l' = l := Option.some.inj (hl'.symm.trans hl)
    have hnone := rest.eq_zero fun d _ hd => hd.1 (Beyond.length_eq_zero (hsegment ▸ hd.2))
    have hdistance : Beyond w.graph q.station.segment n.station.segment l'.segment 0 := by
      rw [← hsegment]
      exact Beyond.refl (joins.adj routed).ne
    have hlands := Seen.lands (w := w) (l := l') (e := e) (Nat.zero_le hops) hdistance hn
    rw [Nat.sub_zero] at hlands
    rw [if_pos rfl, hnone, add_zero]
    exact hlands
  · have haway : (fun d => d ≠ 0 ∧ Beyond w.graph q.station.segment n.station.segment l.segment d) =
        Beyond w.graph q.station.segment n.station.segment l.segment := by
      funext d
      refine propext ⟨And.right, fun hd => ⟨?_, hd⟩⟩
      rintro rfl
      exact hk (serve.link_eq hl' hl (hsegment.symm.trans hd.eq_of_length_eq_zero.symm))
    rw [if_neg hk, zero_add, ← haway]
    exact rest

/-- A copy that a station is handed with a number of hops left is seen, once, on the links of the
segments beyond that are at most as many edges away. -/
theorem Joins.seen_relay (routed : w.directory.Routed) (serve : w.InService) (loopFree : w.LoopFree)
    (he : e.Global) (hl : w.links[k]? = some l) {hops : Nat} (lt : hops < 256) {q : Member}
    (joins : w.Joins q n)
    (behind : ∃ d, Beyond w.graph n.station.segment q.station.segment e.sender.segment d)
    (fits : ∀ {k' : LinkId} {l' : Link} {d : Nat}, w.links[k']? = some l' → d ≤ hops →
      Beyond w.graph q.station.segment n.station.segment l'.segment d →
      e.frame.length ≤ l'.maxFrameLength) (broadcast : Bool) :
    w.Seen k l e hops (Beyond w.graph q.station.segment n.station.segment l.segment)
      (w.observed (w.sight? k) (w.directory.relay n q.station.segment Address.everywhere
        (e.withHops hops) broadcast)) := by
  -- The induction follows the hops: each copy that is passed on has one hop less.
  induction hops generalizing q n broadcast with
  | zero =>
    obtain ⟨k', l', hn, hl'⟩ := serve.attends joins.right
    have hsegment := ((serve.serves hl').on n hn).segment
    have hfits := fits hl' le_rfl (hsegment ▸ Beyond.refl (joins.adj routed).ne)
    refine joins.seen_relay_of_seen routed serve loopFree he hl lt behind hn hl' hfits broadcast ?_
    simp only [Directory.flood_zero, observed_nil, List.map_const', List.sum_replicate, smul_zero]
    exact .misses fun d le hd => hd.1 (Nat.le_zero.mp le)
  | succ hops ih =>
    obtain ⟨k', l', hn, hl'⟩ := serve.attends joins.right
    have hserves := serve.serves hl'
    have hsegment := (hserves.on n hn).segment
    have hfits := fits hl' (Nat.zero_le _) (hsegment ▸ Beyond.refl (joins.adj routed).ne)
    refine joins.seen_relay_of_seen routed serve loopFree he hl lt behind hn hl' hfits broadcast ?_
    have hadj := joins.symm.adj routed
    have hnext : ∀ y ∈ w.exits l' q.station.segment,
        w.graph.Adj n.station.segment y.station.segment := by
      intro y hy
      obtain ⟨m, hjoins, hm, -⟩ := loopFree.exists_joins_of_mem_exits hserves hy
      rw [hsegment, ← hm]
      exact hjoins.adj routed
    rw [hserves.sum_observed_flood he (by omega)]
    refine Seen.sum loopFree (loopFree.nodup_exits routed hserves) hnext
      (fun y hy y' hy' => loopFree.eq_of_mem_exits hserves hy hy') ?_ ?_
    · intro y hy
      obtain ⟨m, hjoins, hm, ne⟩ := loopFree.exists_joins_of_mem_exits hserves hy
      obtain ⟨d, hbehind⟩ := behind
      have hsame : m.station.segment = n.station.segment := hm.trans hsegment.symm
      rw [← hsegment, ← hsame]
      refine ih (by omega) hjoins ⟨d + 1, ?_⟩ ?_ true
      · rw [hsame]
        exact hbehind.step loopFree.acyclic hadj (hnext y hy) ne.symm
      · intro k'' l'' d' hl'' le hd'
        rw [hsame] at hd'
        exact fits hl'' (Nat.succ_le_succ le) (hd'.step loopFree.acyclic (hnext y hy) hadj ne)
    · intro d
      constructor
      · rintro ⟨hd, hbeyond⟩
        obtain ⟨d, rfl⟩ := Nat.exists_eq_succ_of_ne_zero hd
        obtain ⟨t, hadj', ne, hbeyond'⟩ := hbeyond.exists_next
        obtain ⟨y, hy, rfl⟩ := exists_mem_exits hserves serve (hsegment ▸ hadj') ne
        exact ⟨y, hy, d, rfl, hbeyond'⟩
      · rintro ⟨y, hy, d', rfl, hd'⟩
        obtain ⟨m, -, -, ne⟩ := loopFree.exists_joins_of_mem_exits hserves hy
        exact ⟨by omega, hd'.step loopFree.acyclic (hnext y hy) hadj ne⟩

end Wiring

end Fieldbus
