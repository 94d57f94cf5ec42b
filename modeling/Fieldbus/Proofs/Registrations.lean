import Fieldbus.Proofs.Histories
import Fieldbus.Proofs.Transports
import Fieldbus.Proofs.Wiring

/-!
# Registrations

A node registers on its link when it is started, and gives its place back when it is terminated or
ceases to exist. The link knows places by their sub-address only: a node that is terminated frees
the place of its sub-address, whoever holds it, but it does so the first time only, and it may be
started again. Main statements: what one move does to the place of a node (`isRegistered_move_iff`),
who holds a place after any number of moves (`isRegistered_moveAll_iff`), and when that is exactly
who was started and has not left since (`registered_after`).
-/

namespace Fieldbus

/-- Nobody who exists holds the place that a node takes. -/
theorem Link.vacant_of_register {l l' : Link} {alive : NodeId → Bool} {segment : Segment}
    {mac : Bytes} {id : NodeId} (h : l.register alive segment mac id = .ok l') :
    (l.registry.get? mac).any alive = false := by
  unfold register at h
  split at h
  · cases h
  · split at h
    · cases h
    · rename_i hvacant
      exact Bool.not_eq_true _ ▸ hvacant

namespace Network

/-- What is done to a node on a link. -/
inductive Move where
  /-- The station of the node is started, or refused. -/
  | start (id : NodeId)
  /-- The station of the node is terminated. -/
  | terminate (id : NodeId)
  /-- The node ceases to exist. -/
  | drop (id : NodeId)
  deriving DecidableEq, Repr

/-- Makes a move; a start that is refused changes nothing. -/
def move (net : Network) : Move → Network
  | .start id => (net.start id).toOption.getD net
  | .terminate id => net.terminate id
  | .drop id => net.drop id

/-- Makes moves in order. -/
def moveAll (net : Network) (moves : List Move) : Network := moves.foldl move net

/-- The link and the sub-address that a node is on it with. -/
def port? (net : Network) (id : NodeId) : Option (LinkId × Bytes) :=
  (net.node? id).bind fun n => n.medium.link?.map fun k => (k, n.station.attachment.mac)

/-- The node registered on a link under a sub-address, whether it still exists or not. -/
def holder? (net : Network) (k : LinkId) (mac : Bytes) : Option NodeId :=
  (net.link? k).bind fun l => l.registry.get? mac

/-- The station of a node exists and has not been terminated. -/
def isActive (net : Network) (id : NodeId) : Bool :=
  (net.directory id).any fun s => !s.terminated

/-- A node that exists is registered on a link under the sub-address it is there with. -/
def IsRegistered (net : Network) (k : LinkId) (id : NodeId) : Prop :=
  ∃ mac, net.port? id = some (k, mac) ∧ net.holder? k mac = some id

/-- Starting a node on a link succeeds. -/
def Joins (net : Network) (k : LinkId) (id : NodeId) : Prop :=
  (∃ net', net.start id = .ok net') ∧ (∃ mac, net.port? id = some (k, mac)) ∧
    (net.link? k).isSome = true

/-- A move that takes the place of a node on its link away: the node ceases to exist, or a node of
the same link and sub-address is terminated for the first time. -/
def Frees (net : Network) (id : NodeId) : Move → Prop
  | .start _ => False
  | .terminate x => net.isActive x = true ∧ ∃ p, net.port? x = some p ∧ net.port? id = some p
  | .drop x => x = id

/-- None of the moves takes the place of a node away. -/
def Undisturbed (net : Network) (id : NodeId) : List Move → Prop
  | [] => True
  | m :: rest => ¬ net.Frees id m ∧ (net.move m).Undisturbed id rest

/-- Some start of a node on a link succeeds, after which it is neither terminated nor dropped. -/
def Attached (net : Network) (k : LinkId) (id : NodeId) (moves : List Move) : Prop :=
  ∃ earlier later, moves = earlier ++ .start id :: later ∧ (net.moveAll earlier).Joins k id ∧
    .terminate id ∉ later ∧ .drop id ∉ later

variable {net : Network} {k : LinkId} {id x : NodeId} {m : Move}

theorem moveAll_append (net : Network) (moves moves' : List Move) :
    net.moveAll (moves ++ moves') = (net.moveAll moves).moveAll moves' :=
  List.foldl_append

theorem isAlive_of_port? {p : LinkId × Bytes} (h : net.port? id = some p) :
    net.isAlive id = true := by
  obtain ⟨n, hn, -⟩ := Option.bind_eq_some_iff.mp h
  simp [isAlive, hn]

/-! ## What moves look at -/

theorem port?_eq (net : Network) (id : NodeId) : net.port? id =
    (net.wiring.tap? id).bind fun k => (net.directory id).map fun s => (k, s.attachment.mac) := by
  simp only [port?, wiring, directory]
  cases hn : net.node? id with
  | none => rfl
  | some n => cases hk : n.medium.link? <;> simp [hk]

theorem holder?_eq (net : Network) (k : LinkId) (mac : Bytes) :
    net.holder? k mac = (net.wiring.links[k]?).bind fun l => l.registry.get? mac := by
  rw [links_wiring, Option.bind_map]
  rfl

theorem port?_of_wiring_eq {net' : Network} (h : net'.wiring = net.wiring) :
    net'.port? = net.port? := by
  have hd : net'.directory = net.directory := congrArg Wiring.directory h
  funext id
  rw [port?_eq, port?_eq, h, hd]

theorem holder?_of_wiring_eq {net' : Network} (h : net'.wiring = net.wiring) :
    net'.holder? = net.holder? := by
  funext k mac
  rw [holder?_eq, holder?_eq, h]

/-! ## Starting -/

/-- What a start does: it changes nothing about places, or the node takes a place that nobody who
exists holds. -/
theorem of_start_eq_ok {net' : Network} (h : net.start id = .ok net') :
    net'.wiring = net.wiring ∧ (∀ k, ¬ net.Joins k id) ∨
      ∃ k mac l l', net.port? id = some (k, mac) ∧ net.link? k = some l ∧
        (l.registry.get? mac).any net.isAlive = false ∧ l'.registry = l.registry.insert mac id ∧
        net' = net.modifyLink k fun _ => l' := by
  unfold start at h
  cases hn : net.node? id with
  | none =>
    rw [hn] at h
    cases h
    exact Or.inl ⟨rfl, fun k ⟨_, ⟨_, hp⟩, _⟩ => by simp [port?, hn] at hp⟩
  | some n =>
    simp only [hn] at h
    cases hm : n.medium with
    | wire attached sent =>
      simp only [hm] at h
      cases h
      refine Or.inl ⟨wiring_modifyNode net id (fun _ => rfl) fun n' hn' => ?_, ?_⟩
      · obtain rfl : n = n' := Option.some.inj (hn.symm.trans hn')
        simp only [hm, Medium.link?]
      · rintro k ⟨-, ⟨mac, hp⟩, -⟩
        simp [port?, hn, hm, Medium.link?] at hp
    | tap k counts =>
      simp only [hm] at h
      have hport : net.port? id = some (k, n.station.attachment.mac) := by
        simp only [port?, hn, hm, Medium.link?, Option.bind_some, Option.map_some]
      cases hl : net.link? k with
      | none =>
        simp only [hl] at h
        cases h
        refine Or.inl ⟨rfl, fun k' ⟨_, ⟨mac, hp⟩, hlink⟩ => ?_⟩
        obtain ⟨rfl, -⟩ := Prod.mk.inj (Option.some.inj (hport.symm.trans hp))
        simp [hl] at hlink
      | some l =>
        simp only [hl] at h
        obtain ⟨l', hr, rfl⟩ := exists_of_map_eq_ok h
        exact Or.inr ⟨k, _, l, l', hport, hl, Link.vacant_of_register hr,
          Link.registry_of_register hr, rfl⟩

theorem move_start_of_ok {net' : Network} (h : net.start id = .ok net') :
    net.move (.start id) = net' := by
  simp only [move, h, Except.toOption, Option.getD_some]

theorem move_start_of_error {fault : Fault} (h : net.start id = .error fault) :
    net.move (.start id) = net := by
  simp only [move, h, Except.toOption, Option.getD_none]

/-- A start leaves the nodes and their ports as they are. -/
theorem of_move_start (net : Network) (id : NodeId) :
    (net.move (.start id)).port? = net.port? ∧
      (net.move (.start id)).directory = net.directory := by
  cases h : net.start id with
  | error fault =>
    rw [move_start_of_error h]
    exact ⟨rfl, rfl⟩
  | ok net' =>
    rw [move_start_of_ok h]
    rcases of_start_eq_ok h with ⟨hwiring, -⟩ | ⟨k, mac, l, l', -, -, -, -, rfl⟩
    · exact ⟨port?_of_wiring_eq hwiring, congrArg Wiring.directory hwiring⟩
    · exact ⟨rfl, rfl⟩

/-- A start that succeeds puts the node into a vacant place. -/
theorem vacant_of_joins {mac : Bytes} (h : net.Joins k x)
    (port : net.port? x = some (k, mac)) : (net.holder? k mac).any net.isAlive = false := by
  obtain ⟨net', hs⟩ := h.1
  rcases of_start_eq_ok hs with ⟨-, hnone⟩ | ⟨k', mac', l, l', hport, hl, hvacant, -, -⟩
  · exact absurd h (hnone k)
  · cases port.symm.trans hport
    simpa [holder?, hl] using hvacant

/-- A start that succeeds gives the node its place, and nothing else changes hands. -/
theorem holder?_move_start (net : Network) (x : NodeId) (k : LinkId) (mac : Bytes) :
    (net.Joins k x ∧ net.port? x = some (k, mac) → (net.move (.start x)).holder? k mac = some x) ∧
      (¬ (net.Joins k x ∧ net.port? x = some (k, mac)) →
        (net.move (.start x)).holder? k mac = net.holder? k mac) := by
  cases h : net.start x with
  | error fault =>
    rw [move_start_of_error h]
    refine ⟨fun hjoins => ?_, fun _ => rfl⟩
    obtain ⟨⟨net', hs⟩, -⟩ := hjoins.1
    cases h.symm.trans hs
  | ok net' =>
    rw [move_start_of_ok h]
    rcases of_start_eq_ok h with ⟨hwiring, hjoins⟩ | ⟨k', mac', l, l', hport, hl, -, hr, rfl⟩
    · exact ⟨fun hj => absurd hj.1 (hjoins k), fun _ => by rw [holder?_of_wiring_eq hwiring]⟩
    · have hjoins : net.Joins k' x := ⟨⟨_, h⟩, ⟨mac', hport⟩, by simp [hl]⟩
      simp only [link?] at hl
      refine ⟨fun hj => ?_, fun hj => ?_⟩
      · cases hj.2.symm.trans hport
        simp [holder?, link?, modifyLink, hl, hr]
      · by_cases hk : k' = k
        · subst hk
          have hne : mac ≠ mac' := by
            rintro rfl
            exact hj ⟨hjoins, hport⟩
          simp [holder?, link?, modifyLink, hl, hr, Table.get?_insert_of_ne _ _ hne]
        · simp [holder?, link?, modifyLink, hk]

/-! ## Leaving -/

theorem overlooksTransports_wiring :
    OverlooksTransports fun net net' => net'.wiring = net.wiring where
  refl _ := rfl
  trans h h' := h'.trans h
  modifyNode net id f hf := by
    refine wiring_modifyNode net id (fun n => ?_) fun n _ => ?_ <;>
      obtain ⟨consumer, noted, outcomes, hn⟩ := hf n <;> rw [hn]
  modifyPool := wiring_modifyPool

/-- A node that gives up its consumer keeps its place. -/
theorem wiring_dropConsumer (net : Network) (id : NodeId) :
    (net.dropConsumer id).wiring = net.wiring :=
  overlooksTransports_wiring.dropConsumer net id

/-- A node that ceases to exist is gone, and only that one. -/
theorem node?_drop (net : Network) (x id : NodeId) :
    (net.drop x).node? id = if x = id then none else (net.dropConsumer x).node? id := by
  simp only [drop, node?, List.getElem?_set]
  split
  · split <;> rfl
  · rfl

/-- Whoever ceases to exist leaves its place behind. -/
theorem of_move_drop (net : Network) (x : NodeId) :
    (net.move (.drop x)).holder? = net.holder? ∧
      (∀ id, (net.move (.drop x)).port? id = if x = id then none else net.port? id) ∧
      ∀ id, (net.move (.drop x)).directory id = if x = id then none else net.directory id := by
  have hwiring := wiring_dropConsumer net x
  have hnode := node?_drop net x
  have hdirectory : ∀ id, (net.drop x).directory id =
      if x = id then none else net.directory id := by
    intro id
    have hd : (net.dropConsumer x).directory id = net.directory id :=
      congrFun (congrArg Wiring.directory hwiring) id
    rw [directory, hnode]
    split
    · rfl
    · exact hd
  have hlinks : (net.move (.drop x)).holder? = (net.dropConsumer x).holder? := rfl
  refine ⟨hlinks.trans (holder?_of_wiring_eq hwiring), fun id => ?_, hdirectory⟩
  have hp : (net.dropConsumer x).port? id = net.port? id :=
    congrFun (port?_of_wiring_eq hwiring) id
  unfold move
  rw [port?, hnode]
  split
  · rfl
  · exact hp

/-- A change to a station that keeps how it is attached keeps its port. -/
theorem port?_modifyStation (net : Network) (x : NodeId) {f : Station → Station}
    (h : ∀ s, (f s).attachment = s.attachment) : (net.modifyStation x f).port? = net.port? := by
  funext id
  simp only [port?, modifyStation, node?_modifyNode]
  split
  · rename_i he
    subst he
    cases net.node? id <;> simp [h]
  · rfl

/-- Whoever is detached stays on its port. -/
theorem of_detach (net : Network) (x : NodeId) :
    (net.detach x).port? = net.port? ∧ (net.detach x).directory = net.directory := by
  unfold detach
  split
  · exact ⟨rfl, rfl⟩
  · rename_i n hn
    split
    · rename_i attached sent hm
      suffices hwiring : (net.modifyNode x fun n => { n with medium := .wire false sent }).wiring =
          net.wiring from
        ⟨port?_of_wiring_eq hwiring, congrArg Wiring.directory hwiring⟩
      refine wiring_modifyNode net x (fun _ => rfl) fun n' hn' => ?_
      obtain rfl : n = n' := Option.some.inj (hn.symm.trans hn')
      rw [hm]
      rfl
    · exact ⟨rfl, rfl⟩

/-- Detaching frees the place of the sub-address, whoever holds it, and no other. -/
theorem holder?_detach (net : Network) (x : NodeId) (k : LinkId) (mac : Bytes) :
    (net.detach x).holder? k mac =
      if net.port? x = some (k, mac) then none else net.holder? k mac := by
  unfold detach port?
  cases hn : net.node? x with
  | none => simp
  | some n =>
    cases hm : n.medium with
    | wire attached sent =>
      simp only [hm, Medium.link?, Option.bind_some, Option.map_none, reduceCtorEq, ite_false]
      rfl
    | tap j counts =>
      simp only [hm, Medium.link?, Option.bind_some, Option.map_some, Option.some.injEq,
        Prod.mk.injEq, holder?, link?, modifyLink, List.getElem?_modify]
      by_cases hj : j = k
      · subst hj
        cases net.links[j]? with
        | none => simp
        | some l =>
          by_cases hmac : n.station.attachment.mac = mac
          · simp [hmac, Link.unregister]
          · simp [hmac, Link.unregister, Table.get?_erase_of_ne _ (Ne.symm hmac)]
      · cases net.links[k]? <;> simp [hj]

/-- What has been terminated is not terminated again. -/
theorem terminate_of_not_isActive (h : net.isActive x = false) : net.terminate x = net := by
  unfold terminate
  split
  · rfl
  · rename_i n hn
    rw [if_pos (by simpa [isActive, directory, hn] using h)]

/-- A station that is terminated for the first time is marked and detached. -/
theorem terminate_of_isActive (h : net.isActive x = true) :
    net.terminate x = (net.modifyStation x fun s => { s with terminated := true }).detach x := by
  unfold terminate
  split
  · rename_i hn
    simp [isActive, directory, hn] at h
  · rename_i n hn
    rw [if_neg (by simpa [isActive, directory, hn] using h)]

/-- A termination leaves the ports as they are. -/
theorem port?_terminate (net : Network) (x : NodeId) : (net.terminate x).port? = net.port? := by
  cases h : net.isActive x with
  | false => rw [terminate_of_not_isActive h]
  | true =>
    rw [terminate_of_isActive h, (of_detach _ x).1]
    exact port?_modifyStation net x fun _ => rfl

/-- Whoever is terminated is not active any more. -/
theorem isActive_terminate (net : Network) (x id : NodeId) :
    (net.terminate x).isActive id = (net.isActive id && x != id) := by
  have hsame : ∀ {id}, x = id → net.isActive x = false → net.isActive id = false := by
    rintro id rfl h
    exact h
  cases h : net.isActive x with
  | false =>
    rw [terminate_of_not_isActive h]
    by_cases he : x = id
    · simp [hsame he h]
    · simp [he]
  | true =>
    rw [terminate_of_isActive h]
    unfold isActive
    rw [(of_detach _ x).2, directory_modifyStation]
    by_cases he : x = id
    · subst he
      cases net.directory x <;> simp
    · simp [he, Ne.symm he]

/-- The first termination of a station frees the place of its sub-address, whoever holds it; later
ones have no effect. -/
theorem holder?_terminate (net : Network) (x : NodeId) (k : LinkId) (mac : Bytes) :
    (net.terminate x).holder? k mac =
      if net.isActive x = true ∧ net.port? x = some (k, mac) then none else net.holder? k mac := by
  cases h : net.isActive x with
  | false => simp [terminate_of_not_isActive h]
  | true =>
    have hport := port?_modifyStation net x (f := fun s => { s with terminated := true })
      fun _ => rfl
    rw [terminate_of_isActive h, holder?_detach, hport]
    simp only [true_and]
    rfl

/-! ## One move -/

/-- Who is on a port stays there as long as it exists. -/
theorem port?_move (net : Network) (m : Move) (id : NodeId) :
    (net.move m).port? id = if m = .drop id then none else net.port? id := by
  cases m with
  | start x => rw [(of_move_start net x).1, if_neg Move.noConfusion]
  | terminate x => exact (congrFun (port?_terminate net x) id).trans (if_neg Move.noConfusion).symm
  | drop x => simp only [(of_move_drop net x).2.1, Move.drop.injEq]

/-- Who is active stays so until it is terminated or ceases to exist. -/
theorem isActive_move_iff : (net.move m).isActive id = true ↔
    net.isActive id = true ∧ m ≠ .terminate id ∧ m ≠ .drop id := by
  cases m with
  | start x => simp [isActive, (of_move_start net x).2]
  | terminate x =>
    have h : (net.move (.terminate x)).isActive id = _ := isActive_terminate net x id
    simp [h]
  | drop x =>
    simp only [isActive, (of_move_drop net x).2.2]
    by_cases he : x = id <;> simp [he]

/-- What one move does to the place of a node: a start that succeeds takes the place, and whatever
frees the place takes it away. -/
theorem isRegistered_move_iff : (net.move m).IsRegistered k id ↔
    m = .start id ∧ net.Joins k id ∨ net.IsRegistered k id ∧ ¬ net.Frees id m := by
  unfold IsRegistered
  simp only [port?_move]
  cases m with
  | start x =>
    simp only [reduceCtorEq, ite_false, Frees, not_false_eq_true, and_true, Move.start.injEq]
    have hstart := holder?_move_start net x k
    constructor
    · rintro ⟨mac, hport, hholder⟩
      by_cases hjoins : net.Joins k x ∧ net.port? x = some (k, mac)
      · rw [(hstart mac).1 hjoins] at hholder
        cases hholder
        exact Or.inl ⟨rfl, hjoins.1⟩
      · rw [(hstart mac).2 hjoins] at hholder
        exact Or.inr ⟨mac, hport, hholder⟩
    · rintro (⟨rfl, hjoins⟩ | ⟨mac, hport, hholder⟩)
      · obtain ⟨mac, hport⟩ := hjoins.2.1
        exact ⟨mac, hport, (hstart mac).1 ⟨hjoins, hport⟩⟩
      · refine ⟨mac, hport, ?_⟩
        by_cases hjoins : net.Joins k x ∧ net.port? x = some (k, mac)
        · -- The place is vacant, and its holder exists.
          have hvacant := vacant_of_joins hjoins.1 hjoins.2
          rw [hholder, Option.any_some, isAlive_of_port? hport] at hvacant
          cases hvacant
        · rw [(hstart mac).2 hjoins, hholder]
  | terminate x =>
    simp only [reduceCtorEq, ite_false, false_and, false_or, Frees, move, holder?_terminate]
    constructor
    · rintro ⟨mac, hport, hholder⟩
      split at hholder
      · cases hholder
      · rename_i hkept
        refine ⟨⟨mac, hport, hholder⟩, fun ⟨active, p, hp, hp'⟩ => hkept ⟨active, ?_⟩⟩
        exact hp.trans (hp'.symm.trans hport)
    · rintro ⟨⟨mac, hport, hholder⟩, hkept⟩
      refine ⟨mac, hport, ?_⟩
      rw [if_neg fun ⟨active, hp⟩ => hkept ⟨active, _, hp, hport⟩, hholder]
  | drop x =>
    simp only [Move.drop.injEq, reduceCtorEq, false_and, false_or, Frees, (of_move_drop net x).1]
    by_cases he : x = id <;> simp [he]

/-! ## Any number of moves -/

/-- Who holds a place after any number of moves: who held it before and has not lost it, or took it
by a start and has not lost it since. -/
theorem isRegistered_moveAll_iff {moves : List Move} : (net.moveAll moves).IsRegistered k id ↔
    net.IsRegistered k id ∧ net.Undisturbed id moves ∨
      ∃ earlier later, moves = earlier ++ .start id :: later ∧ (net.moveAll earlier).Joins k id ∧
        (net.moveAll (earlier ++ [.start id])).Undisturbed id later := by
  induction moves generalizing net with
  | nil => simp [moveAll, Undisturbed]
  | cons m rest ih =>
    refine Iff.trans ih ?_
    rw [isRegistered_move_iff]
    constructor
    · rintro (⟨⟨rfl, hjoins⟩ | ⟨hheld, hkept⟩, hrest⟩ | ⟨earlier, later, rfl, hjoins, hlater⟩)
      · exact Or.inr ⟨[], rest, rfl, hjoins, hrest⟩
      · exact Or.inl ⟨hheld, hkept, hrest⟩
      · exact Or.inr ⟨m :: earlier, later, rfl, hjoins, hlater⟩
    · rintro (⟨hheld, hkept, hrest⟩ | ⟨_ | ⟨m', earlier⟩, later, heq, hjoins, hlater⟩)
      · exact Or.inl ⟨Or.inr ⟨hheld, hkept⟩, hrest⟩
      · cases heq
        exact Or.inl ⟨Or.inl ⟨rfl, hjoins⟩, hlater⟩
      · cases heq
        exact Or.inr ⟨earlier, later, rfl, hjoins, hlater⟩

/-- Who is on a port stays there through all moves that do not drop it. -/
theorem port?_moveAll (net : Network) (moves : List Move) (id : NodeId) :
    (net.moveAll moves).port? id = if .drop id ∈ moves then none else net.port? id := by
  induction moves generalizing net with
  | nil => rfl
  | cons m rest ih =>
    refine (ih (net.move m)).trans ?_
    rw [port?_move]
    by_cases hm : m = .drop id
    · simp [hm]
    · simp [hm, Ne.symm hm]

/-- Who is active stays so through all moves that neither terminate nor drop it. -/
theorem isActive_moveAll {moves : List Move} (active : net.isActive id = true)
    (terminated : .terminate id ∉ moves) (dropped : .drop id ∉ moves) :
    (net.moveAll moves).isActive id = true := by
  induction moves generalizing net with
  | nil => exact active
  | cons m rest ih =>
    simp only [List.mem_cons, not_or] at terminated dropped
    exact ih (isActive_move_iff.mpr ⟨active, Ne.symm terminated.1, Ne.symm dropped.1⟩)
      terminated.2 dropped.2

/-- Where nobody else of the link has its sub-address, a node keeps its place until it is terminated
or dropped itself. -/
theorem undisturbed_of_alone {moves : List Move}
    (alone : ∀ x p, net.port? x = some p → net.port? id = some p → x = id)
    (terminated : .terminate id ∉ moves) (dropped : .drop id ∉ moves) :
    net.Undisturbed id moves := by
  induction moves generalizing net with
  | nil => trivial
  | cons m rest ih =>
    simp only [List.mem_cons, not_or] at terminated dropped
    refine ⟨?_, ih (fun x p hx hid => ?_) terminated.2 dropped.2⟩
    · cases m with
      | start x => exact not_false
      | terminate x =>
        rintro ⟨-, p, hx, hid⟩
        exact terminated.1 (congrArg Move.terminate (alone x p hx hid).symm)
      | drop x =>
        rintro rfl
        exact dropped.1 rfl
    · rw [port?_move] at hx hid
      split at hx
      · cases hx
      · split at hid
        · cases hid
        · exact alone x p hx hid

/-- A node that is active on its port loses its place when it is terminated or dropped. -/
theorem Undisturbed.stays {moves : List Move} (h : net.Undisturbed id moves)
    (active : net.isActive id = true) {p : LinkId × Bytes} (port : net.port? id = some p) :
    .terminate id ∉ moves ∧ .drop id ∉ moves := by
  induction moves generalizing net with
  | nil => simp
  | cons m rest ih =>
    obtain ⟨hkept, hrest⟩ := h
    have hterminate : m ≠ .terminate id := by
      rintro rfl
      exact hkept ⟨active, p, port, port⟩
    have hdrop : m ≠ .drop id := by
      rintro rfl
      exact hkept rfl
    obtain ⟨hterminated, hdropped⟩ := ih hrest
      (isActive_move_iff.mpr ⟨active, hterminate, hdrop⟩) (by rw [port?_move, if_neg hdrop, port])
    simp [hterminate.symm, hdrop.symm, hterminated, hdropped]

/-- A node that was not registered at first is registered after any moves exactly if a start of it
has succeeded and nothing has freed its place since. Where nobody else of the link has its
sub-address, it is if it was started and has neither been terminated nor dropped since; and where it
was never started after its termination, it is only then. -/
theorem registered_after (fresh : ¬ net.IsRegistered k id) (moves : List Move) :
    ((net.moveAll moves).IsRegistered k id ↔
      ∃ earlier later, moves = earlier ++ .start id :: later ∧ (net.moveAll earlier).Joins k id ∧
        (net.moveAll (earlier ++ [.start id])).Undisturbed id later) ∧
    ((∀ x p, net.port? x = some p → net.port? id = some p → x = id) →
      net.Attached k id moves → (net.moveAll moves).IsRegistered k id) ∧
    (net.isActive id = true →
      (∀ earlier later, moves = earlier ++ .start id :: later → .terminate id ∉ earlier) →
      (net.moveAll moves).IsRegistered k id → net.Attached k id moves) := by
  have hexact : (net.moveAll moves).IsRegistered k id ↔
      ∃ earlier later, moves = earlier ++ .start id :: later ∧ (net.moveAll earlier).Joins k id ∧
        (net.moveAll (earlier ++ [.start id])).Undisturbed id later :=
    isRegistered_moveAll_iff.trans (or_iff_right fun h => fresh h.1)
  refine ⟨hexact, fun alone => ?_, fun active restarts hregistered => ?_⟩
  · rintro ⟨earlier, later, rfl, hjoins, hterminated, hdropped⟩
    refine hexact.mpr ⟨earlier, later, rfl, hjoins, undisturbed_of_alone (fun x p hx hid => ?_)
      hterminated hdropped⟩
    rw [port?_moveAll] at hx hid
    exact alone x p (by split at hx <;> simp_all) (by split at hid <;> simp_all)
  · obtain ⟨earlier, later, rfl, hjoins, hkept⟩ := hexact.mp hregistered
    obtain ⟨mac, hport⟩ := hjoins.2.1
    have hdropped : .drop id ∉ earlier := by
      intro hmem
      rw [port?_moveAll, if_pos hmem] at hport
      cases hport
    have hactive := isActive_moveAll active (restarts earlier later rfl) hdropped
    have hkept' : ((net.moveAll earlier).move (.start id)).Undisturbed id later := by
      rwa [moveAll_append] at hkept
    have hstays := hkept'.stays (p := (k, mac))
      (isActive_move_iff.mpr ⟨hactive, Move.noConfusion, Move.noConfusion⟩)
      (by rw [port?_move, if_neg Move.noConfusion, hport])
    exact ⟨earlier, later, rfl, hjoins, hstays.1, hstays.2⟩

/-- Nobody is attached right after its termination. -/
theorem not_attached_terminate (net : Network) (k : LinkId) (id : NodeId) (moves : List Move) :
    ¬ net.Attached k id (moves ++ [.terminate id]) := by
  rintro ⟨earlier, later, heq, -, hterminated, -⟩
  have hlast := congrArg List.getLast? heq
  rw [List.getLast?_concat, List.getLast?_append, List.getLast?_cons] at hlast
  cases h : later.getLast? with
  | none => simp [h] at hlast
  | some m =>
    obtain rfl : m = .terminate id := by simpa [h] using hlast.symm
    exact hterminated (List.mem_of_getLast? h)

/-- Two nodes on a link, with given sub-addresses. -/
private def pairOnLink (mac mac' : Bytes) : Network where
  nodes := [mac, mac'].map fun mac => some {
    station := {
      segment := 1
      attachment := { mac, macs := [mac], broadcastMac := [255], maxFrameLength := some 1500 }
      routes := { home := 1 } }
    medium := .tap 0 {}
    keepsFaults := false }
  links := [{ segment := 1, broadcastMac := [255], maxFrameLength := 1500 }]

/-- A node keeps its place when another one leaves, and that one is not registered any more. -/
theorem registered_after_pair :
    ((pairOnLink [1] [2]).moveAll [.start 0, .start 1, .terminate 1]).IsRegistered 0 0 ∧
      ¬ ((pairOnLink [1] [2]).moveAll [.start 0, .start 1, .terminate 1]).IsRegistered 0 1 := by
  have hfresh : ∀ id, ¬ (pairOnLink [1] [2]).IsRegistered 0 id := by
    rintro id ⟨mac, -, hholder⟩
    cases hholder
  constructor
  · refine (registered_after (hfresh 0) _).2.1 (fun x p hx hid => ?_) ?_
    · cases hid
      match x, hx with
      | 0, _ => rfl
      | 1, hx => cases hx
    · exact ⟨[], [.start 1, .terminate 1], rfl, ⟨⟨_, rfl⟩, ⟨[1], rfl⟩, rfl⟩, by decide, by decide⟩
  · intro hregistered
    refine not_attached_terminate _ 0 1 [.start 0, .start 1]
      ((registered_after (hfresh 1) _).2.2 rfl (fun earlier later heq hmem => ?_) hregistered)
    match earlier, heq with
    | [_], heq =>
      cases heq
      revert hmem
      decide
    | _ :: _ :: _ :: _, heq => simp at heq

/-- A node that could not start frees the place of the one that has its sub-address; and a node that
starts again after its termination stays registered through the next one. -/
theorem registration_lost_to_twin :
    (∀ id, ¬ (pairOnLink [1] [1]).IsRegistered 0 id) ∧
      (pairOnLink [1] [1]).Attached 0 0 [.start 0, .start 1, .terminate 1] ∧
      ¬ ((pairOnLink [1] [1]).moveAll [.start 0, .start 1, .terminate 1]).IsRegistered 0 0 ∧
      ¬ (pairOnLink [1] [1]).Attached 0 0 [.start 0, .terminate 0, .start 0, .terminate 0] ∧
      ((pairOnLink [1] [1]).moveAll [.start 0, .terminate 0, .start 0, .terminate 0]).IsRegistered
        0 0 := by
  refine ⟨?_, ?_, ?_, ?_, ⟨[1], rfl, rfl⟩⟩
  · rintro id ⟨mac, -, hholder⟩
    cases hholder
  · exact ⟨[], [.start 1, .terminate 1], rfl, ⟨⟨_, rfl⟩, ⟨[1], rfl⟩, rfl⟩, by decide, by decide⟩
  · rintro ⟨mac, hport, hholder⟩
    cases hport
    cases hholder
  · exact not_attached_terminate _ 0 0 [.start 0, .terminate 0, .start 0]

end Network

end Fieldbus
