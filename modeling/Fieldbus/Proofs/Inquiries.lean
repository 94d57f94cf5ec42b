import Mathlib.Algebra.Order.BigOperators.Group.Finset
import Fieldbus.Proofs.Notices

/-!
# Inquiries

A station asks all stations of its link for the way to a segment, and at most one of the others
can answer. Of the query and of the answer we keep how far they have come (`Spread`): all that waits
beyond what waited before is what is left of the two (`Inquiry.Under`). Main statements: work spreads
the query or the answer (`Inquiry.Under.works`), and an inquiry ends, in whatever order workers work,
when every station but the one that answered has learned from it where the segment is, and nothing
else has changed (`Network.inquiry_teaches`).
-/

namespace Fieldbus

/-! ## Coming to rest -/

namespace Network

variable {net : Network} {id : NodeId}

/-- A network comes to rest, in whatever order work is done, and is as described whenever it is at
rest. -/
structure RestsAs (net : Network) (described : Network → Prop) : Prop where
  /-- Work does not go on for ever. -/
  finite : ¬ ∃ run : Nat → Network, run 0 = net ∧ ∀ i, (run i).Step (run (i + 1))
  /-- Workers that take turns come to rest. -/
  settles : ∃ rounds, (settle rounds net).atRest = true ∧ described (settle rounds net)
  /-- Every rest is as described. -/
  rests : ∀ net', Relation.ReflTransGen Step net net' → net'.atRest = true → described net'

theorem RestsAs.of_acc {described : Network → Prop}
    (acc : Acc (fun net' net : Network => net.Step net') net)
    (rests : ∀ net', Relation.ReflTransGen Step net net' → net'.atRest = true → described net') :
    net.RestsAs described := by
  obtain ⟨rounds, hrest⟩ := exists_atRest_settle acc
  exact ⟨not_exists_run acc, ⟨rounds, hrest, rests _ (reflTransGen_settle rounds net) hrest⟩, rests⟩

/-- How many replies are awaited in a network. -/
def awaiting (net : Network) : Nat :=
  ∑ id ∈ Finset.range net.nodes.length,
    ((net.account? id).map fun a => a.dispatcher.pending.entries.length).getD 0

/-- Fewer replies are awaited after overdue requests have failed. -/
theorem awaiting_sweep_lt {t : Dedicated} (transport : net.dedicated? id = some t)
    (running : t.running = true) {now : Nat} (overdue : t.dispatcher.overdue now ≠ []) :
    (net.stepDedicated id fun t => t.sweep now).awaiting < net.awaiting := by
  obtain ⟨a, a', ha, hbefore, hafter, -, haccount, -⟩ := of_sweep transport now
  have hlength := (Step.sweeps now transport running overdue).keepsSetup.length_eq
  have hfewer : a'.dispatcher.pending.entries.length < a.dispatcher.pending.entries.length := by
    rw [hbefore, hafter]
    have hle := Multiset.card_le_card (Dispatcher.load_sweep_add_le t.dispatcher overdue)
    rw [Dispatcher.load, Dispatcher.load, Multiset.card_add, Multiset.card_replicate,
      Multiset.card_replicate, Multiset.card_singleton] at hle
    exact hle
  have hid : id ∈ Finset.range net.nodes.length := by
    obtain ⟨n, hn, -⟩ := dedicated?_eq_some_iff.mp transport
    exact Finset.mem_range.mpr (lt_length_of_directory (congrArg (Option.map Node.station) hn))
  have hlt : ∀ id', id' = id → (((net.stepDedicated id fun t => t.sweep now).account? id').map
      fun a => a.dispatcher.pending.entries.length).getD 0 <
        ((net.account? id').map fun a => a.dispatcher.pending.entries.length).getD 0 := by
    rintro _ rfl
    rw [haccount, Function.update_self, ha]
    exact hfewer
  rw [awaiting, awaiting, hlength]
  refine Finset.sum_lt_sum (fun id' _ => ?_) ⟨id, hid, hlt id rfl⟩
  by_cases he : id' = id
  · exact (hlt id' he).le
  · rw [haccount, Function.update_of_ne he]

end Network

/-! ## Inquiries -/

/-- A station asks all stations of its link for the way to a segment. -/
structure Inquiry where
  /-- The station that asks. -/
  asker : Member
  /-- The station that can answer, or the asker itself if no other station can. -/
  router : Member
  /-- The segment asked for. -/
  segment : Segment
  /-- The address of all stations of the link. -/
  everyone : Address
  /-- The address of the asker on the link. -/
  askerAddress : Address
  /-- The address of the router on the link. -/
  routerAddress : Address

namespace Network

/-- A link in service whose worker runs and each of whose stations has a transport that works, in a
network at rest. -/
structure Attentive (net : Network) (k : LinkId) (l : Link) : Prop where
  /-- The link is in service. -/
  serves : net.wiring.Serves k l
  /-- The worker of the link runs. -/
  running : l.running = true
  /-- A query for one segment and the answer to it are not too long for the link. -/
  fits : 5 ≤ l.maxFrameLength
  /-- The transports of the stations have workers, which are there. -/
  manned : ∀ m, net.wiring.Attends k m →
    ∃ w, net.site.worker? m.id = some w ∧ net.site.isStaffed w = true
  /-- No worker has anything to do. -/
  rest : net.atRest = true

end Network

namespace Inquiry

/-- The query. -/
def query (i : Inquiry) : Notice :=
  ⟨i.asker, .routerQuery i.everyone (some i.segment) true, i.askerAddress⟩

/-- The answer. -/
def answer (i : Inquiry) : Notice :=
  ⟨i.router, .routerAnnouncement i.everyone [i.segment], i.routerAddress⟩

/-- The circumstances of an inquiry. -/
structure Begins (i : Inquiry) (start : Network) (k : LinkId) (l : Link) : Prop
    extends start.Attentive k l where
  /-- Routes lead where they are said to lead. -/
  routed : start.directory.Routed
  /-- The asker is on the link. -/
  asker : start.wiring.Attends k i.asker
  /-- The router is on the link. -/
  router : start.wiring.Attends k i.router
  /-- No other station can answer. -/
  only : ∀ m, start.wiring.Attends k m → m ≠ i.asker →
    (start.directory.LeadsTo m.station i.segment ↔ m = i.router)
  /-- The query is for all stations of the link. -/
  everyone : i.asker.station.broadcastAddress = .ok i.everyone
  /-- The asker has an address on the link. -/
  askerAddress : Address.onLink i.asker.station.attachment.mac = .ok i.askerAddress
  /-- The router has an address on the link. -/
  routerAddress : Address.onLink i.router.station.attachment.mac = .ok i.routerAddress

variable {i : Inquiry} {start net net' : Network} {k : LinkId} {l : Link} {query answer : Spread}

section

variable (i start l)

/-- The stations that the query is for. -/
abbrev asked : Finset NodeId := start.wiring.others l i.asker

/-- The stations that the answer is for. -/
abbrev answered : Finset NodeId := start.wiring.others l i.router

/-- The stations that have learned from the answer. -/
def told (answer : Spread) : Finset NodeId := i.answered start l \ answer.due (i.answered start l)

/-- The stations at a stage of the inquiry. -/
def stations (answer : Spread) : Directory :=
  start.directory.taught i.router.station.attachment.mac [i.segment] (i.told start l answer)

/-- A stage of an inquiry. What waits beyond what waited before is what is left of the query and the
answer, and what has changed is what the stations have learned that have heard the answer. -/
structure Under (k : LinkId) (net : Network) (query answer : Spread) : Prop where
  /-- The site knows of what the stations have learned. -/
  site : net.site = start.site.withStations (i.stations start l answer)
  /-- Applications have been handed nothing. -/
  noted : ∀ id, (net.account? id).map Account.noted = (start.account? id).map Account.noted
  /-- What is left of the query and the answer waits with what waited before. -/
  chores : net.chores =
    start.chores + i.query.chores start.site k query + i.answer.chores start.site k answer
  /-- The query has been sent. -/
  sent : query ≠ .unsent
  /-- The query waits for other stations only. -/
  query_due : query.due (i.asked start l) ⊆ i.asked start l
  /-- The answer waits for other stations only. -/
  answer_due : answer.due (i.answered start l) ⊆ i.answered start l
  /-- The router answers when it dispatches the query; the asker itself does not. -/
  unsent : answer = .unsent ↔
    i.router.id ∈ query.due (i.asked start l) ∨ i.router.id = i.asker.id

end

/-- The segment of the address of all stations is that of the link. -/
theorem Begins.segment (begins : i.Begins start k l) : i.everyone.segment = l.segment :=
  (Address.segment_of begins.everyone).trans (begins.serves.on _ begins.asker).segment

theorem Begins.fits_query (begins : i.Begins start k l) : i.query.Fits start.site.wiring k l where
  attends := begins.asker
  read := Message.decode_header_of_kind rfl trivial rfl
  sender := begins.askerAddress
  broadcast := rfl
  router := rfl
  segment := begins.segment
  length_le := begins.fits

theorem Begins.fits_answer (begins : i.Begins start k l) : i.answer.Fits start.site.wiring k l where
  attends := begins.router
  read := Message.decode_header_of_kind rfl trivial rfl
  sender := begins.routerAddress
  broadcast := rfl
  router := rfl
  segment := begins.segment
  length_le := begins.fits

/-- Both stations know all stations of the link by the same address. -/
theorem Begins.everyone_router (begins : i.Begins start k l) :
    i.router.station.broadcastAddress = .ok i.everyone := by
  have hasker := begins.serves.on _ begins.asker
  have hrouter := begins.serves.on _ begins.router
  rw [← begins.everyone, Station.broadcastAddress, Station.broadcastAddress, hasker.segment,
    hrouter.segment, hasker.attachment, hrouter.attachment]
  rfl

/-- A message that was sent has passed everybody when nobody is left to spread it. -/
theorem Begins.eq_handed (begins : i.Begins start k l) {n : Notice} {m : Member} {spread : Spread}
    (due : spread.due (start.wiring.others l m) ⊆ start.wiring.others l m)
    (idle : ∀ chore ∈ n.chores start.site k spread, start.site.isStaffed chore.worker = false)
    (sent : spread ≠ .unsent) : spread = .handed ∅ := by
  cases spread with
  | unsent => exact absurd rfl sent
  | queued =>
    have hlink : start.site.isStaffed (.link k) = true := by
      have hrunning := begins.running
      simp only [Site.isStaffed, Network.site, begins.serves.link, Option.any_some, hrunning]
    have hnobody := idle _ (Multiset.mem_singleton_self _)
    rw [Chore.worker, hlink] at hnobody
    cases hnobody
  | handed left =>
    refine congrArg Spread.handed (Finset.eq_empty_of_forall_notMem fun x hx => ?_)
    obtain ⟨-, s, hs⟩ := begins.serves.mem_others_iff.mp (due hx)
    obtain ⟨w, worker, staffed⟩ := begins.manned _ hs
    have hnobody := idle _ (Notice.mem_jobs_iff.mpr ⟨x, hx, w, worker, rfl⟩)
    rw [Chore.worker, staffed] at hnobody
    cases hnobody

/-- Before the answer has been handed out nobody has learned from it. -/
theorem told_eq_empty (h : answer.due (i.answered start l) = i.answered start l) :
    i.told start l answer = ∅ := by
  rw [told, h, Finset.sdiff_self]

namespace Under

theorem site_eq_start (h : i.Under start l k net query answer)
    (hdue : answer.due (i.answered start l) = i.answered start l) : net.site = start.site := by
  rw [h.site, stations, told_eq_empty hdue, Directory.taught_empty]
  exact start.site.withStations_directory

theorem isStaffed_eq (h : i.Under start l k net query answer) :
    net.site.isStaffed = start.site.isStaffed := by rw [h.site, Site.isStaffed_withStations]

theorem worker?_eq (h : i.Under start l k net query answer) :
    net.site.worker? = start.site.worker? := by rw [h.site, Site.worker?_withStations]

theorem directory_eq (h : i.Under start l k net query answer) :
    net.directory = i.stations start l answer :=
  congrArg (fun s : Site => s.wiring.directory) h.site

/-- The chore that is worked on is what is left of the query or the answer. -/
theorem mem_chores (h : i.Under start l k net query answer) (begins : i.Begins start k l)
    {chore : Chore} (work : net.WorksOn chore net') :
    chore ∈ i.query.chores start.site k query ∨ chore ∈ i.answer.chores start.site k answer := by
  have hmem := work.mem_chores
  rw [h.chores, Multiset.mem_add, Multiset.mem_add, or_assoc] at hmem
  refine hmem.resolve_left fun hold => ?_
  have hnobody := Network.isStaffed_of_atRest begins.rest hold
  rw [← h.isStaffed_eq, work.isStaffed] at hnobody
  cases hnobody

/-- A link that hands out the query leaves it to the transports of the other stations. -/
theorem hands_query (h : i.Under start l k net .queued answer) (begins : i.Begins start k l)
    (work : net.WorksOn (.frame k i.query.frame) net') :
    i.Under start l k net' (.handed (i.asked start l)) answer := by
  have hunsent : answer = .unsent := by
    refine h.unsent.mpr ?_
    by_cases he : i.router.id = i.asker.id
    · exact Or.inr he
    · exact Or.inl (begins.serves.mem_others_iff.mpr ⟨he, _, begins.router⟩)
  subst hunsent
  have hsame := h.site_eq_start rfl
  obtain ⟨hsite, haccount, hchores⟩ := work.of_frame
  rw [hsame, begins.fits_query.posted_handed begins.serves, h.chores] at hchores
  refine ⟨hsite.trans h.site, fun id => by rw [haccount, h.noted], ?_, by simp, subset_rfl,
    h.answer_due, h.unsent⟩
  refine add_right_cancel (b := {.frame k i.query.frame}) (hchores.trans ?_)
  simp only [Notice.chores, asked, query]
  ac_rfl

/-- A link that hands out the answer leaves it to the transports of the other stations. -/
theorem hands_answer (h : i.Under start l k net query .queued) (begins : i.Begins start k l)
    (work : net.WorksOn (.frame k i.answer.frame) net') :
    i.Under start l k net' query (.handed (i.answered start l)) := by
  have hsame := h.site_eq_start rfl
  obtain ⟨hsite, haccount, hchores⟩ := work.of_frame
  rw [hsame, begins.fits_answer.posted_handed begins.serves, h.chores] at hchores
  refine ⟨hsite.trans h.site, fun id => by rw [haccount, h.noted], ?_, h.sent, h.query_due, subset_rfl,
    iff_of_false (by simp) fun he => ?_⟩
  · refine add_right_cancel (b := {.frame k i.answer.frame}) (hchores.trans ?_)
    simp only [Notice.chores, answered, answer]
    ac_rfl
  · have hunsent := h.unsent.mpr he
    cases hunsent

/-- A transport that dispatches the query has its station answer, and that is all. -/
theorem dispatches_query (h : i.Under start l k net query answer) {w : Worker} {x : NodeId}
    (worker : start.site.worker? x = some w)
    (work : net.WorksOn (.job w ⟨x, .dispatch i.query.envelope⟩) net') :
    net'.site = net.site ∧
      (∀ id, (net'.account? id).map Account.noted = (start.account? id).map Account.noted) ∧
      net'.chores + {.job w ⟨x, .dispatch i.query.envelope⟩} = net.chores +
        ↑(net.site.posted (net.directory.caused x (.answerRouterQuery i.query.envelope))) := by
  rw [← h.worker?_eq] at worker
  obtain ⟨a, -, -, ha, -, -⟩ := work.of_job worker
  obtain ⟨now, hrun⟩ := work.exists_run worker ha
  obtain ⟨hsite, haccount, hchores⟩ :=
    hrun a.dispatcher [.answerRouterQuery i.query.envelope] rfl (by simp)
  refine ⟨hsite, fun id => ?_, ?_⟩
  · have hsame : ({ a with dispatcher := a.dispatcher } : Account).afterAll
        [.answerRouterQuery i.query.envelope] = a := rfl
    rw [haccount, hsame, ← ha, Function.update_eq_self, h.noted]
  · rw [hchores, List.flatMap_singleton]
    rfl

/-- The router answers the query. -/
theorem answers {due : Finset NodeId} (h : i.Under start l k net (.handed due) answer)
    (begins : i.Begins start k l) (waits : i.router.id ∈ due) {w : Worker}
    (worker : start.site.worker? i.router.id = some w)
    (work : net.WorksOn (.job w ⟨i.router.id, .dispatch i.query.envelope⟩) net') :
    answer = .unsent ∧ i.Under start l k net' (.handed (due.erase i.router.id)) .queued := by
  obtain rfl : answer = .unsent := h.unsent.mpr (Or.inl waits)
  have hother : i.router.id ≠ i.asker.id := (begins.serves.mem_others_iff.mp (h.query_due waits)).1
  have hsame := h.site_eq_start rfl
  have hdirectory : net.directory = start.directory :=
    congrArg (fun s : Site => s.wiring.directory) hsame
  have hleads : start.directory.LeadsTo i.router.station i.segment :=
    (begins.only _ begins.router (mt (congrArg Member.id) hother)).mpr rfl
  have hcaused : net.directory.caused i.router.id (.answerRouterQuery i.query.envelope) =
      (start.directory.send i.router i.answer.message).events := by
    have hmember : start.directory.member? i.router.id = some i.router := begins.router.member?
    rw [hdirectory, Directory.caused, Directory.callEvents, hmember, Option.map_some,
      Option.getD_some, Directory.answerRouterQuery_of_leadsTo rfl hleads begins.everyone_router]
    rfl
  obtain ⟨hsite, hnoted, hchores⟩ := h.dispatches_query worker work
  have hposted := (begins.fits_answer.send begins.serves).2
  rw [hcaused, hsame] at hchores
  refine ⟨rfl, ?_⟩
  refine ⟨?_, hnoted, ?_, by simp, (Finset.erase_subset _ _).trans h.query_due, subset_rfl,
    iff_of_false (by simp) fun he => ?_⟩
  · rw [hsite, hsame, stations, told_eq_empty rfl, Directory.taught_empty]
    exact start.site.withStations_directory.symm
  · refine add_right_cancel (hchores.trans ?_)
    rw [h.chores]
    simp only [Notice.chores]
    rw [← Notice.jobs_erase waits worker]
    have hframe : start.site.posted (start.directory.send i.router i.answer.message).events =
        [.frame k i.answer.frame] := hposted
    rw [hframe, Multiset.coe_singleton]
    ac_rfl
  · rcases he with he | he
    · exact absurd rfl (Finset.ne_of_mem_erase he)
    · exact absurd he hother

/-- No other station answers the query. -/
theorem ignores {due : Finset NodeId} (h : i.Under start l k net (.handed due) answer)
    (begins : i.Begins start k l) {x : NodeId} (waits : x ∈ due) (hx : x ≠ i.router.id) {w : Worker}
    (worker : start.site.worker? x = some w)
    (work : net.WorksOn (.job w ⟨x, .dispatch i.query.envelope⟩) net') :
    i.Under start l k net' (.handed (due.erase x)) answer := by
  obtain ⟨hother, s, hs⟩ := begins.serves.mem_others_iff.mp (h.query_due waits)
  have hsilent : ¬ start.directory.LeadsTo s i.segment := fun hleads => by
    have hrouter := (begins.only _ hs (mt (congrArg Member.id) hother)).mp hleads
    exact hx (congrArg Member.id hrouter)
  have hnear : ∀ id ∈ i.told start l answer, ∀ s', start.directory id = some s' →
      s'.segment = s.segment := by
    intro id hid s' hs'
    obtain ⟨-, s'', hs''⟩ := begins.serves.mem_others_iff.mp (Finset.mem_sdiff.mp hid).1
    obtain rfl : s'' = s' := Option.some.inj (hs''.station.symm.trans hs')
    exact (begins.serves.on _ hs'').segment.trans (begins.serves.on _ hs).segment.symm
  have hquiet : net.directory.caused x (.answerRouterQuery i.query.envelope) = [] := by
    rw [h.directory_eq, Directory.caused, Directory.callEvents, Directory.member?, stations,
      Directory.taught, show start.directory x = some s from hs.station, Option.map_some,
      Option.map_some, Option.map_some, Option.getD_some,
      Directory.answerRouterQuery_of_not_leadsTo rfl fun hleads => hsilent ?_]
    refine hleads.of_taught begins.routed hs.station hnear ?_
    dsimp only
    split <;> rfl
  obtain ⟨hsite, hnoted, hchores⟩ := h.dispatches_query worker work
  rw [hquiet] at hchores
  refine ⟨hsite.trans h.site, hnoted, ?_, by simp, (Finset.erase_subset _ _).trans h.query_due,
    h.answer_due, h.unsent.trans (or_congr_left ?_)⟩
  · refine add_right_cancel (hchores.trans ?_)
    rw [h.chores]
    simp only [Notice.chores]
    rw [← Notice.jobs_erase waits worker]
    have hnone : (↑(net.site.posted []) : Multiset Chore) = 0 := rfl
    rw [hnone, add_zero]
    ac_rfl
  · exact (Finset.mem_erase.trans (and_iff_right hx.symm)).symm

/-- What a transport makes of the answer is that its station learns. -/
theorem dispatch_answer (begins : i.Begins start k l) (d : Dispatcher) :
    d.dispatch i.answer.envelope =
      (d, [.learn i.router.station.attachment.mac [i.segment]]) := by
  have hmac : i.answer.envelope.sender.mac = some i.router.station.attachment.mac :=
    ((begins.serves.on _ begins.router).of_onLink begins.routerAddress).2
  have hread : RouterAnnouncement.reader.exactly i.answer.envelope.payload =
      .ok ⟨[i.segment]⟩ := RouterAnnouncement.exactly_bytes ⟨[i.segment]⟩
  have hlink : i.answer.envelope.link = none := rfl
  have hlearn : Dispatcher.learn i.answer.envelope =
      [.learn i.router.station.attachment.mac [i.segment]] := by
    simp only [Dispatcher.learn, hread, hlink, hmac]
    rfl
  rw [← hlearn]
  rfl

/-- A transport that dispatches the answer has its station learn from it. -/
theorem learns {due : Finset NodeId} (h : i.Under start l k net query (.handed due))
    (begins : i.Begins start k l) {x : NodeId} (waits : x ∈ due) {w : Worker}
    (worker : start.site.worker? x = some w)
    (work : net.WorksOn (.job w ⟨x, .dispatch i.answer.envelope⟩) net') :
    i.Under start l k net' query (.handed (due.erase x)) := by
  obtain ⟨a, now, taken, ha, takes, rfl⟩ := work.of_job (h.worker?_eq.symm ▸ worker)
  have hrun : a.dispatcher.run (net.attempt x) now (.dispatch i.answer.envelope) =
      (a.dispatcher, [.learn i.router.station.attachment.mac [i.segment]]) :=
    dispatch_answer begins a.dispatcher
  rw [hrun] at takes ⊢
  have hperform : taken.performAll x [.learn i.router.station.attachment.mac [i.segment]] =
      taken.modifyStation x fun s => s.learn i.router.station.attachment.mac [i.segment] := rfl
  rw [hperform]
  have haccount : taken.account? = net.account? := by
    have hsame : ({ a with dispatcher := a.dispatcher } : Account) = a := rfl
    rw [takes.account, hsame, ← ha, Function.update_eq_self]
  have hdirectory : taken.directory = i.stations start l (.handed due) :=
    (congrArg (fun s : Site => s.wiring.directory) takes.site).trans h.directory_eq
  have htold : i.told start l (.handed (due.erase x)) = insert x (i.told start l (.handed due)) :=
    Finset.sdiff_erase (h.answer_due waits)
  have hnew : x ∉ i.told start l (.handed due) := fun hx => (Finset.mem_sdiff.mp hx).2 waits
  refine ⟨?_, fun id => ?_, ?_, h.sent, h.query_due, (Finset.erase_subset _ _).trans h.answer_due,
    iff_of_false (by simp) fun he => ?_⟩
  · rw [Network.site_modifyStation, takes.site, h.site, hdirectory, stations, stations, htold,
      Directory.taught_insert hnew]
    rfl
  · rw [Network.account?_modifyStation, haccount, h.noted]
  · rw [Network.chores_modifyStation]
    refine add_right_cancel (takes.chores.trans ?_)
    rw [h.chores]
    simp only [Notice.chores]
    rw [← Notice.jobs_erase waits worker]
    ac_rfl
  · have hunsent := h.unsent.mpr he
    cases hunsent

/-- Work spreads the query or the answer. -/
theorem works (h : i.Under start l k net query answer) (begins : i.Begins start k l)
    {chore : Chore} (work : net.WorksOn chore net') : ∃ query' answer',
      i.Under start l k net' query' answer' ∧
        query'.left (i.asked start l) + answer'.left (i.answered start l) <
          query.left (i.asked start l) + answer.left (i.answered start l) := by
  rcases h.mem_chores begins work with hmem | hmem
  · cases query with
    | unsent => exact absurd hmem (Multiset.notMem_zero _)
    | queued =>
      obtain rfl := Multiset.mem_singleton.mp hmem
      exact ⟨_, _, h.hands_query begins work, Nat.add_lt_add_right (Nat.lt_succ_self _) _⟩
    | handed due =>
      obtain ⟨x, waits, w, worker, rfl⟩ := Notice.mem_jobs_iff.mp hmem
      have hless : (due.erase x).card < due.card := Finset.card_erase_lt_of_mem waits
      by_cases hx : x = i.router.id
      · subst hx
        obtain ⟨rfl, hnext⟩ := h.answers begins waits worker work
        exact ⟨_, _, hnext, Nat.add_lt_add hless (Nat.lt_succ_self _)⟩
      · exact ⟨_, _, h.ignores begins waits hx worker work, Nat.add_lt_add_right hless _⟩
  · cases answer with
    | unsent => exact absurd hmem (Multiset.notMem_zero _)
    | queued =>
      obtain rfl := Multiset.mem_singleton.mp hmem
      exact ⟨_, _, h.hands_answer begins work, Nat.add_lt_add_left (Nat.lt_succ_self _) _⟩
    | handed due =>
      obtain ⟨x, waits, w, worker, rfl⟩ := Notice.mem_jobs_iff.mp hmem
      have hless : (due.erase x).card < due.card := Finset.card_erase_lt_of_mem waits
      exact ⟨_, _, h.learns begins waits worker work, Nat.add_lt_add_left hless _⟩

/-- A transport that fails overdue requests is no matter of the inquiry. -/
theorem sweeps (h : i.Under start l k net query answer) {id : NodeId} {t : Dedicated}
    (transport : net.dedicated? id = some t) (now : Nat) :
    i.Under start l k (net.stepDedicated id fun t => t.sweep now) query answer := by
  obtain ⟨a, a', ha, -, -, hnoted, haccount, hsite, hchores⟩ := Network.of_sweep transport now
  refine ⟨hsite.trans h.site, fun id' => ?_, hchores.trans h.chores, h.sent, h.query_due,
    h.answer_due, h.unsent⟩
  rw [haccount, ← h.noted id']
  by_cases he : id' = id
  · rw [he, Function.update_self, ha, Option.map_some, Option.map_some, hnoted]
  · rw [Function.update_of_ne he]

/-- Every step keeps the inquiry at some stage. -/
theorem step (h : i.Under start l k net query answer) (begins : i.Begins start k l)
    (step : net.Step net') : ∃ query' answer', i.Under start l k net' query' answer' := by
  rcases Network.step_iff.mp step with ⟨chore, work⟩ | ⟨id, t, now, transport, running, overdue, rfl⟩
  · obtain ⟨query', answer', hnext, -⟩ := h.works begins work
    exact ⟨query', answer', hnext⟩
  · exact ⟨query, answer, h.sweeps transport now⟩

theorem reflTransGen_step (h : i.Under start l k net query answer) (begins : i.Begins start k l)
    (steps : Relation.ReflTransGen Network.Step net net') :
    ∃ query' answer', i.Under start l k net' query' answer' := by
  induction steps with
  | refl => exact ⟨query, answer, h⟩
  | tail _ step ih =>
    obtain ⟨query', answer', h'⟩ := ih
    exact h'.step begins step

/-- Steps come to an end: work leaves less of the query and the answer, and while it leaves them as
they are, fewer and fewer replies are awaited. -/
theorem acc (h : i.Under start l k net query answer) (begins : i.Begins start k l) :
    Acc (fun net' net : Network => net.Step net') net := by
  generalize hleft : query.left (i.asked start l) + answer.left (i.answered start l) = left
  induction left using Nat.strong_induction_on generalizing net query answer with
  | _ left spread =>
    generalize hawaiting : net.awaiting = awaiting
    induction awaiting using Nat.strong_induction_on generalizing net with
    | _ awaiting swept =>
      refine Acc.intro net fun net' step => ?_
      rcases Network.step_iff.mp step with
        ⟨chore, work⟩ | ⟨id, t, now, transport, running, overdue, rfl⟩
      · obtain ⟨query', answer', hnext, hless⟩ := h.works begins work
        exact spread _ (hleft ▸ hless) hnext rfl
      · refine swept _ ?_ (h.sweeps transport now) rfl
        exact hawaiting ▸ Network.awaiting_sweep_lt transport running overdue

/-- At rest the query and the answer have passed all transports that they were for. -/
theorem of_atRest (h : i.Under start l k net query answer) (begins : i.Begins start k l)
    (rest : net.atRest = true) :
    (i.router.id ≠ i.asker.id → i.told start l answer = i.answered start l) ∧
      (i.router.id = i.asker.id → i.told start l answer = ∅) := by
  have hidle : ∀ chore, chore ∈ i.query.chores start.site k query ∨
      chore ∈ i.answer.chores start.site k answer → start.site.isStaffed chore.worker = false := by
    intro chore hmem
    rw [← h.isStaffed_eq]
    refine Network.isStaffed_of_atRest rest ?_
    rw [h.chores, Multiset.mem_add, Multiset.mem_add, or_assoc]
    exact Or.inr hmem
  have hquery := begins.eq_handed (n := i.query) h.query_due
    (fun chore hmem => hidle chore (Or.inl hmem)) h.sent
  subst hquery
  constructor
  · intro hother
    have hsent : answer ≠ .unsent := fun he =>
      (h.unsent.mp he).elim (Finset.notMem_empty _) hother
    obtain rfl := begins.eq_handed (n := i.answer) h.answer_due
      (fun chore hmem => hidle chore (Or.inr hmem)) hsent
    exact Finset.sdiff_empty
  · intro hself
    obtain rfl := h.unsent.mpr (Or.inr hself)
    exact told_eq_empty rfl

end Under

/-- The station that asks has its query wait on the link. -/
theorem Begins.send (begins : i.Begins start k l) :
    (start.send i.asker.id i.query.message).1 = .ok () ∧
      i.Under start l k (start.send i.asker.id i.query.message).2 .queued .unsent := by
  obtain ⟨hresult, hposted⟩ := begins.fits_query.send begins.serves
  have hposts := Network.posts_applyAll start (start.directory.send i.asker i.query.message).events
  have hstart : start.site.posted (start.directory.send i.asker i.query.message).events =
      [.frame k i.query.frame] := hposted
  rw [Network.send_eq_applyAll begins.asker]
  refine ⟨hresult, ?_⟩
  refine ⟨?_, fun id => by rw [hposts.account], ?_, by simp, subset_rfl, subset_rfl,
    iff_of_true rfl ?_⟩
  · rw [hposts.site, stations, told_eq_empty rfl, Directory.taught_empty]
    exact start.site.withStations_directory.symm
  · rw [hposts.chores, hstart]
    exact (add_zero _).symm
  · by_cases he : i.router.id = i.asker.id
    · exact Or.inr he
    · exact Or.inl (begins.serves.mem_others_iff.mpr ⟨he, _, begins.router⟩)

end Inquiry

namespace Network

variable {net net' : Network} {k : LinkId} {l : Link} {c r m : Member} {w : Segment}

theorem noted_of_account? {id : NodeId} {a : Account} (h : net.account? id = some a) :
    net.noted id = a.noted := by
  obtain ⟨n, hn, ha⟩ := Option.bind_eq_some_iff.mp h
  obtain ⟨d, -, rfl⟩ := Option.map_eq_some_iff.mp ha
  rw [noted, hn, Option.map_some, Option.getD_some]

/-- All stations of a link but one have learned from that one where a segment is, and nothing else
has changed about the stations of the network and the applications on the link. -/
structure HasTaught (net : Network) (k : LinkId) (l : Link) (r : Member) (w : Segment)
    (net' : Network) : Prop where
  /-- The router has an address on the link. -/
  address : ∃ a, Address.onLink r.station.attachment.mac = .ok a
  /-- The other stations find the router for the segment, if the segment can have one, and are as they
  were apart from that. -/
  learned : ∀ m, net.wiring.Attends k m → m ≠ r → ∃ s, net'.directory m.id = some s ∧
    s.unlearned = m.station.unlearned ∧ ∀ v, s.routerFor v =
      if v = w ∧ w ≠ Segment.here ∧ w ≠ Segment.everywhere ∧ w ≠ l.segment then
        some (Address.onLink r.station.attachment.mac)
      else m.station.routerFor v
  /-- The router itself and the stations that are not on the link are as they were. -/
  others : ∀ id, (∀ m, net.wiring.Attends k m → m.id = id → m = r) →
    net'.directory id = net.directory id
  /-- Applications on the link have been handed nothing. -/
  noted : ∀ m, net.wiring.Attends k m → net'.noted m.id = net.noted m.id

/-- What a station finds after it has learned a router for one segment. -/
theorem routerFor_learn (s : Station) (mac : Bytes) (w v : Segment) :
    (s.learn mac [w]).routerFor v =
      if v = w ∧ w ≠ Segment.here ∧ w ≠ Segment.everywhere ∧ w ≠ s.segment then
        some (Address.onLink mac)
      else s.routerFor v := by
  have hadmits : (v ∈ [w] ∧ RouterTable.admits s.segment v = true) ↔
      (v = w ∧ w ≠ Segment.here ∧ w ≠ Segment.everywhere ∧ w ≠ s.segment) := by
    rw [List.mem_singleton]
    refine and_congr_right fun he => ?_
    subst he
    simp only [RouterTable.admits, Bool.and_eq_true, bne_iff_ne]
    tauto
  rw [Station.routerFor, Station.learn, RouterTable.router?_learn, apply_ite (Option.map Address.onLink)]
  simp only [hadmits]
  rfl

/-- An inquiry succeeds and comes to rest, and then the stations have learned from the answer, and
applications on the link have been handed nothing. -/
theorem restsAs_of_begins {i : Inquiry} (begins : i.Begins net k l) {described : Network → Prop}
    (h : ∀ net' told, net'.directory =
        net.directory.taught i.router.station.attachment.mac [i.segment] told →
      (i.router.id ≠ i.asker.id → told = net.wiring.others l i.router) →
      (i.router.id = i.asker.id → told = ∅) →
      (∀ m, net.wiring.Attends k m → net'.noted m.id = net.noted m.id) → described net') :
    (net.send i.asker.id i.query.message).1 = .ok () ∧
      (net.send i.asker.id i.query.message).2.RestsAs described := by
  obtain ⟨hresult, hsent⟩ := begins.send
  refine ⟨hresult, .of_acc (hsent.acc begins) fun net' steps rest => ?_⟩
  obtain ⟨query, answer, hunder⟩ := hsent.reflTransGen_step begins steps
  obtain ⟨hall, hnone⟩ := hunder.of_atRest begins rest
  refine h net' _ hunder.directory_eq hall hnone fun m hm => ?_
  obtain ⟨worker, hworker, -⟩ := begins.manned m hm
  obtain ⟨a, ha⟩ := exists_account_of_worker? hworker
  have hnoted := hunder.noted m.id
  rw [ha, Option.map_some] at hnoted
  obtain ⟨a', ha', hsame⟩ := Option.map_eq_some_iff.mp hnoted
  rw [noted_of_account? ha, noted_of_account? ha', hsame]

/-- A query for the way to a segment, put to all stations of a link by one of them, teaches them where
the segment is and does nothing else. If exactly one other station has a neighbor that leads to the
segment, then the query succeeds and the network comes to rest, in whatever order work is done, when
all stations but that one have learned from it. If no other station has such a neighbor, nobody learns
anything. -/
theorem inquiry_teaches {everyone : Address} (routed : net.Routed) (attentive : net.Attentive k l)
    (asker : net.wiring.Attends k c) (he : c.station.broadcastAddress = .ok everyone) (w : Segment) :
    (∀ r, net.wiring.Attends k r → r ≠ c → net.directory.LeadsTo r.station w →
      (∀ m, net.wiring.Attends k m → m ≠ c → net.directory.LeadsTo m.station w → m = r) →
      (net.send c.id (.routerQuery everyone (some w) true)).1 = .ok () ∧
        (net.send c.id (.routerQuery everyone (some w) true)).2.RestsAs (net.HasTaught k l r w)) ∧
    ((∀ m, net.wiring.Attends k m → m ≠ c → ¬ net.directory.LeadsTo m.station w) →
      (net.send c.id (.routerQuery everyone (some w) true)).1 = .ok () ∧
        (net.send c.id (.routerQuery everyone (some w) true)).2.RestsAs fun net' =>
          net'.directory = net.directory ∧
            ∀ m, net.wiring.Attends k m → net'.noted m.id = net.noted m.id) := by
  obtain ⟨askerAddress, hasker⟩ := (attentive.serves.on c asker).exists_onLink
  constructor
  · intro r hr hne hleads only
    obtain ⟨routerAddress, hrouter⟩ := (attentive.serves.on r hr).exists_onLink
    let i : Inquiry := ⟨c, r, w, everyone, askerAddress, routerAddress⟩
    have begins : i.Begins net k l := {
      attentive with
      routed := routed.directory
      asker
      router := hr
      only := fun m hm hmc => ⟨only m hm hmc, fun hmr => hmr ▸ hleads⟩
      everyone := he
      askerAddress := hasker
      routerAddress := hrouter }
    refine restsAs_of_begins begins fun net' told hdirectory hall _ hnoted => ?_
    have hothers : told = net.wiring.others l r := hall fun h => hne (hr.eq_of_id_eq asker h)
    have htold : ∀ m, net.wiring.Attends k m → (m.id ∈ told ↔ m ≠ r) := by
      intro m hm
      rw [hothers, attentive.serves.mem_others_iff]
      refine ⟨fun h he => h.1 (congrArg Member.id he), fun h => ⟨mt (hm.eq_of_id_eq hr) h, _, hm⟩⟩
    refine ⟨⟨_, hrouter⟩, fun m hm hmr => ?_, fun id hid' => ?_, hnoted⟩
    · refine ⟨m.station.learn r.station.attachment.mac [w], ?_, rfl, fun v => ?_⟩
      · have hstation : net.directory m.id = some m.station := hm.station
        rw [hdirectory, Directory.taught_of_mem ((htold m hm).mpr hmr), hstation, Option.map_some]
      · rw [routerFor_learn, (attentive.serves.on m hm).segment]
    · rw [hdirectory]
      refine Directory.taught_of_notMem fun hmem => ?_
      rw [hothers, attentive.serves.mem_others_iff] at hmem
      obtain ⟨hother, s, hs⟩ := hmem
      exact hother (congrArg Member.id (hid' _ hs rfl))
  · intro nobody
    let i : Inquiry := ⟨c, c, w, everyone, askerAddress, askerAddress⟩
    have begins : i.Begins net k l := {
      attentive with
      routed := routed.directory
      asker
      router := asker
      only := fun m hm hmc => iff_of_false (nobody m hm hmc) hmc
      everyone := he
      askerAddress := hasker
      routerAddress := hasker }
    refine restsAs_of_begins begins fun net' told hdirectory _ hnone hnoted => ⟨?_, hnoted⟩
    rw [hdirectory, hnone rfl, Directory.taught_empty]

/-- A station of `hamlet` on its link. -/
private def hamletStation (mac : Bytes) (routes : List (Segment × NodeId)) : Station where
  segment := 10
  attachment := ⟨mac, [mac], [0xFF], some 64⟩
  routes := ⟨10, ⟨routes⟩, routes.map fun r => some r.1⟩

/-- What dispatches for the nodes of `hamlet`. -/
private def hamletDispatcher : Dispatcher where
  segment := 10
  application := .recorder true

/-- A node of `hamlet` on its link. -/
private def hamletNode (mac : Bytes) (routes : List (Segment × NodeId)) (consumer : Consumer) : Node where
  station := hamletStation mac routes
  medium := .tap 0 {}
  keepsFaults := true
  consumer := some consumer

/-- The link of `hamlet`. -/
private def hamletLink : Link where
  segment := 10
  broadcastMac := [0xFF]
  maxFrameLength := 64
  registry := ⟨[([1], 0), ([2], 1), ([3], 2)]⟩
  running := true

/-- The neighbor of the router of `hamlet`, which is on another segment. -/
private def hamletNeighbor : Member :=
  ⟨3, { segment := 20, attachment := wireAttachment [2] none, routes := { home := 20 } }⟩

/-- A link with a router and two other nodes, one of which has its work done by a pool. -/
private def hamlet : Network where
  nodes := [
    some (hamletNode [1] [] (.dedicated { dispatcher := hamletDispatcher, running := true })),
    some (hamletNode [2] [(20, 3)] (.dedicated { dispatcher := hamletDispatcher, running := true })),
    some (hamletNode [3] [] (.shared 0 { dispatcher := hamletDispatcher, executors := some 0 })),
    some { station := hamletNeighbor.station, medium := .wire true [], keepsFaults := true }]
  links := [hamletLink]
  pools := [{ active := 1, executors := some 0, built := 1 }]

/-- The router of `hamlet`. -/
private def hamletRouter : Member := ⟨1, hamletStation [2] [(20, 3)]⟩

private theorem attends_hamlet {m : Member} (hm : hamlet.wiring.Attends 0 m) :
    m = ⟨0, hamletStation [1] []⟩ ∨ m = hamletRouter ∨ m = ⟨2, hamletStation [3] []⟩ := by
  obtain ⟨id, s⟩ := m
  obtain ⟨hs, htap⟩ := hm
  rcases id with _ | _ | _ | _ | id
  · cases hs
    exact Or.inl rfl
  · cases hs
    exact Or.inr (Or.inl rfl)
  · cases hs
    exact Or.inr (Or.inr rfl)
  · cases htap
  · cases hs

private theorem attentive_hamlet : hamlet.Attentive 0 hamletLink where
  serves :=
    serves_of_forall_nodes rfl (by decide) (by decide) (by decide) (by decide) (by decide)
  running := rfl
  fits := by decide
  manned m hm := by
    rcases attends_hamlet hm with rfl | rfl | rfl
    · exact ⟨.transport 0, rfl, rfl⟩
    · exact ⟨.transport 1, rfl, rfl⟩
    · exact ⟨.pool 0, rfl, rfl⟩
  rest := by decide

theorem inquiry_teaches_hamlet : ∃ everyone, (hamletStation [1] []).broadcastAddress = .ok everyone ∧
    (hamlet.send 0 (.routerQuery everyone (some 20) true)).1 = .ok () ∧
    (hamlet.send 0 (.routerQuery everyone (some 20) true)).2.RestsAs fun net' =>
      ∃ s s', net'.directory 0 = some s ∧ s.routerFor 20 = some (Address.onLink [2]) ∧
        net'.directory 2 = some s' ∧ s'.routerFor 20 = some (Address.onLink [2]) ∧
        net'.directory 1 = hamlet.directory 1 := by
  have hrouted : hamlet.Routed := Routed.of_forall_nodes (by decide)
  have hleads : hamlet.directory.LeadsTo hamletRouter.station 20 :=
    ⟨hamletNeighbor, by decide, List.mem_cons_self⟩
  have honly : ∀ m, hamlet.wiring.Attends 0 m → m ≠ ⟨0, hamletStation [1] []⟩ →
      hamlet.directory.LeadsTo m.station 20 → m = hamletRouter := by
    intro m hm hne hleads
    rcases attends_hamlet hm with rfl | rfl | rfl
    · exact absurd rfl hne
    · rfl
    · obtain ⟨n, hn, -⟩ := hleads
      cases hn
  obtain ⟨hresult, hrests⟩ := (inquiry_teaches (c := ⟨0, hamletStation [1] []⟩) hrouted
    attentive_hamlet ⟨rfl, rfl⟩ rfl 20).1 hamletRouter ⟨rfl, rfl⟩ (by decide) hleads honly
  have hlearned : ∀ net', hamlet.HasTaught 0 hamletLink hamletRouter 20 net' →
      ∃ s s', net'.directory 0 = some s ∧ s.routerFor 20 = some (Address.onLink [2]) ∧
        net'.directory 2 = some s' ∧ s'.routerFor 20 = some (Address.onLink [2]) ∧
        net'.directory 1 = hamlet.directory 1 := by
    intro net' h
    obtain ⟨s, hs, -, hfinds⟩ := h.learned ⟨0, hamletStation [1] []⟩ ⟨rfl, rfl⟩ (by decide)
    obtain ⟨s', hs', -, hfinds'⟩ := h.learned ⟨2, hamletStation [3] []⟩ ⟨rfl, rfl⟩ (by decide)
    refine ⟨s, s', hs, (hfinds 20).trans rfl, hs', (hfinds' 20).trans rfl, h.others 1 ?_⟩
    rintro m hm he
    rcases attends_hamlet hm with rfl | rfl | rfl
    · cases he
    · rfl
    · cases he
  obtain ⟨rounds, hrest, htaught⟩ := hrests.settles
  exact ⟨_, rfl, hresult, hrests.finite, ⟨rounds, hrest, hlearned _ htaught⟩,
    fun net' steps rest => hlearned net' (hrests.rests net' steps rest)⟩

end Network

end Fieldbus
