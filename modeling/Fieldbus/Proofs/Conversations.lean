import Fieldbus.Proofs.Journeys
import Fieldbus.Proofs.Work

/-!
# Conversations

One node asks others, which send every payload back, and any number of requests are open at a time.
Every request is on a journey of its own: one chore waits for each open request and nothing else
waits in the network (`Network.Underway`). So the order in which workers work does not matter, and
no request gets the reply to another. Main statements: work keeps every request on its journey
(`Underway.works`), workers that take turns in time carry a conversation on (`Session.turns`), and
a conversation ends after at most seven chores for each request, when every request has been
resolved once, with the reply of the node it was for (`Session.replies_matched`).
-/

namespace Fieldbus

namespace Dispatcher

variable {d : Dispatcher} {r : Request}

/-- A request that can be sent and whose key is free is awaited from then on. -/
theorem execute_of_free {attempt : Message → Except Failure Unit} (now : Nat)
    (accepted : attempt r.message = .ok ()) (free : d.pending.get? (d.key r) = none) :
    d.execute attempt now (.request r) =
      ({ d with pending := d.pending.insert (d.key r) ⟨r.ticket, now + r.timeout⟩ },
        [.send r.message]) := by
  simp only [execute, ask, accepted, free, Option.toList_none, List.map_nil, List.nil_append]

/-- The echo of a request ends it. -/
theorem dispatch_echo {w : Waiting} (correlate : d.application.correlate = Application.firstByte)
    (invokeId : r.payload.head? = some r.invokeId) (awaited : d.pending.get? (d.key r) = some w) :
    d.dispatch (d.echo r) = ({ d with pending := d.pending.erase (d.key r) },
      [.resolve w.ticket (.replied (d.echo r))]) := by
  have hawaited := awaited?_echo correlate invokeId awaited
  have hplain : (d.echo r).message = none := rfl
  simp only [dispatch, hplain, hawaited]

end Dispatcher

namespace Network

/-- Requests of one node are submitted and workers work, in any order, while time passes in which no
request becomes overdue. Requests and chores that were done are counted. -/
inductive Session (start : Network) (asker : NodeId) : List Query → Nat → Network → Prop
  /-- Nothing has happened. -/
  | start : Session start asker [] 0 start
  /-- A request is submitted. -/
  | submits {asked : List Query} {count : Nat} {net : Network}
      (session : Session start asker asked count net) (q : Query) :
      Session start asker (asked ++ [q]) count (net.submit asker (.request q.request))
  /-- A worker works. -/
  | works {asked : List Query} {count : Nat} {net net' : Network}
      (session : Session start asker asked count net) (work : net.Works net') :
      Session start asker asked (count + 1) net'
  /-- Time passes. -/
  | waits {asked : List Query} {count : Nat} {net : Network}
      (session : Session start asker asked count net) (now : Nat) :
      Session start asker asked count { net with now }

/-- Workers take their turns, each of them in time. -/
def turns? (net : Network) : List Worker → Option Network
  | [] => some net
  | w :: rest => if net.isInTime w then ((net.work? w).getD net).turns? rest else none

/-- A station is ready to ask: nothing waits in the network, its transport awaits nothing, and its
application takes the first byte of a payload for an invoke id. -/
structure Poised (net : Network) (k : LinkId) (l : Link) (c : Member) (a : Account) : Prop
    extends net.Hosts k l c where
  /-- What the transport has to answer for. -/
  account : net.account? c.id = some a
  /-- Replies are told by their first byte. -/
  correlate : a.dispatcher.application.correlate = Application.firstByte
  /-- The transport works for the segment of the link. -/
  segment : a.dispatcher.segment = l.segment
  /-- No reply is awaited. -/
  free : a.dispatcher.pending = ∅
  /-- Nothing waits for a worker. -/
  idle : net.chores = 0

/-- An open request and the chores that are left until it is resolved. -/
structure Errand where
  /-- The request. -/
  query : Query
  /-- The chores that are left; the first of them waits. -/
  chores : List Chore

/-- The chore that waits, if one is left. -/
def Errand.waiting (e : Errand) : Multiset Chore := ↑(e.chores.take 1)

/-- What is left to be done resolves the request. -/
inductive Errand.Due (start : Network) (c : Member) (d : Dispatcher)
    (pending : Table RequestKey Waiting) : Errand → Prop
  /-- The request waits to be executed. -/
  | waits {q : Query} {journey : List Chore} (departs : start.Departs c d q.request journey)
      (free : pending.get? (d.key q.request) = none) :
      Due start c d pending
        ⟨q, .job (.transport c.id) ⟨c.id, .execute (.request q.request)⟩ :: journey⟩
  /-- The request is on its journey, and its reply is awaited. -/
  | travels {q : Query} {journey : List Chore} {w : Waiting}
      (travels : start.Travels c.id (d.echo q.request) journey)
      (awaited : pending.get? (d.key q.request) = some w) (ticket : w.ticket = q.request.ticket) :
      Due start c d pending ⟨q, journey⟩

/-- What the asker learns of a request in the end. -/
def Query.answer (d : Dispatcher) (q : Query) : Ticket × Outcome :=
  (q.request.ticket, .replied (d.echo q.request))

/-- Each open request is on a journey of its own and nothing else waits. -/
structure Underway (start : Network) (c : Member) (a : Account) (asked : List Query) (count : Nat)
    (net : Network) (errands : Multiset Errand) (answered : List Query)
    (pending : Table RequestKey Waiting) : Prop where
  /-- Every request is open or answered. -/
  accounted : (asked : Multiset Query) = errands.map Errand.query + ↑answered
  /-- The site is as it was. -/
  site : net.site = start.site
  /-- The other nodes have the dispatchers they had. -/
  others : ∀ id, id ≠ c.id → net.dispatcher? id = start.dispatcher? id
  /-- The asker has learned of the answers and of nothing else. -/
  account : net.account? c.id = some
    { dispatcher := { a.dispatcher with pending }
      outcomes := a.outcomes ++ answered.map (Query.answer a.dispatcher)
      noted := a.noted }
  /-- One chore waits for each open request. -/
  chores : net.chores = errands.bind Errand.waiting
  /-- What is left to be done resolves the requests. -/
  due : ∀ e ∈ errands, e.Due start c a.dispatcher pending
  /-- What is awaited is the reply to an open request. -/
  awaited : ∀ key w, pending.get? key = some w →
    ∃ e ∈ errands, a.dispatcher.key e.query.request = key
  /-- At most seven chores are done for each request. -/
  bounded : count + (errands.map fun e => e.chores.length).sum ≤ 7 * asked.length

namespace Errand

variable {start : Network} {c : Member} {d : Dispatcher} {pending pending' : Table RequestKey Waiting}
  {e : Errand}

/-- What is left to be done depends on the key of the request only. -/
theorem Due.of_get?_eq (h : e.Due start c d pending)
    (same : pending'.get? (d.key e.query.request) = pending.get? (d.key e.query.request)) :
    e.Due start c d pending' := by
  cases h with
  | waits departs free => exact .waits departs (same.trans free)
  | travels travels awaited ticket => exact .travels travels (same.trans awaited) ticket

/-- Something is left to be done, and its worker is there. -/
theorem Due.exists_cons (h : e.Due start c d pending)
    (staffed : start.site.isStaffed (.transport c.id) = true) :
    ∃ chore rest, e.chores = chore :: rest ∧ start.site.isStaffed chore.worker = true := by
  cases h with
  | waits departs free => exact ⟨_, _, rfl, staffed⟩
  | travels travels awaited ticket => exact travels.exists_cons

end Errand

/-! ## Work on jobs -/

variable {start net net' : Network} {k : LinkId} {l : Link} {c : Member} {a : Account}
  {asked answered : List Query} {count : Nat} {errands : Multiset Errand}
  {pending : Table RequestKey Waiting}

/-- The result of sending is that of the station. -/
theorem attempt_eq (hc : net.site.wiring.Attends k c) (msg : Message) :
    net.attempt c.id msg = (net.site.wiring.directory.send c msg).result := by
  have hmember : net.member? c.id = some c := hc.member?
  rw [attempt, hmember]
  rfl

/-- A chore that leads to another is replaced by it, and no dispatcher and nothing that the asker has
learned changes. -/
theorem Leads.of_worksOn {asker : NodeId} {chore next : Chore} (h : start.Leads asker chore next)
    (work : net.WorksOn chore net') (site : net.site = start.site)
    (others : ∀ id, id ≠ asker → net.dispatcher? id = start.dispatcher? id) :
    net'.site = net.site ∧ (∀ id, net'.dispatcher? id = net.dispatcher? id) ∧
      net'.account? asker = net.account? asker ∧ net'.chores + {chore} = net.chores + {next} := by
  cases h with
  | frame posted =>
    obtain ⟨hsite, haccount, hchores⟩ := work.of_frame
    rw [site, posted] at hchores
    exact ⟨hsite, fun id => by rw [dispatcher?, haccount, dispatcher?], by rw [haccount], hchores⟩
  | @dispatch w id e d acts _ away worker dispatcher dispatch plain posted =>
    obtain ⟨a, ha, rfl⟩ := Option.map_eq_some_iff.mp ((others id away).trans dispatcher)
    obtain ⟨now, hrun⟩ := work.exists_run (site ▸ worker) ha
    obtain ⟨hsite, haccount, hchores⟩ := hrun a.dispatcher acts dispatch plain
    rw [site, posted] at hchores
    refine ⟨hsite, fun id' => ?_, ?_, hchores⟩
    · rw [dispatcher?, haccount, dispatcher?]
      by_cases he : id' = id
      · subst he
        rw [Function.update_self, ha, Option.map_some, Option.map_some, Account.dispatcher_afterAll]
      · rw [Function.update_of_ne he]
    · rw [haccount, Function.update_of_ne away.symm]

/-! ## Requests on their journeys -/

namespace Underway

/-- Nothing has been asked yet. -/
theorem nil (poised : start.Poised k l c a) : start.Underway c a [] 0 start 0 [] ∅ where
  accounted := rfl
  site := rfl
  others _ _ := rfl
  account := by
    rw [poised.account, List.map_nil, List.append_nil, ← poised.free]
  chores := poised.idle
  due := by simp
  awaited := by simp
  bounded := le_refl _

/-- A chore waits for one of the open requests. -/
theorem exists_errand (h : start.Underway c a asked count net errands answered pending)
    (poised : start.Poised k l c a) {chore : Chore} (waits : chore ∈ net.chores) :
    ∃ q rest others, errands = ⟨q, chore :: rest⟩ ::ₘ others ∧
      Errand.Due start c a.dispatcher pending ⟨q, chore :: rest⟩ := by
  rw [h.chores] at waits
  obtain ⟨⟨q, journey⟩, he, hchore⟩ := Multiset.mem_bind.mp waits
  obtain ⟨first, rest, rfl, -⟩ := (h.due _ he).exists_cons poised.staffed
  obtain rfl : chore = first := Multiset.mem_singleton.mp hchore
  obtain ⟨others, hothers⟩ := Multiset.exists_cons_of_mem he
  exact ⟨q, rest, others, hothers, h.due _ he⟩

section

variable {e : Errand} {others : Multiset Errand}

/-- The keys of open requests are different. -/
theorem key_ne (h : start.Underway c a asked count net (e ::ₘ others) answered pending)
    (keys : (asked.map fun q => a.dispatcher.key q.request).Nodup) :
    ∀ e' ∈ others, a.dispatcher.key e'.query.request ≠ a.dispatcher.key e.query.request := by
  intro e' he' heq
  have hkeys : (Multiset.map (fun q : Query => a.dispatcher.key q.request) asked).Nodup := keys
  rw [h.accounted, Multiset.map_add, Multiset.map_map, Multiset.map_cons] at hkeys
  obtain ⟨hnotin, -⟩ := Multiset.nodup_cons.mp (Multiset.nodup_add.mp hkeys).1
  exact hnotin (Multiset.mem_map.mpr ⟨e', he', heq⟩)

/-- What is not awaited for an open request is awaited for another. -/
theorem exists_of_awaited (h : start.Underway c a asked count net (e ::ₘ others) answered pending)
    {key : RequestKey} {w : Waiting} (hw : pending.get? key = some w)
    (ne : key ≠ a.dispatcher.key e.query.request) :
    ∃ e' ∈ others, a.dispatcher.key e'.query.request = key := by
  obtain ⟨e', he', hkey⟩ := h.awaited key w hw
  rcases Multiset.mem_cons.mp he' with rfl | he'
  · exact absurd hkey.symm ne
  · exact ⟨e', he', hkey⟩

end

section

variable {q : Query} {chore : Chore} {rest : List Chore} {others : Multiset Errand}

/-- One chore waits for an open request, beside those that wait for the others. -/
theorem chores_of_cons
    (h : start.Underway c a asked count net (⟨q, chore :: rest⟩ ::ₘ others) answered pending) :
    net.chores = others.bind Errand.waiting + {chore} := by
  rw [h.chores, Multiset.cons_bind, add_comm]
  rfl

/-- A chore that is left for an open request counts. -/
theorem bounded_of_cons
    (h : start.Underway c a asked count net (⟨q, chore :: rest⟩ ::ₘ others) answered pending) :
    count + 1 + (rest.length + (others.map fun e => e.chores.length).sum) ≤ 7 * asked.length := by
  have hbounded := h.bounded
  rw [Multiset.map_cons, Multiset.sum_cons] at hbounded
  dsimp only [List.length_cons] at hbounded
  omega

end

/-- A request that is submitted waits to be executed. -/
theorem submits (h : start.Underway c a asked count net errands answered pending)
    (poised : start.Poised k l c a) {q : Query} {journey : List Chore}
    (departs : start.Departs c a.dispatcher q.request journey)
    (keys : ((asked ++ [q]).map fun q => a.dispatcher.key q.request).Nodup) :
    start.Underway c a (asked ++ [q]) count (net.submit c.id (.request q.request))
      (⟨q, .job (.transport c.id) ⟨c.id, .execute (.request q.request)⟩ :: journey⟩ ::ₘ errands)
      answered pending := by
  obtain ⟨t, ht, hopen⟩ := exists_dedicated_of_worker? (h.site ▸ poised.worker)
  have posts := posts_submit ht hopen (.request q.request)
  have hfree : pending.get? (a.dispatcher.key q.request) = none := by
    refine Option.eq_none_iff_forall_ne_some.mpr fun w hw => ?_
    obtain ⟨e, he, hkey⟩ := h.awaited _ _ hw
    have hasked : e.query ∈ asked := by
      rw [← Multiset.mem_coe, h.accounted]
      exact Multiset.mem_add.mpr (Or.inl (Multiset.mem_map_of_mem _ he))
    rw [List.map_append, List.nodup_append] at keys
    exact keys.2.2 _ (List.mem_map_of_mem hasked) _ (List.mem_singleton_self _) hkey
  refine ⟨?_, posts.site.trans h.site, fun id ne => ?_, ?_, ?_, ?_, ?_, ?_⟩
  · rw [Multiset.map_cons, Multiset.cons_add, ← h.accounted, ← Multiset.singleton_add, add_comm]
    exact (Multiset.coe_add _ _).symm
  · rw [dispatcher?, posts.account]
    exact h.others id ne
  · rw [posts.account]
    exact h.account
  · rw [posts.chores, h.chores, Multiset.cons_bind, add_comm]
    rfl
  · intro e he
    rcases Multiset.mem_cons.mp he with rfl | he
    · exact .waits departs hfree
    · exact h.due e he
  · intro key w hw
    obtain ⟨e, he, hkey⟩ := h.awaited key w hw
    exact ⟨e, Multiset.mem_cons_of_mem he, hkey⟩
  · have hshort := departs.short
    have hbounded := h.bounded
    rw [Multiset.map_cons, Multiset.sum_cons, List.length_append, List.length_cons,
      List.length_singleton]
    omega

/-- Time passes. -/
theorem waits (h : start.Underway c a asked count net errands answered pending) (now : Nat) :
    start.Underway c a asked count { net with now } errands answered pending :=
  ⟨h.accounted, h.site, h.others, h.account, h.chores, h.due, h.awaited, h.bounded⟩

/-- A chore is done for an open request and leaves the next one. -/
theorem advances {q : Query} {chore : Chore} {rest : List Chore} {others : Multiset Errand}
    {pending' : Table RequestKey Waiting}
    (h : start.Underway c a asked count net (⟨q, chore :: rest⟩ ::ₘ others) answered pending)
    (keys : (asked.map fun q => a.dispatcher.key q.request).Nodup) (site : net'.site = net.site)
    (dispatchers : ∀ id, id ≠ c.id → net'.dispatcher? id = net.dispatcher? id)
    (account : net'.account? c.id = some
      { dispatcher := { a.dispatcher with pending := pending' }
        outcomes := a.outcomes ++ answered.map (Query.answer a.dispatcher)
        noted := a.noted })
    (chores : net'.chores + {chore} = net.chores + ↑(rest.take 1))
    (due : Errand.Due start c a.dispatcher pending' ⟨q, rest⟩)
    (same : ∀ key, key ≠ a.dispatcher.key q.request → pending'.get? key = pending.get? key) :
    start.Underway c a asked (count + 1) net' (⟨q, rest⟩ ::ₘ others) answered pending' where
  accounted := by
    rw [h.accounted, Multiset.map_cons, Multiset.map_cons]
  site := site.trans h.site
  others id ne := (dispatchers id ne).trans (h.others id ne)
  account := account
  chores := by
    rw [h.chores_of_cons, add_right_comm] at chores
    rw [add_right_cancel chores, Multiset.cons_bind, add_comm]
    rfl
  due e he := by
    rcases Multiset.mem_cons.mp he with rfl | he
    · exact due
    · exact (h.due e (Multiset.mem_cons_of_mem he)).of_get?_eq (same _ (h.key_ne keys e he))
  awaited key w hw := by
    by_cases hkey : key = a.dispatcher.key q.request
    · exact ⟨_, Multiset.mem_cons_self _ _, hkey.symm⟩
    · obtain ⟨e, he, hkey'⟩ := h.exists_of_awaited ((same key hkey).symm.trans hw) hkey
      exact ⟨e, Multiset.mem_cons_of_mem he, hkey'⟩
  bounded := by
    rw [Multiset.map_cons, Multiset.sum_cons]
    exact h.bounded_of_cons

/-- A request that is executed sets out. -/
theorem executes {q : Query} {journey : List Chore} {others : Multiset Errand}
    (h : start.Underway c a asked count net
      (⟨q, .job (.transport c.id) ⟨c.id, .execute (.request q.request)⟩ :: journey⟩ ::ₘ others)
      answered pending)
    (poised : start.Poised k l c a)
    (keys : (asked.map fun q => a.dispatcher.key q.request).Nodup)
    (departs : start.Departs c a.dispatcher q.request journey)
    (free : pending.get? (a.dispatcher.key q.request) = none)
    (work : net.WorksOn (.job (.transport c.id) ⟨c.id, .execute (.request q.request)⟩) net') :
    ∃ pending',
      start.Underway c a asked (count + 1) net' (⟨q, journey⟩ ::ₘ others) answered pending' := by
  obtain ⟨now, hrun⟩ := work.exists_run (h.site ▸ poised.worker) h.account
  have haccepted : net.attempt c.id q.request.message = .ok () := by
    rw [attempt_eq (h.site ▸ poised.attends), h.site, departs.result]
  obtain ⟨hsite, haccount, hchores⟩ :=
    hrun _ _ (Dispatcher.execute_of_free now haccepted free) (by simp)
  have hposted : net.site.posted ([Act.send q.request.message].flatMap
      (net.site.wiring.directory.caused c.id)) = journey.take 1 := by
    rw [h.site, List.flatMap_singleton, Directory.caused_send poised.attends.member?,
      departs.starts.posted]
  refine ⟨pending.insert (a.dispatcher.key q.request) ⟨q.request.ticket, now + q.request.timeout⟩,
    h.advances keys hsite (fun id ne => ?_) ?_ (hposted ▸ hchores)
      (.travels departs.starts.travels (Table.get?_insert_self _ _ _) rfl)
      fun key ne => Table.get?_insert_of_ne _ _ ne⟩
  · rw [dispatcher?, haccount, Function.update_of_ne ne, dispatcher?]
  · rw [haccount, Function.update_self]
    rfl

/-- A chore on the way leads to the next. -/
theorem moves {q : Query} {chore next : Chore} {rest : List Chore} {others : Multiset Errand}
    (h : start.Underway c a asked count net (⟨q, chore :: next :: rest⟩ ::ₘ others) answered pending)
    (keys : (asked.map fun q => a.dispatcher.key q.request).Nodup)
    (leads : start.Leads c.id chore next)
    (travels : start.Travels c.id (a.dispatcher.echo q.request) (next :: rest)) {w : Waiting}
    (awaited : pending.get? (a.dispatcher.key q.request) = some w)
    (ticket : w.ticket = q.request.ticket)
    (work : net.WorksOn chore net') :
    start.Underway c a asked (count + 1) net' (⟨q, next :: rest⟩ ::ₘ others) answered pending := by
  obtain ⟨hsite, hdispatchers, haccount, hchores⟩ := leads.of_worksOn work h.site h.others
  exact h.advances keys hsite (fun id _ => hdispatchers id) (haccount.trans h.account) hchores
    (.travels travels awaited ticket) fun _ _ => rfl

/-- The reply resolves the request. -/
theorem resolves {q : Query} {others : Multiset Errand}
    (h : start.Underway c a asked count net
      (⟨q, [.job (.transport c.id) ⟨c.id, .dispatch (a.dispatcher.echo q.request)⟩]⟩ ::ₘ others)
      answered pending)
    (poised : start.Poised k l c a)
    (keys : (asked.map fun q => a.dispatcher.key q.request).Nodup)
    (invokeId : q.request.payload.head? = some q.request.invokeId) {w : Waiting}
    (awaited : pending.get? (a.dispatcher.key q.request) = some w)
    (ticket : w.ticket = q.request.ticket)
    (work : net.WorksOn
      (.job (.transport c.id) ⟨c.id, .dispatch (a.dispatcher.echo q.request)⟩) net') :
    start.Underway c a asked (count + 1) net' others (answered ++ [q])
      (pending.erase (a.dispatcher.key q.request)) := by
  obtain ⟨now, hrun⟩ := work.exists_run (h.site ▸ poised.worker) h.account
  have hdispatch := Dispatcher.dispatch_echo (d := { a.dispatcher with pending }) poised.correlate
    invokeId awaited
  obtain ⟨hsite, haccount, hchores⟩ := hrun _ _ hdispatch (by simp)
  refine ⟨?_, hsite.trans h.site, fun id ne => ?_, ?_, ?_, fun e he => ?_, fun key w' hw' => ?_, ?_⟩
  · rw [h.accounted, Multiset.map_cons, ← Multiset.coe_add, Multiset.cons_add, ← Multiset.singleton_add,
      Multiset.coe_singleton]
    ac_rfl
  · rw [dispatcher?, haccount, Function.update_of_ne ne]
    exact h.others id ne
  · rw [haccount, Function.update_self, List.map_append, ← List.append_assoc, List.map_singleton,
      Query.answer, ← ticket]
    rfl
  · have hnothing : net.site.posted ([Act.resolve w.ticket (.replied
        (a.dispatcher.echo q.request))].flatMap (net.site.wiring.directory.caused c.id)) = [] := rfl
    refine add_right_cancel (hchores.trans ?_)
    refine (congrArg (fun new : List Chore => net.chores + ↑new) hnothing).trans ?_
    rw [Multiset.coe_nil, add_zero, h.chores_of_cons]
  · exact (h.due e (Multiset.mem_cons_of_mem he)).of_get?_eq
      (Table.get?_erase_of_ne _ (h.key_ne keys e he))
  · have hkey : key ≠ a.dispatcher.key q.request := by
      rintro rfl
      rw [Table.get?_erase_self] at hw'
      cases hw'
    rw [Table.get?_erase_of_ne _ hkey] at hw'
    exact h.exists_of_awaited hw' hkey
  · have hbounded := h.bounded_of_cons
    rwa [List.length_nil, zero_add] at hbounded

/-- Work keeps every request on its journey. -/
theorem works (h : start.Underway c a asked count net errands answered pending)
    (poised : start.Poised k l c a) (keys : (asked.map fun q => a.dispatcher.key q.request).Nodup)
    (invokeId : ∀ q ∈ asked, q.request.payload.head? = some q.request.invokeId) {chore : Chore}
    (work : net.WorksOn chore net') : ∃ errands answered pending,
      start.Underway c a asked (count + 1) net' errands answered pending := by
  obtain ⟨q, rest, others, rfl, hdue⟩ := h.exists_errand poised work.mem_chores
  have hq : q ∈ asked := by
    rw [← Multiset.mem_coe, h.accounted, Multiset.map_cons, Multiset.cons_add]
    exact Multiset.mem_cons_self _ _
  cases hdue with
  | waits departs free =>
    obtain ⟨pending', hnext⟩ := h.executes poised keys departs free work
    exact ⟨_, _, _, hnext⟩
  | travels travels awaited ticket =>
    cases travels with
    | home staffed => exact ⟨_, _, _, h.resolves poised keys (invokeId q hq) awaited ticket work⟩
    | on staffed leads journey => exact ⟨_, _, _, h.moves keys leads journey awaited ticket work⟩

end Underway

namespace Session

theorem continues {asker : NodeId} (session : Session start asker asked count net)
    (work : Relation.ReflTransGen Works net net') :
    ∃ count', Session start asker asked count' net' := by
  induction work with
  | refl => exact ⟨count, session⟩
  | tail _ work ih =>
    obtain ⟨count', h⟩ := ih
    exact ⟨count' + 1, h.works work⟩

/-- Workers that take turns in time carry a conversation on. -/
theorem turns {asker : NodeId} {ws : List Worker} (session : Session start asker asked count net)
    (turns : net.turns? ws = some net') : ∃ count', Session start asker asked count' net' := by
  induction ws generalizing net count with
  | nil =>
    obtain rfl : net = net' := Option.some.inj turns
    exact ⟨count, session⟩
  | cons w rest ih =>
    simp only [turns?, Option.ite_none_right_eq_some] at turns
    obtain ⟨inTime, turns⟩ := turns
    cases hw : net.work? w with
    | none =>
      rw [hw] at turns
      exact ih session turns
    | some next =>
      rw [hw] at turns
      obtain ⟨count', h⟩ := session.continues (reflTransGen_works_of_work? hw inTime)
      exact ih h turns

end Session

end Network

end Fieldbus
