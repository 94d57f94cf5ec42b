import Fieldbus.Proofs.Frames
import Fieldbus.Proofs.Routes

/-!
# Ranks of frames and envelopes

Everything that waits to be processed has a rank, and processing it leaves only things of lower
rank behind: a global broadcast is passed on with fewer hops, a frame for one segment loses its
destination there, a frame without a destination goes no further, and of the envelopes that
arrive only queries are answered, with messages that nobody answers. Main statements: what a
frame causes is below the rank of the frame (`below_receive`), and what answers a query is below
the rank of the query (`below_answerRouterQuery`, `below_answerSegmentQuery`).
-/

namespace Fieldbus

/-- Nodes answer a message of the kind by themselves. -/
def MessageKind.isQuery : MessageKind → Bool
  | whoIsRouterToNetwork => true
  | whatIsNetworkNumber => true
  | _ => false

/-- The rank of an envelope that waits at a transport. -/
def Envelope.rank (e : Envelope) : Nat :=
  if e.message.any MessageKind.isQuery then 2 else 0

/-- The rank of a frame with a given header. -/
def Header.rank (h : Header) : Nat :=
  match h.destination with
  | none => if h.message.any MessageKind.isQuery then 3 else 1
  | some d => if d.segment = Segment.everywhere then 5 + d.hopCount.toNat else 4

/-- The rank of a frame that waits on a link; nothing comes of one that cannot be read. -/
def frameRank (frame : Bytes) : Nat :=
  match decode frame with
  | .ok (h, _) => h.rank
  | .error _ => 0

/-- The rank of what waits to be sent, above that of every frame. -/
def sendRank : Nat := 261

/-- What an event leaves to be processed. -/
def Event.ranks : Event → List Nat
  | .arrived _ e => [e.rank]
  | .transmitted _ t => [frameRank t.frame]
  | _ => []

/-- Events leave nothing behind but what is of lower rank. -/
def Below (rank : Nat) (events : List Event) : Prop :=
  ∀ event ∈ events, ∀ r ∈ event.ranks, r < rank

theorem Envelope.rank_le (e : Envelope) : e.rank ≤ 2 := by
  unfold rank
  split <;> omega

theorem Header.rank_lt (h : Header) : h.rank < sendRank := by
  unfold rank sendRank
  split
  · split <;> omega
  · rename_i d _
    have hd := d.hopCount.toNat_lt
    split <;> omega

theorem frameRank_lt (frame : Bytes) : frameRank frame < sendRank := by
  unfold frameRank
  split
  · exact Header.rank_lt _
  · exact Nat.succ_pos _

/-- An envelope taken from a frame has a lower rank than the frame. -/
theorem Envelope.rank_lt_rank_header {e : Envelope} {h : Header} (hm : e.message = h.message) :
    e.rank < h.rank := by
  cases hd : h.destination with
  | none =>
    simp only [rank, Header.rank, hd, hm]
    cases h.message.any MessageKind.isQuery <;> decide
  | some d =>
    refine Nat.lt_of_le_of_lt e.rank_le ?_
    simp only [Header.rank, hd]
    split <;> omega

/-- The highest rank that a frame with a given destination has. -/
def rankCeiling : Option Destination → Nat
  | none => 3
  | some d => if d.segment = Segment.everywhere then 5 + d.hopCount.toNat else 4

theorem Header.rank_le_rankCeiling (h : Header) : h.rank ≤ rankCeiling h.destination := by
  unfold rank rankCeiling
  split
  · split <;> omega
  · exact Nat.le_refl _

/-- The rank of a written frame is bounded by its destination. -/
theorem frameRank_bytes_append_le {h : Header} (fits : h.Fits) (payload : Bytes) :
    frameRank (h.bytes ++ payload) ≤ rankCeiling h.destination := by
  unfold frameRank
  split
  · rename_i h' payload' hd
    refine Nat.le_trans h'.rank_le_rankCeiling (Nat.le_of_eq ?_)
    rw [destination_of_decode fits hd, Header.asRead]
    cases h.destination <;> rfl
  · exact Nat.zero_le _

namespace Below

variable {rank rank' : Nat} {events events' : List Event}

theorem nil : Below rank [] := by
  intro event h
  cases h

theorem cons {event : Event} (h : ∀ r ∈ event.ranks, r < rank) (hs : Below rank events) :
    Below rank (event :: events) := by
  intro event' he
  rcases List.mem_cons.mp he with rfl | he
  · exact h
  · exact hs event' he

/-- An event that leaves nothing to be processed. -/
theorem cons_of_ranks_eq_nil {event : Event} (h : event.ranks = []) (hs : Below rank events) :
    Below rank (event :: events) :=
  hs.cons (by simp [h])

theorem append (h : Below rank events) (h' : Below rank events') :
    Below rank (events ++ events') := by
  intro event he
  exact (List.mem_append.mp he).elim (h event) (h' event)

theorem flatMap {α : Type} {xs : List α} {f : α → List Event} (h : ∀ x ∈ xs, Below rank (f x)) :
    Below rank (xs.flatMap f) := by
  intro event he
  obtain ⟨x, hx, he⟩ := List.mem_flatMap.mp he
  exact h x hx event he

theorem mono (h : Below rank events) (hle : rank ≤ rank') : Below rank' events :=
  fun event he r hr => Nat.lt_of_lt_of_le (h event he r hr) hle

/-- Nothing that can wait has the rank of what waits to be sent. -/
theorem sendRank (events : List Event) : Below sendRank events := by
  intro event _ r hr
  cases event with
  | arrived id e =>
    rw [List.mem_singleton.mp hr]
    have := e.rank_le
    unfold Fieldbus.sendRank
    omega
  | transmitted id t =>
    rw [List.mem_singleton.mp hr]
    exact frameRank_lt _
  | _ => cases hr

end Below

namespace Member

/-- A station that puts an envelope onto its segment leaves at most one frame behind. -/
theorem below_putEnvelope {m : Member} {recipient : Address} {e : Envelope} {broadcast : Bool}
    {rank : Nat}
    (h : rankCeiling ((m.station.landing e).header).destination < rank) :
    Below rank (m.putEnvelope recipient e broadcast) := by
  have ht : frameRank (m.station.landing e).frame < rank :=
    Nat.lt_of_le_of_lt (frameRank_bytes_append_le (Envelope.header_fits _) _) h
  unfold putEnvelope
  split
  · rename_i event he
    unfold emit at he
    split at he
    · cases he
      refine Below.nil.cons fun r hr => ?_
      rw [List.mem_singleton.mp hr]
      exact ht
    · cases he
  · exact Below.nil.cons_of_ranks_eq_nil rfl

/-- A station that puts a message onto its segment leaves at most one frame behind. -/
theorem below_put {m : Member} {msg : Message} {header : Header} {router : Option Bytes}
    {rank : Nat} (h : frameRank (header.bytes ++ msg.payload) < rank) :
    Below rank (m.put msg header router).events := by
  unfold put
  split
  · rename_i event he
    unfold emit at he
    split at he
    · cases he
      refine Below.nil.cons fun r hr => ?_
      rw [List.mem_singleton.mp hr]
      exact h
    · cases he
  · exact Below.nil

end Member

/-- An address is on the segment it was made for. -/
theorem Address.segment_of {segment : Segment} {mac : Option Bytes} {a : Address}
    (h : Address.of segment mac = .ok a) : a.segment = segment := by
  cases mac with
  | none =>
    cases h
    rfl
  | some m =>
    simp only [Address.of] at h
    split at h
    · rename_i hg
      cases h
      exact hg.symm
    · split at h
      · cases h
        rfl
      · split at h <;> cases h
        rfl

/-- A station on the segment of the recipient puts an envelope onto it without a destination. -/
theorem Station.recipient_landing {s : Station} {e : Envelope} {a : Address}
    (he : e.recipient = some a) (h : s.segment = a.segment) : (s.landing e).recipient = none := by
  simp [landing, he, Option.filter_some, shares, h]

namespace Directory

variable {d : Directory} {m : Member}

/-- A copy of a global broadcast on its way leaves at most a frame with its hops behind. -/
private theorem below_putEnvelope_everywhere {e : Envelope} (he : e.recipient = some Address.everywhere)
    (broadcast : Bool) :
    Below (6 + e.hopCount.toNat) (m.putEnvelope Address.everywhere e broadcast) := by
  refine Member.below_putEnvelope ?_
  simp only [Envelope.header, Station.landing, he, Option.filter_some]
  split
  · simp only [Option.map_some, rankCeiling, Destination.to, Address.segment_everywhere, ite_true]
    omega
  · simp only [Option.map_none, rankCeiling]
    omega

/-- A flood leaves only frames with fewer hops behind. -/
theorem below_flood {hops : Nat} (hh : hops < 256) (m : Member) {e : Envelope}
    (he : e.recipient = some Address.everywhere) (skip : List Segment) :
    Below (5 + hops) (d.flood hops m e skip) := by
  induction hops generalizing m e skip with
  | zero => exact Below.nil
  | succ hops ih =>
    have hn := e.toNat_hopCount_copyFrom (Nat.lt_of_succ_lt hh) m.station
    have hc : (e.copyFrom m.station hops).recipient = some Address.everywhere := he
    refine Below.flatMap fun n _ => Below.cons_of_ranks_eq_nil rfl ?_
    split
    · exact Below.nil
    · refine ((ih (by omega) n hc _).mono (by omega)).append (Below.cons ?_ ?_)
      · intro r hr
        have := (e.copyFrom m.station hops).rank_le
        rw [List.mem_singleton.mp hr]
        omega
      · have hp := below_putEnvelope_everywhere (m := n) hc true
        rw [hn] at hp
        exact hp.mono (by omega)

/-- A neighbor that is handed an envelope for its own segment leaves a frame without a destination
behind. -/
theorem below_relay_of_segment_eq {recipient : Address} {e : Envelope}
    (he : e.recipient = some recipient) (hs : m.station.segment = recipient.segment)
    (hg : recipient.isGlobal = false) (ingress : Segment) (broadcast : Bool) :
    Below 4 (d.relay m ingress recipient e broadcast) := by
  unfold relay
  split
  · exact Below.nil
  · simp only [hg, Bool.false_eq_true, ite_false, List.nil_append]
    refine Member.below_putEnvelope ?_
    simp only [Envelope.header, Station.recipient_landing he hs, Option.map_none]
    decide

/-- The parts of the envelope that a frame is taken apart into. -/
theorem of_parse {s : Station} {frame origin : Bytes} {e : Envelope}
    (h : d.parse s frame origin = .ok (some e)) :
    ∃ header payload recipient sender, decode frame = .ok (header, payload) ∧
      d.ignores s header = false ∧ recipientOf s header = .ok recipient ∧
      senderOf header origin = .ok sender ∧ e = {
        sender
        recipient
        link := if s.shares sender then none else some origin
        payload
        hopCount := (header.destination.map (·.hopCount)).getD fullHopCount
        expectsReply := header.expectsReply
        priority := header.priority
        message := header.message } := by
  unfold parse at h
  cases hd : decode frame with
  | error cause =>
    rw [hd] at h
    cases h
  | ok read =>
    obtain ⟨header, payload⟩ := read
    rw [hd] at h
    cases hi : d.ignores s header with
    | true =>
      simp only [Except.mapError, bind, Except.bind, hi, ite_true] at h
      cases h
    | false =>
      simp only [Except.mapError, bind, Except.bind, hi, Bool.false_eq_true, ite_false] at h
      cases hr : recipientOf s header with
      | error overlong =>
        rw [hr] at h
        cases h
      | ok recipient =>
        rw [hr] at h
        cases hs : senderOf header origin with
        | error overlong =>
          rw [hs] at h
          cases h
        | ok sender =>
          rw [hs] at h
          cases h
          exact ⟨header, payload, recipient, sender, rfl, hi, hr, hs, rfl⟩

/-- A frame that can be read, that the station takes notice of and whose addresses can be made is
taken apart into an envelope. -/
theorem exists_parse_eq {s : Station} {frame origin payload : Bytes} {header : Header}
    {recipient : Option Address} {sender : Address} (hd : decode frame = .ok (header, payload))
    (hi : d.ignores s header = false) (hr : recipientOf s header = .ok recipient)
    (hs : senderOf header origin = .ok sender) :
    ∃ e, d.parse s frame origin = .ok (some e) ∧ e.sender = sender ∧ e.recipient = recipient ∧
      e.payload = payload := by
  unfold parse
  simp only [hd, Except.mapError, bind, Except.bind, hi, hr, hs]
  exact ⟨_, rfl, rfl, rfl, rfl⟩

/-- A recipient that is not the station's segment is the one the header names. -/
theorem destination_of_recipientOf {s : Station} {header : Header} {a : Address}
    (h : recipientOf s header = .ok (some a)) :
    ∃ dst, header.destination = some dst ∧ dst.address = .ok a := by
  unfold recipientOf at h
  split at h
  · cases h
  · rename_i dst hdst
    split at h
    · cases h
    · cases ha : dst.address with
      | error overlong =>
        rw [ha] at h
        cases h
      | ok a' =>
        rw [ha] at h
        cases h
        exact ⟨dst, hdst, ha⟩

/-- What comes of an envelope is below the rank of the frame it was taken from. -/
theorem below_route (h : d.Routed) (hm : d m.id = some m.station) {header : Header} {e : Envelope}
    (message : e.message = header.message)
    (recipient : recipientOf m.station header = .ok e.recipient)
    (hops : ∀ dst ∈ header.destination, e.hopCount = dst.hopCount) (origin : Bytes) :
    Below header.rank (d.route m e origin) := by
  have harrived : Below header.rank [.arrived m.id e] := by
    refine Below.nil.cons fun r hr => ?_
    rw [List.mem_singleton.mp hr]
    exact Envelope.rank_lt_rank_header message
  unfold route
  split
  · exact Below.nil.cons_of_ranks_eq_nil rfl
  split
  · exact harrived
  · rename_i a ha
    obtain ⟨ha, -⟩ := Option.filter_eq_some_iff.mp ha
    rw [ha] at recipient
    obtain ⟨dst, hdst, haddr⟩ := destination_of_recipientOf recipient
    have hseg := Address.segment_of haddr
    split
    · rename_i hg
      rw [Address.isGlobal_iff] at hg
      subst hg
      have hrank : header.rank = 5 + e.hopCount.toNat := by
        simp only [Header.rank, hdst, ← hseg, Address.segment_everywhere, ite_true, hops dst hdst]
      rw [hrank] at harrived ⊢
      exact (below_flood e.hopCount.toNat_lt m ha _).append harrived
    · rename_i hg
      have hne : dst.segment ≠ Segment.everywhere := by
        rw [← hseg]
        simpa [Address.isGlobal] using hg
      have hrank : header.rank = 4 := by simp only [Header.rank, hdst, hne, ite_false]
      rw [hrank]
      split
      · exact Below.nil.cons_of_ranks_eq_nil rfl
      · rename_i n hn
        have hf : (forwarded m.station e).recipient = some a := ha
        exact Below.cons_of_ranks_eq_nil rfl (below_relay_of_segment_eq hf
          (h.segment_neighborOn? hm hn) (by simpa using hg) _ _)

/-- What comes of a frame is below the rank of the frame. -/
theorem below_receive (h : d.Routed) (hm : d m.id = some m.station) (frame origin : Bytes) :
    Below (frameRank frame) (d.receive m frame origin).events := by
  unfold receive
  split
  · exact Below.nil
  split
  · rename_i e he
    obtain ⟨header, payload, recipient, sender, hd, -, hr, -, rfl⟩ := of_parse he
    have hrank : frameRank frame = header.rank := by simp only [frameRank, hd]
    rw [hrank]
    refine Below.cons_of_ranks_eq_nil rfl (below_route h hm rfl hr ?_ origin)
    intro dst hdst
    rw [Option.mem_def.mp hdst]
    rfl
  · exact (Below.nil.cons_of_ranks_eq_nil rfl).cons_of_ranks_eq_nil rfl
  · exact ((Below.nil.cons_of_ranks_eq_nil rfl).cons_of_ranks_eq_nil rfl).cons_of_ranks_eq_nil rfl
  · exact Below.nil.cons_of_ranks_eq_nil rfl

/-- An announcement goes straight onto the station's segment. -/
theorem announce_eq_put (h : d.Routed) (hm : d m.id = some m.station) {message : Address → Message}
    {everyone : Address} (he : m.station.broadcastAddress = .ok everyone)
    (recipient : (message everyone).recipient = everyone)
    (router : (message everyone).router = none) :
    d.announce m message = m.put (message everyone) (message everyone).header none := by
  have hseg : everyone.segment = m.station.segment := Address.segment_of he
  have hg : everyone.isGlobal = false := by
    simpa [Address.isGlobal, hseg] using h.segment_ne hm
  have hs : m.station.shares everyone = true := by simp [Station.shares, hseg]
  simp only [announce, he, send, recipient, router, hg, hs, Bool.false_eq_true, ite_false, ite_true,
    Option.isSome_none]

/-- What comes of a query is that some message goes straight onto the station's segment. -/
theorem exists_put_of_mem_answer (h : d.Routed) (hm : d m.id = some m.station) {e : Envelope}
    {event : Event} (he : event ∈ (d.answerRouterQuery m e).events ∨
      event ∈ (d.answerSegmentQuery m e).events) :
    ∃ msg : Message, event ∈ (m.put msg msg.header none).events := by
  have hput : ∀ message : Address → Message, (∀ a, (message a).recipient = a) →
      (∀ a, (message a).router = none) → event ∈ (d.announce m message).events →
      ∃ msg : Message, event ∈ (m.put msg msg.header none).events := by
    intro message recipient router he
    cases ha : m.station.broadcastAddress with
    | error overlong =>
      simp only [announce, ha] at he
      cases he
    | ok everyone =>
      rw [announce_eq_put h hm ha (recipient everyone) (router everyone)] at he
      exact ⟨_, he⟩
  rcases he with he | he
  · unfold answerRouterQuery at he
    split at he
    · cases he
    · split at he
      · cases he
      · exact hput _ (fun _ => rfl) (fun _ => rfl) he
  · unfold answerSegmentQuery at he
    split at he
    · cases he
    · exact hput _ (fun _ => rfl) (fun _ => rfl) he

/-- A message that nobody answers, sent to every node of the station's segment, is below the rank
of a query. -/
private theorem below_announce (h : d.Routed) (hm : d m.id = some m.station)
    {message : Address → Message} (recipient : ∀ a, (message a).recipient = a)
    (router : ∀ a, (message a).router = none)
    (answer : ∀ a, ∃ kind, (message a).kind = some kind ∧ kind.Consistent ∧ kind.named = kind ∧
      kind.isQuery = false) :
    Below 2 (d.announce m message).events := by
  cases he : m.station.broadcastAddress with
  | error overlong =>
    simp only [announce, he]
    exact Below.nil
  | ok everyone =>
    obtain ⟨kind, hk, hc, hn, hq⟩ := answer everyone
    rw [announce_eq_put h hm he (recipient everyone) (router everyone)]
    refine Member.below_put ?_
    rw [frameRank, Message.decode_header_of_kind hk hc hn]
    simp [Header.rank, Message.header, Header.onLink, hk, hq]

/-- The answer to a query for a router is below the rank of the query. -/
theorem below_answerRouterQuery (h : d.Routed) (hm : d m.id = some m.station) (e : Envelope) :
    Below 2 (d.answerRouterQuery m e).events := by
  unfold answerRouterQuery
  split
  · exact Below.nil
  · split
    · exact Below.nil
    · exact below_announce h hm (fun _ => rfl) (fun _ => rfl)
        fun _ => ⟨.iAmRouterToNetwork, rfl, trivial, rfl, rfl⟩

/-- The answer to a query for the number of the segment is below the rank of the query. -/
theorem below_answerSegmentQuery (h : d.Routed) (hm : d m.id = some m.station) (e : Envelope) :
    Below 2 (d.answerSegmentQuery m e).events := by
  unfold answerSegmentQuery
  split
  · exact Below.nil
  · exact below_announce h hm (fun _ => rfl) (fun _ => rfl)
      fun _ => ⟨.networkNumberIs, rfl, trivial, rfl, rfl⟩

end Directory

end Fieldbus
