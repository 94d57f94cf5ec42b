import Fieldbus.Station.Send

/-!
# Discovery

A station answers the query for a router with the segments its neighbors are on or have
learned a router for, and the query for a segment's number with its own. Answers go to every
node of the medium. Main statement: without a segment asked for, the announced segments are
listed once each and never include the station's own (`mem_announced_none`).
-/

namespace Fieldbus

namespace Member

/-- The segments a neighbor leads to: its own, then those it has learned a router for. -/
def leadsTo (n : Member) : List Segment :=
  n.station.segment :: n.station.routers.segments

end Member

namespace Directory

/-- The segments a station announces to a query, in the order of its slots. -/
def announced (d : Directory) (s : Station) (query : RouterQuery) : List Segment :=
  match query.segment with
  | some wanted =>
    if (d.neighbors s).any fun n => n.leadsTo.contains wanted then [wanted] else []
  | none =>
    (((d.neighbors s).flatMap Member.leadsTo).filter fun segment => segment != s.segment).eraseDups

/-- Sends an announcement to every node of the station's medium. -/
def announce (d : Directory) (m : Member) (message : Address → Message) : Run :=
  match m.station.broadcastAddress with
  | .error overlong => .brokenOff overlong
  | .ok everyone => d.send m (message everyone)

/-- Answers a query for a router; there is no answer if nothing matches. -/
def answerRouterQuery (d : Directory) (m : Member) (e : Envelope) : Run :=
  match RouterQuery.reader.run e.payload with
  | .error cause _ => .refused (.codec (.codec cause))
  | .ok query _ =>
    match d.announced m.station query with
    | [] => {}
    | segments => d.announce m fun everyone => .routerAnnouncement everyone segments

/-- Answers a query for the number of the segment if the number is known and the query did
not cross a router. -/
def answerSegmentQuery (d : Directory) (m : Member) (e : Envelope) : Run :=
  if m.station.segment = Segment.here || !e.sender.isHere then {}
  else d.announce m fun everyone => .segmentAnnouncement everyone m.station.segment

/-- The announcement of every segment lists what the neighbors lead to, the own segment
excepted. -/
theorem mem_announced_none {d : Directory} {s : Station} {w : Segment} :
    w ∈ d.announced s ⟨none⟩ ↔ w ≠ s.segment ∧ ∃ n ∈ d.neighbors s, w ∈ n.leadsTo := by
  simp only [announced, List.mem_eraseDups, List.mem_filter, List.mem_flatMap, bne_iff_ne, ne_eq]
  exact and_comm

/-- A single segment is announced if some neighbor leads to it. -/
theorem announced_some {d : Directory} {s : Station} {w : Segment} :
    d.announced s ⟨some w⟩ = if ∃ n ∈ d.neighbors s, w ∈ n.leadsTo then [w] else [] := by
  simp [announced]

end Directory

end Fieldbus
