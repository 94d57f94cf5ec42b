import Fieldbus.Station.Event

/-!
# Relaying between neighbors

A neighbor that is handed an envelope puts it onto its own segment. A global broadcast is
also for the neighbor itself, and is passed on to the neighbor's own neighbors with one hop
less, never to the segment it came from. Main statement: a flood hands every neighbor outside
the skipped segments one copy with one hop less, each of which is relayed like any other
envelope (`flood_eq_flatMap_relay`); without hops left nothing is passed on (`flood_zero`).
-/

namespace Fieldbus

namespace Envelope

/-- The copy of a global broadcast that a station passes on with a given number of hops. -/
def copyFrom (e : Envelope) (s : Station) (hops : Nat) : Envelope :=
  { e with sender := s.departing e.sender, link := none, hopCount := hops.toUInt8 }

/-- A copy has the hops it is given. -/
theorem toNat_hopCount_copyFrom {hops : Nat} (h : hops < 256) (e : Envelope) (s : Station) :
    (e.copyFrom s hops).hopCount.toNat = hops := by
  simp only [copyFrom, Nat.toUInt8_eq, UInt8.toNat_ofNat']
  omega

end Envelope

namespace Directory

/-- Passes a global broadcast with `hops` hops left to every neighbor that is not on a segment
of `skip`.

A neighbor passes its copy on before it keeps it and puts it onto its own segment. -/
def flood (d : Directory) : (hops : Nat) → Member → Envelope → (skip : List Segment) → List Event
  | 0, _, _, _ => []
  | hops + 1, m, e, skip =>
    let copy := e.copyFrom m.station hops
    let ahead := (d.neighbors m.station).filter fun n => !skip.contains n.station.segment
    ahead.flatMap fun n =>
      .relayed m.id n.id m.station.segment Address.everywhere copy true ::
        if n.station.terminated then []
        else d.flood hops n copy [m.station.segment, copy.sender.segment]
          ++ .arrived n.id copy :: n.putEnvelope Address.everywhere copy true

/-- What a station does with an envelope its neighbor on segment `ingress` hands it. -/
def relay (d : Directory) (m : Member) (ingress : Segment) (recipient : Address) (e : Envelope)
    (broadcast : Bool) : List Event :=
  if m.station.terminated then []
  else
    (if recipient.isGlobal then
      d.flood e.hopCount.toNat m e [ingress, e.sender.segment] ++ [.arrived m.id e]
    else []) ++ m.putEnvelope recipient e broadcast

/-- Without hops left nothing is passed on. -/
@[simp] theorem flood_zero (d : Directory) (m : Member) (e : Envelope) (skip : List Segment) :
    d.flood 0 m e skip = [] := rfl

/-- A terminated station ignores what it is handed. -/
theorem relay_of_terminated {d : Directory} {m : Member} (h : m.station.terminated = true)
    (ingress : Segment) (recipient : Address) (e : Envelope) (broadcast : Bool) :
    d.relay m ingress recipient e broadcast = [] := by
  simp [relay, h]

/-- Each copy of a flood has one hop less and is relayed like any other envelope. -/
theorem flood_eq_flatMap_relay (d : Directory) {hops : Nat} (h : hops < 256) (m : Member)
    (e : Envelope) (skip : List Segment) :
    d.flood (hops + 1) m e skip =
      ((d.neighbors m.station).filter fun n => !skip.contains n.station.segment).flatMap fun n =>
        .relayed m.id n.id m.station.segment Address.everywhere (e.copyFrom m.station hops) true ::
          d.relay n m.station.segment Address.everywhere (e.copyFrom m.station hops) true := by
  have hn := e.toNat_hopCount_copyFrom h m.station
  have hg : Address.everywhere.isGlobal = true := rfl
  simp only [flood, relay, hn, hg, ite_true, List.append_assoc, List.singleton_append]

end Directory

end Fieldbus
