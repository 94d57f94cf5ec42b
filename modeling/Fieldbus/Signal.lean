/-!
# Signals and polling

A signal wakes a waiting worker; one raised while nobody waits is kept for the next wait, and
a wait uses it up. `Polling.waitUntil` asks a condition again and again until it holds or its
time is over, at least once.
-/

namespace Fieldbus

/-- A wake-up call that is kept until somebody waits for it. -/
structure Signal where
  /-- A wake-up call is kept. -/
  raised : Bool := false
  deriving DecidableEq, Repr

namespace Signal

/-- Raises the signal; a second time changes nothing. -/
def notify (_ : Signal) : Signal := ⟨true⟩

/-- Whether a wait that nobody interrupts finds the signal raised; the wait uses it up. -/
def wait (s : Signal) : Bool × Signal := (s.raised, ⟨false⟩)

/-- A raised signal is found by the next wait, and only by that one. -/
theorem wait_notify (s : Signal) : s.notify.wait = (true, {}) := rfl

/-- Whatever a wait finds, it leaves the signal unraised. -/
theorem raised_wait (s : Signal) : s.wait.2.raised = false := rfl

end Signal

namespace Polling

/-- Milliseconds between two looks at a condition. -/
def interval : Nat := 5

/-- Looks at a condition that counts its calls until it holds or the time left is used up.

Ends with the last result and the number of calls; `calls` are those already made. -/
def poll (condition : Nat → Bool) (calls left : Nat) : Bool × Nat :=
  if condition (calls + 1) then (true, calls + 1)
  else if left = 0 then (false, calls + 1)
  else poll condition (calls + 1) (left - interval)
termination_by left
decreasing_by
  simp only [interval]
  omega

/-- Looks at a condition until it holds or `timeout` milliseconds have passed. -/
def waitUntil (timeout : Nat) (condition : Nat → Bool) : Bool × Nat :=
  poll condition 0 timeout

/-- Without time the condition is looked at exactly once. -/
theorem waitUntil_zero (condition : Nat → Bool) : waitUntil 0 condition = (condition 1, 1) := by
  unfold waitUntil poll
  cases condition 1 <;> rfl

end Polling

end Fieldbus
