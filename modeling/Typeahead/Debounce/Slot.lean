import Typeahead.Clock

/-!
# One action at a time

An action is held back for a while. Until then the next one takes its place, and it can be called
off.

- **Slots** (`Slot`): the action that waits, if one does, and when it is due.
- **Scheduling and cancelling** (`schedule`, `cancel`): what waited is dropped. A dropped action
  counts as active until `reap`, when tasks get to run.
- **Firing** (`fire?`): hands the action out and leaves the slot empty; from there on nothing
  interrupts it.
-/

namespace Typeahead

/-- An action and the time at which it is due. -/
structure Waiting (α : Type) where
  due : Nat
  action : α
  deriving Repr, DecidableEq

/-- Room for one action that waits. -/
structure Slot (α : Type) where
  waiting : Option (Waiting α) := none
  /-- How many dropped actions still count. -/
  dropped : Nat := 0
  deriving Repr, DecidableEq

namespace Slot

variable {α : Type} (s : Slot α)

/-- The number of actions that wait. -/
def load : Nat := if s.waiting.isSome then 1 else 0

/-- The number of actions that wait or were dropped lately. -/
def active : Nat := s.load + s.dropped

/-- Drops the action that waits. -/
def cancel : Slot α := ⟨none, s.active⟩

/-- Lets an action wait for some time from `clock` on, in place of the one that waits. -/
def schedule (clock delay : Nat) (action : α) : Slot α :=
  { s.cancel with waiting := some ⟨Clock.after clock delay, action⟩ }

/-- Forgets the dropped actions. -/
def reap : Slot α := { s with dropped := 0 }

/-- The action that waits, and the slot without it. -/
def fire? : Option (α × Slot α) := s.waiting.map fun w => (w.action, { s with waiting := none })

/-- When the action that waits is due. -/
def due? : Option Nat := s.waiting.map (·.due)

theorem active_cancel : s.cancel.active = s.active := Nat.zero_add _

theorem active_schedule (clock delay : Nat) (action : α) :
    (s.schedule clock delay action).active = s.active + 1 := Nat.add_comm 1 _

end Slot

end Typeahead
