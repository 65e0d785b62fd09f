import Typeahead.Recall.Score
import Typeahead.Tally.Window

/-!
# Counting what happens

- **Observations** (`Observation`): the things that are counted, and the durations that are kept.
- **Tallies** (`Tally`): counts since the last reset, and for each operation a window of its latest
  durations.
-/

namespace Typeahead

/-- Something that happened and is counted. -/
inductive Observation where
  /-- A tree was wanted, and was at hand or not. -/
  | recalled (found : Bool)
  /-- A parsed text has faults. -/
  | faulty
  /-- The suggestion source was asked. -/
  | asked
  /-- An answer was taken. -/
  | applied
  /-- An answer came too late and was dropped. -/
  | discarded
  /-- The source failed. -/
  | failed
  /-- A candidate was put into the text. -/
  | selected
  /-- An operation took so many microseconds. -/
  | took (operation : String) (micros : UInt64)
  deriving Repr, DecidableEq

/-- Counts and durations. -/
structure Tally where
  recalled : Score := {}
  faulty : Nat := 0
  asked : Nat := 0
  applied : Nat := 0
  discarded : Nat := 0
  failed : Nat := 0
  selected : Nat := 0
  /-- The latest durations of each operation that was observed. -/
  windows : List (String × Window) := []

namespace Tally

/-- The window of an operation; an operation that was not observed has the empty one. -/
def window (t : Tally) (operation : String) : Window :=
  (t.windows.lookup operation).getD .empty

/-- The window of `operation` in a list with `micros` added to it. -/
def addTo (operation : String) (micros : UInt64) : List (String × Window) → List (String × Window)
  | [] => [(operation, Window.empty.add micros)]
  | (name, w) :: rest =>
    if name = operation then (name, w.add micros) :: rest
    else (name, w) :: addTo operation micros rest

theorem lookup_addTo (operation other : String) (micros : UInt64) (ws : List (String × Window)) :
    ((addTo operation micros ws).lookup other).getD .empty =
      if other = operation then ((ws.lookup other).getD .empty).add micros
      else (ws.lookup other).getD .empty := by
  induction ws with
  | nil =>
    by_cases h : other = operation
    · simp [addTo, h]
    · simp [addTo, List.lookup_cons, h, beq_eq_false_iff_ne.2 h]
  | cons w ws ih =>
    obtain ⟨name, w⟩ := w
    by_cases h : name = operation
    · by_cases h' : other = operation
      · simp [addTo, h, h']
      · simp [addTo, List.lookup_cons, h, h', beq_eq_false_iff_ne.2 h']
    · by_cases h' : other = name
      · have : other ≠ operation := h' ▸ h
        simp [addTo, h, h']
      · have hb : (other == name) = false := beq_eq_false_iff_ne.2 h'
        simp only [addTo, if_neg h, List.lookup_cons, hb]
        exact ih

/-- The tally after one more observation. -/
def add (t : Tally) : Observation → Tally
  | .recalled found => { t with recalled := t.recalled.add found }
  | .faulty => { t with faulty := t.faulty + 1 }
  | .asked => { t with asked := t.asked + 1 }
  | .applied => { t with applied := t.applied + 1 }
  | .discarded => { t with discarded := t.discarded + 1 }
  | .failed => { t with failed := t.failed + 1 }
  | .selected => { t with selected := t.selected + 1 }
  | .took operation micros => { t with windows := addTo operation micros t.windows }

/-- The tally after more observations. -/
def addAll (t : Tally) (observed : List Observation) : Tally := observed.foldl add t

/-- What is known about the durations of an operation, once it was observed. -/
def durations (t : Tally) (operation : String) : Except Overflow (Option Durations) :=
  (t.window operation).durations

theorem window_took (t : Tally) (operation other : String) (micros : UInt64) :
    (t.add (.took operation micros)).window other =
      if other = operation then (t.window other).add micros else t.window other :=
  lookup_addTo operation other micros t.windows

end Tally

end Typeahead
