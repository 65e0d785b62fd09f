/-!
# What a parser reports

A parser reports a text as a branch: a labelled span with branches below it, and the faults that it
recovered from. Nothing is promised about spans and their order; `Tree.ofReading` puts them right.

- **Labels** (`Label`): kind, span and flags of a node, the same before and after.
- **Branches** (`Branch`) and their size (`Branch.count`), which no reordering of children changes
  (`countAll_perm`).
-/

namespace Typeahead

/-- A fault in a text and the byte offset that it was noticed at. -/
structure Fault where
  message : String
  position : Nat
  deriving Repr, DecidableEq

/-- The words that report a fault. -/
def Fault.describe (f : Fault) : String := f.message ++ " (at " ++ toString f.position ++ ")"

/-- Kind, span and flags of a node; `start` and `stop` are byte offsets. -/
structure Label where
  kind : String
  start : Nat
  stop : Nat
  /-- The node stands for a rule that emits none of its own. -/
  splice : Bool := false
  /-- The node stands for a rule that emits nothing. -/
  silent : Bool := false
  deriving Repr, DecidableEq

/-- A reported node with the nodes below it. -/
inductive Branch where
  | mk (label : Label) (children : List Branch)
  deriving Repr

namespace Branch

/-- The kind, span and flags of the topmost node. -/
def label : Branch → Label
  | mk label _ => label

/-- The branches below the topmost node. -/
def children : Branch → List Branch
  | mk _ children => children

mutual

/-- The number of nodes. -/
def count : Branch → Nat
  | mk _ children => countAll children + 1

/-- The number of nodes of several branches. -/
def countAll : List Branch → Nat
  | [] => 0
  | b :: bs => b.count + countAll bs

end

theorem countAll_perm {as bs : List Branch} (h : as.Perm bs) : countAll as = countAll bs := by
  induction h with
  | nil => rfl
  | cons b _ ih => simp only [countAll, ih]
  | swap a b l => simp only [countAll]; omega
  | trans _ _ ih₁ ih₂ => rw [ih₁, ih₂]

end Branch

/-- All that a parser reports about one text. -/
structure Reading where
  root : Branch
  faults : List Fault
  deriving Repr

end Typeahead
