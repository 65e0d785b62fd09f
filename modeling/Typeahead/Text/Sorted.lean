/-!
# Searching sorted tables

Character properties are tables ordered by code point.

- **Search** (`countUpTo`): how many entries of a table, ordered by a key, have a key at or below a
  number; found by halving.
- **Sets of characters** (`CharSet`): the code points at which membership changes, in order. A
  character is in the set when an odd number of changes lie at or below it.
-/

namespace Typeahead.Text

/-- The number of entries before index `hi` whose key is at most `n`, when those before `lo` are
known to be such and the table is ordered by `key`. -/
def countUpToIn {α : Type} (key : α → Nat) (table : Array α) (n lo hi : Nat) : Nat :=
  if _ : lo < hi then
    match table[(lo + hi) / 2]? with
    | some x =>
      if key x ≤ n then countUpToIn key table n ((lo + hi) / 2 + 1) hi
      else countUpToIn key table n lo ((lo + hi) / 2)
    | none => lo
  else lo
termination_by hi - lo

/-- The number of entries of a table ordered by `key` whose key is at most `n`. -/
def countUpTo {α : Type} (key : α → Nat) (table : Array α) (n : Nat) : Nat :=
  countUpToIn key table n 0 table.size

/-- A set of characters, as the ordered code points at which membership changes. -/
structure CharSet where
  changes : Array Nat

namespace CharSet

/-- Whether the set has `c`. -/
def contains (s : CharSet) (c : Char) : Bool :=
  countUpTo id s.changes c.toNat % 2 == 1

end CharSet

end Typeahead.Text
