import Typeahead.Text.Lowercase
import Typeahead.Text.Occurs

/-!
# The order of candidates

Candidates are compared with what has been typed, both in lower case.

- **Classes** (`Fit`): those that begin with the typed text, those that contain it further on, and
  the rest.
- **Order** (`rank`): by class; within a class as the source had them. Nothing typed leaves all as
  it was.
- **Limit** (`shortlist`): the first so many of them.
-/

namespace Typeahead

/-- How a candidate fits what has been typed. -/
inductive Fit where
  | prefixed
  | contained
  | unrelated
  deriving Repr, DecidableEq

/-- How a candidate fits a query; both are in lower case. -/
def Fit.of (query candidate : List Char) : Fit :=
  if query.isPrefixOf candidate then .prefixed
  else if Text.occursIn query candidate then .contained
  else .unrelated

/-- How `candidate` fits what has been typed. -/
def fit (query candidate : String) : Fit :=
  Fit.of (Text.lowercase query.toList) (Text.lowercase candidate.toList)

/-- The candidates with their classes. What has been typed is put into lower case once. -/
def fits (candidates : List String) (query : String) : List (Fit × String) :=
  let typed := Text.lowercase query.toList
  candidates.map fun c => (Fit.of typed (Text.lowercase c.toList), c)

/-- The candidates of one class, in order. -/
def ofFit (f : Fit) (judged : List (Fit × String)) : List String :=
  (judged.filter (·.1 = f)).map (·.2)

theorem ofFit_fits (f : Fit) (candidates : List String) (query : String) :
    ofFit f (fits candidates query) = candidates.filter (fit query · = f) := by
  induction candidates with
  | nil => rfl
  | cons c cs ih =>
    rw [List.filter_cons, ← ih]
    by_cases h : fit query c = f
    · rw [if_pos (decide_eq_true h)]
      simp only [fit] at h
      simp [ofFit, fits, h]
    · rw [if_neg (by simpa using h)]
      simp only [fit] at h
      simp [ofFit, fits, h]

/-- The candidates by class. -/
def rank (candidates : List String) (query : String) : List String :=
  if query.isEmpty then candidates
  else
    let judged := fits candidates query
    ofFit .prefixed judged ++ ofFit .contained judged ++ ofFit .unrelated judged

/-- The first `limit` of the ranked candidates, or all of them. -/
def shortlist (limit : Option Nat) (candidates : List String) (query : String) : List String :=
  match limit with
  | some n => (rank candidates query).take n
  | none => rank candidates query

end Typeahead
