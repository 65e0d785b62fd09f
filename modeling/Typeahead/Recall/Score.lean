/-!
# Hits and misses

How often something was found at hand (`Score`), and which part of all attempts that was
(`Score.rate`).
-/

namespace Typeahead

/-- How often something was found, and how often not. -/
structure Score where
  hits : Nat := 0
  misses : Nat := 0
  deriving Repr, DecidableEq

namespace Score

/-- The number of attempts. -/
def total (s : Score) : Nat := s.hits + s.misses

/-- One more attempt. -/
def add (s : Score) (found : Bool) : Score :=
  if found then { s with hits := s.hits + 1 } else { s with misses := s.misses + 1 }

theorem total_add (s : Score) (found : Bool) : (s.add found).total = s.total + 1 := by
  cases found <;> simp only [add, total] <;> simp <;> omega

/-- The part of the attempts that were hits; zero before the first one. -/
def rate (s : Score) : Float :=
  if s.total = 0 then 0 else Float.ofNat s.hits / Float.ofNat s.total

end Score

end Typeahead
