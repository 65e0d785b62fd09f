import Typeahead.Proofs.Shortlist.Order
import Typeahead.Proofs.Text.Lowercase

/-!
# What has been typed out

A candidate may begin with the typed text letter by letter. In lower case it then begins with the
lower-case form of the typed text unless that ends in the middle of a word behind a capital sigma
(`begins_append_iff`): what has been typed then has a final sigma, and the candidate has none there.

- **Before the rest** (`Ahead`): in a ranking, what contains the typed text stands before what does
  not (`rank_ahead_iff`).
- **Typed out** (`rank_typed`): so does what begins with it letter by letter, unless a word is parted
  and the candidate contains the lower-case form of the typed text nowhere else.
-/

namespace Typeahead

variable {query c d rest : String}

theorem begins_append_iff :
    Begins query (query ++ rest) ↔ ¬ Text.Parted [] query.toList rest.toList := by
  rw [Begins, String.toList_append]
  exact Text.lowercase_prefix_iff

/-- Wherever `c` and `d` stand among the candidates, `c` stands before `d`. -/
def Ahead (candidates : List String) (c d : String) : Prop :=
  ∀ i j : Nat, candidates[i]? = some c → candidates[j]? = some d → i < j

/-- In every ranking a candidate stands before one that does not contain the typed text, just when
it contains the typed text itself. -/
theorem rank_ahead_iff (hd : ¬ Contains query d) :
    (∀ candidates, Ahead (rank candidates query) c d) ↔ Contains query c := by
  constructor
  · intro h
    by_contra hc
    -- Two candidates that do not contain it keep their order, and here `d` was first.
    have hrank : rank [d, c] query = [d, c] := by
      simp [rank_eq, fit_eq_unrelated_iff.2 hd, fit_eq_unrelated_iff.2 hc]
    have := h [d, c] 1 0 (by rw [hrank]; rfl) (by rw [hrank]; rfl)
    omega
  · intro hc candidates i j hi hj
    by_contra hle
    rcases Nat.lt_or_eq_of_le (Nat.le_of_not_lt hle) with hlt | rfl
    · obtain ⟨hj', rfl⟩ := List.getElem?_eq_some_iff.1 hj
      obtain ⟨hi', rfl⟩ := List.getElem?_eq_some_iff.1 hi
      have hpair := List.pairwise_iff_getElem.1 (inOrder_rank candidates query) j i hj' hi' hlt
      exact hd (hpair.2 hc)
    · obtain rfl : c = d := Option.some.inj (hi.symm.trans hj)
      exact hd hc

/-- **Typed out.** A candidate that begins letter by letter with what has been typed counts as
beginning with it just when the typed text does not part a word of the candidate behind a capital
sigma. It stands before every candidate that does not contain the typed text, in every ranking, just
when this holds or it contains the typed text all the same. -/
theorem rank_typed (query rest d : String) (hd : ¬ Contains query d) :
    (Begins query (query ++ rest) ↔ ¬ Text.Parted [] query.toList rest.toList) ∧
    ((∀ candidates, Ahead (rank candidates query) (query ++ rest) d) ↔
      (Text.Parted [] query.toList rest.toList → Contains query (query ++ rest))) := by
  refine ⟨begins_append_iff, (rank_ahead_iff hd).trans ⟨fun h _ => h, fun h => ?_⟩⟩
  by_cases hp : Text.Parted [] query.toList rest.toList
  · exact h hp
  · exact (begins_append_iff.2 hp).contains

theorem not_contains_x : ¬ Contains "ΑΣ" "x" := by
  rw [Contains, ← Text.occursIn_iff]
  decide +kernel

/-- The word that ends with the typed sigma may end there in the candidate too. -/
theorem rank_typed_word : ¬ Contains "ΑΣ" "x" ∧
    ∀ candidates, Ahead (rank candidates "ΑΣ") "ΑΣ Α" "x" := by
  have hparted : ¬ Text.Parted [] "ΑΣ".toList " Α".toList := by
    rintro ⟨_, _, -, -, -, hrest⟩
    exact absurd hrest (by decide +kernel)
  exact ⟨not_contains_x, (rank_typed "ΑΣ" " Α" "x" not_contains_x).2.2 (absurd · hparted)⟩

/-- A candidate in which the word goes on comes behind. -/
theorem rank_typed_behind : ¬ ∀ candidates query c d, query ≠ "" → query.toList <+: c.toList →
    ¬ Contains query d → Ahead (rank candidates query) c d := by
  intro h
  have hrank : rank ["x", "ΑΣΑ"] "ΑΣ" = ["x", "ΑΣΑ"] := by decide +kernel
  have hahead := h ["x", "ΑΣΑ"] "ΑΣ" "ΑΣΑ" "x" (by decide) (by decide) not_contains_x
  rw [hrank] at hahead
  exact absurd (hahead 1 0 rfl rfl) (by decide)

end Typeahead
