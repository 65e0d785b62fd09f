import Mathlib.Data.Fintype.Card
import Mathlib.Data.List.FinRange
import Typeahead.Grammar.Leftmost

/-!
# Rules that derive the empty text

The marks that the rounds end with are closed: a rule that they make nullable is marked
(`marked_of_isNullable`).

- **Growth** (`marked_subset_mark`): nothing takes a mark back, so a round that changes no mark has
  found none to set (`mark_eq_of_markRound_eq`).
- **Rounds** (`isNullable_markRounds`): a round that changes the marks sets one at least, so there
  are enough rounds for all rules.
-/

namespace Typeahead.Grammar

/-- The rules that are marked. -/
def marked {n : Nat} (marks : Vector Bool n) : Finset (Fin n) := {r | marks.get r = true}

@[simp] theorem mem_marked {n : Nat} {marks : Vector Bool n} {r : Fin n} :
    r ∈ marked marks ↔ marks.get r = true := by
  simp [marked]

/-- Which rules are marked is all there is to marks. -/
theorem marked_injective {n : Nat} {a b : Vector Bool n} (h : marked a = marked b) : a = b := by
  refine Vector.ext fun i hi => ?_
  have hmem : (⟨i, hi⟩ : Fin n) ∈ marked a ↔ (⟨i, hi⟩ : Fin n) ∈ marked b := by rw [h]
  rw [mem_marked, mem_marked] at hmem
  exact Bool.eq_iff_iff.2 hmem

variable (g : Grammar)

theorem marked_subset_mark (r : g.RuleId) (marks : Vector Bool g.size) :
    marked marks ⊆ marked (g.mark r marks) := by
  intro x hx
  unfold mark
  split
  · rw [mem_marked] at hx ⊢
    rw [get_set]
    split
    · rfl
    · exact hx
  · exact hx

theorem marked_subset_foldr (rules : List g.RuleId) (marks : Vector Bool g.size) :
    marked marks ⊆ marked (rules.foldr g.mark marks) := by
  induction rules with
  | nil => exact Finset.Subset.refl _
  | cons r rules ih => exact ih.trans (g.marked_subset_mark r _)

/-- When marking one rule after the other changes nothing, marking any one of them does not. -/
theorem mark_eq_of_foldr_eq (rules : List g.RuleId) {marks : Vector Bool g.size}
    (h : rules.foldr g.mark marks = marks) : ∀ r ∈ rules, g.mark r marks = marks := by
  induction rules with
  | nil => simp
  | cons r rules ih =>
    have hrest : rules.foldr g.mark marks = marks := by
      refine marked_injective (Finset.Subset.antisymm ?_ (g.marked_subset_foldr rules marks))
      have hsub := g.marked_subset_mark r (rules.foldr g.mark marks)
      rw [List.foldr_cons] at h
      rwa [h] at hsub
    intro r' hr'
    rcases List.mem_cons.1 hr' with rfl | hr'
    · rw [List.foldr_cons, hrest] at h
      exact h
    · exact ih hrest r' hr'

theorem markRound_eq (marks : Vector Bool g.size) :
    g.markRound marks =
      (List.finRange g.size).reverse.foldr g.mark ((List.finRange g.size).foldr g.mark marks) := by
  rw [markRound, Fin.foldl_eq_finRange_foldl, Fin.foldr_eq_finRange_foldr,
    List.foldl_eq_foldr_reverse]

theorem marked_subset_markRound (marks : Vector Bool g.size) :
    marked marks ⊆ marked (g.markRound marks) := by
  rw [markRound_eq]
  exact (g.marked_subset_foldr _ _).trans (g.marked_subset_foldr _ _)

theorem mark_eq_of_markRound_eq {marks : Vector Bool g.size} (h : g.markRound marks = marks)
    (r : g.RuleId) : g.mark r marks = marks := by
  refine g.mark_eq_of_foldr_eq (List.finRange g.size) ?_ r (List.mem_finRange r)
  refine marked_injective (Finset.Subset.antisymm ?_ (g.marked_subset_foldr _ marks))
  have hsub := g.marked_subset_foldr (List.finRange g.size).reverse
    ((List.finRange g.size).foldr g.mark marks)
  rwa [← markRound_eq, h] at hsub

/-- A rule whose mark would not change is marked, if it is nullable. -/
theorem marked_of_mark_eq {marks : Vector Bool g.size} {r : g.RuleId}
    (h : g.mark r marks = marks) (hn : (g.rule r).isNullable marks = true) :
    marks.get r = true := by
  by_contra hr
  have hr' : (!marks.get r) = true := by simpa using hr
  unfold mark at h
  rw [hr', hn, Bool.and_self, if_pos rfl] at h
  have hset : (marks.set r.val true r.isLt).get r = true := by rw [get_set, if_pos rfl]
  rw [h] at hset
  exact hr hset

/-- A round that changes the marks sets one. -/
theorem card_marked_lt {marks : Vector Bool g.size} (h : g.markRound marks ≠ marks) :
    (marked marks).card < (marked (g.markRound marks)).card := by
  refine Finset.card_lt_card ⟨g.marked_subset_markRound marks, fun hsub => h ?_⟩
  exact (marked_injective (Finset.Subset.antisymm (g.marked_subset_markRound marks) hsub)).symm

/-- With a round for each rule that is not marked, the rounds reach marks that are closed. -/
theorem isNullable_markRounds (r : g.RuleId) (rounds : Nat) (marks : Vector Bool g.size)
    (h : g.size ≤ (marked marks).card + rounds)
    (hn : (g.rule r).isNullable (g.markRounds marks rounds) = true) :
    r ∈ marked (g.markRounds marks rounds) := by
  induction rounds generalizing marks with
  | zero =>
    -- Every rule is marked.
    have huniv : marked marks = Finset.univ := by
      rw [← Finset.card_eq_iff_eq_univ, Fintype.card_fin]
      exact Nat.le_antisymm ((Finset.card_le_univ _).trans_eq (Fintype.card_fin _)) h
    rw [markRounds, huniv]
    exact Finset.mem_univ r
  | succ rounds ih =>
    rw [markRounds] at hn ⊢
    by_cases hround : g.markRound marks = marks
    · rw [if_pos hround] at hn ⊢
      exact mem_marked.2 (g.marked_of_mark_eq (g.mark_eq_of_markRound_eq hround r) hn)
    · rw [if_neg hround] at hn ⊢
      have := g.card_marked_lt hround
      exact ih _ (by omega) hn

/-- Every rule that the marked rules make nullable is marked. -/
theorem marked_of_isNullable {r : g.RuleId} (h : (g.rule r).isNullable g.nullable = true) :
    g.nullable.get r = true :=
  mem_marked.1 (g.isNullable_markRounds r g.size _ (Nat.le_add_left _ _) h)

end Typeahead.Grammar
