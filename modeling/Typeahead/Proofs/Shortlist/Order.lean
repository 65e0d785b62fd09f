import Mathlib.Data.List.Basic
import Typeahead.Shortlist

/-!
# Ranking is a stable reordering

To rank candidates is to take them apart by class and to put the classes one behind the other
(`rank_eq`).

- **Classes** (`Begins`, `Contains`): what begins with the typed text contains it.
- **No loss** (`rank_perm`): a candidate comes as often as before.
- **Class order** (`InOrder`, `inOrder_rank`): a candidate of a better class stands before one of a
  worse class.
- **Stability** (`filter_rank`): the candidates of one class stand in the order that they had.

Class order and stability determine the ranking (`eq_rank_iff`), so ranking once is enough
(`rank_rank`). A limit cuts it off (`shortlist_reordered`).
-/

namespace Typeahead

variable {query c : String} {candidates ranked : List String}

/-! ## Classes -/

/-- In lower case, the candidate begins with what has been typed. -/
def Begins (query candidate : String) : Prop :=
  Text.lowercase query.toList <+: Text.lowercase candidate.toList

/-- In lower case, what has been typed stands somewhere in the candidate. -/
def Contains (query candidate : String) : Prop :=
  Text.lowercase query.toList <:+: Text.lowercase candidate.toList

theorem Begins.contains (h : Begins query c) : Contains query c := List.IsPrefix.isInfix h

theorem fit_eq_prefixed_iff : fit query c = .prefixed ↔ Begins query c := by
  unfold fit Fit.of Begins
  rw [← List.isPrefixOf_iff_prefix]
  split
  · simp_all
  · split <;> simp_all

theorem fit_eq_unrelated_iff : fit query c = .unrelated ↔ ¬ Contains query c := by
  unfold fit Fit.of
  split
  · rename_i h
    have hb : Begins query c := List.isPrefixOf_iff_prefix.1 h
    simp [hb.contains]
  · unfold Contains
    rw [← Text.occursIn_iff]
    split <;> simp_all

theorem fit_eq_contained_iff : fit query c = .contained ↔ Contains query c ∧ ¬ Begins query c := by
  rw [← fit_eq_prefixed_iff, ← not_not (a := Contains query c), ← fit_eq_unrelated_iff]
  cases fit query c <;> simp

theorem begins_empty (c : String) : Begins "" c := List.nil_prefix

/-! ## The ranking by classes -/

/-- The candidates by class. Nothing typed leaves all in the first. -/
theorem rank_eq (candidates : List String) (query : String) : rank candidates query =
    candidates.filter (fit query · = .prefixed) ++ candidates.filter (fit query · = .contained) ++
      candidates.filter (fit query · = .unrelated) := by
  unfold rank
  split
  · rename_i h
    obtain rfl := String.isEmpty_iff.1 h
    have hall : ∀ c, fit "" c = .prefixed := fun c => fit_eq_prefixed_iff.2 (begins_empty c)
    simp [hall]
  · simp only [ofFit_fits]

/-! ## No loss -/

theorem rank_perm (candidates : List String) (query : String) :
    (rank candidates query).Perm candidates := by
  rw [rank_eq]
  induction candidates with
  | nil => exact .refl _
  | cons c cs ih =>
    cases h : fit query c with
    | prefixed => simpa [h] using ih.cons c
    | contained =>
      refine List.Perm.trans ?_ (ih.cons c)
      simp [h, List.perm_middle]
    | unrelated =>
      refine List.Perm.trans ?_ (ih.cons c)
      simp only [List.filter_cons, h, decide_true, if_true]
      exact List.perm_middle

/-! ## Class order -/

/-- What begins with the typed text comes first, and what does not contain it last. -/
def InOrder (query : String) (candidates : List String) : Prop :=
  candidates.Pairwise fun a b =>
    (Begins query b → Begins query a) ∧ (Contains query b → Contains query a)

theorem inOrder_rank (candidates : List String) (query : String) :
    InOrder query (rank candidates query) := by
  have begins : ∀ a ∈ candidates.filter (fit query · = .prefixed), Begins query a := by
    intro a ha
    exact fit_eq_prefixed_iff.1 (of_decide_eq_true (List.mem_filter.1 ha).2)
  have contains : ∀ a ∈ candidates.filter (fit query · = .contained),
      Contains query a ∧ ¬ Begins query a := by
    intro a ha
    exact fit_eq_contained_iff.1 (of_decide_eq_true (List.mem_filter.1 ha).2)
  have unrelated : ∀ a ∈ candidates.filter (fit query · = .unrelated), ¬ Contains query a := by
    intro a ha
    exact fit_eq_unrelated_iff.1 (of_decide_eq_true (List.mem_filter.1 ha).2)
  rw [rank_eq]
  apply List.pairwise_append.2 ⟨List.pairwise_append.2 ⟨?_, ?_, ?_⟩, ?_, ?_⟩
  · apply List.pairwise_of_forall_mem_list
    intro a ha b _
    exact ⟨fun _ => begins a ha, fun _ => (begins a ha).contains⟩
  · apply List.pairwise_of_forall_mem_list
    intro a ha b hb
    exact ⟨fun h => absurd h (contains b hb).2, fun _ => (contains a ha).1⟩
  · intro a ha b _
    exact ⟨fun _ => begins a ha, fun _ => (begins a ha).contains⟩
  · apply List.pairwise_of_forall_mem_list
    intro a _ b hb
    exact ⟨fun h => absurd h.contains (unrelated b hb), fun h => absurd h (unrelated b hb)⟩
  · intro a _ b hb
    exact ⟨fun h => absurd h.contains (unrelated b hb), fun h => absurd h (unrelated b hb)⟩

/-! ## Stability -/

theorem filter_filter_fit (f g : Fit) :
    (candidates.filter (fit query · = f)).filter (fit query · = g) =
      if f = g then candidates.filter (fit query · = g) else [] := by
  split
  · rename_i h
    rw [h, List.filter_filter]
    simp
  · rename_i h
    rw [List.filter_filter, List.filter_eq_nil_iff]
    intro c _ hc
    simp only [Bool.and_eq_true, decide_eq_true_eq] at hc
    exact h (hc.2.symm.trans hc.1)

/-- The candidates of one class stand in the order that they had. -/
theorem filter_rank (candidates : List String) (query : String) (f : Fit) :
    (rank candidates query).filter (fit query · = f) = candidates.filter (fit query · = f) := by
  rw [rank_eq, List.filter_append, List.filter_append, filter_filter_fit, filter_filter_fit,
    filter_filter_fit]
  cases f <;> simp

/-- A list in class order is one class after the other. -/
theorem InOrder.eq_append (h : InOrder query ranked) : ranked =
    ranked.filter (fit query · = .prefixed) ++ ranked.filter (fit query · = .contained) ++
      ranked.filter (fit query · = .unrelated) := by
  induction ranked with
  | nil => rfl
  | cons c cs ih =>
    obtain ⟨hc, hcs⟩ := List.pairwise_cons.1 h
    -- After `c` comes no class that is better than its own.
    have later : ∀ f, (∀ b ∈ cs, fit query b ≠ f) → cs.filter (fit query · = f) = [] := by
      intro f hf
      simpa using hf
    have no_prefixed : ¬ Begins query c → cs.filter (fit query · = .prefixed) = [] := by
      intro hb
      exact later _ fun b hmem hfit => hb ((hc b hmem).1 (fit_eq_prefixed_iff.1 hfit))
    cases hfit : fit query c with
    | prefixed => simpa [hfit] using ih hcs
    | contained =>
      have hp := no_prefixed (fit_eq_contained_iff.1 hfit).2
      have ih := ih hcs
      rw [hp] at ih
      simpa [hfit, hp] using ih
    | unrelated =>
      have hu : ¬ Contains query c := fit_eq_unrelated_iff.1 hfit
      have hp := no_prefixed fun hb => hu hb.contains
      have hn : cs.filter (fit query · = .contained) = [] := by
        exact later _ fun b hmem hfit => hu ((hc b hmem).2 (fit_eq_contained_iff.1 hfit).1)
      have ih := ih hcs
      rw [hp, hn] at ih
      simpa [hfit, hp, hn] using ih

/-- A stable reordering of candidates by class. -/
structure Reordered (query : String) (candidates ranked : List String) : Prop where
  perm : ranked.Perm candidates
  inOrder : InOrder query ranked
  /-- The candidates of one class stand in the order that they had. -/
  stable : ∀ f, ranked.filter (fit query · = f) = candidates.filter (fit query · = f)

/-- There is one stable reordering, which is the ranking. -/
theorem eq_rank_iff : ranked = rank candidates query ↔ Reordered query candidates ranked := by
  constructor
  · rintro rfl
    exact ⟨rank_perm candidates query, inOrder_rank candidates query, filter_rank candidates query⟩
  · intro h
    rw [rank_eq, ← h.stable, ← h.stable, ← h.stable]
    exact h.inOrder.eq_append

/-- A ranking has nothing left to reorder. -/
theorem rank_rank (candidates : List String) (query : String) :
    rank (rank candidates query) query = rank candidates query :=
  (eq_rank_iff.2 ⟨.refl _, inOrder_rank candidates query, fun _ => rfl⟩).symm

/-- **Ranking.** Whatever the candidates and whatever has been typed: the ranking is the one stable
reordering of the candidates by class. The first class is what begins with the typed text in lower
case, the last is what does not contain it. Nothing typed reorders nothing, a second ranking changes
nothing, and a limit cuts the ranking off. -/
theorem shortlist_reordered (candidates : List String) (query : String) :
    (∀ ranked, ranked = rank candidates query ↔ Reordered query candidates ranked) ∧
    (∀ c, (fit query c = .prefixed ↔ Begins query c) ∧
      (fit query c = .contained ↔ Contains query c ∧ ¬ Begins query c) ∧
      (fit query c = .unrelated ↔ ¬ Contains query c)) ∧
    rank candidates "" = candidates ∧
    rank (rank candidates query) query = rank candidates query ∧
    shortlist none candidates query = rank candidates query ∧
    ∀ n, shortlist (some n) candidates query = (rank candidates query).take n ∧
      (shortlist (some n) candidates query).length = min n candidates.length := by
  refine ⟨fun _ => eq_rank_iff,
    fun _ => ⟨fit_eq_prefixed_iff, fit_eq_contained_iff, fit_eq_unrelated_iff⟩, rfl,
    rank_rank candidates query, rfl, fun n => ⟨rfl, ?_⟩⟩
  rw [shortlist, List.length_take, (rank_perm candidates query).length_eq]

end Typeahead
