import Mathlib.Data.List.TakeWhile
import Typeahead.Text.Lowercase

/-!
# Lower case and what follows

The lower-case form of a text need not begin the lower-case form of a longer one. A capital sigma
that ends a word does so no longer once a letter follows.

- **In place** (`lowerBetween`): the lower-case form of a part of a text, told what stands before and
  behind it. It is as long as that of the part alone (`length_lowerBetween`), and it begins what
  remains when the rest is put into lower case (`lowerAfter_append`).
- **Parted words** (`Parted`): the part ends in the middle of a word behind a sigma. This alone
  changes the lower-case form of the part (`lowerBetween_eq_iff`, `lowercase_prefix_iff`).
-/

namespace Typeahead.Text

variable {before cs rest : List Char} {c : Char}

/-- The lower-case form of the characters that follow `before` (nearest first), when `rest` follows
on them. -/
def lowerBetween (before : List Char) : (cs rest : List Char) → List Char
  | [], _ => []
  | c :: after, rest => lowerIn before c (after ++ rest) ++ lowerBetween (c :: before) after rest

theorem lowerAfter_append (before cs rest : List Char) : lowerAfter before (cs ++ rest) =
    lowerBetween before cs rest ++ lowerAfter (cs.reverse ++ before) rest := by
  induction cs generalizing before with
  | nil => rfl
  | cons c after ih =>
    rw [List.cons_append, lowerAfter, ih, lowerBetween]
    simp

/-- How many characters there are in lower case does not depend on what is around. -/
theorem length_lowerIn (before before' : List Char) (c : Char) (after after' : List Char) :
    (lowerIn before c after).length = (lowerIn before' c after').length := by
  unfold lowerIn
  split
  · rfl
  · split <;> rfl

theorem length_lowerBetween (before cs rest : List Char) :
    (lowerBetween before cs rest).length = (lowerAfter before cs).length := by
  induction cs generalizing before with
  | nil => rfl
  | cons c after ih =>
    rw [lowerBetween, lowerAfter, List.length_append, List.length_append, ih,
      length_lowerIn before before c (after ++ rest) after]

/-! ## What comes next -/

/-- Characters that do not count for where a word ends. -/
def Ignorable (cs : List Char) : Prop := ∀ c ∈ cs, caseIgnorable.contains c = true

theorem casedNext_append_of_ignorable (h : Ignorable cs) (rest : List Char) :
    casedNext (cs ++ rest) = casedNext rest := by
  rw [casedNext, List.dropWhile_append_of_pos h, casedNext]

theorem casedNext_of_ignorable (h : Ignorable cs) : casedNext cs = false := by
  simpa [casedNext] using casedNext_append_of_ignorable h []

/-- A character that counts settles what comes next. -/
theorem casedNext_append_of_not_ignorable (h : ¬ Ignorable cs) (rest : List Char) :
    casedNext (cs ++ rest) = casedNext cs := by
  have hne : cs.dropWhile caseIgnorable.contains ≠ [] := mt List.dropWhile_eq_nil_iff.1 h
  obtain ⟨c, after, hc⟩ := List.exists_cons_of_ne_nil hne
  simp [casedNext, List.dropWhile_append, hc]

/-- What follows counts for a sigma only when it makes a word go on that would have ended. -/
theorem isFinalSigma_append_iff : isFinalSigma before (cs ++ rest) = isFinalSigma before cs ↔
    ¬ (Ignorable cs ∧ casedNext before = true ∧ casedNext rest = true) := by
  unfold isFinalSigma
  by_cases h : Ignorable cs
  · rw [casedNext_append_of_ignorable h, casedNext_of_ignorable h]
    cases casedNext before <;> cases casedNext rest <;> simp [h]
  · rw [casedNext_append_of_not_ignorable h]
    simp [h]

theorem lowerIn_append_iff : lowerIn before c (cs ++ rest) = lowerIn before c cs ↔
    ¬ (c = 'Σ' ∧ Ignorable cs ∧ casedNext before = true ∧ casedNext rest = true) := by
  unfold lowerIn
  by_cases h : c = 'Σ'
  · rw [if_pos h, if_pos h, and_iff_right h, ← isFinalSigma_append_iff]
    cases isFinalSigma before (cs ++ rest) <;> cases isFinalSigma before cs <;> decide
  · simp [h]

/-! ## Parted words -/

/-- After `before` (nearest first), `cs` ends in the middle of a word, and the last letter that it
has of the word is a capital sigma. -/
def Parted (before cs rest : List Char) : Prop :=
  ∃ start marks, cs = start ++ 'Σ' :: marks ∧ Ignorable marks ∧
    casedNext (start.reverse ++ before) = true ∧ casedNext rest = true

theorem not_parted_of_not_mem (h : 'Σ' ∉ cs) : ¬ Parted before cs rest := by
  rintro ⟨start, marks, rfl, -⟩
  simp at h

/-- A word is parted at the first character or behind it. -/
theorem parted_cons_iff : Parted before (c :: cs) rest ↔
    (c = 'Σ' ∧ Ignorable cs ∧ casedNext before = true ∧ casedNext rest = true) ∨
      Parted (c :: before) cs rest := by
  constructor
  · rintro ⟨start, marks, h, hmarks, hbefore, hrest⟩
    cases start with
    | nil =>
      obtain ⟨rfl, rfl⟩ := List.cons_eq_cons.1 h
      exact .inl ⟨rfl, hmarks, hbefore, hrest⟩
    | cons d start =>
      obtain ⟨rfl, rfl⟩ := List.cons_eq_cons.1 h
      exact .inr ⟨start, marks, rfl, hmarks, by simpa using hbefore, hrest⟩
  · rintro (⟨rfl, hmarks, hbefore, hrest⟩ | ⟨start, marks, rfl, hmarks, hbefore, hrest⟩)
    · exact ⟨[], cs, rfl, hmarks, hbefore, hrest⟩
    · exact ⟨c :: start, marks, rfl, hmarks, by simpa using hbefore, hrest⟩

/-- The lower-case form of a part is that of the part alone unless a word is parted. -/
theorem lowerBetween_eq_iff :
    lowerBetween before cs rest = lowerAfter before cs ↔ ¬ Parted before cs rest := by
  induction cs generalizing before with
  | nil => simp [lowerBetween, lowerAfter, not_parted_of_not_mem]
  | cons c cs ih =>
    rw [lowerBetween, lowerAfter, parted_cons_iff, not_or, ← ih, ← lowerIn_append_iff]
    constructor
    · exact fun h => List.append_inj h (length_lowerIn before before c (cs ++ rest) cs)
    · rintro ⟨hc, hcs⟩
      rw [hc, hcs]

/-- The lower-case form of a text begins that of a longer one unless a word is parted. -/
theorem lowercase_prefix_iff :
    lowercase cs <+: lowercase (cs ++ rest) ↔ ¬ Parted [] cs rest := by
  rw [← lowerBetween_eq_iff, lowercase, lowercase, lowerAfter_append]
  constructor
  · intro h
    have hlen := length_lowerBetween [] cs rest
    have := List.prefix_of_prefix_length_le h (List.prefix_append _ _) (Nat.le_of_eq hlen.symm)
    exact (this.eq_of_length hlen.symm).symm
  · intro h
    rw [h]
    exact List.prefix_append _ _

end Typeahead.Text
