import Typeahead.Proofs.Grammar.Nullable

/-!
# What rules derive

A derivation takes any alternative it likes at each reference, whichever would match first
(`Derives`). The marks of the rounds say what derives the empty text, and nothing else does.

- **No mark is missing**: what derives the empty text is nullable (`Derives.isNullable`), as the
  marks are closed.
- **No mark is idle** (`Justified`): a rule is marked on account of rules that were marked before,
  so every mark stands for a derivation that ends, after any number of rounds
  (`justified_markRounds`).

Both together are `derives_nil_iff`.
-/

namespace Typeahead.Grammar

/-- Items derive a text: a literal derives itself, a reference what any alternative of its rule
derives, and items in a row their texts in a row. -/
inductive Derives (g : Grammar) : List (Item g.RuleId) → List Char → Prop where
  | nil : Derives g [] []
  | literal {items : List (Item g.RuleId)} {rest : List Char} (text : List Char) :
      Derives g items rest → Derives g (.literal text :: items) (text ++ rest)
  | reference {r : g.RuleId} {alternative items : List (Item g.RuleId)} {text rest : List Char} :
      alternative ∈ (g.rule r).alternatives → Derives g alternative text → Derives g items rest →
      Derives g (.reference r :: items) (text ++ rest)

variable {g : Grammar} {marks : Vector Bool g.size} {items : List (Item g.RuleId)}

/-- What derives the empty text is nullable. -/
theorem Derives.isNullable {text : List Char} (h : g.Derives items text) (ht : text = []) :
    ∀ item ∈ items, item.isNullable g.nullable = true := by
  induction h with
  | nil => simp
  | literal text _ ih =>
    obtain ⟨rfl, hrest⟩ := List.append_eq_nil_iff.1 ht
    exact List.forall_mem_cons.2 ⟨rfl, ih hrest⟩
  | reference hmem _ _ ih ihrest =>
    obtain ⟨htext, hrest⟩ := List.append_eq_nil_iff.1 ht
    refine List.forall_mem_cons.2 ⟨g.marked_of_isNullable ?_, ihrest hrest⟩
    exact List.any_eq_true.2 ⟨_, hmem, List.all_eq_true.2 (ih htext)⟩

/-- Each marked rule has an alternative that derives the empty text. -/
def Justified (g : Grammar) (marks : Vector Bool g.size) : Prop :=
  ∀ r : g.RuleId, marks.get r = true →
    ∃ alternative ∈ (g.rule r).alternatives, g.Derives alternative []

/-- What justified marks make nullable derives the empty text. -/
theorem Justified.derives (h : g.Justified marks)
    (hi : ∀ item ∈ items, item.isNullable marks = true) : g.Derives items [] := by
  induction items with
  | nil => exact .nil
  | cons item items ih =>
    obtain ⟨hitem, hitems⟩ := List.forall_mem_cons.1 hi
    cases item with
    | literal text =>
      obtain rfl : text = [] := List.isEmpty_iff.1 hitem
      exact .literal [] (ih hitems)
    | reference r =>
      obtain ⟨alternative, hmem, hd⟩ := h r hitem
      exact .reference hmem hd (ih hitems)

theorem Justified.mark (h : g.Justified marks) (r : g.RuleId) : g.Justified (g.mark r marks) := by
  unfold Grammar.mark
  split
  · rename_i hn
    obtain ⟨alternative, hmem, hall⟩ := List.any_eq_true.1 (Bool.and_eq_true_iff.1 hn).2
    intro x hx
    rw [get_set] at hx
    split at hx
    · rename_i heq
      subst heq
      exact ⟨alternative, hmem, h.derives (List.all_eq_true.1 hall)⟩
    · exact h x hx
  · exact h

theorem Justified.foldr (h : g.Justified marks) (rules : List g.RuleId) :
    g.Justified (rules.foldr g.mark marks) := by
  induction rules with
  | nil => exact h
  | cons r rules ih => exact ih.mark r

theorem justified_markRounds (h : g.Justified marks) (rounds : Nat) :
    g.Justified (g.markRounds marks rounds) := by
  induction rounds generalizing marks with
  | zero => exact h
  | succ rounds ih =>
    simp only [markRounds]
    split
    · exact h
    · rw [markRound_eq]
      exact ih ((h.foldr _).foldr _)

/-- Items derive the empty text when the marks make each of them nullable, and only then. -/
theorem derives_nil_iff :
    g.Derives items [] ↔ ∀ item ∈ items, item.isNullable g.nullable = true := by
  have hstart : g.Justified (Vector.replicate g.size false) := by simp [Justified, Vector.get]
  exact ⟨fun h => h.isNullable rfl, (justified_markRounds hstart g.size).derives⟩

end Typeahead.Grammar
