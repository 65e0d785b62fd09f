import Mathlib
import Typeahead.Grammar.Token

/-!
# Places in a grammar text

A place is two numbers that a lexer counts on from one character to the next. Here they get their
meaning from the text as a whole.

- **Counting** (`placeBehind`): the line of what stands behind a text is told by the line feeds in it,
  and the column by the characters since the last of them. `Place.next` adds a character to it
  (`foldl_next_eq`).
- **Characters** (`Place.Shows`): a place is that of one character at most (`Place.Shows.unique`).
- **Lexers** (`Lexer.place_of_run_init`): a lexer stands at the place behind what it has read.
-/

namespace Typeahead.Grammar

variable {text before before' after after' more : List Char} {c c' : Char} {p : Place}

/-- The place of what stands behind `before`. -/
def placeBehind (before : List Char) : Place :=
  ⟨before.count '\n' + 1, (before.reverse.takeWhile (· ≠ '\n')).length + 1⟩

theorem placeBehind_append_singleton (before : List Char) (c : Char) :
    placeBehind (before ++ [c]) = (placeBehind before).next c := by
  by_cases hc : c = '\n'
  · simp [placeBehind, Place.next, hc]
  · simp [placeBehind, Place.next, hc]

theorem foldl_next_eq (before : List Char) :
    before.foldl Place.next .first = placeBehind before := by
  induction before using List.reverseRecOn with
  | nil => rfl
  | append_singleton before c ih =>
    rw [List.foldl_append, ih, placeBehind_append_singleton]
    rfl

theorem forall_ne_lineFeed (h : '\n' ∉ more) : ∀ c ∈ more, decide (c ≠ '\n') = true := by
  intro c hc
  apply decide_eq_true
  rintro rfl
  exact h hc

theorem line_placeBehind_append (before more : List Char) :
    (placeBehind (before ++ more)).line = (placeBehind before).line + more.count '\n' := by
  simp only [placeBehind, List.count_append]
  omega

/-- Within a line, columns count characters. -/
theorem column_placeBehind_append (before : List Char) (hmore : '\n' ∉ more) :
    (placeBehind (before ++ more)).column = (placeBehind before).column + more.length := by
  have hline : ∀ c ∈ more.reverse, decide (c ≠ '\n') = true :=
    forall_ne_lineFeed (by simpa using hmore)
  simp only [placeBehind, List.reverse_append, List.takeWhile_append_of_pos hline,
    List.length_append, List.length_reverse]
  omega

/-- A text grows with every character, and so does the place behind it. -/
theorem eq_nil_of_placeBehind_append (h : placeBehind (before ++ more) = placeBehind before) :
    more = [] := by
  have hline := line_placeBehind_append before more
  rw [h] at hline
  have hmore : '\n' ∉ more := by
    apply List.count_eq_zero.1
    omega
  have hcolumn := column_placeBehind_append before hmore
  rw [h] at hcolumn
  apply List.eq_nil_of_length_eq_zero
  omega

namespace Place

/-- In `text`, the place `p` is that of the `c` between `before` and `after`. -/
structure Shows (p : Place) (text before : List Char) (c : Char) (after : List Char) : Prop where
  text_eq : text = before ++ c :: after
  place_eq : p = placeBehind before

/-- A place is that of one character at most. -/
theorem Shows.unique (h : p.Shows text before c after) (h' : p.Shows text before' c' after') :
    before = before' ∧ c = c' ∧ after = after' := by
  have htext : before ++ c :: after = before' ++ c' :: after' := h.text_eq.symm.trans h'.text_eq
  have hplace : placeBehind before = placeBehind before' := h.place_eq.symm.trans h'.place_eq
  have hbefore : before = before' := by
    rcases List.append_eq_append_iff.1 htext with ⟨more, rfl, -⟩ | ⟨more, rfl, -⟩
    · rw [eq_nil_of_placeBehind_append hplace.symm, List.append_nil]
    · rw [eq_nil_of_placeBehind_append hplace, List.append_nil]
  subst hbefore
  exact ⟨rfl, List.cons_eq_cons.1 (List.append_cancel_left htext)⟩

end Place

/-! ## Where a lexer stands -/

namespace Lexer

variable {s s' : Lexer}

/-- Where a lexer stands after more characters. -/
def placeAfter (s : Lexer) (cs : List Char) : Place := cs.foldl Place.next s.place

theorem place_of_begin {start : Place} (h : s.begin start c = .ok s') : s'.place = s.place := by
  unfold Lexer.begin at h
  repeat' split at h
  all_goals cases h
  all_goals rfl

theorem place_of_endReference {start : Place} {name : List Char}
    (h : s.endReference start name = .ok s') : s'.place = s.place := by
  simp only [endReference] at h
  split at h
  · cases h
  · cases h
    rfl

/-- Whatever a character does to the mode, it moves the place on. -/
theorem place_of_step (h : s.step c = .ok s') : s'.place = s.place.next c := by
  unfold step at h
  split at h
  · exact place_of_begin h
  · cases h
    split <;> rfl
  · split at h <;> cases h
    rfl
  · split at h <;> cases h
    rfl
  · split at h
    · exact place_of_endReference h
    · split at h <;> cases h
      rfl
  · split at h
    · cases h
      rfl
    · split at h <;> cases h
      rfl

theorem place_of_run {cs : List Char} (h : s.run cs = .ok s') : s'.place = s.placeAfter cs := by
  induction cs generalizing s with
  | nil =>
    cases h
    rfl
  | cons c cs ih =>
    rw [run] at h
    split at h
    · rename_i s₁ hstep
      rw [ih h, placeAfter, place_of_step hstep]
      rfl
    · cases h

/-- A lexer stands behind what it has read. -/
theorem place_of_run_init (h : init.run text = .ok s) : s.place = placeBehind text :=
  (place_of_run h).trans (foldl_next_eq text)

end Lexer

end Typeahead.Grammar
