import Typeahead.Match.Machine

/-!
# Ordered choice without a memory

What a grammar means: a rule matches at a spot by its first alternative all of whose items match in
a row, and nothing is remembered from one rule to the next. A machine that remembers is right when
it comes to the same.

- **Spots** (`Spot.Reaches`): one spot lies at or after another in one text. Two spots of a text
  that have one offset are one spot (`Spot.Reaches.eq_of_offset`).
- **Emission** (`emit`): what a matched rule leaves in the tree.
- **Meaning** (`Yields`; of a rule, `Outcome`): what alternatives or items come to at a spot, and
  the literals that fail on the way. There is at most one such outcome (`Yields.unique`), and a
  match ends at or after the spot where it starts (`Yields.reaches`).
-/

namespace Typeahead

open Grammar

namespace Text

theorem byteCount_append (as bs : List Char) :
    byteCount (as ++ bs) = byteCount as + byteCount bs :=
  total_append _ as bs

/-- Every character takes a byte. -/
theorem length_le_byteCount (cs : List Char) : cs.length ≤ byteCount cs := by
  induction cs with
  | nil => exact Nat.le_refl 0
  | cons c cs ih =>
    have := c.utf8Size_pos
    simp only [byteCount, total_cons, List.length_cons] at ih ⊢
    omega

/-- Only no characters take no bytes. -/
theorem byteCount_eq_zero {cs : List Char} (h : byteCount cs = 0) : cs = [] := by
  have := length_le_byteCount cs
  exact List.eq_nil_of_length_eq_zero (by omega)

end Text

namespace Spot

/-- `t` lies at or after `s` in one text. -/
def Reaches (s t : Spot) : Prop :=
  ∃ passed, s.rest = passed ++ t.rest ∧ t.offset = s.offset + Text.byteCount passed

/-- The spot after `literal`, where the text goes on with it. -/
def past (s : Spot) (literal : List Char) : Spot :=
  ⟨s.offset + Text.byteCount literal, s.rest.drop literal.length⟩

theorem after?_of_begins {s : Spot} {literal : List Char} (h : literal <+: s.rest) :
    s.after? literal = some (s.past literal) := by
  obtain ⟨rest, hrest⟩ := h
  rw [after?_eq_some_iff]
  simp [past, ← hrest]

theorem after?_eq_none {s : Spot} {literal : List Char} :
    s.after? literal = none ↔ ¬ literal <+: s.rest := by
  constructor
  · intro h hp
    rw [after?_of_begins hp] at h
    cases h
  · intro h
    rw [Option.eq_none_iff_forall_ne_some]
    intro t ht
    exact h ⟨t.rest, (after?_eq_some_iff.1 ht).1.symm⟩

/-- A literal that is found ends where it should. -/
theorem eq_past {s t : Spot} {literal : List Char} (h : s.after? literal = some t) :
    literal <+: s.rest ∧ t = s.past literal := by
  by_cases hp : literal <+: s.rest
  · rw [after?_of_begins hp] at h
    exact ⟨hp, (Option.some.inj h).symm⟩
  · rw [after?_eq_none.2 hp] at h
    cases h

theorem Reaches.refl (s : Spot) : s.Reaches s := ⟨[], by simp [Text.byteCount]⟩

theorem Reaches.trans {s t u : Spot} (hst : s.Reaches t) (htu : t.Reaches u) : s.Reaches u := by
  obtain ⟨p, hp, hpo⟩ := hst
  obtain ⟨q, hq, hqo⟩ := htu
  refine ⟨p ++ q, ?_, ?_⟩
  · rw [hp, hq, List.append_assoc]
  · rw [hqo, hpo, Text.byteCount_append, Nat.add_assoc]

theorem Reaches.past {s : Spot} {literal : List Char} (h : literal <+: s.rest) :
    s.Reaches (s.past literal) := by
  obtain ⟨rest, hrest⟩ := h
  exact ⟨literal, by simp [Spot.past, ← hrest], rfl⟩

theorem Reaches.le {s t : Spot} (h : s.Reaches t) : s.offset ≤ t.offset := by
  obtain ⟨_, -, ho⟩ := h
  omega

/-- A spot that is reached without a byte is the same spot. -/
theorem Reaches.eq_of_le {s t : Spot} (h : s.Reaches t) (hle : t.offset ≤ s.offset) : t = s := by
  obtain ⟨p, hp, ho⟩ := h
  have hnil : p = [] := Text.byteCount_eq_zero (by omega)
  subst hnil
  obtain ⟨offset, rest⟩ := s
  obtain ⟨offset', rest'⟩ := t
  simp_all [Text.byteCount]

/-- Of two spots of one text, one lies after the other. -/
theorem Reaches.total {s t u : Spot} (ht : s.Reaches t) (hu : s.Reaches u) :
    t.Reaches u ∨ u.Reaches t := by
  obtain ⟨p, hp, hpo⟩ := ht
  obtain ⟨q, hq, hqo⟩ := hu
  -- The shorter of the two passed parts begins the longer one.
  rcases List.append_eq_append_iff.1 (hp.symm.trans hq) with ⟨r, hr, hrest⟩ | ⟨r, hr, hrest⟩
  · refine .inl ⟨r, hrest, ?_⟩
    rw [hqo, hpo, hr, Text.byteCount_append, Nat.add_assoc]
  · refine .inr ⟨r, hrest, ?_⟩
    rw [hqo, hpo, hr, Text.byteCount_append, Nat.add_assoc]

/-- The offset tells which spot of a text is meant. -/
theorem Reaches.eq_of_offset {s t u : Spot} (ht : s.Reaches t) (hu : s.Reaches u)
    (h : t.offset = u.offset) : t = u := by
  rcases ht.total hu with hr | hr
  · exact (hr.eq_of_le (Nat.le_of_eq h.symm)).symm
  · exact hr.eq_of_le (Nat.le_of_eq h)

end Spot

namespace Grammar

variable {g : Grammar}

/-- What a match of rule `r` that starts at `s` leaves in the tree: a node over what its items left,
nothing, or just what they left. -/
def emit (g : Grammar) (r : g.RuleId) (s : Spot) (m : Match) : List Branch :=
  match (g.rule r).emission with
  | .node => [⟨{ kind := (g.rule r).name, start := s.offset, stop := m.stop.offset }, m.branches⟩]
  | .silent => []
  | .splice => m.branches

/-- What is to be matched at a spot. -/
inductive Task (g : Grammar) where
  /-- The first of these alternatives that matches. -/
  | first (alternatives : List (List (Item g.RuleId)))
  /-- All these items, in a row. -/
  | all (items : List (Item g.RuleId))

/-- A literal and the spot where it failed, of every failure in order. -/
abbrev Failures := List (Spot × List Char)

/-- `Yields g task s outcome failures`: at `s`, `task` comes to `outcome`, with `failures` on the
way. Each rule that is referred to is matched anew, with the same choice among its alternatives, and
an alternative that fails leaves nothing. -/
inductive Yields (g : Grammar) : Task g → Spot → Option Match → Failures → Prop where
  /-- No alternative is left. -/
  | exhausted {s : Spot} : Yields g (.first []) s none []
  /-- The first alternative matches, so no other is tried. -/
  | taken {s : Spot} {items : List (Item g.RuleId)} {others : List (List (Item g.RuleId))}
      {m : Match} {failures : Failures} :
      Yields g (.all items) s (some m) failures →
      Yields g (.first (items :: others)) s (some m) failures
  /-- The first alternative fails, so the others are tried at the same spot. -/
  | passed {s : Spot} {items : List (Item g.RuleId)} {others : List (List (Item g.RuleId))}
      {o : Option Match} {failures after : Failures} :
      Yields g (.all items) s none failures → Yields g (.first others) s o after →
      Yields g (.first (items :: others)) s o (failures ++ after)
  /-- No item is left. -/
  | complete {s : Spot} : Yields g (.all []) s (some ⟨s, []⟩) []
  /-- A literal that the text goes on with. -/
  | literal {s : Spot} {text : List Char} {items : List (Item g.RuleId)} {o : Option Match}
      {failures : Failures} :
      text <+: s.rest → Yields g (.all items) (s.past text) o failures →
      Yields g (.all (.literal text :: items)) s o failures
  /-- A literal that the text does not go on with. -/
  | mismatch {s : Spot} {text : List Char} {items : List (Item g.RuleId)} :
      ¬ text <+: s.rest → Yields g (.all (.literal text :: items)) s none [(s, text)]
  /-- A rule that matches; the other items go on where its match ends. -/
  | reference {s : Spot} {r : g.RuleId} {items : List (Item g.RuleId)} {m : Match}
      {o : Option Match} {failures after : Failures} :
      Yields g (.first (g.rule r).alternatives) s (some m) failures →
      Yields g (.all items) m.stop o after →
      Yields g (.all (.reference r :: items)) s
        (o.map fun rest => ⟨rest.stop, g.emit r s m ++ rest.branches⟩) (failures ++ after)
  /-- A rule that does not match. -/
  | refused {s : Spot} {r : g.RuleId} {items : List (Item g.RuleId)} {failures : Failures} :
      Yields g (.first (g.rule r).alternatives) s none failures →
      Yields g (.all (.reference r :: items)) s none failures

/-- What a rule comes to at a spot, its items' branches not yet wrapped. -/
abbrev Outcome (g : Grammar) (r : g.RuleId) (s : Spot) (o : Option Match)
    (failures : Failures) : Prop :=
  Yields g (.first (g.rule r).alternatives) s o failures

namespace Yields

/-- A task comes to one outcome at most, with one list of failures. -/
theorem unique {task : Task g} {s : Spot} {o o' : Option Match} {failures failures' : Failures}
    (h : Yields g task s o failures) (h' : Yields g task s o' failures') :
    o = o' ∧ failures = failures' := by
  induction h generalizing o' failures' with
  | exhausted =>
    cases h'
    exact ⟨rfl, rfl⟩
  | taken _ ih =>
    cases h' with
    | taken h₁ => exact ih h₁
    | passed h₁ _ => cases (ih h₁).1
  | passed _ _ ih₁ ih₂ =>
    cases h' with
    | taken h₁ => cases (ih₁ h₁).1
    | passed h₁ h₂ =>
      obtain ⟨-, rfl⟩ := ih₁ h₁
      obtain ⟨rfl, rfl⟩ := ih₂ h₂
      exact ⟨rfl, rfl⟩
  | complete =>
    cases h'
    exact ⟨rfl, rfl⟩
  | literal hp _ ih =>
    cases h' with
    | literal _ h₁ => exact ih h₁
    | mismatch hn => exact absurd hp hn
  | mismatch hn =>
    cases h' with
    | literal hp _ => exact absurd hp hn
    | mismatch _ => exact ⟨rfl, rfl⟩
  | reference _ _ ih₁ ih₂ =>
    cases h' with
    | reference h₁ h₂ =>
      obtain ⟨hm, rfl⟩ := ih₁ h₁
      cases hm
      obtain ⟨rfl, rfl⟩ := ih₂ h₂
      exact ⟨rfl, rfl⟩
    | refused h₁ => cases (ih₁ h₁).1
  | refused _ ih =>
    cases h' with
    | reference h₁ _ => cases (ih h₁).1
    | refused h₁ => exact ⟨rfl, (ih h₁).2⟩

/-- A match ends at or after the spot where it starts. -/
theorem reaches {task : Task g} {s : Spot} {o : Option Match} {failures : Failures}
    (h : Yields g task s o failures) : ∀ m, o = some m → s.Reaches m.stop := by
  induction h with
  | exhausted => intro m hm; cases hm
  | taken _ ih => exact ih
  | passed _ _ _ ih => exact ih
  | complete =>
    rintro m ⟨⟩
    exact .refl _
  | literal hp _ ih => exact fun m hm => (Spot.Reaches.past hp).trans (ih m hm)
  | mismatch _ => intro m hm; cases hm
  | reference _ _ ih₁ ih₂ =>
    rintro m hm
    obtain ⟨rest, rfl, rfl⟩ := Option.map_eq_some_iff.1 hm
    exact (ih₁ _ rfl).trans (ih₂ rest rfl)
  | refused _ _ => intro m hm; cases hm

end Yields

end Grammar

end Typeahead
