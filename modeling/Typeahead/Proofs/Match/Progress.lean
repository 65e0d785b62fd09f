import Typeahead.Proofs.Grammar.LeftRecursion
import Typeahead.Proofs.Match.Refinement

/-!
# No rule is entered within itself at one spot

A rule that waits at the spot where it began has only matched items that derive the empty text, so
its next reference is a leftmost one. A chain of such rules that came back to a rule would be left
recursion.

- **Matches of nothing** (`Yields.isNullable`): only what derives the empty text matches without
  consuming.
- **Frames** (`Frame.Within`): a rule in progress has an alternative of its own, a part of which is
  matched.
- **Stacks** (`Called`, `Control.Orderly`): each rule was entered for the reference that the rule
  below it waits for. Each step keeps this (`Orderly.step`).
- **Freshness** (`Called.not_mem_keys`): a rule that is entered is not in progress at that spot.
-/

namespace Typeahead

open Grammar Relation

variable {g : Grammar}

/-- The marked rules make the task derive the empty text. -/
def Grammar.Task.IsNullable : Task g → Prop
  | .first alternatives => ∃ items ∈ alternatives, ∀ item ∈ items, item.isNullable g.nullable = true
  | .all items => ∀ item ∈ items, item.isNullable g.nullable = true

theorem Grammar.marked_of_task {r : g.RuleId}
    (h : Task.IsNullable (.first (g.rule r).alternatives)) : g.nullable.get r = true := by
  obtain ⟨items, hitems, hall⟩ := h
  refine g.marked_of_isNullable ?_
  unfold Rule.isNullable
  rw [List.any_eq_true]
  exact ⟨items, hitems, List.all_eq_true.2 hall⟩

/-- A match that consumes nothing is of a task that derives the empty text. -/
theorem Grammar.Yields.isNullable {task : Task g} {s : Spot} {o : Option Match}
    {failures : Failures} (h : Yields g task s o failures) :
    ∀ m, o = some m → m.stop.offset ≤ s.offset → task.IsNullable := by
  induction h with
  | exhausted => intro m hm; cases hm
  | taken _ ih => exact fun m hm hle => ⟨_, List.mem_cons_self, ih m hm hle⟩
  | passed _ _ _ ih =>
    intro m hm hle
    obtain ⟨items, hitems, hall⟩ := ih m hm hle
    exact ⟨items, List.mem_cons_of_mem _ hitems, hall⟩
  | complete => exact fun _ _ _ item hitem => absurd hitem List.not_mem_nil
  | @literal s text items o failures hp h ih =>
    intro m hm hle
    have hstop : s.offset + Text.byteCount text ≤ m.stop.offset := (h.reaches m hm).le
    have htext : text = [] := Text.byteCount_eq_zero (by omega)
    have hitems : Task.IsNullable (g := g) (.all items) := by
      refine ih m hm ?_
      change m.stop.offset ≤ s.offset + Text.byteCount text
      omega
    intro item hitem
    rcases List.mem_cons.1 hitem with rfl | hitem
    · rw [htext]
      rfl
    · exact hitems item hitem
  | mismatch _ => intro m hm; cases hm
  | @reference s r items m o failures after h₁ h₂ ih₁ ih₂ =>
    intro m' hm hle
    obtain ⟨rest, rfl, rfl⟩ := Option.map_eq_some_iff.1 hm
    have hfirst : s.offset ≤ m.stop.offset := (h₁.reaches m rfl).le
    have hrest : m.stop.offset ≤ rest.stop.offset := (h₂.reaches rest rfl).le
    have hle' : rest.stop.offset ≤ s.offset := hle
    have hr : g.nullable.get r = true := marked_of_task (ih₁ m rfl (by omega))
    have hitems : Task.IsNullable (g := g) (.all items) := ih₂ rest rfl (by omega)
    intro item hitem
    rcases List.mem_cons.1 hitem with rfl | hitem
    · exact hr
    · exact hitems item hitem
  | refused _ _ => intro m hm; cases hm

/-- The rule has matched a part of one of its alternatives, of which `items` is left. -/
structure Frame.Within (f : Frame g) (items : List (Item g.RuleId)) : Prop where
  untried : f.untried ⊆ (g.rule f.rule).alternatives
  le : f.start.offset ≤ f.spot.offset
  matched : ∃ before, before ++ items ∈ (g.rule f.rule).alternatives ∧
    (f.spot.offset ≤ f.start.offset → ∀ item ∈ before, item.isNullable g.nullable = true)

/-- The rules that wait for rule `r`, which was entered at `s`, nearest first. -/
inductive Called : List (Frame g) → g.RuleId → Spot → Prop where
  | root {r : g.RuleId} {s : Spot} : Called [] r s
  | caller {f : Frame g} {callers : List (Frame g)} {r : g.RuleId} :
      f.Within (.reference r :: f.items) → Called callers f.rule f.start →
      Called (f :: callers) r f.spot

/-- The rule in progress, if one is, was entered for the rules that wait. -/
inductive Control.Orderly : Control g → List (Frame g) → Prop where
  | items {f : Frame g} {callers : List (Frame g)} :
      f.Within f.items → Called callers f.rule f.start → Orderly (.items f) callers
  | alternative {f : Frame g} {callers : List (Frame g)} :
      f.untried ⊆ (g.rule f.rule).alternatives → Called callers f.rule f.start →
      Orderly (.alternative f) callers
  | halted {o : Option Match} {callers : List (Frame g)} : Orderly (.halted o) callers

namespace Frame

variable {f : Frame g}

theorem within_begin {items : List (Item g.RuleId)} {untried : List (List (Item g.RuleId))}
    (h : f.untried ⊆ (g.rule f.rule).alternatives) (hu : f.untried = items :: untried) :
    (f.begin items untried).Within items := by
  rw [hu] at h
  refine ⟨(List.cons_subset.1 h).2, Nat.le_refl _, [], (List.cons_subset.1 h).1, fun _ => ?_⟩
  simp

/-- One more item has matched; when no byte was consumed, it derives the empty text. -/
theorem Within.advance {item : Item g.RuleId} {items : List (Item g.RuleId)} {spot : Spot}
    {parts : List (List Branch)} (h : f.Within (item :: items))
    (hle : f.spot.offset ≤ spot.offset)
    (hitem : spot.offset ≤ f.spot.offset → item.isNullable g.nullable = true) :
    ({ f with items, spot, parts } : Frame g).Within items := by
  obtain ⟨before, hbefore, hall⟩ := h.matched
  have hstart := h.le
  refine ⟨h.untried, Nat.le_trans h.le hle, before ++ [item], ?_, fun hspot => ?_⟩
  · rw [List.append_assoc]
    exact hbefore
  · have hspot' : spot.offset ≤ f.start.offset := hspot
    intro i hi
    rcases List.mem_append.1 hi with hi | hi
    · exact hall (by omega) i hi
    · rw [List.mem_singleton.1 hi]
      exact hitem (by omega)

/-- The next reference of a rule that has consumed nothing is a leftmost one. -/
theorem Within.leadsTo {r : g.RuleId} {items : List (Item g.RuleId)}
    (h : f.Within (.reference r :: items)) (hspot : f.spot.offset ≤ f.start.offset) :
    g.LeadsTo f.rule r := by
  obtain ⟨before, hbefore, hall⟩ := h.matched
  exact ⟨before, items, hbefore, hall hspot⟩

/-- The rule in progress and the offset of the spot where it was entered. -/
def key (f : Frame g) : g.RuleId × Nat := (f.rule, f.start.offset)

end Frame

section Called

variable {callers : List (Frame g)} {r : g.RuleId} {s : Spot}

theorem Called.cons {f : Frame g} (h : Called (f :: callers) r s) :
    s = f.spot ∧ f.Within (.reference r :: f.items) ∧ Called callers f.rule f.start := by
  cases h with
  | caller hf hc => exact ⟨rfl, hf, hc⟩

/-- A rule that waits was entered at or before the spot that it waits at. -/
theorem Called.start_le (h : Called callers r s) : ∀ f ∈ callers, f.start.offset ≤ s.offset := by
  induction h with
  | root => simp
  | caller hf _ ih =>
    intro f' hf'
    rcases List.mem_cons.1 hf' with rfl | hf'
    · exact hf.le
    · exact Nat.le_trans (ih f' hf') hf.le

/-- A rule that was entered at the spot where another is entered now leads to it. -/
theorem Called.transGen (h : Called callers r s) :
    ∀ f ∈ callers, f.start.offset = s.offset → TransGen g.LeadsTo f.rule r := by
  induction h with
  | root => simp
  | @caller f callers r hf hc ih =>
    intro f' hf' heq
    have hle := hf.le
    rcases List.mem_cons.1 hf' with rfl | hf'
    · exact .single (hf.leadsTo heq.ge)
    · have hstart := hc.start_le f' hf'
      exact (ih f' hf' (by omega)).tail (hf.leadsTo (by omega))

/-- Without left recursion, a rule is not entered at a spot where it is in progress. -/
theorem Called.not_mem_keys (h : Called callers r s) (hg : g.leftRecursion? = none) :
    (r, s.offset) ∉ callers.map Frame.key := by
  intro hmem
  obtain ⟨f, hf, hkey⟩ := List.mem_map.1 hmem
  obtain ⟨hr, hs⟩ := Prod.mk.inj hkey
  have hcycle := h.transGen f hf hs
  rw [hr] at hcycle
  exact not_transGen_leadsTo hg r hcycle

/-- A rule that waits goes on with an outcome; when it consumed nothing, its rule is nullable. -/
theorem orderly_resume {f : Frame g} {o : Option Match}
    (hf : f.Within (.reference r :: f.items)) (hc : Called callers f.rule f.start)
    (ho : ∀ m, o = some m → f.spot.offset ≤ m.stop.offset ∧
      (m.stop.offset ≤ f.spot.offset → g.nullable.get r = true)) :
    (f.resume o).Orderly callers := by
  cases o with
  | none => exact .alternative hf.untried hc
  | some m =>
    obtain ⟨hle, hr⟩ := ho m rfl
    obtain ⟨parts, hleave⟩ := f.exists_leave m.branches
    rw [Frame.resume, hleave]
    exact .items (hf.advance hle hr) hc

/-- A rule's outcome, handed to its caller, ends after its start, or the rule is nullable. -/
theorem handed_progress {o : Option Match} {failures : Failures} (h : g.Outcome r s o failures) :
    ∀ m, o.map (g.handed r s) = some m → s.offset ≤ m.stop.offset ∧
      (m.stop.offset ≤ s.offset → g.nullable.get r = true) := by
  intro m hm
  obtain ⟨m', rfl, rfl⟩ := Option.map_eq_some_iff.1 hm
  exact ⟨(h.reaches m' rfl).le, fun hle => marked_of_task (h.isNullable m' rfl hle)⟩

end Called

namespace Machine

variable {m m' : Machine g} {first : Spot} {root : g.RuleId} {failures : Failures}

/-- Each step keeps the order of the stack. -/
theorem orderly_step (hstep : Step m m') (hm : m.Follows first root failures)
    (h : m.control.Orderly m.callers) : m'.control.Orderly m'.callers := by
  cases hstep with
  | begin hc hu =>
    rw [hc] at h
    cases h with
    | alternative hf hcalled => exact .items (Frame.within_begin hf hu) hcalled
  | @literal f text items hc hi hp =>
    rw [hc] at h
    cases h with
    | items hf hcalled =>
      rw [hi] at hf
      refine .items (hf.advance (Nat.le_add_right _ _) fun hle => ?_) hcalled
      have htext : text = [] := by
        refine Text.byteCount_eq_zero ?_
        change f.spot.offset + Text.byteCount text ≤ f.spot.offset at hle
        omega
      rw [htext]
      rfl
  | mismatch hc _ _ =>
    rw [hc] at h
    cases h with
    | items hf hcalled => exact .alternative hf.untried hcalled
  | @remembered f r items o hc hi hmem =>
    have hcontrol := hm.control
    rw [hc] at h hcontrol
    cases hcontrol with
    | items hplaced _ _ =>
      obtain ⟨o', past, ho, rfl, -⟩ :=
        hm.memory.outcome (hplaced.start.trans hplaced.spot) hmem
      cases h with
      | items hf hcalled =>
        rw [hi] at hf
        exact orderly_resume (f := { f with items }) ⟨hf.untried, hf.le, hf.matched⟩ hcalled
          (handed_progress ho)
  | @enter f r items hc hi _ =>
    rw [hc] at h
    cases h with
    | items hf hcalled =>
      rw [hi] at hf
      exact .alternative (List.Subset.refl _)
        (.caller (f := { f with items }) ⟨hf.untried, hf.le, hf.matched⟩ hcalled)
  | @deliver f caller o callers he hcallers =>
    obtain ⟨outer, past, -, -, ho, -⟩ := hm.control.ends he
    have hcalled : Called (caller :: callers) f.rule f.start := by
      rw [hcallers] at h
      generalize m.control = c at he h
      cases he with
      | matched => cases h with | items _ hcalled => exact hcalled
      | failed => cases h with | alternative _ hcalled => exact hcalled
    obtain ⟨hs, hcaller, hcalled'⟩ := hcalled.cons
    refine orderly_resume hcaller hcalled' ?_
    rw [← hs]
    exact handed_progress ho
  | halt _ _ => exact .halted

end Machine

end Typeahead
