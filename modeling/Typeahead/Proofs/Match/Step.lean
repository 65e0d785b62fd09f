import Typeahead.Proofs.Match.Naive

/-!
# The steps of a machine

Every step of a running machine is one of seven (`Machine.Step`, `step_of_running`). An invariant of
the machine is one case for each, and what every step keeps, every run keeps (`run_induction`).

- **Ends** (`Control.Ends`): the innermost rule has come to an outcome, by its last item or by its
  last alternative. The outcome goes to the caller, wrapped (`handed`), or halts the machine.
- **Halting** (`halted_run`): a machine whose steps can be counted up to a limit halts.
-/

namespace Typeahead

open Grammar

variable {g : Grammar}

/-- What a match of rule `r` that starts at `s` is for the rule that refers to it. -/
def Grammar.handed (g : Grammar) (r : g.RuleId) (s : Spot) (m : Match) : Match :=
  ⟨m.stop, g.emit r s m⟩

theorem Frame.complete_eq (f : Frame g) : f.complete = g.handed f.rule f.start f.result := by
  unfold Frame.complete handed emit
  cases h : (g.rule f.rule).emission <;> simp [h, Frame.result]

/-- The innermost rule has come to an outcome. -/
inductive Control.Ends : Control g → Frame g → Option Match → Prop where
  /-- All its items have matched. -/
  | matched {f : Frame g} : f.items = [] → Ends (.items f) f (some f.result)
  /-- None of its alternatives has. -/
  | failed {f : Frame g} : f.untried = [] → Ends (.alternative f) f none

/-- Whether the outermost rule has ended. -/
def Control.Halted (c : Control g) : Prop := ∃ o, c = .halted o

namespace Machine

variable {m : Machine g}

/-- What one step can do. -/
inductive Step (m : Machine g) : Machine g → Prop where
  /-- The next alternative is taken. -/
  | begin {f : Frame g} {items : List (Item g.RuleId)} {untried : List (List (Item g.RuleId))} :
      m.control = .alternative f → f.untried = items :: untried →
      Step m { m with control := .items (f.begin items untried) }
  /-- A literal matches. -/
  | literal {f : Frame g} {text : List Char} {items : List (Item g.RuleId)} :
      m.control = .items f → f.items = .literal text :: items → text <+: f.spot.rest →
      Step m { m with control := .items { f with items, spot := f.spot.past text } }
  /-- A literal fails. -/
  | mismatch {f : Frame g} {text : List Char} {items : List (Item g.RuleId)} :
      m.control = .items f → f.items = .literal text :: items → ¬ text <+: f.spot.rest →
      Step m { m with control := .alternative f, farthest := m.farthest.note f.spot text }
  /-- The outcome of a rule that is referred to is remembered. -/
  | remembered {f : Frame g} {r : g.RuleId} {items : List (Item g.RuleId)} {o : Option Match} :
      m.control = .items f → f.items = .reference r :: items →
      m.memory[(r, f.spot.offset)]? = some o →
      Step m { m with control := ({ f with items } : Frame g).resume o }
  /-- A rule that is referred to is entered. -/
  | enter {f : Frame g} {r : g.RuleId} {items : List (Item g.RuleId)} :
      m.control = .items f → f.items = .reference r :: items →
      m.memory[(r, f.spot.offset)]? = none →
      Step m
        { m with
          control := .alternative (.enter r f.spot)
          callers := { f with items } :: m.callers }
  /-- A rule ends and hands its outcome to the rule that referred to it. -/
  | deliver {f caller : Frame g} {o : Option Match} {callers : List (Frame g)} :
      m.control.Ends f o → m.callers = caller :: callers →
      Step m
        { m with
          control := caller.resume (o.map (g.handed f.rule f.start))
          callers
          memory :=
            m.memory.insert (f.rule, f.start.offset) (o.map (g.handed f.rule f.start)) }
  /-- The outermost rule ends. -/
  | halt {f : Frame g} {o : Option Match} :
      m.control.Ends f o → m.callers = [] → Step m { m with control := .halted o }

/-- The end of a rule is the end of the machine or a step of its caller. -/
theorem step_finish {f : Frame g} {matched : Bool}
    (h : m.control.Ends f (if matched then some f.result else none)) :
    Step m (m.finish f matched) := by
  have hcomplete : (if matched then some f.complete else none) =
      (if matched then some f.result else none).map (g.handed f.rule f.start) := by
    cases matched <;> simp [Frame.complete_eq]
  unfold finish
  split
  · rename_i hc
    exact .halt h hc
  · rename_i caller callers hc
    rw [hcomplete]
    exact .deliver h hc

theorem step_of_running (h : ¬ m.control.Halted) : Step m m.step := by
  cases hc : m.control with
  | halted o => exact absurd ⟨o, hc⟩ h
  | alternative f =>
    cases hu : f.untried with
    | nil =>
      simp only [step, hc, hu]
      exact step_finish (hc ▸ .failed hu)
    | cons items untried =>
      simp only [step, hc, hu]
      exact .begin hc hu
  | items f =>
    match hi : f.items with
    | [] =>
      simp only [step, hc, hi]
      exact step_finish (hc ▸ .matched hi)
    | .literal text :: items =>
      simp only [step, hc, hi]
      cases ha : f.spot.after? text with
      | some spot =>
        obtain ⟨hp, rfl⟩ := Spot.eq_past ha
        exact .literal hc hi hp
      | none => exact .mismatch hc hi (Spot.after?_eq_none.1 ha)
    | .reference r :: items =>
      simp only [step, hc, hi, refer]
      cases hm : m.memory[(r, f.spot.offset)]? with
      | some o => exact .remembered hc hi hm
      | none => exact .enter hc hi hm

/-- A machine that has halted stays as it is. -/
theorem run_of_halted (h : m.control.Halted) (n : Nat) : m.run n = m := by
  obtain ⟨o, hc⟩ := h
  cases n with
  | zero => rfl
  | succ n => simp [run, hc]

theorem step_of_halted (h : m.control.Halted) : m.step = m := by
  obtain ⟨o, hc⟩ := h
  simp [step, hc]

theorem run_of_running (h : ¬ m.control.Halted) (n : Nat) : m.run (n + 1) = m.step.run n := by
  cases hc : m.control with
  | halted o => exact absurd ⟨o, hc⟩ h
  | items f => simp [run, hc]
  | alternative f => simp [run, hc]

/-- One more step at the end of a run. -/
theorem run_succ (m : Machine g) (n : Nat) : m.run (n + 1) = (m.run n).step := by
  by_cases hm : m.control.Halted
  · rw [run_of_halted hm, run_of_halted hm, step_of_halted hm]
  · rw [run_of_running hm]
    induction n generalizing m with
    | zero => rfl
    | succ n ih =>
      rw [run_of_running hm]
      by_cases hs : m.step.control.Halted
      · rw [run_of_halted hs, run_of_halted hs, step_of_halted hs]
      · rw [run_of_running hs, ih m.step hs]

/-- What holds at first and is kept by every step holds after every run. -/
theorem run_induction {P : Machine g → Prop} (hstep : ∀ m m', Step m m' → P m → P m') (h : P m)
    (n : Nat) : P (m.run n) := by
  induction n generalizing m with
  | zero => exact h
  | succ n ih =>
    by_cases hm : m.control.Halted
    · rw [run_of_halted hm]
      exact h
    · rw [run_of_running hm]
      exact ih (hstep _ _ (step_of_running hm) h)

/-- A machine halts within `limit` steps when it can only run on after fewer. -/
theorem halted_run {P : Nat → Machine g → Prop} {limit : Nat}
    (hstep : ∀ n m m', Step m m' → P n m → P (n + 1) m')
    (hlimit : ∀ n m, P n m → ¬ m.control.Halted → n < limit) (h : P 0 m) :
    (m.run limit).control.Halted := by
  have main : ∀ rest n (m : Machine g), P n m → n + rest = limit →
      (m.run rest).control.Halted := by
    intro rest
    induction rest with
    | zero =>
      intro n m h hn
      refine Classical.byContradiction fun hm => ?_
      have := hlimit n m h hm
      omega
    | succ rest ih =>
      intro n m h hn
      by_cases hm : m.control.Halted
      · rw [run_of_halted hm]
        exact hm
      · rw [run_of_running hm]
        exact ih (n + 1) m.step (hstep _ _ _ (step_of_running hm) h) (by omega)
  exact main limit 0 m h (Nat.zero_add _)

end Machine

end Typeahead
