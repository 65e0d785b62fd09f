import Mathlib.Algebra.BigOperators.Fin
import Mathlib.Algebra.Order.BigOperators.Group.Finset
import Typeahead.Proofs.Match.Progress

/-!
# A machine halts

A rule is entered once at a spot at most, and what it does there is paid for when it is entered. So
the steps of a run are bounded by what all rules cost at all spots of the text, which is the limit
that a run is given.

- **Cost** (`Machine.cost`): the steps that the rules in progress may still take. Each step takes
  one of them; only one that enters a rule adds that rule's cost (`Counted.step`).
- **Entries** (`Machine.entries`): the rules by which the stack has grown on a run, each with the
  offset where it was entered.
- **Counting** (`Machine.Counted`): no entry comes twice, and those no longer in progress are
  remembered. Each step keeps this (`Counted.step`), so it holds after any number of them
  (`counted_entries`).
- **Limits** (`sum_cost_le`, `length_entered_le`): distinct entries at spots of the text cost no
  more than the limit, and there are no more of them than rules at spots.
- **Halting** (`halted_run_start`).
-/

namespace Typeahead

open Grammar

variable {g : Grammar}

/-- The steps left for the untried alternatives of a rule. -/
def Frame.triesCost (f : Frame g) : Nat :=
  total (fun items => items.length + 2) f.untried + 1

/-- The steps left for the items of a rule and its untried alternatives. -/
def Frame.cost (f : Frame g) : Nat := f.items.length + 1 + f.triesCost

/-- The steps left for the rule in progress. -/
def Control.cost : Control g → Nat
  | .items f => f.cost
  | .alternative f => f.triesCost
  | .halted _ => 0

/-- The rule in progress, if one is. -/
def Control.frames : Control g → List (Frame g)
  | .items f => [f]
  | .alternative f => [f]
  | .halted _ => []

namespace Machine

/-- The steps left for all rules in progress. -/
def cost (m : Machine g) : Nat := m.control.cost + total Frame.cost m.callers

/-- The rules in progress, each with the offset where it was entered. -/
def keys (m : Machine g) : List (g.RuleId × Nat) :=
  (m.control.frames ++ m.callers).map Frame.key

/-- The rules that a step enters: those by which the stack grows. -/
def pushed (m m' : Machine g) : List (g.RuleId × Nat) :=
  m'.keys.take (m'.keys.length - m.keys.length)

/-- The rules in progress at first and those that `n` steps enter, the latest first, each with the
offset where it was entered. -/
def entries (m : Machine g) : Nat → List (g.RuleId × Nat)
  | 0 => m.keys
  | n + 1 => pushed (m.run n) (m.run (n + 1)) ++ m.entries n

/-- What holds after `n` steps, when `entered` are the rules that were entered, each with the offset
where it was. -/
structure Counted (m : Machine g) (first : Spot) (root : g.RuleId) (n : Nat)
    (entered : List (g.RuleId × Nat)) : Prop where
  follows : ∃ failures, m.Follows first root failures
  orderly : m.control.Orderly m.callers
  nodup : entered.Nodup
  known : ¬ m.control.Halted → ∀ e ∈ entered, e ∈ m.memory ∨ e ∈ m.keys
  placed : ∀ e ∈ entered, ∃ s, first.Reaches s ∧ s.offset = e.2
  paid : n + m.cost ≤ total (fun e => (g.rule e.1).cost) entered

end Machine

/-- A rule that goes on is the rule that it was, and has no more steps left. -/
theorem resume_cost (f : Frame g) (o : Option Match) :
    (f.resume o).cost ≤ f.cost ∧ (f.resume o).frames.map Frame.key = [f.key] := by
  cases o with
  | none =>
    refine ⟨?_, rfl⟩
    simp only [Frame.resume, Control.cost, Frame.cost]
    omega
  | some m =>
    obtain ⟨parts, hleave⟩ := f.exists_leave m.branches
    rw [Frame.resume, hleave]
    exact ⟨Nat.le_refl _, rfl⟩

theorem Control.Ends.cost_pos {c : Control g} {f : Frame g} {o : Option Match} (h : c.Ends f o) :
    0 < c.cost ∧ c.frames = [f] := by
  cases h with
  | matched _ => exact ⟨by simp [Control.cost, Frame.cost], rfl⟩
  | failed _ => exact ⟨by simp [Control.cost, Frame.triesCost], rfl⟩

namespace Machine

variable {m m' : Machine g} {first : Spot} {root : g.RuleId} {n : Nat}
  {entered : List (g.RuleId × Nat)}

/-- A step that lets the stack grow by one rule enters this rule. -/
theorem pushed_of_cons {e : g.RuleId × Nat} (h : m'.keys = e :: m.keys) : pushed m m' = [e] := by
  simp [pushed, h]

theorem pushed_eq_nil (h : m'.keys <:+ m.keys) : pushed m m' = [] := by
  rw [pushed, Nat.sub_eq_zero_of_le h.length_le, List.take_zero]

theorem counted_start (root : g.RuleId) (first : Spot) :
    (start root first).Counted first root 0 [(root, first.offset)] where
  follows := ⟨[], follows_start root first⟩
  orderly := .alternative (List.Subset.refl _) .root
  nodup := List.nodup_singleton _
  known _ e he := by
    rw [List.mem_singleton.1 he]
    exact .inr List.mem_cons_self
  placed e he := by
    rw [List.mem_singleton.1 he]
    exact ⟨first, .refl _, rfl⟩
  paid := by
    simp [start, cost, Control.cost, Frame.enter, Frame.triesCost, Rule.cost]

/-- A step that enters no rule takes a step off the cost, and may take a rule off the stack. It
loses no rule in progress before its outcome is remembered, unless the machine halts. -/
structure Spends (m m' : Machine g) : Prop where
  cost : m'.cost < m.cost
  memory : ∀ e ∈ m.memory, e ∈ m'.memory
  suffix : m'.keys <:+ m.keys
  keys : ¬ m'.control.Halted → ∀ e ∈ m.keys, e ∈ m'.memory ∨ e ∈ m'.keys

/-- The rule in progress goes on by itself. -/
theorem Spends.of_control {c : Control g} {far : Farthest} (hcost : c.cost < m.control.cost)
    (hkeys : c.frames.map Frame.key = m.control.frames.map Frame.key) :
    Spends m { m with control := c, farthest := far } where
  cost := Nat.add_lt_add_right hcost _
  memory _ he := he
  suffix := by
    unfold Machine.keys
    rw [List.map_append, List.map_append, hkeys]
  keys _ e he := by
    refine .inr ?_
    unfold Machine.keys at he ⊢
    rw [List.map_append] at he ⊢
    rwa [hkeys]

/-- Each step spends, or enters a rule that is neither remembered nor in progress. -/
theorem spends_or_enters (hg : g.leftRecursion? = none) (hstep : Step m m')
    (h : m.control.Orderly m.callers) :
    Spends m m' ∨ ∃ f r, m.control = .items f ∧ (r, f.spot.offset) ∉ m.memory ∧
      (r, f.spot.offset) ∉ m.keys ∧ m'.memory = m.memory ∧
      m'.keys = (r, f.spot.offset) :: m.keys ∧ m'.cost < m.cost + (g.rule r).cost := by
  cases hstep with
  | begin hc hu =>
    refine .inl (.of_control ?_ (by rw [hc]; rfl))
    rw [hc]
    simp only [Control.cost, Frame.cost, Frame.triesCost, hu, Frame.begin, total_cons]
    omega
  | literal hc hi _ =>
    refine .inl (.of_control ?_ (by rw [hc]; rfl))
    rw [hc]
    simp [Control.cost, Frame.cost, Frame.triesCost, hi]
  | mismatch hc hi _ =>
    refine .inl (.of_control ?_ (by rw [hc]; rfl))
    rw [hc]
    simp only [Control.cost, Frame.cost]
    omega
  | @remembered f r items o hc hi _ =>
    obtain ⟨hcost, hkeys⟩ := resume_cost { f with items } o
    refine .inl (.of_control ?_ ?_)
    · rw [hc]
      refine Nat.lt_of_le_of_lt hcost ?_
      simp [Control.cost, Frame.cost, Frame.triesCost, hi]
    · rw [hc, hkeys]
      rfl
  | @enter f r items hc hi hm =>
    refine .inr ⟨f, r, hc, ?_, ?_, rfl, ?_, ?_⟩
    · rw [Std.HashMap.mem_iff_isSome_getElem?, hm]
      exact Bool.false_ne_true
    · rw [hc] at h
      cases h with
      | items hf hcalled =>
        rw [hi] at hf
        have hcalled' : Called ({ f with items } :: m.callers) r f.spot :=
          .caller (f := { f with items }) ⟨hf.untried, hf.le, hf.matched⟩ hcalled
        have hfresh := hcalled'.not_mem_keys hg
        unfold keys
        rw [hc]
        exact hfresh
    · unfold keys
      rw [hc]
      rfl
    · unfold cost
      rw [hc]
      simp only [Control.cost, Frame.cost, Frame.triesCost, Frame.enter, Rule.cost, hi,
        total_cons, List.length_cons]
      omega
  | @deliver f caller o callers he hcallers =>
    obtain ⟨hpos, hframes⟩ := he.cost_pos
    obtain ⟨hcost, hkeys⟩ := resume_cost caller (o.map (g.handed f.rule f.start))
    refine .inl ⟨?_, ?_, ?_, ?_⟩
    · unfold cost
      rw [hcallers, total_cons]
      change (caller.resume (o.map (g.handed f.rule f.start))).cost +
        total Frame.cost callers < _
      omega
    · intro e he
      exact Std.HashMap.mem_insert.2 (.inr he)
    · unfold keys
      rw [hframes, hcallers, List.map_append, hkeys]
      exact List.suffix_cons _ _
    · intro _ e hmem
      unfold keys at hmem ⊢
      rw [hframes, hcallers] at hmem
      rw [List.map_append, hkeys]
      rcases List.mem_cons.1 hmem with rfl | hmem
      · exact .inl (Std.HashMap.mem_insert_self)
      · exact .inr hmem
  | halt he hcallers =>
    obtain ⟨hpos, -⟩ := he.cost_pos
    refine .inl ⟨?_, fun _ he => he, ?_, fun hm => absurd ⟨_, rfl⟩ hm⟩
    · unfold cost
      rw [hcallers]
      exact Nat.add_lt_add_right hpos _
    · unfold keys
      rw [hcallers]
      exact List.nil_suffix

theorem not_halted_of_step (hstep : Step m m') : ¬ m.control.Halted := by
  rintro ⟨o, ho⟩
  cases hstep with
  | begin hc | literal hc | mismatch hc | remembered hc | enter hc =>
    rw [ho] at hc
    cases hc
  | deliver he | halt he =>
    rw [ho] at he
    cases he

/-- Each step is counted, with what it enters. -/
theorem Counted.step (hg : g.leftRecursion? = none) (hstep : Step m m')
    (h : m.Counted first root n entered) :
    m'.Counted first root (n + 1) (pushed m m' ++ entered) := by
  obtain ⟨failures, hfollows⟩ := h.follows
  obtain ⟨new, hnew, -⟩ := hfollows.step hstep
  have horderly := orderly_step hstep hfollows h.orderly
  have hknown := h.known (not_halted_of_step hstep)
  have hpaid := h.paid
  rcases spends_or_enters hg hstep h.orderly with hspends | ⟨f, r, hc, hm, hk, hmem, hkeys, hcost⟩
  · have hcost := hspends.cost
    rw [pushed_eq_nil hspends.suffix, List.nil_append]
    refine ⟨⟨_, hnew⟩, horderly, h.nodup, fun hm' e he => ?_, h.placed, by omega⟩
    rcases hknown e he with he | he
    · exact .inl (hspends.memory e he)
    · exact hspends.keys hm' e he
  · -- The rule is entered at this spot for the first time.
    have hnot : (r, f.spot.offset) ∉ entered := fun he => (hknown _ he).elim hm hk
    rw [pushed_of_cons hkeys, List.singleton_append]
    refine ⟨⟨_, hnew⟩, horderly, ?_, fun _ e he => ?_, ?_, ?_⟩
    · exact List.nodup_cons.2 ⟨hnot, h.nodup⟩
    · rw [hmem, hkeys]
      rcases List.mem_cons.1 he with rfl | he
      · exact .inr List.mem_cons_self
      · exact (hknown e he).imp_right (List.mem_cons_of_mem _)
    · intro e he
      rcases List.mem_cons.1 he with rfl | he
      · have hcontrol := hfollows.control
        rw [hc] at hcontrol
        cases hcontrol with
        | items hplaced _ _ => exact ⟨f.spot, hplaced.start.trans hplaced.spot, rfl⟩
      · exact h.placed e he
    · rw [total_cons]
      change n + 1 + m'.cost ≤ (g.rule r).cost + _
      omega

/-- The offsets of the spots of the text that begins at `first`. -/
def offsets (first : Spot) : Finset Nat :=
  (Finset.range (first.rest.length + 1)).image fun i =>
    first.offset + Text.byteCount (first.rest.take i)

theorem mem_offsets {s : Spot} (h : first.Reaches s) : s.offset ∈ offsets first := by
  obtain ⟨passed, hrest, hoff⟩ := h
  refine Finset.mem_image.2 ⟨passed.length, ?_, ?_⟩
  · rw [Finset.mem_range, hrest, List.length_append]
    omega
  · rw [hrest, List.take_left, hoff]

theorem total_eq_sum {α : Type} (f : α → Nat) (as : List α) : total f as = (as.map f).sum := by
  rw [List.sum_eq_foldr, List.foldr_map]
  rfl

theorem sum_rule_cost (g : Grammar) :
    ∑ r : g.RuleId, (g.rule r).cost = total Rule.cost g.rules.toList := by
  rw [← List.sum_ofFn, total_eq_sum]
  congr 1
  refine List.ext_getElem (by simp) fun i h₁ h₂ => ?_
  simp [rule, Vector.get]

theorem card_offsets_le (first : Spot) : (offsets first).card ≤ first.rest.length + 1 :=
  Finset.card_image_le.trans_eq (Finset.card_range _)

/-- Entries at spots of the text are among all rules at all spots. -/
theorem toFinset_subset (hplaced : ∀ e ∈ entered, ∃ s, first.Reaches s ∧ s.offset = e.2) :
    entered.toFinset ⊆ Finset.univ ×ˢ offsets first := by
  intro e he
  obtain ⟨s, hs, heq⟩ := hplaced e (List.mem_toFinset.1 he)
  exact Finset.mem_product.2 ⟨Finset.mem_univ _, heq ▸ mem_offsets hs⟩

/-- Different entries at spots of the text cost no more than the limit. -/
theorem sum_cost_le (hnodup : entered.Nodup)
    (hplaced : ∀ e ∈ entered, ∃ s, first.Reaches s ∧ s.offset = e.2) :
    total (fun e => (g.rule e.1).cost) entered ≤ limit g first.rest.length :=
  calc
    total (fun e => (g.rule e.1).cost) entered
      = ∑ e ∈ entered.toFinset, (g.rule e.1).cost := by
      rw [total_eq_sum, List.sum_toFinset _ hnodup]
    _ ≤ ∑ e ∈ Finset.univ ×ˢ offsets first, (g.rule e.1).cost :=
      Finset.sum_le_sum_of_subset (toFinset_subset hplaced)
    _ = ∑ r : g.RuleId, (offsets first).card * (g.rule r).cost := by
      rw [Finset.sum_product]
      simp
    _ = (∑ r : g.RuleId, (g.rule r).cost) * (offsets first).card := by
      rw [← Finset.mul_sum, Nat.mul_comm]
    _ ≤ limit g first.rest.length := by
      rw [limit, sum_rule_cost]
      exact Nat.mul_le_mul_left _ (card_offsets_le first)

/-- There are no more different entries at spots of the text than rules at spots. -/
theorem length_entered_le (hnodup : entered.Nodup)
    (hplaced : ∀ e ∈ entered, ∃ s, first.Reaches s ∧ s.offset = e.2) :
    entered.length ≤ g.size * (first.rest.length + 1) :=
  calc
    entered.length = entered.toFinset.card := (List.toFinset_card_of_nodup hnodup).symm
    _ ≤ (Finset.univ ×ˢ offsets first : Finset (g.RuleId × Nat)).card :=
      Finset.card_le_card (toFinset_subset hplaced)
    _ = g.size * (offsets first).card := by
      rw [Finset.card_product, Finset.card_univ, Fintype.card_fin]
    _ ≤ g.size * (first.rest.length + 1) := Nat.mul_le_mul_left _ (card_offsets_le first)

theorem cost_pos (h : ¬ m.control.Halted) : 0 < m.cost := by
  unfold cost
  cases hc : m.control with
  | items f => simp [Control.cost, Frame.cost]
  | alternative f => simp [Control.cost, Frame.triesCost]
  | halted o => exact absurd ⟨o, hc⟩ h

/-- Without left recursion, a machine halts within its limit. -/
theorem halted_run_start (hg : g.leftRecursion? = none) (root : g.RuleId) (first : Spot) :
    ((start root first).run (limit g first.rest.length)).control.Halted := by
  refine halted_run (P := fun n m => ∃ entered, m.Counted first root n entered) ?_ ?_
    ⟨_, counted_start root first⟩
  · rintro n m m' hstep ⟨entered, h⟩
    exact ⟨_, h.step hg hstep⟩
  · rintro n m ⟨entered, h⟩ hm
    have hpos := cost_pos hm
    have hpaid := h.paid
    have hlimit := sum_cost_le h.nodup h.placed
    omega

/-- After any number of steps, the entries are counted. A machine that has halted enters nothing,
so the count stops there. -/
theorem counted_entries (hg : g.leftRecursion? = none) (root : g.RuleId) (first : Spot) (n : Nat) :
    ∃ steps,
      ((start root first).run n).Counted first root steps ((start root first).entries n) := by
  induction n with
  | zero => exact ⟨0, counted_start root first⟩
  | succ n ih =>
    obtain ⟨steps, h⟩ := ih
    rw [entries, run_succ]
    by_cases hm : ((start root first).run n).control.Halted
    · rw [step_of_halted hm, pushed_eq_nil (List.suffix_refl _), List.nil_append]
      exact ⟨steps, h⟩
    · exact ⟨steps + 1, h.step hg (step_of_running hm)⟩

end Machine

end Typeahead
