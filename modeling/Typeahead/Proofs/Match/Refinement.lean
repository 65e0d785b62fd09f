import Typeahead.Proofs.Match.Step

/-!
# A machine comes to what the grammar means

Between two steps, each rule in progress has its meaning fixed by what it has still to match: the
part that lies behind it is settled. The machine keeps this for the whole stack (`Suspended`), and
all that it remembers is an outcome of its rule at its spot (`Remembers`).

- **Frames** (`Frame.Continues`, `Frame.Retries`): what a rule comes to, given what its items or its
  untried alternatives come to. One lemma for each way on.
- **Invariant** (`Machine.Follows`): with the failures of the naive evaluation up to this point.
- **Step** (`Follows.step`): each step keeps it. The failures grow by the one that the step notes,
  or by those of an outcome that is remembered, which are there already.
- **Halting** (`Follows.outcome`): a machine that has halted has its rule's outcome.
-/

namespace Typeahead

open Grammar

variable {g : Grammar}

namespace Frame

/-- After the failures `past`, the rule comes to what its untried alternatives come to. -/
def Retries (f : Frame g) (past : Failures) : Prop :=
  ∀ o after, Yields g (.first f.untried) f.start o after →
    g.Outcome f.rule f.start o (past ++ after)

/-- After the failures `past`, the rule matches when `items` do, with what they leave after what is
left already; else it comes to what its untried alternatives come to. -/
structure Continues (f : Frame g) (items : List (Item g.RuleId)) (past : Failures) : Prop where
  matched : ∀ m after, Yields g (.all items) f.spot (some m) after →
    g.Outcome f.rule f.start (some ⟨m.stop, f.branches ++ m.branches⟩) (past ++ after)
  failed : ∀ after, Yields g (.all items) f.spot none after → f.Retries (past ++ after)

variable {f : Frame g} {past : Failures}

theorem retries_enter (r : g.RuleId) (s : Spot) : (Frame.enter r s).Retries [] := by
  intro o after h
  exact h

theorem Retries.begin {items : List (Item g.RuleId)} {untried : List (List (Item g.RuleId))}
    (h : f.Retries past) (hu : f.untried = items :: untried) :
    (f.begin items untried).Continues items past where
  matched m after hm := by
    have hfirst : Yields g (.first f.untried) f.start (some m) after := hu ▸ .taken hm
    exact h (some m) after hfirst
  failed after hn := by
    intro o rest hr
    have hfirst : Yields g (.first f.untried) f.start o (after ++ rest) := hu ▸ .passed hn hr
    rw [List.append_assoc]
    exact h o _ hfirst

theorem Continues.literal {text : List Char} {items : List (Item g.RuleId)}
    (h : f.Continues (.literal text :: items) past) (hp : text <+: f.spot.rest) :
    ({ f with items, spot := f.spot.past text } : Frame g).Continues items past where
  matched m after hm := h.matched m after (.literal hp hm)
  failed after hn := h.failed after (.literal hp hn)

theorem Continues.mismatch {text : List Char} {items : List (Item g.RuleId)}
    (h : f.Continues (.literal text :: items) past) (hp : ¬ text <+: f.spot.rest) :
    f.Retries (past ++ [(f.spot, text)]) :=
  h.failed _ (.mismatch hp)

/-- What an item leaves changes the parts alone. -/
theorem exists_leave (f : Frame g) (bs : List Branch) : ∃ parts, f.leave bs = { f with parts } := by
  unfold leave
  split
  · exact ⟨f.parts, rfl⟩
  · exact ⟨bs :: f.parts, rfl⟩

theorem Continues.accept {r : g.RuleId} {items : List (Item g.RuleId)} {m : Match}
    {failures : Failures} (h : f.Continues (.reference r :: items) past)
    (hr : g.Outcome r f.spot (some m) failures) :
    ({ f.leave (g.emit r f.spot m) with spot := m.stop } : Frame g).Continues items
      (past ++ failures) := by
  have hbranches := branches_leave f (g.emit r f.spot m)
  obtain ⟨parts, hleave⟩ := f.exists_leave (g.emit r f.spot m)
  rw [hleave] at hbranches ⊢
  constructor
  · intro rest after hm
    have hall := h.matched _ _ (.reference hr hm)
    rw [← List.append_assoc, ← List.append_assoc, ← hbranches] at hall
    exact hall
  · intro after hn
    have hall := h.failed _ (.reference hr hn)
    rw [← List.append_assoc] at hall
    exact hall

theorem Continues.refuse {r : g.RuleId} {items : List (Item g.RuleId)} {failures : Failures}
    (h : f.Continues (.reference r :: items) past) (hr : g.Outcome r f.spot none failures) :
    f.Retries (past ++ failures) :=
  h.failed _ (.refused hr)

theorem Continues.outcome (h : f.Continues [] past) :
    g.Outcome f.rule f.start (some f.result) past := by
  have := h.matched _ _ .complete
  rwa [List.append_nil, List.append_nil] at this

theorem Retries.outcome (h : f.Retries past) (hu : f.untried = []) :
    g.Outcome f.rule f.start none past := by
  have := h none [] (hu ▸ .exhausted)
  rwa [List.append_nil] at this

/-- Where a rule in progress stands in the text that begins at `first`. -/
structure Placed (f : Frame g) (first : Spot) : Prop where
  start : first.Reaches f.start
  spot : f.start.Reaches f.spot

end Frame

/-- The rules that wait for the outcome of rule `r` at `s`, nearest first, when `root` is matched at
`first`. The failures are those before `r` was entered. -/
inductive Suspended (first : Spot) (root : g.RuleId) :
    List (Frame g) → g.RuleId → Spot → Failures → Prop where
  | root : Suspended first root [] root first []
  | caller {f : Frame g} {callers : List (Frame g)} {r : g.RuleId} {outer past : Failures} :
      f.Placed first → f.Continues (.reference r :: f.items) past →
      Suspended first root callers f.rule f.start outer →
      Suspended first root (f :: callers) r f.spot (outer ++ past)

/-- Each remembered outcome is its rule's outcome, and its failures are among `failures`. -/
def Remembers (first : Spot) (memory : Std.HashMap (g.RuleId × Nat) (Option Match))
    (failures : Failures) : Prop :=
  ∀ r offset o, memory[(r, offset)]? = some o →
    ∃ s o' past, first.Reaches s ∧ s.offset = offset ∧ g.Outcome r s o' past ∧
      o = o'.map (g.handed r s) ∧ past ⊆ failures

/-- What the machine does next, with its callers, carries on the naive evaluation of `root` at
`first` after `failures`. -/
inductive Control.Follows (first : Spot) (root : g.RuleId) :
    Control g → List (Frame g) → Failures → Prop where
  | items {f : Frame g} {callers : List (Frame g)} {outer past : Failures} :
      f.Placed first → f.Continues f.items past →
      Suspended first root callers f.rule f.start outer →
      Follows first root (.items f) callers (outer ++ past)
  | alternative {f : Frame g} {callers : List (Frame g)} {outer past : Failures} :
      f.Placed first → f.Retries past → Suspended first root callers f.rule f.start outer →
      Follows first root (.alternative f) callers (outer ++ past)
  | halted {o : Option Match} {callers : List (Frame g)} {failures : Failures} :
      g.Outcome root first o failures → Follows first root (.halted o) callers failures

/-- The machine carries on the naive evaluation of `root` at `first` after `failures`. -/
structure Machine.Follows (m : Machine g) (first : Spot) (root : g.RuleId)
    (failures : Failures) : Prop where
  control : m.control.Follows first root m.callers failures
  memory : Remembers first m.memory failures

section Step

variable {first : Spot} {root : g.RuleId} {failures : Failures}

theorem Remembers.mono {memory : Std.HashMap (g.RuleId × Nat) (Option Match)} {more : Failures}
    (h : Remembers first memory failures) (hsub : failures ⊆ more) :
    Remembers first memory more := by
  intro r offset o hm
  obtain ⟨s, o', past, hs, hoff, ho, hmap, hpast⟩ := h r offset o hm
  exact ⟨s, o', past, hs, hoff, ho, hmap, List.Subset.trans hpast hsub⟩

theorem Remembers.insert {memory : Std.HashMap (g.RuleId × Nat) (Option Match)} {r : g.RuleId}
    {s : Spot} {o : Option Match} {past : Failures} (h : Remembers first memory failures)
    (hs : first.Reaches s) (ho : g.Outcome r s o past) (hpast : past ⊆ failures) :
    Remembers first (memory.insert (r, s.offset) (o.map (g.handed r s))) failures := by
  intro r' offset o' hm
  rw [Std.HashMap.getElem?_insert] at hm
  split at hm
  · rename_i hkey
    obtain ⟨rfl, rfl⟩ : r = r' ∧ s.offset = offset := by simpa using hkey
    exact ⟨s, o, past, hs, rfl, ho, (Option.some.inj hm).symm, hpast⟩
  · exact h r' offset o' hm

/-- What is remembered of a rule at a spot of the text is its outcome there. -/
theorem Remembers.outcome {memory : Std.HashMap (g.RuleId × Nat) (Option Match)} {r : g.RuleId}
    {s : Spot} {o : Option Match} (h : Remembers first memory failures) (hs : first.Reaches s)
    (hm : memory[(r, s.offset)]? = some o) :
    ∃ o' past, g.Outcome r s o' past ∧ o = o'.map (g.handed r s) ∧ past ⊆ failures := by
  obtain ⟨s', o', past, hs', hoff, ho, hmap, hpast⟩ := h r s.offset o hm
  obtain rfl := hs'.eq_of_offset hs hoff
  exact ⟨o', past, ho, hmap, hpast⟩

theorem Suspended.nil {r : g.RuleId} {s : Spot} (h : Suspended first root [] r s failures) :
    r = root ∧ s = first ∧ failures = [] := by
  cases h
  exact ⟨rfl, rfl, rfl⟩

theorem Suspended.cons {f : Frame g} {callers : List (Frame g)} {r : g.RuleId} {s : Spot}
    (h : Suspended first root (f :: callers) r s failures) :
    ∃ outer past, failures = outer ++ past ∧ s = f.spot ∧ f.Placed first ∧
      f.Continues (.reference r :: f.items) past ∧
      Suspended first root callers f.rule f.start outer := by
  cases h with
  | caller hf hc hw => exact ⟨_, _, rfl, rfl, hf, hc, hw⟩

/-- A rule that waits goes on with the outcome that it waits for. -/
theorem follows_resume {f : Frame g} {callers : List (Frame g)} {r : g.RuleId}
    {outer past : Failures} {o : Option Match} (hf : f.Placed first)
    (hc : f.Continues (.reference r :: f.items) past)
    (hw : Suspended first root callers f.rule f.start outer) (ho : g.Outcome r f.spot o failures) :
    (f.resume (o.map (g.handed r f.spot))).Follows first root callers
      (outer ++ past ++ failures) := by
  rw [List.append_assoc]
  cases o with
  | none => exact .alternative hf (hc.refuse ho) hw
  | some m =>
    have hnext := hc.accept ho
    have hstop : f.spot.Reaches m.stop := ho.reaches m rfl
    obtain ⟨parts, hleave⟩ := f.exists_leave (g.emit r f.spot m)
    simp only [Option.map_some, handed, Frame.resume]
    rw [hleave] at hnext ⊢
    exact .items ⟨hf.start, hf.spot.trans hstop⟩ hnext hw

/-- A rule that ends has come to its outcome. -/
theorem Control.Follows.ends {c : Control g} {callers : List (Frame g)} {f : Frame g}
    {o : Option Match} (h : c.Follows first root callers failures) (he : c.Ends f o) :
    ∃ outer past, failures = outer ++ past ∧ f.Placed first ∧ g.Outcome f.rule f.start o past ∧
      Suspended first root callers f.rule f.start outer := by
  cases he with
  | matched hi =>
    cases h with
    | items hf hc hw =>
      rw [hi] at hc
      exact ⟨_, _, rfl, hf, hc.outcome, hw⟩
  | failed hu =>
    cases h with
    | alternative hf hr hw => exact ⟨_, _, rfl, hf, hr.outcome hu, hw⟩

namespace Machine

variable {m m' : Machine g}

theorem follows_start (root : g.RuleId) (first : Spot) :
    (start root first).Follows first root [] where
  control := by
    rw [← List.append_nil []]
    exact .alternative ⟨.refl _, .refl _⟩ (Frame.retries_enter root first) .root
  memory := by
    intro r offset o h
    simp [start] at h

/-- `m'` carries the naive evaluation on from `m`. The failures have grown by the one that is noted,
or by those of an outcome that is remembered, which are there already. -/
def Advances (m m' : Machine g) (first : Spot) (root : g.RuleId) (failures : Failures) : Prop :=
  ∃ new, m'.Follows first root (failures ++ new) ∧
    (m'.farthest = m.farthest ∧ new ⊆ failures ∨
      ∃ s text, new = [(s, text)] ∧ m'.farthest = m.farthest.note s text)

/-- No literal has failed. -/
theorem Advances.of_follows (h : m'.Follows first root failures)
    (hfar : m'.farthest = m.farthest) : Advances m m' first root failures := by
  refine ⟨[], ?_, .inl ⟨hfar, List.nil_subset _⟩⟩
  rw [List.append_nil]
  exact h

/-- Each step carries the naive evaluation on. -/
theorem Follows.step (hstep : Step m m') (h : m.Follows first root failures) :
    Advances m m' first root failures := by
  obtain ⟨hcontrol, hmemory⟩ := h
  cases hstep with
  | begin hc hu =>
    rw [hc] at hcontrol
    cases hcontrol with
    | alternative hf hr hw =>
      exact .of_follows ⟨.items ⟨hf.start, .refl _⟩ (hr.begin hu) hw, hmemory⟩ rfl
  | literal hc hi hp =>
    rw [hc] at hcontrol
    cases hcontrol with
    | items hf hn hw =>
      rw [hi] at hn
      have hspot := hf.spot.trans (.past hp)
      exact .of_follows ⟨.items ⟨hf.start, hspot⟩ (hn.literal hp) hw, hmemory⟩ rfl
  | mismatch hc hi hp =>
    rw [hc] at hcontrol
    cases hcontrol with
    | items hf hn hw =>
      rw [hi] at hn
      refine ⟨_, ⟨?_, hmemory.mono (List.subset_append_left _ _)⟩, .inr ⟨_, _, rfl, rfl⟩⟩
      rw [List.append_assoc]
      exact .alternative hf (hn.mismatch hp) hw
  | @remembered f r items o hc hi hm =>
    rw [hc] at hcontrol
    cases hcontrol with
    | items hf hn hw =>
      rw [hi] at hn
      obtain ⟨o', past, ho, rfl, hpast⟩ := hmemory.outcome (hf.start.trans hf.spot) hm
      refine ⟨past, ⟨?_, hmemory.mono (List.subset_append_left _ _)⟩, .inl ⟨rfl, hpast⟩⟩
      exact follows_resume (f := { f with items }) ⟨hf.start, hf.spot⟩ ⟨hn.matched, hn.failed⟩ hw ho
  | @enter f r items hc hi hm =>
    rw [hc] at hcontrol
    cases hcontrol with
    | items hf hn hw =>
      rw [hi] at hn
      have hcaller : Suspended first root ({ f with items } :: m.callers) r f.spot _ :=
        .caller (f := { f with items }) ⟨hf.start, hf.spot⟩ ⟨hn.matched, hn.failed⟩ hw
      have hentered := Control.Follows.alternative ⟨hf.start.trans hf.spot, .refl _⟩
        (Frame.retries_enter r f.spot) hcaller
      rw [List.append_nil] at hentered
      exact .of_follows ⟨hentered, hmemory⟩ rfl
  | @deliver f caller o callers he hcallers =>
    obtain ⟨outer, past, rfl, hf, ho, hw⟩ := hcontrol.ends he
    have hmemory' := hmemory.insert hf.start ho (List.subset_append_right _ _)
    rw [hcallers] at hw
    obtain ⟨outer', past', rfl, hs, hg, hn, hw'⟩ := hw.cons
    refine .of_follows ⟨?_, hmemory'⟩ rfl
    rw [hs] at ho ⊢
    exact follows_resume hg hn hw' ho
  | halt he hcallers =>
    obtain ⟨outer, past, rfl, hf, ho, hw⟩ := hcontrol.ends he
    rw [hcallers] at hw
    obtain ⟨hr, hs, rfl⟩ := hw.nil
    rw [hr, hs] at ho
    exact .of_follows ⟨.halted ho, hmemory⟩ rfl

theorem Follows.run (h : m.Follows first root failures) (n : Nat) :
    ∃ all, (m.run n).Follows first root all := by
  refine run_induction (P := fun m => ∃ all, m.Follows first root all) ?_ ⟨failures, h⟩ n
  rintro m m' hstep ⟨all, hall⟩
  obtain ⟨new, hnew, -⟩ := hall.step hstep
  exact ⟨all ++ new, hnew⟩

/-- A machine that has halted has come to its rule's outcome. -/
theorem Follows.outcome {o : Option Match} (h : m.Follows first root failures)
    (hc : m.control = .halted o) : g.Outcome root first o failures := by
  have hcontrol := h.control
  rw [hc] at hcontrol
  cases hcontrol with
  | halted ho => exact ho

end Machine

end Step

end Typeahead
