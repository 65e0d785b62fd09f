import Typeahead.Proofs.Grammar.Sweep
import Typeahead.Proofs.Grammar.Written
import Typeahead.Proofs.Match.Packrat

/-!
# What the marks tell of a match

Whether a rule is marked as nullable is settled before any text is matched, by what it may derive. A
match takes the first alternative that comes to something, which need not be the one that derives the
empty text. Still the marks tell of it: an unmarked rule consumes something wherever it matches, and
a marked rule matches at the end of every text.

- **Attempts** (`attempt`): what a machine comes to that begins with any rule at any spot. It is what
  the grammar means (`attempt_eq_iff`), and where a rule is entered on the way to something else it
  comes to the same (`remembered_attempt`).
- **Consumption** (`Yields.lt_stop`): by induction on a match that consumes nothing, its task is
  nullable.
- **Ends of texts** (`Yields.not_isNullable`): by induction on a failure at the end of a text, its
  task is not nullable.
-/

namespace Typeahead

/-- Nothing lies behind the end of a text. -/
theorem Spot.Reaches.eq_of_rest {s t : Spot} (h : s.Reaches t) (hs : s.rest = []) : t = s := by
  obtain ⟨passed, hrest, hoff⟩ := id h
  rw [hs] at hrest
  obtain ⟨rfl, -⟩ := List.append_eq_nil_iff.1 hrest.symm
  exact h.eq_of_le (Nat.le_of_eq hoff)

namespace Grammar

variable {g : Grammar}

/-! ## Nullable tasks -/

/-- A marked rule has an alternative that the marks make nullable. -/
theorem isNullable_of_marked {r : g.RuleId} (h : g.nullable.get r = true) :
    Task.IsNullable (.first (g.rule r).alternatives) := by
  obtain ⟨hmem, hliteral, hreference⟩ := g.backed_nullable r h
  exact ⟨_, hmem, List.all_eq_true.1
    (all_isNullable_iff.2 ⟨hliteral, fun r' hr' => g.closed_nullable.get (hreference r' hr')⟩)⟩

/-- An unmarked rule consumes something when it matches. -/
theorem Yields.lt_stop {r : g.RuleId} {s : Spot} {m : Match} {failures : Failures}
    (h : g.Outcome r s (some m) failures) (hr : g.nullable.get r = false) :
    s.offset < m.stop.offset := by
  by_contra hle
  have hmarked := marked_of_task (h.isNullable m rfl (Nat.le_of_not_lt hle))
  rw [hr] at hmarked
  cases hmarked

/-- What fails at the end of a text is not nullable. -/
theorem Yields.not_isNullable {task : Task g} {s : Spot} {o : Option Match} {failures : Failures}
    (h : Yields g task s o failures) (ho : o = none) (hs : s.rest = []) : ¬ task.IsNullable := by
  induction h with
  | exhausted => simp [Task.IsNullable]
  | taken | complete => cases ho
  | passed _ _ ih₁ ih₂ =>
    rintro ⟨items, hitems, hall⟩
    rcases List.mem_cons.1 hitems with rfl | hitems
    · exact ih₁ rfl hs hall
    · exact ih₂ ho hs ⟨items, hitems, hall⟩
  | literal _ _ ih =>
    intro hall
    refine ih ho ?_ (List.forall_mem_cons.1 hall).2
    simp [Spot.past, hs]
  | mismatch hp =>
    intro hall
    obtain rfl := List.isEmpty_iff.1 (List.forall_mem_cons.1 hall).1
    exact hp List.nil_prefix
  | reference h₁ _ _ ih₂ =>
    intro hall
    have hstop := (h₁.reaches _ rfl).eq_of_rest hs
    exact ih₂ (Option.map_eq_none_iff.1 ho) (hstop ▸ hs) (List.forall_mem_cons.1 hall).2
  | refused _ ih =>
    intro hall
    exact ih rfl hs (isNullable_of_marked (List.forall_mem_cons.1 hall).1)

/-! ## Attempts -/

/-- What a machine comes to that begins with rule `r` at `s`. The whole text is an attempt at the
start rule (`finalMachine`). -/
def attempt (g : Grammar) (r : g.RuleId) (s : Spot) : Option Match :=
  ((Machine.start r s).run (Machine.limit g s.rest.length)).outcome

theorem attempt_eq_iff (hg : g.leftRecursion? = none) {r : g.RuleId} {s : Spot}
    {o : Option Match} : g.attempt r s = o ↔ ∃ failures, g.Outcome r s o failures := by
  obtain ⟨o', ho', hunique⟩ := Machine.run_start hg r s
  have hattempt : g.attempt r s = o' := by rw [attempt, Machine.outcome, ho']
  rw [hattempt, hunique, eq_comm]

/-- What is remembered of a rule at an offset ends where an attempt at that offset does. -/
theorem remembered_attempt (hg : g.leftRecursion? = none) {root r : g.RuleId} {first : Spot}
    {steps offset : Nat} {found : Option Match}
    (h : ((Machine.start root first).run steps).memory[(r, offset)]? = some found) :
    ∃ s, first.Reaches s ∧ s.offset = offset ∧
      found.map (·.stop) = (g.attempt r s).map (·.stop) := by
  obtain ⟨failures, hfollows⟩ := (Machine.follows_start root first).run steps
  obtain ⟨s, o, past, hs, hoff, ho, rfl, -⟩ := hfollows.memory r offset found h
  refine ⟨s, hs, hoff, ?_⟩
  rw [(attempt_eq_iff hg).2 ⟨past, ho⟩, Option.map_map]
  rfl

theorem lt_stop_of_attempt (hg : g.leftRecursion? = none) {r : g.RuleId} {s : Spot} {m : Match}
    (hr : g.nullable.get r = false) (h : g.attempt r s = some m) : s.offset < m.stop.offset := by
  obtain ⟨_, houtcome⟩ := (attempt_eq_iff hg).1 h
  exact houtcome.lt_stop hr

/-- At the end of a text, a marked rule matches and stays where it is. -/
theorem exists_attempt (hg : g.leftRecursion? = none) {r : g.RuleId} {s : Spot}
    (hr : g.nullable.get r = true) (hs : s.rest = []) :
    ∃ m, g.attempt r s = some m ∧ m.stop = s := by
  obtain ⟨failures, houtcome⟩ := (attempt_eq_iff hg).1 (rfl : g.attempt r s = _)
  cases hm : g.attempt r s with
  | none =>
    rw [hm] at houtcome
    exact absurd (isNullable_of_marked hr) (houtcome.not_isNullable rfl hs)
  | some m =>
    rw [hm] at houtcome
    exact ⟨m, rfl, (houtcome.reaches m rfl).eq_of_rest hs⟩

/-- **The marks are exact.** Through any rules the sweeps come to an end, and mark the rules that
derive the empty text and no others. For a compiled grammar these are its marks. An unmarked rule
consumes a byte or more wherever it matches, and a marked rule matches at the end of every text. A
rule that is entered in the course of a match ends where an attempt at it would. -/
theorem nullable_exact :
    (∀ (n : Nat) (rules : Vector (Rule (Fin n)) n), ∃ marks,
      sweeps rules (Vector.replicate n false) (n + 1) = some marks ∧
        ∀ r, marks.get r = true ↔ DerivesEmpty rules r) ∧
    ∀ (source : String) (g : Grammar), compile source = .ok g →
      sweeps g.rules (Vector.replicate g.size false) (g.size + 1) = some g.nullable ∧
      ∀ r : g.RuleId,
        (g.nullable.get r = false →
          ∀ s m, g.attempt r s = some m → s.offset < m.stop.offset) ∧
        (g.nullable.get r = true → ∀ s, s.rest = [] → ∃ m, g.attempt r s = some m ∧ m.stop = s) ∧
        ∀ (root : g.RuleId) (first : Spot) (steps offset : Nat) (found : Option Match),
          ((Machine.start root first).run steps).memory[(r, offset)]? = some found →
          ∃ s, first.Reaches s ∧ s.offset = offset ∧
            found.map (·.stop) = (g.attempt r s).map (·.stop) := by
  constructor
  · intro n rules
    obtain ⟨marks, hmarks, hclosed, hbacked⟩ := exists_sweeps_unmarked rules
    exact ⟨marks, hmarks, fun r => hclosed.get_iff hbacked⟩
  · intro source g h
    have hg := leftRecursion?_of_compile h
    exact ⟨sweeps_rules g, fun r => ⟨fun hr s m => lt_stop_of_attempt hg hr,
      fun hr s => exists_attempt hg hr, fun _ _ _ _ _ => remembered_attempt hg⟩⟩

/-- Letters between which nothing stands, and an end that has to be there. -/
def letters : Grammar where
  size := 2
  size_pos := Nat.two_pos
  rules := #v[⟨"a", .node, [[.reference ⟨1, Nat.one_lt_two⟩, .literal ['x']]]⟩,
    ⟨"b", .node, [[.literal ['y'], .reference ⟨1, Nat.one_lt_two⟩], [.literal []]]⟩]

theorem compile_letters : compile "<a> ::= <b> 'x' <b> ::= 'y' <b> | ''" = .ok letters := by
  have hwritten : Written letters.words "<a> ::= <b> 'x' <b> ::= 'y' <b> | ''".toList :=
    tokenize_iff.1 ⟨_, rfl, by decide +kernel⟩
  have hformed : ∀ d ∈ letters.drafts, d.emission = Emission.ofName d.name ∧ d.alternatives ≠ [] ∧
      [] ∉ d.alternatives := by
    decide +kernel
  refine compile_iff.2 ⟨by decide +kernel, fun d hd => ?_, by cbv, hwritten⟩
  obtain ⟨emission, ne_nil, nil_not_mem⟩ := hformed d hd
  exact ⟨emission, ne_nil, nil_not_mem⟩

/-- The rule for the letters before the end. -/
def letters.b : letters.RuleId := ⟨1, Nat.one_lt_two⟩

/-- In the text x, `<b>` is entered first and matches nothing. -/
theorem nullable_exact_letters : compile "<a> ::= <b> 'x' <b> ::= 'y' <b> | ''" = .ok letters ∧
    letters.nullable = #v[false, true] ∧
    (∃ m, letters.attempt letters.start ⟨0, ['x']⟩ = some m ∧ 0 < m.stop.offset) ∧
    (∃ m, letters.attempt letters.b ⟨0, []⟩ = some m ∧ m.stop = ⟨0, []⟩) ∧
    ∃ (found : Option Match) (s : Spot),
      ((Machine.start letters.start ⟨0, ['x']⟩).run 8).memory[(letters.b, 0)]? = some found ∧
        found.map (·.stop) = (letters.attempt letters.b s).map (·.stop) := by
  obtain ⟨-, hmarks⟩ := nullable_exact.2 _ letters compile_letters
  obtain ⟨ha, -, -⟩ := hmarks letters.start
  obtain ⟨-, hb, hremembered⟩ := hmarks letters.b
  refine ⟨compile_letters, by cbv, ?_, hb (by cbv) ⟨0, []⟩ rfl, ?_⟩
  · obtain ⟨m, hm⟩ : ∃ m, letters.attempt letters.start ⟨0, ['x']⟩ = some m :=
      Option.isSome_iff_exists.1 (by cbv)
    exact ⟨m, hm, ha (by cbv) _ m hm⟩
  · obtain ⟨found, hfound⟩ : ∃ found,
        ((Machine.start letters.start ⟨0, ['x']⟩).run 8).memory[(letters.b, 0)]? = some found :=
      Option.isSome_iff_exists.1 (by cbv)
    obtain ⟨s, -, -, hs⟩ := hremembered _ _ _ _ found hfound
    exact ⟨found, s, hfound, hs⟩

end Grammar

end Typeahead
