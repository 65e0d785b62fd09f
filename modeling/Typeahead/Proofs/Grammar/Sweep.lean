import Typeahead.Proofs.Grammar.Derivation

/-!
# Marking in one direction

Rules that derive the empty text can also be found by sweeping through all rules from the first to
the last, again and again, until a sweep sets no mark. There may be more sweeps than rounds that go
both ways, but they end with the same marks.

- **Sweeps** (`sweep`): each rule is looked at once, and counts on the marks that were set before it.
  A sweep tells whether it has set a mark (`sweeps`).
- **Derivations** (`DerivesEmpty`): a rule derives the empty text by an alternative of empty literals
  and of references to rules that do so in fewer steps.
- **Exact marks**: marks are closed when no rule is left to mark (`Closed`), and backed when each
  stands for a derivation (`Backed`). Marks that are both are those of all derivations
  (`Closed.get_iff`).
- **Progress** (`Sweeping`): a sweep sets a mark, or finds the marks closed. So there are no more
  sweeps than rules, and one (`exists_sweeps`).

The marks of a grammar are exact too (`closed_nullable`, `backed_nullable`), so the sweeps end with
them (`sweeps_rules`).
-/

namespace Typeahead.Grammar

variable {n : Nat}

/-- One look at a rule: it is marked if the marks so far make it nullable. Along with the marks goes
whether one was set. -/
def visit (rules : Vector (Rule (Fin n)) n) (state : Vector Bool n × Bool) (r : Fin n) :
    Vector Bool n × Bool :=
  if !state.1.get r && (rules.get r).isNullable state.1 then (state.1.set r.val true r.isLt, true)
  else state

/-- One look at each rule in order. -/
def sweep (rules : Vector (Rule (Fin n)) n) (marks : Vector Bool n) : Vector Bool n × Bool :=
  (List.finRange n).foldl (visit rules) (marks, false)

/-- Sweeps until one sets no mark. There is no outcome when that takes more than `limit` sweeps. -/
def sweeps (rules : Vector (Rule (Fin n)) n) (marks : Vector Bool n) :
    (limit : Nat) → Option (Vector Bool n)
  | 0 => none
  | limit + 1 =>
    match sweep rules marks with
    | (next, true) => sweeps rules next limit
    | (next, false) => some next

/-- Rule `r` derives the empty text in finitely many steps. -/
inductive DerivesEmpty (rules : Vector (Rule (Fin n)) n) : Fin n → Prop where
  | intro {r : Fin n} {items : List (Item (Fin n))} : items ∈ (rules.get r).alternatives →
      (∀ text, .literal text ∈ items → text = []) →
      (∀ r', .reference r' ∈ items → DerivesEmpty rules r') → DerivesEmpty rules r

/-- Every rule that the marks make nullable is marked. -/
def Closed (rules : Vector (Rule (Fin n)) n) (marks : Vector Bool n) : Prop :=
  ∀ r, (rules.get r).isNullable marks = true → marks.get r = true

/-- Every marked rule derives the empty text. -/
def Backed (rules : Vector (Rule (Fin n)) n) (marks : Vector Bool n) : Prop :=
  ∀ r, marks.get r = true → DerivesEmpty rules r

section Marks

variable {rules : Vector (Rule (Fin n)) n} {marks : Vector Bool n} {r : Fin n}

theorem all_isNullable_iff {items : List (Item (Fin n))} :
    items.all (·.isNullable marks) = true ↔
      (∀ text, .literal text ∈ items → text = []) ∧
        ∀ r, .reference r ∈ items → marks.get r = true := by
  rw [List.all_eq_true]
  constructor
  · intro h
    exact ⟨fun text ht => List.isEmpty_iff.1 (h _ ht), fun r hr => h _ hr⟩
  · rintro ⟨hliteral, hreference⟩ item hitem
    cases item with
    | literal text => exact List.isEmpty_iff.2 (hliteral text hitem)
    | reference r => exact hreference r hitem

/-- Closed marks leave out no derivation. -/
theorem Closed.get (h : Closed rules marks) (hr : DerivesEmpty rules r) : marks.get r = true := by
  induction hr with
  | intro hmem hliteral _ ih =>
    exact h _ (List.any_eq_true.2 ⟨_, hmem, all_isNullable_iff.2 ⟨hliteral, ih⟩⟩)

theorem Closed.get_iff (h : Closed rules marks) (hbacked : Backed rules marks) :
    marks.get r = true ↔ DerivesEmpty rules r :=
  ⟨hbacked r, h.get⟩

/-- There is one way only to mark all derivations. -/
theorem Closed.unique {others : Vector Bool n} (h : Closed rules marks)
    (hbacked : Backed rules marks) (h' : Closed rules others) (hbacked' : Backed rules others) :
    marks = others := by
  refine marked_injective (Finset.ext fun r => ?_)
  rw [mem_marked, mem_marked, h.get_iff hbacked, h'.get_iff hbacked']

theorem Backed.derivesEmpty (h : Backed rules marks) (hr : (rules.get r).isNullable marks = true) :
    DerivesEmpty rules r := by
  obtain ⟨items, hmem, hall⟩ := List.any_eq_true.1 hr
  obtain ⟨hliteral, hreference⟩ := all_isNullable_iff.1 hall
  exact .intro hmem hliteral fun r' hr' => h r' (hreference r' hr')

theorem marked_set (marks : Vector Bool n) (r : Fin n) :
    marked (marks.set r.val true r.isLt) = insert r (marked marks) := by
  ext x
  rw [mem_marked, get_set, Finset.mem_insert, mem_marked]
  by_cases h : r = x
  · simp [h]
  · simp [h, Ne.symm h]

theorem Backed.set (h : Backed rules marks) (hr : (rules.get r).isNullable marks = true) :
    Backed rules (marks.set r.val true r.isLt) := by
  intro x hx
  rw [← mem_marked, marked_set] at hx
  rcases Finset.mem_insert.1 hx with rfl | hx
  · exact h.derivesEmpty hr
  · exact h x (mem_marked.1 hx)

theorem card_marked_set (h : marks.get r = false) :
    (marked marks).card < (marked (marks.set r.val true r.isLt)).card := by
  have hr : r ∉ marked marks := by simp [h]
  rw [marked_set, Finset.card_insert_of_notMem hr]
  exact Nat.lt_succ_self _

end Marks

/-! ## Sweeps -/

section Sweeps

variable {rules : Vector (Rule (Fin n)) n} {marks : Vector Bool n}

/-- What looking at `visited` in turn does: no mark is set, as none of them is left to mark, or it is
told that one was. -/
structure Sweeping (rules : Vector (Rule (Fin n)) n) (visited : List (Fin n))
    (before after : Vector Bool n × Bool) : Prop where
  moves : after = before ∧
      (∀ r ∈ visited, (rules.get r).isNullable before.1 = true → before.1.get r = true) ∨
    after.2 = true ∧ (marked before.1).card < (marked after.1).card
  backed : Backed rules before.1 → Backed rules after.1

theorem sweeping_visit (rules : Vector (Rule (Fin n)) n) (state : Vector Bool n × Bool)
    (r : Fin n) : Sweeping rules [r] state (visit rules state r) := by
  unfold visit
  split
  · rename_i h
    obtain ⟨hunmarked, hnullable⟩ := Bool.and_eq_true_iff.1 h
    exact ⟨.inr ⟨rfl, card_marked_set (by simpa using hunmarked)⟩, fun hb => hb.set hnullable⟩
  · rename_i h
    refine ⟨.inl ⟨rfl, fun x hx hnullable => ?_⟩, id⟩
    obtain rfl := List.mem_singleton.1 hx
    simpa [hnullable] using h

theorem Sweeping.trans {visited more : List (Fin n)} {before between after : Vector Bool n × Bool}
    (h : Sweeping rules visited before between) (h' : Sweeping rules more between after) :
    Sweeping rules (visited ++ more) before after := by
  refine ⟨?_, h'.backed ∘ h.backed⟩
  rcases h.moves with ⟨rfl, hclosed⟩ | ⟨htold, hcard⟩
  · refine h'.moves.imp_left fun ⟨heq, hclosed'⟩ => ⟨heq, fun r hr => ?_⟩
    exact (List.mem_append.1 hr).elim (hclosed r) (hclosed' r)
  · rcases h'.moves with ⟨rfl, -⟩ | ⟨htold', hcard'⟩
    · exact .inr ⟨htold, hcard⟩
    · exact .inr ⟨htold', hcard.trans hcard'⟩

theorem sweeping_foldl (rules : Vector (Rule (Fin n)) n) (visited : List (Fin n))
    (state : Vector Bool n × Bool) :
    Sweeping rules visited state (visited.foldl (visit rules) state) := by
  induction visited generalizing state with
  | nil => exact ⟨.inl ⟨rfl, by simp⟩, id⟩
  | cons r visited ih => exact (sweeping_visit rules state r).trans (ih _)

/-- The sweeps come to an end when there is one for each unmarked rule and one more. They leave marks
that are exact. -/
theorem exists_sweeps {limit : Nat} (h : n < (marked marks).card + limit)
    (hbacked : Backed rules marks) :
    ∃ last, sweeps rules marks limit = some last ∧ Closed rules last ∧ Backed rules last := by
  induction limit generalizing marks with
  | zero =>
    have hcard : (marked marks).card ≤ n :=
      (Finset.card_le_univ _).trans_eq (Fintype.card_fin n)
    omega
  | succ limit ih =>
    have hsweep : Sweeping rules (List.finRange n) (marks, false) (sweep rules marks) :=
      sweeping_foldl rules _ _
    unfold sweeps
    rcases hnext : sweep rules marks with ⟨next, told⟩
    rw [hnext] at hsweep
    rcases hsweep.moves with ⟨heq, hclosed⟩ | ⟨rfl, hcard⟩
    · cases heq
      exact ⟨marks, rfl, fun r => hclosed r (List.mem_finRange r), hbacked⟩
    · have hcard' : (marked marks).card < (marked next).card := hcard
      exact ih (by omega) (hsweep.backed hbacked)

theorem exists_sweeps_unmarked (rules : Vector (Rule (Fin n)) n) :
    ∃ last, sweeps rules (Vector.replicate n false) (n + 1) = some last ∧ Closed rules last ∧
      Backed rules last :=
  exists_sweeps (Nat.lt_of_lt_of_le (Nat.lt_succ_self n) (Nat.le_add_left _ _)) (by
    simp [Backed, Vector.get])

end Sweeps

/-! ## Grammars -/

section Grammar

variable {g : Grammar}

/-- Items that derive the empty text are empty literals and references to rules that derive it. -/
theorem Derives.derivesEmpty {items : List (Item g.RuleId)} {text : List Char}
    (h : g.Derives items text) (ht : text = []) :
    (∀ text, .literal text ∈ items → text = []) ∧
      ∀ r, .reference r ∈ items → DerivesEmpty g.rules r := by
  induction h with
  | nil => simp
  | literal text _ ih =>
    obtain ⟨rfl, hrest⟩ := List.append_eq_nil_iff.1 ht
    simpa using ih hrest
  | reference hmem _ _ ih ihrest =>
    obtain ⟨htext, hrest⟩ := List.append_eq_nil_iff.1 ht
    obtain ⟨hliteral, hreference⟩ := ih htext
    obtain ⟨hliteral', hreference'⟩ := ihrest hrest
    refine ⟨by simpa using hliteral', fun r hr => ?_⟩
    rcases List.mem_cons.1 hr with heq | hr
    · cases heq
      exact .intro hmem hliteral hreference
    · exact hreference' r hr

theorem closed_nullable (g : Grammar) : Closed g.rules g.nullable :=
  fun _ h => g.marked_of_isNullable h

theorem backed_nullable (g : Grammar) : Backed g.rules g.nullable := by
  intro r hr
  have hderives : g.Derives [.reference r] [] := derives_nil_iff.2 (List.forall_mem_singleton.2 hr)
  exact (hderives.derivesEmpty rfl).2 r List.mem_cons_self

/-- The sweeps through the rules of a grammar end with its marks. -/
theorem sweeps_rules (g : Grammar) :
    sweeps g.rules (Vector.replicate g.size false) (g.size + 1) = some g.nullable := by
  obtain ⟨last, hlast, hclosed, hbacked⟩ := exists_sweeps_unmarked g.rules
  rw [hlast, hclosed.unique hbacked g.closed_nullable g.backed_nullable]

end Grammar

end Typeahead.Grammar
