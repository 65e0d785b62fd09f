import Mathlib.Logic.Relation
import Mathlib.Order.WellFounded
import Typeahead.Proofs.Grammar.Nullable

/-!
# Grammars without left recursion

When the search reports no rule, the leftmost references have no cycle (`not_transGen_leadsTo`): from
rule to rule they are well-founded (`wellFounded_leadsTo`).

- **Leftmost steps** (`LeadsTo`): a rule is referred to in an alternative before which nothing needs
  to be consumed. These are the references that the search goes through (`mem_leftmost`).
- **Searches** (`Search`): a finished rule starts no endless chain of references, and a reference of
  an unfinished rule is still to be tried, leads to a finished rule, or is being explored.
- **Ends** (`Search.explore`, `Search.exploreAll`): a search that reports nothing has finished every
  rule it was given.
-/

namespace Typeahead.Grammar

open Relation

variable {n : Nat}

/-- A reference leads an alternative when all items before it derive the empty text. -/
theorem mem_leads {marks : Vector Bool n} {items : List (Item (Fin n))} {r : Fin n} :
    r ∈ leads marks items ↔
      ∃ before after, items = before ++ .reference r :: after ∧
        ∀ item ∈ before, item.isNullable marks = true := by
  induction items with
  | nil => simp [leads]
  | cons item items ih =>
    -- What stands before the reference is nothing, or begins with `item`.
    have hsplit : (∃ before after, item :: items = before ++ .reference r :: after ∧
        ∀ i ∈ before, i.isNullable marks = true) ↔
          item = .reference r ∨ item.isNullable marks = true ∧ r ∈ leads marks items := by
      rw [ih]
      constructor
      · rintro ⟨before, after, heq, hall⟩
        cases before with
        | nil => exact .inl (List.cons.inj heq).1
        | cons i before =>
          obtain ⟨rfl, rfl⟩ := List.cons.inj heq
          exact .inr ⟨hall _ List.mem_cons_self, before, after, rfl,
            fun j hj => hall j (List.mem_cons_of_mem _ hj)⟩
      · rintro (rfl | ⟨hitem, before, after, rfl, hall⟩)
        · exact ⟨[], items, rfl, by simp⟩
        · exact ⟨item :: before, after, rfl, by simpa using ⟨hitem, hall⟩⟩
    rw [hsplit]
    cases item with
    | reference r' =>
      simp only [leads, Item.isNullable, Item.reference.injEq, List.mem_cons]
      by_cases hr : marks.get r' = true
      · simp [hr, eq_comm]
      · simp [hr, eq_comm]
    | literal text =>
      simp only [leads, Item.isNullable]
      split <;> simp_all

/-- Rule `r'` is referred to by rule `r` where nothing needs to have been consumed. -/
def LeadsTo (g : Grammar) (r r' : g.RuleId) : Prop :=
  ∃ before after, before ++ .reference r' :: after ∈ (g.rule r).alternatives ∧
    ∀ item ∈ before, item.isNullable g.nullable = true

theorem mem_leftmost {g : Grammar} {r r' : g.RuleId} : r' ∈ g.leftmost.get r ↔ g.LeadsTo r r' := by
  have hget : g.leftmost.get r = (g.rule r).alternatives.flatMap (leads g.nullable) :=
    Vector.getElem_map _ r.isLt
  rw [hget, List.mem_flatMap]
  constructor
  · rintro ⟨items, hitems, hr⟩
    obtain ⟨before, after, rfl, hall⟩ := mem_leads.1 hr
    exact ⟨before, after, hitems, hall⟩
  · rintro ⟨before, after, hitems, hall⟩
    exact ⟨_, hitems, mem_leads.2 ⟨before, after, rfl, hall⟩⟩

/-- Each reference of an unfinished rule is untried, leads to a finished rule, or leads to the rule
explored on its behalf, which is `inner` for the first rule of the stack. -/
def Pending (refs : Vector (List (Fin n)) n) (marks : Vector Mark n) :
    Option (Fin n) → List (Fin n × List (Fin n)) → Prop
  | _, [] => True
  | inner, (r, rest) :: stack =>
    (∀ a ∈ refs.get r, a ∈ rest ∨ marks.get a = .finished ∨ inner = some a) ∧
      Pending refs marks (some r) stack

/-- What holds between two steps of a search. -/
structure Search (refs : Vector (List (Fin n)) n) (marks : Vector Mark n)
    (stack : List (Fin n × List (Fin n))) : Prop where
  settled : ∀ r : Fin n, marks.get r = .finished → Acc (fun a b : Fin n => a ∈ refs.get b) r
  pending : Pending refs marks none stack
  exploring : ∀ r : Fin n, marks.get r = .exploring → r ∈ stack.map Prod.fst

section Search

variable {refs : Vector (List (Fin n)) n} {marks marks' : Vector Mark n}
  {stack : List (Fin n × List (Fin n))}

/-- A search may finish more rules, and the first rule's `inner` one too. -/
theorem Pending.mono {inner inner' : Option (Fin n)} (h : Pending refs marks inner stack)
    (hfinished : ∀ a : Fin n, marks.get a = .finished → marks'.get a = .finished)
    (hinner : ∀ a : Fin n, inner = some a → inner' = some a ∨ marks'.get a = .finished) :
    Pending refs marks' inner' stack := by
  induction stack generalizing inner inner' with
  | nil => trivial
  | cons e stack ih =>
    obtain ⟨r, rest⟩ := e
    obtain ⟨hr, hstack⟩ := h
    refine ⟨fun a ha => ?_, ih hstack fun a ha => .inl ha⟩
    rcases hr a ha with h | h | h
    · exact .inl h
    · exact .inr (.inl (hfinished a h))
    · exact .inr (hinner a h).symm

theorem finished_set {r a : Fin n} {m : Mark} (hr : m = .finished ∨ marks.get r ≠ .finished)
    (h : marks.get a = .finished) : (marks.set r.val m r.isLt).get a = .finished := by
  rw [get_set]
  split
  · rename_i heq
    subst heq
    exact hr.resolve_right (· h)
  · exact h

theorem Search.start (refs : Vector (List (Fin n)) n) :
    Search refs (Vector.replicate n .fresh) [] :=
  ⟨by simp [Vector.get], trivial, by simp [Vector.get]⟩

/-- A rule without untried references is finished. -/
theorem Search.finish {r : Fin n} (h : Search refs marks ((r, []) :: stack)) :
    Search refs (marks.set r.val .finished r.isLt) stack := by
  obtain ⟨hsettled, ⟨hr, hstack⟩, hexploring⟩ := h
  have hkeep : ∀ a : Fin n, marks.get a = .finished →
      (marks.set r.val .finished r.isLt).get a = .finished :=
    fun a => finished_set (.inl rfl)
  refine ⟨?_, ?_, ?_⟩
  · intro x hx
    rw [get_set] at hx
    split at hx
    · rename_i heq
      subst heq
      refine Acc.intro _ fun a ha => hsettled a ?_
      simpa using hr a ha
    · exact hsettled x hx
  · refine hstack.mono hkeep fun a ha => .inr ?_
    cases ha
    rw [get_set, if_pos rfl]
  · intro x hx
    rw [get_set] at hx
    split at hx
    · cases hx
    · rename_i hne
      rcases List.mem_cons.1 (hexploring x hx) with heq | hmem
      · exact absurd heq.symm hne
      · exact hmem

/-- A reference to a finished rule is passed over. -/
theorem Search.skip {r next : Fin n} {rest : List (Fin n)}
    (h : Search refs marks ((r, next :: rest) :: stack)) (hnext : marks.get next = .finished) :
    Search refs marks ((r, rest) :: stack) := by
  obtain ⟨hsettled, ⟨hr, hstack⟩, hexploring⟩ := h
  refine ⟨hsettled, ⟨fun a ha => ?_, hstack⟩, hexploring⟩
  rcases hr a ha with hmem | hfinished
  · rcases List.mem_cons.1 hmem with rfl | hmem
    · exact .inr (.inl hnext)
    · exact .inl hmem
  · exact .inr hfinished

/-- A rule that has not been met is explored before the others. -/
theorem Search.enter {r : Fin n} (h : marks.get r = .fresh)
    (hsettled : ∀ r : Fin n, marks.get r = .finished → Acc (fun a b : Fin n => a ∈ refs.get b) r)
    (hpending : Pending refs marks (some r) stack)
    (hexploring : ∀ r : Fin n, marks.get r = .exploring → r ∈ stack.map Prod.fst) :
    Search refs (marks.set r.val .exploring r.isLt) ((r, refs.get r) :: stack) := by
  have hkeep : ∀ a : Fin n, marks.get a = .finished →
      (marks.set r.val .exploring r.isLt).get a = .finished :=
    fun a => finished_set (.inr (by simp [h]))
  refine ⟨?_, ⟨fun a ha => .inl ha, hpending.mono hkeep fun a ha => .inl ha⟩, ?_⟩
  · intro x hx
    rw [get_set] at hx
    split at hx
    · cases hx
    · exact hsettled x hx
  · intro x hx
    rw [get_set] at hx
    split at hx
    · rename_i heq
      simp [heq]
    · exact List.mem_cons_of_mem _ (hexploring x hx)

/-- A reference to a rule that has not been met is explored before the others. -/
theorem Search.descend {r next : Fin n} {rest : List (Fin n)}
    (h : Search refs marks ((r, next :: rest) :: stack)) (hnext : marks.get next = .fresh) :
    Search refs (marks.set next.val .exploring next.isLt)
      ((next, refs.get next) :: (r, rest) :: stack) := by
  obtain ⟨hsettled, ⟨hr, hstack⟩, hexploring⟩ := h
  refine .enter hnext hsettled ⟨fun a ha => ?_, hstack⟩ hexploring
  rcases hr a ha with hmem | hfinished | hnone
  · rcases List.mem_cons.1 hmem with rfl | hmem
    · exact .inr (.inr rfl)
    · exact .inl hmem
  · exact .inr (.inl hfinished)
  · cases hnone

/-- A search that reports nothing finishes the whole stack. -/
theorem Search.explore (h : Search refs marks stack)
    (hok : Grammar.explore refs marks stack = .ok marks') :
    Search refs marks' [] ∧
      ∀ r : Fin n, marks.get r = .finished ∨ r ∈ stack.map Prod.fst → marks'.get r = .finished := by
  fun_induction Grammar.explore refs marks stack with
  | case1 marks =>
    cases hok
    refine ⟨h, fun r hr => ?_⟩
    simpa using hr
  | case2 marks r stack ih =>
    obtain ⟨hsearch, hfinished⟩ := ih h.finish hok
    refine ⟨hsearch, fun x hx => hfinished x ?_⟩
    rw [get_set]
    split
    · exact .inl rfl
    · rename_i hne
      simpa [Ne.symm hne] using hx
  | case3 => cases hok
  | case4 marks r next rest stack hnext ih => exact ih (h.skip hnext) hok
  | case5 marks r next rest stack hnext ih =>
    obtain ⟨hsearch, hfinished⟩ := ih (h.descend hnext) hok
    refine ⟨hsearch, fun x hx => hfinished x ?_⟩
    rcases hx with hx | hx
    · exact .inl (finished_set (.inr (by simp [hnext])) hx)
    · exact .inr (List.mem_cons_of_mem _ hx)

/-- A search through several rules that reports nothing finishes them all. -/
theorem Search.exploreAll {rules : List (Fin n)} (h : Search refs marks [])
    (hok : Grammar.exploreAll refs marks rules = .ok marks') :
    Search refs marks' [] ∧
      ∀ r : Fin n, marks.get r = .finished ∨ r ∈ rules → marks'.get r = .finished := by
  induction rules generalizing marks with
  | nil =>
    cases hok
    refine ⟨h, fun r hr => ?_⟩
    simpa using hr
  | cons r rules ih =>
    cases hr : marks.get r with
    | exploring => simpa using h.exploring r hr
    | finished =>
      simp only [Grammar.exploreAll, hr] at hok
      obtain ⟨hsearch, hfinished⟩ := ih h hok
      refine ⟨hsearch, fun x hx => hfinished x ?_⟩
      rcases hx with hx | hx
      · exact .inl hx
      · rcases List.mem_cons.1 hx with rfl | hx
        · exact .inl hr
        · exact .inr hx
    | fresh =>
      simp only [Grammar.exploreAll, hr] at hok
      cases he : Grammar.explore refs (marks.set r.val .exploring r.isLt) [(r, refs.get r)] with
      | error found =>
        rw [he] at hok
        cases hok
      | ok marks₁ =>
        rw [he] at hok
        have hfirst : Search refs (marks.set r.val .exploring r.isLt) [(r, refs.get r)] :=
          .enter hr h.settled trivial h.exploring
        obtain ⟨hsearch₁, hfinished₁⟩ := hfirst.explore he
        obtain ⟨hsearch, hfinished⟩ := ih hsearch₁ hok
        refine ⟨hsearch, fun x hx => hfinished x ?_⟩
        rcases hx with hx | hx
        · exact .inl (hfinished₁ x (.inl (finished_set (.inr (by simp [hr])) hx)))
        · rcases List.mem_cons.1 hx with rfl | hx
          · exact .inl (hfinished₁ x (.inr List.mem_cons_self))
          · exact .inr hx

end Search

/-- Without left recursion, no chain of leftmost steps is endless. -/
theorem wellFounded_leadsTo {g : Grammar} (h : g.leftRecursion? = none) :
    WellFounded fun r' r => g.LeadsTo r r' := by
  unfold leftRecursion? at h
  split at h
  · rename_i marks hok
    obtain ⟨hsearch, hfinished⟩ := (Search.start g.leftmost).exploreAll hok
    refine ⟨fun r => ?_⟩
    have hacc := hsearch.settled r (hfinished r (.inr (List.mem_finRange r)))
    simpa only [mem_leftmost] using hacc
  · cases h

/-- Without left recursion, no rule leads to itself. -/
theorem not_transGen_leadsTo {g : Grammar} (h : g.leftRecursion? = none) (r : g.RuleId) :
    ¬ TransGen g.LeadsTo r r := by
  intro hr
  have hwf : WellFounded (TransGen fun r' r => g.LeadsTo r r') := (wellFounded_leadsTo h).transGen
  exact hwf.irrefl.irrefl r (transGen_swap.1 hr)

end Typeahead.Grammar
