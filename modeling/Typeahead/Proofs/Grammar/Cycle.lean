import Typeahead.Proofs.Grammar.Compile
import Typeahead.Proofs.Grammar.Derivation
import Typeahead.Proofs.Grammar.LeftRecursion

/-!
# Left recursion is found, and nothing else

A text whose rules are all in order is refused just when one of them can be entered again before
anything was consumed (`compile_leftRecursive`).

- **Leftmost steps** (`Enters`): what stands before the reference derives the empty text. The steps
  that the search takes are these (`enters_eq_leadsTo`).
- **Trails** (`Trail`): the rules on the stack of a search lead from one to the next, outermost
  first. So a rule that is met while it is still being explored lies on a cycle
  (`Search.explore_error`).
- **Reports** (`transGen_of_leftRecursion?`): the rule that is reported can reach itself. Where none
  is reported there is no cycle (`not_transGen_leadsTo`).
-/

namespace Typeahead.Grammar

open Relation

variable {n : Nat}

/-! ## Trails -/

/-- Each rule of a stack is referred to by the rule below it, and what is left to try for a rule is
among its references. -/
structure Trail (refs : Vector (List (Fin n)) n) (stack : List (Fin n × List (Fin n))) : Prop where
  chain : (stack.map Prod.fst).IsChain fun a b => a ∈ refs.get b
  untried : ∀ e ∈ stack, e.2 ⊆ refs.get e.1

section Trail

variable {refs : Vector (List (Fin n)) n} {marks : Vector Mark n} {r next found : Fin n}
  {rest : List (Fin n)} {stack : List (Fin n × List (Fin n))}

/-- Every rule of a chain leads to its first. -/
theorem reaches_of_isChain {rules : List (Fin n)} {x : Fin n}
    (h : (r :: rules).IsChain fun a b => a ∈ refs.get b) (hx : x ∈ r :: rules) :
    ReflTransGen (fun a b => b ∈ refs.get a) x r := by
  induction rules generalizing r with
  | nil => rw [List.mem_singleton.1 hx]
  | cons b rules ih =>
    obtain ⟨hb, hchain⟩ := List.isChain_cons_cons.1 h
    rcases List.mem_cons.1 hx with rfl | hx
    · exact .refl
    · exact (ih hchain hx).tail hb

theorem trail_singleton (r : Fin n) : Trail refs [(r, refs.get r)] where
  chain := .singleton r
  untried e he := by
    rw [List.mem_singleton.1 he]
    exact List.Subset.refl _

theorem Trail.finish (h : Trail refs ((r, rest) :: stack)) : Trail refs stack where
  chain := h.chain.tail
  untried e he := h.untried e (List.mem_cons_of_mem _ he)

theorem Trail.next_mem (h : Trail refs ((r, next :: rest) :: stack)) : next ∈ refs.get r :=
  h.untried _ List.mem_cons_self List.mem_cons_self

theorem Trail.skip (h : Trail refs ((r, next :: rest) :: stack)) :
    Trail refs ((r, rest) :: stack) where
  chain := h.chain
  untried e he := by
    rcases List.mem_cons.1 he with rfl | he
    · exact List.Subset.trans (List.subset_cons_self next rest) (h.untried _ List.mem_cons_self)
    · exact h.untried e (List.mem_cons_of_mem _ he)

theorem Trail.descend (h : Trail refs ((r, next :: rest) :: stack)) :
    Trail refs ((next, refs.get next) :: (r, rest) :: stack) where
  chain := List.isChain_cons_cons.2 ⟨h.next_mem, h.chain⟩
  untried e he := by
    rcases List.mem_cons.1 he with rfl | he
    · exact List.Subset.refl _
    · exact h.skip.untried e he

/-- A search that reports a rule has come back to it. -/
theorem Search.explore_error (h : Search refs marks stack) (ht : Trail refs stack)
    (he : Grammar.explore refs marks stack = .error found) :
    TransGen (fun a b => b ∈ refs.get a) found found := by
  fun_induction Grammar.explore refs marks stack with
  | case1 => cases he
  | case2 marks r stack ih => exact ih h.finish ht.finish he
  | case3 marks r next rest stack hnext =>
    cases he
    exact TransGen.tail' (reaches_of_isChain ht.chain (h.exploring _ hnext)) ht.next_mem
  | case4 marks r next rest stack hnext ih => exact ih (h.skip hnext) ht.skip he
  | case5 marks r next rest stack hnext ih => exact ih (h.descend hnext) ht.descend he

theorem Search.exploreAll_error {rules : List (Fin n)} (h : Search refs marks [])
    (he : Grammar.exploreAll refs marks rules = .error found) :
    TransGen (fun a b => b ∈ refs.get a) found found := by
  induction rules generalizing marks with
  | nil => cases he
  | cons r rules ih =>
    cases hr : marks.get r with
    | exploring => simpa using h.exploring r hr
    | finished =>
      simp only [Grammar.exploreAll, hr] at he
      exact ih h he
    | fresh =>
      have hfirst : Search refs (marks.set r.val .exploring r.isLt) [(r, refs.get r)] :=
        .enter hr h.settled trivial h.exploring
      simp only [Grammar.exploreAll, hr] at he
      cases hx : Grammar.explore refs (marks.set r.val .exploring r.isLt) [(r, refs.get r)] with
      | error found' =>
        rw [hx] at he
        cases he
        exact hfirst.explore_error (trail_singleton r) hx
      | ok marks' =>
        rw [hx] at he
        exact ih (hfirst.explore hx).1 he

end Trail

/-! ## Leftmost steps -/

/-- Rule `r` can be at rule `r'` before it has consumed anything: it refers to it, and what stands
before the reference derives the empty text. -/
def Enters (g : Grammar) (r r' : g.RuleId) : Prop :=
  ∃ before after, before ++ .reference r' :: after ∈ (g.rule r).alternatives ∧ g.Derives before []

theorem enters_eq_leadsTo (g : Grammar) : g.Enters = g.LeadsTo := by
  funext r r'
  simp only [LeadsTo, Enters, derives_nil_iff]

/-- A rule that is reported can reach itself. -/
theorem transGen_of_leftRecursion? {g : Grammar} {r : g.RuleId} (h : g.leftRecursion? = some r) :
    TransGen g.Enters r r := by
  rw [enters_eq_leadsTo]
  unfold leftRecursion? at h
  split at h
  · cases h
  · rename_i found he
    cases h
    have hcycle := (Search.start g.leftmost).exploreAll_error he
    simpa only [mem_leftmost] using hcycle

/-- **Left recursion.** A text that every other check lets through is refused as left-recursive when
some rule can reach itself by leftmost steps, and only then. The rule that is named is one that
can, and no other has its name. -/
theorem compile_leftRecursive {source : String} {tokens : List Token} {drafts : List Draft}
    {g : Grammar} (htokens : tokenize source.toList = .ok tokens)
    (hdrafts : Draft.ofTokens tokens = .ok drafts) (hnames : (drafts.map (·.name)).Nodup)
    (hg : resolve drafts = .ok g) :
    ((∃ name, compile source = .error (.leftRecursive name)) ↔ ∃ r, TransGen g.Enters r r) ∧
      ∀ name, compile source = .error (.leftRecursive name) →
        ∃ r, (g.rule r).name = name ∧ TransGen g.Enters r r ∧
          ∀ r', (g.rule r').name = name → r' = r := by
  rw [compile_eq htokens hdrafts hnames hg]
  cases hfound : g.leftRecursion? with
  | none =>
    have hnone : ∀ r, ¬ TransGen g.Enters r r := by
      rw [enters_eq_leadsTo]
      exact not_transGen_leadsTo hfound
    exact ⟨⟨fun ⟨_, h⟩ => (by cases h), fun ⟨r, hr⟩ => absurd hr (hnone r)⟩, fun _ h => by cases h⟩
  | some r =>
    have hr := transGen_of_leftRecursion? hfound
    refine ⟨⟨fun _ => ⟨r, hr⟩, fun _ => ⟨_, rfl⟩⟩, fun name h => ?_⟩
    cases h
    exact ⟨r, rfl, hr, fun r' h => eq_of_name_eq hnames hg h⟩

/-- A rule that begins with one that is empty, and goes on with itself. -/
def hiddenCycle : Grammar where
  size := 2
  size_pos := Nat.two_pos
  rules := #v[⟨"a", .node,
      [[.reference ⟨1, Nat.one_lt_two⟩, .reference ⟨0, Nat.two_pos⟩], [.literal ['y']]]⟩,
    ⟨"n", .node, [[.literal []]]⟩]

set_option maxRecDepth 4000 in
theorem compile_leftRecursive_hiddenCycle : ∃ tokens drafts,
    tokenize "<a> ::= <n> <a> | 'y' <n> ::= ''".toList = .ok tokens ∧
      Draft.ofTokens tokens = .ok drafts ∧ (drafts.map (·.name)).Nodup ∧
      resolve drafts = .ok hiddenCycle ∧ TransGen hiddenCycle.Enters hiddenCycle.start hiddenCycle.start ∧
      ∃ name, compile "<a> ::= <n> <a> | 'y' <n> ::= ''" = .error (.leftRecursive name) := by
  have ha : Emission.ofName "a" = .node := by decide +kernel
  have hn : Emission.ofName "n" = .node := by decide +kernel
  let tokens : List Token := [⟨.reference "a", ⟨1, 1⟩⟩, ⟨.define, ⟨1, 5⟩⟩,
    ⟨.reference "n", ⟨1, 9⟩⟩, ⟨.reference "a", ⟨1, 13⟩⟩, ⟨.pipe, ⟨1, 17⟩⟩,
    ⟨.literal ['y'], ⟨1, 19⟩⟩, ⟨.reference "n", ⟨1, 23⟩⟩, ⟨.define, ⟨1, 27⟩⟩,
    ⟨.literal [], ⟨1, 31⟩⟩]
  let drafts : List Draft :=
    [⟨"a", .node, [[.reference "n", .reference "a"], [.literal ['y']]]⟩,
      ⟨"n", .node, [[.literal []]]⟩]
  have htokens : tokenize "<a> ::= <n> <a> | 'y' <n> ::= ''".toList = .ok tokens := by rfl
  have hdrafts : Draft.ofTokens tokens = .ok drafts := by
    simp [Draft.ofTokens, Draft.collect, Draft.close, Draft.Body.close, Draft.Body.ofName,
      Draft.Body.push, Draft.Body.next, Draft.Body.alternatives, Except.map, ha, hn, drafts, tokens]
  have hnames : (drafts.map (·.name)).Nodup := by decide
  have hg : resolve drafts = .ok hiddenCycle := by
    have h₀ : (indexOf drafts)["a"]? = some ⟨0, by decide⟩ := by
      rw [getElem?_indexOf]
      rfl
    have h₁ : (indexOf drafts)["n"]? = some ⟨1, by decide⟩ := by
      rw [getElem?_indexOf]
      rfl
    unfold resolve
    generalize indexOf drafts = names at h₀ h₁ ⊢
    simp [drafts, resolveRules, resolveRule, resolveItem, h₀, h₁, pure, Except.pure, bind,
      Except.bind]
    rfl
  have hcycle : TransGen hiddenCycle.Enters hiddenCycle.start hiddenCycle.start := by
    have hempty : [.literal []] ∈ (hiddenCycle.rule ⟨1, by decide⟩).alternatives :=
      List.mem_cons_self
    exact .single ⟨[.reference ⟨1, by decide⟩], [], List.mem_cons_self,
      .reference hempty (.literal [] .nil) .nil⟩
  exact ⟨tokens, drafts, htokens, hdrafts, hnames, hg, hcycle,
    (compile_leftRecursive htokens hdrafts hnames hg).1.2 ⟨hiddenCycle.start, hcycle⟩⟩

end Typeahead.Grammar
