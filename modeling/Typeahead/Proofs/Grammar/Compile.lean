import Mathlib
import Typeahead.Grammar.Compile

/-!
# What is compiled

A text is compiled to a grammar when every check in turn lets it through (`compile_eq_ok_iff`). So a
compiled grammar has no left recursion (`leftRecursion?_of_compile`). The last check is the one for
left recursion, and its outcome is that of the whole (`compile_eq`); the rule that it reports is told
by its name (`eq_of_name_eq`).

`twoWays` is a small compiled grammar. It has a rule that begins in two ways with one reference, so
the outcome of that reference is used twice.
-/

namespace Typeahead.Grammar

theorem bind_eq_ok_iff {ε α β : Type} {x : Except ε α} {f : α → Except ε β} {b : β} :
    (x >>= f) = .ok b ↔ ∃ a, x = .ok a ∧ f a = .ok b := by
  cases x <;> simp [bind, Except.bind]

theorem bind_eq_error_iff {ε α β : Type} {x : Except ε α} {f : α → Except ε β} {e : ε} :
    (x >>= f) = .error e ↔ x = .error e ∨ ∃ a, x = .ok a ∧ f a = .error e := by
  cases x <;> simp [bind, Except.bind]

/-- Once the references are resolved, left recursion decides. -/
theorem compile_eq {source : String} {tokens : List Token} {drafts : List Draft} {g : Grammar}
    (htokens : tokenize source.toList = .ok tokens) (hdrafts : Draft.ofTokens tokens = .ok drafts)
    (hnames : (drafts.map (·.name)).Nodup) (hg : resolve drafts = .ok g) :
    compile source = g.leftRecursion?.elim (.ok g) fun r =>
      .error (.leftRecursive (g.rule r).name) := by
  rw [← repeated?_eq_none_iff] at hnames
  unfold compile
  simp only [htokens, hdrafts, hnames, hg, bind, Except.bind, pure, Except.pure]
  cases g.leftRecursion? <;> rfl

theorem compile_eq_ok_iff {source : String} {g : Grammar} :
    compile source = .ok g ↔ ∃ tokens drafts, tokenize source.toList = .ok tokens ∧
      Draft.ofTokens tokens = .ok drafts ∧ (drafts.map (·.name)).Nodup ∧
      resolve drafts = .ok g ∧ g.leftRecursion? = none := by
  constructor
  · intro h
    have hcompile := h
    simp only [compile, bind_eq_ok_iff] at h
    obtain ⟨tokens, htokens, drafts, hdrafts, h⟩ := h
    cases hnames : repeated? (drafts.map (·.name)) with
    | some name =>
      rw [hnames] at h
      cases h
    | none =>
      rw [hnames] at h
      simp only [bind_eq_ok_iff] at h
      obtain ⟨g', hg, -⟩ := h
      rw [repeated?_eq_none_iff] at hnames
      rw [compile_eq htokens hdrafts hnames hg] at hcompile
      cases hleft : g'.leftRecursion? with
      | some r =>
        rw [hleft] at hcompile
        cases hcompile
      | none =>
        rw [hleft] at hcompile
        cases hcompile
        exact ⟨tokens, drafts, htokens, hdrafts, hnames, hg, hleft⟩
  · rintro ⟨tokens, drafts, htokens, hdrafts, hnames, hg, hleft⟩
    rw [compile_eq htokens hdrafts hnames hg, hleft]
    rfl

/-- The rules of the grammar have the names of the drafts. -/
theorem map_name_resolveRules {n : Nat} {names : Std.HashMap String (Fin n)} {drafts : List Draft}
    {rules : { rules : List (Rule (Fin n)) // rules.length = drafts.length }}
    (h : resolveRules names drafts = .ok rules) :
    rules.val.map (·.name) = drafts.map (·.name) := by
  induction drafts with
  | nil =>
    cases h
    rfl
  | cons d drafts ih =>
    simp only [resolveRules, bind_eq_ok_iff] at h
    obtain ⟨rule, hrule, rest, hrest, h⟩ := h
    simp only [resolveRule, bind_eq_ok_iff] at hrule
    obtain ⟨alternatives, -, hrule⟩ := hrule
    cases h
    cases hrule
    rw [List.map_cons, List.map_cons, ih hrest]

theorem map_name_resolve {drafts : List Draft} {g : Grammar} (h : resolve drafts = .ok g) :
    g.rules.toList.map (·.name) = drafts.map (·.name) := by
  unfold resolve at h
  split at h
  · split at h
    · rename_i rules hlength hrules
      cases h
      exact map_name_resolveRules hrules
    · cases h
  · cases h

/-- Where the drafts have different names, a rule is told by its name. -/
theorem eq_of_name_eq {drafts : List Draft} {g : Grammar} (hnames : (drafts.map (·.name)).Nodup)
    (hg : resolve drafts = .ok g) {r r' : g.RuleId} (h : (g.rule r).name = (g.rule r').name) :
    r = r' := by
  rw [← map_name_resolve hg] at hnames
  have hget : ∀ x : g.RuleId, (g.rules.toList.map (·.name))[x.val]? = some (g.rule x).name := by
    intro x
    simp [rule, Vector.get]
  have hlt : r.val < (g.rules.toList.map (·.name)).length := by simp
  refine Fin.ext ((List.getElem?_inj hlt hnames).1 ?_)
  rw [hget, hget, h]

theorem leftRecursion?_of_compile {source : String} {g : Grammar} (h : compile source = .ok g) :
    g.leftRecursion? = none := by
  obtain ⟨_, _, -, -, -, -, hleft⟩ := compile_eq_ok_iff.1 h
  exact hleft

/-- A rule that begins with another in both of its alternatives. -/
def twoWays : Grammar where
  size := 2
  size_pos := by decide
  rules := #v[⟨"a", .node, [[.reference 1, .literal ['y']], [.reference 1, .literal ['x']]]⟩,
    ⟨"b", .node, [[.literal ['z']]]⟩]

set_option maxRecDepth 4000 in
theorem compile_twoWays : compile "<a> ::= <b> 'y' | <b> 'x' <b> ::= 'z'" = .ok twoWays := by
  have ha : Emission.ofName "a" = .node := by decide +kernel
  have hb : Emission.ofName "b" = .node := by decide +kernel
  let drafts : List Draft :=
    [⟨"a", .node, [[.reference "b", .literal ['y']], [.reference "b", .literal ['x']]]⟩,
      ⟨"b", .node, [[.literal ['z']]]⟩]
  have hname : (indexOf drafts)["b"]? = some ⟨1, by decide⟩ := by
    rw [getElem?_indexOf]
    rfl
  refine compile_eq_ok_iff.2 ⟨[⟨.reference "a", ⟨1, 1⟩⟩, ⟨.define, ⟨1, 5⟩⟩,
    ⟨.reference "b", ⟨1, 9⟩⟩, ⟨.literal ['y'], ⟨1, 13⟩⟩, ⟨.pipe, ⟨1, 17⟩⟩,
    ⟨.reference "b", ⟨1, 19⟩⟩, ⟨.literal ['x'], ⟨1, 23⟩⟩, ⟨.reference "b", ⟨1, 27⟩⟩,
    ⟨.define, ⟨1, 31⟩⟩, ⟨.literal ['z'], ⟨1, 35⟩⟩], drafts, ?_, ?_, ?_, ?_, ?_⟩
  · rfl
  · simp [Draft.ofTokens, Draft.collect, Draft.close, Draft.Body.close, Draft.Body.ofName,
      Draft.Body.push, Draft.Body.next, Draft.Body.alternatives, Except.map, ha, hb, drafts]
  · decide
  · unfold resolve
    generalize indexOf drafts = names at hname ⊢
    simp [drafts, resolveRules, resolveRule, resolveItem, hname, pure, Except.pure, bind,
      Except.bind]
    rfl
  · cbv

end Typeahead.Grammar
