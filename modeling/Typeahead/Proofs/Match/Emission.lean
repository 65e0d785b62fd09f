import Typeahead.Proofs.Grammar.Written
import Typeahead.Proofs.Match.Fault
import Typeahead.Proofs.Match.Packrat

/-!
# What emission decides

What a rule emits has no part in how a text is matched. It only says what is left of the tree in
which every rule makes a node.

- **Other emissions** (`Grammar.emitting`): the same rules, each with an emission of its own.
  Neither nullable rules nor left recursion depend on it (`nullable_emitting`,
  `leftRecursion?_emitting`).
- **Thinning** (`Branch.thin`): silent nodes go with all below them; in the place of a spliced node
  stands what is left of its children. This is done at every depth.
- **Outcomes** (`Yields.thin`): a task goes as far and fails as often whatever the rules emit, and
  the branches of its match are thinned.
- **Readings** (`read_emitting`): so the root and the faults of a text stay, and what stands below
  the root is thinned.
-/

namespace Typeahead

open Grammar

namespace Branch

mutual

/-- What is left of a branch when each node emits as `emission` says of its kind. -/
def thin (emission : String → Emission) : Branch → List Branch
  | mk label children =>
    match emission label.kind with
    | .node => [mk label (thinAll emission children)]
    | .silent => []
    | .splice => thinAll emission children

/-- What is left of several branches, in order. -/
def thinAll (emission : String → Emission) : List Branch → List Branch
  | [] => []
  | b :: bs => thin emission b ++ thinAll emission bs

end

theorem thinAll_append (emission : String → Emission) (as bs : List Branch) :
    thinAll emission (as ++ bs) = thinAll emission as ++ thinAll emission bs := by
  induction as with
  | nil => rfl
  | cons a as ih => simp [thinAll, ih]

/-- A spliced node in a silent one goes with it, and a silent one in a spliced one goes alone. -/
example : thinAll (fun kind => if kind = "f" then .splice else if kind = "S" then .silent else .node)
    [⟨⟨"S", 0, 2, false, false⟩, [⟨⟨"f", 0, 2, false, false⟩, [⟨⟨"n", 0, 2, false, false⟩, []⟩]⟩]⟩,
      ⟨⟨"f", 2, 6, false, false⟩, [⟨⟨"S", 2, 4, false, false⟩, [⟨⟨"n", 2, 4, false, false⟩, []⟩]⟩,
        ⟨⟨"n", 4, 6, false, false⟩, []⟩]⟩] = [⟨⟨"n", 4, 6, false, false⟩, []⟩] := rfl

end Branch

/-- What is left of a match when each node emits as `emission` says of its kind. -/
def Match.thin (emission : String → Emission) (m : Match) : Match :=
  ⟨m.stop, Branch.thinAll emission m.branches⟩

namespace Grammar

variable (g : Grammar)

/-- The grammar with the same rules, each of which emits as `emission` says. -/
@[reducible]
def emitting (emission : g.RuleId → Emission) : Grammar :=
  ⟨g.size, g.size_pos, Vector.ofFn fun r => { g.rule r with emission := emission r }⟩

/-- What the first rule of a name emits. -/
def emissionOf (kind : String) : Emission := ((g.rule? kind).map (·.emission)).getD .node

variable {g}

@[simp] theorem rule_emitting (emission : g.RuleId → Emission) (r : g.RuleId) :
    (g.emitting emission).rule r = { g.rule r with emission := emission r } :=
  Vector.getElem_ofFn r.isLt

/-- A grammar is among those that differ from it in emission. -/
theorem emitting_self : g.emitting (fun r => (g.rule r).emission) = g := by
  obtain ⟨size, size_pos, rules⟩ := g
  have hrules : (Vector.ofFn fun r : Fin size => rules.get r) = rules :=
    Vector.ext fun i hi => Vector.getElem_ofFn hi
  exact congrArg (Grammar.mk size size_pos) hrules

/-- Where no two rules have one name, the name tells what a rule emits. -/
theorem emissionOf_name (hnames : Function.Injective g.nameOf) (r : g.RuleId) :
    g.emissionOf (g.rule r).name = (g.rule r).emission := by
  have hsome : ((List.ofFn g.rule).find? (·.name == (g.rule r).name)).isSome := by
    rw [List.find?_isSome]
    exact ⟨g.rule r, by simp, by simp⟩
  obtain ⟨rule, hrule⟩ := Option.isSome_iff_exists.1 hsome
  obtain ⟨r', rfl⟩ := List.mem_ofFn.1 (List.mem_of_find?_eq_some hrule)
  have hfound := List.find?_some hrule
  have hname : g.nameOf r' = g.nameOf r := beq_iff_eq.1 hfound
  rw [hnames hname] at hrule
  rw [emissionOf, rule?, toList_rules, hrule]
  rfl

/-! ## What does not depend on emission -/

theorem mark_emitting (emission : g.RuleId → Emission) : (g.emitting emission).mark = g.mark := by
  funext r marks
  simp only [mark, rule_emitting]
  rfl

theorem nullable_emitting (emission : g.RuleId → Emission) :
    (g.emitting emission).nullable = g.nullable := by
  have hround : (g.emitting emission).markRound = g.markRound := by
    funext marks
    simp only [markRound, mark_emitting]
  have hrounds (rounds : Nat) (marks : Vector Bool g.size) :
      (g.emitting emission).markRounds marks rounds = g.markRounds marks rounds := by
    induction rounds generalizing marks with
    | zero => rfl
    | succ rounds ih => simp only [markRounds, hround, ih]
  exact hrounds _ _

theorem leftRecursion?_emitting (emission : g.RuleId → Emission) :
    (g.emitting emission).leftRecursion? = g.leftRecursion? := by
  have hleftmost : (g.emitting emission).leftmost = g.leftmost := by
    refine Vector.ext fun i hi => ?_
    simp only [leftmost, nullable_emitting, Vector.getElem_map, Vector.getElem_ofFn]
    rfl
  unfold leftRecursion?
  rw [hleftmost]
  cases exploreAll g.leftmost (Vector.replicate g.size .fresh) (List.finRange g.size) <;> rfl

/-- Only the flags of the root tell what the start rule emits. -/
theorem rootLabel_emitting (emission emission' : g.RuleId → Emission) (stop : Nat) :
    (g.emitting emission').rootLabel stop =
      { (g.emitting emission).rootLabel stop with
        splice := emission' g.start = .splice, silent := emission' g.start = .silent } := by
  simp only [rootLabel, rule_emitting]
  rfl

/-! ## Outcomes -/

/-- The same task, for rules that emit otherwise. -/
def Task.emitting {emission : g.RuleId → Emission} (emission' : g.RuleId → Emission) :
    Task (g.emitting emission) → Task (g.emitting emission')
  | .first alternatives => .first alternatives
  | .all items => .all items

section

variable {emission : g.RuleId → Emission} {kinds : String → Emission}
  (hkinds : ∀ r, kinds (g.rule r).name = emission r)

include hkinds

/-- What is left of a node is what its rule emits. -/
theorem thinAll_emit (r : g.RuleId) (s : Spot) (m : Match) :
    Branch.thinAll kinds ((g.emitting fun _ => .node).emit r s m) =
      (g.emitting emission).emit r s (m.thin kinds) := by
  cases h : emission r <;>
    simp [emit, rule_emitting, Branch.thinAll, Branch.thin, hkinds, Match.thin, h]

/-- Whatever the rules emit, a task goes as far and the same literals fail. -/
theorem Yields.thin {task : Task (g.emitting fun _ => .node)} {s : Spot} {o : Option Match}
    {failures : Failures} (h : Yields (g.emitting fun _ => .node) task s o failures) :
    Yields (g.emitting emission) (task.emitting emission) s (o.map (Match.thin kinds)) failures := by
  induction h with
  | exhausted => exact .exhausted
  | taken _ ih => exact .taken ih
  | passed _ _ ih₁ ih₂ => exact .passed ih₁ ih₂
  | complete => exact .complete
  | literal hp _ ih => exact .literal hp ih
  | mismatch hp => exact .mismatch hp
  | @reference s r items m o failures after _ _ ih₁ ih₂ =>
    have hfirst : (g.emitting emission).Outcome r s (some (m.thin kinds)) failures := by
      simpa [Outcome, Task.emitting] using ih₁
    -- The branches of the rule are thinned apart from those of the items behind it.
    have hleft : (o.map fun rest =>
        ⟨rest.stop, (g.emitting fun _ => .node).emit r s m ++ rest.branches⟩).map (Match.thin kinds) =
        (o.map (Match.thin kinds)).map fun rest =>
          ⟨rest.stop, (g.emitting emission).emit r s (m.thin kinds) ++ rest.branches⟩ := by
      cases o with
      | none => rfl
      | some rest =>
        simp only [Option.map_some, ← thinAll_emit hkinds]
        simp [Match.thin, Branch.thinAll_append]
    rw [hleft]
    exact .reference hfirst ih₂
  | refused _ ih =>
    refine .refused ?_
    simpa [Task.emitting] using ih

end

/-! ## Readings -/

/-- **Emission only thins the tree.** Take the rules of a compiled grammar, and let each emit
anything. Of every text they have the root, to its end, and the faults that they have when all of
them make nodes. Below the root is left what thinning leaves; the root itself stays, with flags that
say what its rule emits. -/
theorem read_emitting {source : String} (h : compile source = .ok g)
    (emission : g.RuleId → Emission) (text : String) :
    let whole := (g.emitting fun _ => .node).read text
    (g.emitting emission).read text =
      ⟨⟨{ whole.root.label with
          splice := emission g.start = .splice, silent := emission g.start = .silent },
        Branch.thinAll (g.emitting emission).emissionOf whole.root.children⟩, whole.faults⟩ := by
  intro whole
  by_cases ht : text = ""
  · subst ht
    have hwhole : whole = ⟨⟨(g.emitting fun _ => .node).rootLabel 0, []⟩, []⟩ := rfl
    have hfound : (g.emitting emission).read "" = ⟨⟨(g.emitting emission).rootLabel 0, []⟩, []⟩ := rfl
    rw [hwhole, hfound, rootLabel_emitting (fun _ => .node) emission]
    rfl
  · have hg := leftRecursion?_of_compile h
    have hnodes := (leftRecursion?_emitting fun _ => .node).trans hg
    have hothers := (leftRecursion?_emitting emission).trans hg
    have hkinds : ∀ r, (g.emitting emission).emissionOf (g.rule r).name = emission r := by
      intro r
      have hnames : Function.Injective (g.emitting emission).nameOf := by
        have := (nodup_drafts_iff g).1 (compile_iff.1 h).1
        simpa only [Function.Injective, nameOf, rule_emitting] using this
      simpa using emissionOf_name hnames r
    obtain ⟨o, -, ho⟩ := Machine.run_start hnodes g.start (.ofText text)
    obtain ⟨failures, houtcome⟩ := (ho o).2 rfl
    have houtcome' : (g.emitting emission).Outcome g.start (.ofText text)
        (o.map (Match.thin (g.emitting emission).emissionOf)) failures := by
      simpa [Outcome, Task.emitting] using houtcome.thin hkinds
    obtain ⟨s, hs, hmax, hread⟩ := read_of_outcome hnodes ht houtcome
    obtain ⟨s', hs', hmax', hread'⟩ := read_of_outcome hothers ht houtcome'
    have hreach : reach (o.map (Match.thin (g.emitting emission).emissionOf)) = reach o := by
      cases o <;> rfl
    have hspot : s' = s := hs'.eq_of_offset hs (by omega)
    show (g.emitting emission).read text = _
    rw [hread', hreach, hspot, rootLabel_emitting (fun _ => .node) emission,
      show whole = _ from hread]
    cases o <;> rfl

/-- The rules of a grammar, the second of them silent and the start rule spliced. -/
theorem read_emitting_twoWays : compile "<a> ::= <b> 'y' | <b> 'x' <b> ::= 'z'" = .ok twoWays ∧
    let whole := (twoWays.emitting fun _ => .node).read "zx"
    (twoWays.emitting fun r => if r = twoWays.start then .splice else .silent).read "zx" =
      ⟨⟨{ whole.root.label with splice := true, silent := false },
        Branch.thinAll (twoWays.emitting fun r =>
          if r = twoWays.start then .splice else .silent).emissionOf whole.root.children⟩,
        whole.faults⟩ :=
  ⟨compile_twoWays, read_emitting compile_twoWays _ "zx"⟩

end Grammar

end Typeahead
