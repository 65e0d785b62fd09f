import Typeahead.Grammar.Basic

/-!
# Left recursion

Alternatives are tried in order, so a rule that can reach itself before anything was consumed would
never end. Such a grammar is refused.

- **Nullable rules** (`nullable`): those some alternative of which derives the empty text. All
  rules are marked in rounds until a round adds none.
- **Leftmost references** (`leftmost`): the rules that an alternative may enter at its own start.
- **Cycles** (`explore`): a depth-first search, rule by rule in order, reports the first rule that
  it finds again while still exploring it (`leftRecursion?`).
-/

namespace Typeahead.Grammar

variable {n : Nat}

theorem get_set {α : Type} (marks : Vector α n) (r x : Fin n) (m : α) :
    (marks.set r.val m r.isLt).get x = if r = x then m else marks.get x := by
  have hget : (marks.set r.val m r.isLt).get x = (marks.set r.val m r.isLt)[x.val] := rfl
  rw [hget, Vector.getElem_set]
  simp only [Fin.ext_iff]
  rfl

/-- Whether `item` derives the empty text when the marked rules do. -/
def Item.isNullable (marks : Vector Bool n) : Item (Fin n) → Bool
  | .reference r => marks.get r
  | .literal text => text.isEmpty

/-- Whether some alternative derives the empty text when the marked rules do. -/
def Rule.isNullable (marks : Vector Bool n) (rule : Rule (Fin n)) : Bool :=
  rule.alternatives.any (·.all (·.isNullable marks))

/-- The references of `items` that can be entered before anything was consumed. -/
def leads (marks : Vector Bool n) : List (Item (Fin n)) → List (Fin n)
  | [] => []
  | .reference r :: items => r :: if marks.get r then leads marks items else []
  | .literal text :: items => if text.isEmpty then leads marks items else []

/-- How far a search has come with a rule. -/
inductive Mark where
  | fresh
  | exploring
  | finished
  deriving Repr, DecidableEq

/-- The number of rules that a search has not met. -/
def freshCount (marks : Vector Mark n) : Nat := marks.countP (· == .fresh)

/-- The number of steps that a stack of unfinished rules and untried references allows at most. -/
def stackSize : List (Fin n × List (Fin n)) → Nat
  | [] => 0
  | (_, refs) :: stack => refs.length + 1 + stackSize stack

theorem freshCount_set_le (marks : Vector Mark n) (r : Fin n) (m : Mark) (hm : m ≠ .fresh) :
    freshCount (marks.set r.val m r.isLt) ≤ freshCount marks := by
  unfold freshCount
  rw [Vector.countP_set]
  simp [hm]

theorem freshCount_set_lt (marks : Vector Mark n) (r : Fin n) (m : Mark) (hm : m ≠ .fresh)
    (h : marks.get r = .fresh) : freshCount (marks.set r.val m r.isLt) < freshCount marks := by
  have hpos : 0 < freshCount marks :=
    Vector.countP_pos_iff.2 ⟨marks.get r, Vector.getElem_mem r.isLt, by simp [h]⟩
  unfold freshCount at *
  have hm' : (m == .fresh) = false := by simpa using hm
  have h' : (marks[r.val] == .fresh) = true := beq_iff_eq.2 h
  rw [Vector.countP_set, hm', h']
  simp only [if_true, Bool.false_eq_true, if_false]
  omega

/-- Explores the unfinished rules of `stack`, innermost first, each with the references not yet
tried. The error is a rule that was met again before it was finished. -/
def explore (refs : Vector (List (Fin n)) n) (marks : Vector Mark n) :
    List (Fin n × List (Fin n)) → Except (Fin n) (Vector Mark n)
  | [] => .ok marks
  | (r, []) :: stack => explore refs (marks.set r.val .finished r.isLt) stack
  | (r, next :: rest) :: stack =>
    match _ : marks.get next with
    | .exploring => .error next
    | .finished => explore refs marks ((r, rest) :: stack)
    | .fresh =>
      explore refs (marks.set next.val .exploring next.isLt)
        ((next, refs.get next) :: (r, rest) :: stack)
termination_by stack => (freshCount marks, stackSize stack)
decreasing_by
  · rcases Nat.lt_or_eq_of_le (freshCount_set_le marks r .finished (by decide)) with h | h
    · exact Prod.Lex.left _ _ h
    · rw [h]
      exact Prod.Lex.right _ (by simp [stackSize])
  · exact Prod.Lex.right _ (by simp [stackSize])
  · exact Prod.Lex.left _ _ (freshCount_set_lt marks next .exploring (by decide) (by assumption))

/-- Explores every rule of a list that has not been met. -/
def exploreAll (refs : Vector (List (Fin n)) n) (marks : Vector Mark n) :
    List (Fin n) → Except (Fin n) (Vector Mark n)
  | [] => .ok marks
  | r :: rules =>
    match marks.get r with
    | .fresh =>
      match explore refs (marks.set r.val .exploring r.isLt) [(r, refs.get r)] with
      | .ok marks => exploreAll refs marks rules
      | .error found => .error found
    | _ => exploreAll refs marks rules

variable (g : Grammar)

/-- Marks a rule if the marks so far make it nullable. -/
def mark (r : g.RuleId) (marks : Vector Bool g.size) : Vector Bool g.size :=
  if !marks.get r && (g.rule r).isNullable marks then marks.set r.val true r.isLt else marks

/-- One round of marking: through the rules from the last to the first and back, so that a chain of
references is marked in one round, whichever way it runs. -/
def markRound (marks : Vector Bool g.size) : Vector Bool g.size :=
  Fin.foldl g.size (fun marks r => g.mark r marks) (Fin.foldr g.size g.mark marks)

/-- Marks in at most `rounds` rounds, until one adds nothing. -/
def markRounds (marks : Vector Bool g.size) : Nat → Vector Bool g.size
  | 0 => marks
  | rounds + 1 =>
    let next := g.markRound marks
    if next = marks then marks else markRounds next rounds

/-- The rules that derive the empty text. Each round but the last marks a rule, so there are no more
rounds than rules. -/
def nullable : Vector Bool g.size :=
  g.markRounds (Vector.replicate g.size false) g.size

/-- The rules that each rule may enter before it has consumed anything. -/
def leftmost : Vector (List g.RuleId) g.size :=
  let marks := g.nullable
  g.rules.map fun rule => rule.alternatives.flatMap (leads marks)

/-- A rule that can reach itself before it has consumed anything. -/
def leftRecursion? : Option g.RuleId :=
  match exploreAll g.leftmost (Vector.replicate g.size .fresh) (List.finRange g.size) with
  | .ok _ => none
  | .error r => some r

end Typeahead.Grammar
