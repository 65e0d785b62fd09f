import Std.Data.HashMap
import Typeahead.Grammar.Basic
import Typeahead.Text.Offset
import Typeahead.Tree.Branch

/-!
# Matching a text against a grammar

A rule matches at a spot by its first alternative all of whose items match in a row; nothing inside
a rule that has matched is tried again. The machine does this with a stack of rules in progress and
remembers what every rule came to at every spot, so no rule is entered twice at one spot.

- **Spots** (`Spot`): a byte offset and the text that follows it.
- **Frames** (`Frame`): a rule in progress. It holds what is left to match of the current
  alternative, the alternatives not yet tried, and the branches that the items have left so far
  (`Frame.branches`).
- **Steps** (`Machine.step`): either an item is matched or the next alternative is taken. A rule
  that ends hands its outcome to the rule that referred to it.
- **Failures** (`Farthest`): the farthest spot at which a literal failed, and the literals that
  failed there.
- **Runs** (`Machine.run`): a number of steps that `Machine.limit` bounds.
-/

namespace Typeahead

open Grammar

/-- A place in a text. -/
structure Spot where
  offset : Nat
  rest : List Char
  deriving Repr, DecidableEq

namespace Spot

/-- The place before a text. -/
def ofText (text : String) : Spot := ⟨0, text.toList⟩

/-- The place after `literal`, when the text goes on with it. -/
def after? (s : Spot) : (literal : List Char) → Option Spot
  | [] => some s
  | c :: literal =>
    match s.rest with
    | [] => none
    | d :: rest => if c = d then after? ⟨s.offset + c.utf8Size, rest⟩ literal else none

theorem after?_eq_some_iff {s t : Spot} {literal : List Char} :
    s.after? literal = some t ↔
      s.rest = literal ++ t.rest ∧ t.offset = s.offset + Text.byteCount literal := by
  induction literal generalizing s with
  | nil =>
    obtain ⟨offset, rest⟩ := s
    obtain ⟨offset', rest'⟩ := t
    simp [after?, Text.byteCount]
    grind
  | cons c literal ih =>
    obtain ⟨offset, rest⟩ := s
    cases rest with
    | nil => simp [after?]
    | cons d rest =>
      by_cases h : c = d
      · simp [after?, h, ih, Text.byteCount, Nat.add_assoc]
      · simp [after?, h, Ne.symm h]

end Spot

/-- What a rule came to: where its match ends and what it leaves in the tree. -/
structure Match where
  stop : Spot
  branches : List Branch
  deriving Repr

/-- A rule in progress. -/
structure Frame (g : Grammar) where
  rule : g.RuleId
  start : Spot
  untried : List (List (Item g.RuleId))
  items : List (Item g.RuleId)
  spot : Spot
  /-- What each item has left, the last item first; those that have left nothing are passed over. -/
  parts : List (List Branch)

/-- What the machine does next. -/
inductive Control (g : Grammar) where
  /-- Match the next item of the innermost rule. -/
  | items (frame : Frame g)
  /-- Take the next alternative of the innermost rule. -/
  | alternative (frame : Frame g)
  /-- The outermost rule has ended. -/
  | halted (outcome : Option Match)

namespace Frame

variable {g : Grammar}

/-- What the items have left together. Nothing is copied of the last part, which is the long one
where a rule goes on with itself. -/
def branches (f : Frame g) : List Branch :=
  match f.parts with
  | [] => []
  | last :: parts => parts.foldl (fun after part => part ++ after) last

theorem branches_eq (f : Frame g) : f.branches = f.parts.reverse.flatten := by
  have joined (parts : List (List Branch)) (last : List Branch) :
      parts.foldl (fun after part => part ++ after) last = parts.reverse.flatten ++ last := by
    induction parts generalizing last with
    | nil => rfl
    | cons part parts ih => simp [ih]
  unfold branches
  split
  · simp_all
  · rename_i last parts h
    simp [h, joined]

/-- The rule after an item that left `branches`. -/
def leave (f : Frame g) (branches : List Branch) : Frame g :=
  if branches.isEmpty then f else { f with parts := branches :: f.parts }

@[simp] theorem branches_leave (f : Frame g) (bs : List Branch) :
    (f.leave bs).branches = f.branches ++ bs := by
  unfold leave
  split
  · simp_all
  · simp [branches_eq]

/-- A rule before its first alternative. -/
def enter (r : g.RuleId) (spot : Spot) : Frame g :=
  ⟨r, spot, (g.rule r).alternatives, [], spot, []⟩

/-- The rule at the start of an alternative. -/
def begin (f : Frame g) (items : List (Item g.RuleId)) (untried : List (List (Item g.RuleId))) :
    Frame g :=
  { f with untried, items, spot := f.start, parts := [] }

/-- What the items of a finished rule make together. -/
def result (f : Frame g) : Match := ⟨f.spot, f.branches⟩

/-- What a finished rule leaves in the tree. -/
def complete (f : Frame g) : Match :=
  let rule := g.rule f.rule
  match rule.emission with
  | .node =>
    let label : Label := { kind := rule.name, start := f.start.offset, stop := f.spot.offset }
    ⟨f.spot, [⟨label, f.branches⟩]⟩
  | .silent => ⟨f.spot, []⟩
  | .splice => f.result

/-- Takes the outcome of the reference before the remaining items. -/
def resume (f : Frame g) : Option Match → Control g
  | some m => .items { f.leave m.branches with spot := m.stop }
  | none => .alternative f

end Frame

/-- The farthest spot at which a literal failed, and the literals that failed there, the latest
first; one that failed more than once is there more than once. -/
structure Farthest where
  spot : Spot
  failed : List (List Char)
  deriving Repr

/-- Takes note that `literal` failed at `spot`. -/
def Farthest.note (far : Farthest) (spot : Spot) (literal : List Char) : Farthest :=
  if far.spot.offset < spot.offset then ⟨spot, [literal]⟩
  else if far.spot.offset = spot.offset then { far with failed := literal :: far.failed }
  else far

/-- A machine between two steps. -/
structure Machine (g : Grammar) where
  control : Control g
  /-- The rules that wait for the innermost one, nearest first. -/
  callers : List (Frame g)
  memory : Std.HashMap (g.RuleId × Nat) (Option Match)
  farthest : Farthest

namespace Machine

variable {g : Grammar}

/-- A machine that is about to match rule `r` at `spot`. -/
def start (r : g.RuleId) (spot : Spot) : Machine g :=
  ⟨.alternative (.enter r spot), [], ∅, ⟨spot, []⟩⟩

/-- Ends the innermost rule. The outermost rule's outcome is not wrapped, as a tree has a root
whatever its rule leaves. -/
def finish (m : Machine g) (f : Frame g) (matched : Bool) : Machine g :=
  match m.callers with
  | [] => { m with control := .halted (if matched then some f.result else none) }
  | caller :: callers =>
    let outcome := if matched then some f.complete else none
    { m with
      control := caller.resume outcome
      callers
      memory := m.memory.insert (f.rule, f.start.offset) outcome }

/-- Follows a reference: an outcome that is remembered is taken, any other rule is entered. -/
def refer (m : Machine g) (f : Frame g) (r : g.RuleId) : Machine g :=
  match m.memory[(r, f.spot.offset)]? with
  | some outcome => { m with control := f.resume outcome }
  | none => { m with control := .alternative (.enter r f.spot), callers := f :: m.callers }

/-- Goes on with the innermost rule by one item or one alternative. -/
def step (m : Machine g) : Machine g :=
  match m.control with
  | .halted _ => m
  | .alternative f =>
    match f.untried with
    | [] => m.finish f false
    | items :: untried => { m with control := .items (f.begin items untried) }
  | .items f =>
    match f.items with
    | [] => m.finish f true
    | .literal text :: items =>
      match f.spot.after? text with
      | some spot => { m with control := .items { f with items, spot } }
      | none => { m with control := .alternative f, farthest := m.farthest.note f.spot text }
    | .reference r :: items => m.refer { f with items } r

/-- What the outermost rule has come to. -/
def outcome (m : Machine g) : Option Match :=
  match m.control with
  | .halted outcome => outcome
  | _ => none

/-- Goes on until the outermost rule has ended, for at most `limit` steps. -/
def run (m : Machine g) : (limit : Nat) → Machine g
  | 0 => m
  | limit + 1 =>
    match m.control with
    | .halted _ => m
    | _ => m.step.run limit

end Machine

/-- The number of steps that a rule can take at one spot. -/
def Grammar.Rule.cost {ρ : Type} (rule : Rule ρ) : Nat :=
  total (fun items => items.length + 2) rule.alternatives + 1

/-- The number of steps that a match of a text of `length` characters can take: each rule is entered
once at each spot at most. -/
def Machine.limit (g : Grammar) (length : Nat) : Nat :=
  total Rule.cost g.rules.toList * (length + 1)

end Typeahead
