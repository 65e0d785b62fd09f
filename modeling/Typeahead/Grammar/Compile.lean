import Std.Data.HashMap.Lemmas
import Typeahead.Distinct
import Typeahead.Grammar.Draft
import Typeahead.Grammar.Leftmost

/-!
# From a text to a grammar

- **Order of faults** (`compile`): tokens first, then the shape of each rule, then names that are
  used twice, then names that no rule has, and left recursion last.
- **References** (`resolve`): a name becomes the index of the rule that has it, found in a table of
  all names (`indexOf`, `getElem?_indexOf`).
-/

namespace Typeahead.Grammar

theorem find?_zip_finRange {α : Type} (p : α → Bool) (xs : List α) :
    ((xs.zip (List.finRange xs.length)).find? fun e => p e.1).map (·.2) = xs.findFinIdx? p := by
  induction xs with
  | nil => rfl
  | cons x xs ih =>
    have first : List.finRange (x :: xs).length = 0 :: (List.finRange xs.length).map Fin.succ :=
      List.finRange_succ
    rw [List.findFinIdx?_cons, ← ih, first, List.zip_cons_cons, List.find?_cons,
      List.zip_map_right, List.find?_map]
    cases p x with
    | true => rfl
    | false => simp [Function.comp_def]

/-- The index of each name among `drafts`. Of two rules with one name the first counts. -/
def indexOf (drafts : List Draft) : Std.HashMap String (Fin drafts.length) :=
  (drafts.zip (List.finRange drafts.length)).foldr (fun e names => names.insert e.1.name e.2) ∅

theorem getElem?_indexOf (drafts : List Draft) (name : String) :
    (indexOf drafts)[name]? = drafts.findFinIdx? (·.name == name) := by
  have found (es : List (Draft × Fin drafts.length)) :
      (es.foldr (fun e names => names.insert e.1.name e.2)
          (∅ : Std.HashMap String (Fin drafts.length)))[name]? =
        (es.find? (·.1.name == name)).map (·.2) := by
    induction es with
    | nil => simp
    | cons e es ih =>
      rw [List.foldr_cons, Std.HashMap.getElem?_insert, List.find?_cons, ih]
      cases e.1.name == name <;> rfl
  rw [indexOf, found]
  exact find?_zip_finRange (·.name == name) drafts

variable {n : Nat}

/-- The item with its reference resolved by `names`; `rule` is the rule that it stands in. -/
def resolveItem (names : Std.HashMap String (Fin n)) (rule : String) :
    Item String → Except Error (Item (Fin n))
  | .literal text => .ok (.literal text)
  | .reference name =>
    match names[name]? with
    | some r => .ok (.reference r)
    | none => .error (.undefined rule name)

/-- The rule with its references resolved by `names`. -/
def resolveRule (names : Std.HashMap String (Fin n)) (d : Draft) :
    Except Error (Rule (Fin n)) := do
  let alternatives ← d.alternatives.mapM (·.mapM (resolveItem names d.name))
  return ⟨d.name, d.emission, alternatives⟩

/-- The rules of drafts, with their references resolved by `names`. -/
def resolveRules (names : Std.HashMap String (Fin n)) : (drafts : List Draft) →
    Except Error { rules : List (Rule (Fin n)) // rules.length = drafts.length }
  | [] => .ok ⟨[], rfl⟩
  | d :: drafts => do
    let rule ← resolveRule names d
    let ⟨rules, h⟩ ← resolveRules names drafts
    return ⟨rule :: rules, by simp [h]⟩

/-- The grammar that drafts make when every name that they use is one of theirs. -/
def resolve (drafts : List Draft) : Except Error Grammar :=
  if hpos : 0 < drafts.length then
    match resolveRules (indexOf drafts) drafts with
    | .ok ⟨rules, h⟩ => .ok ⟨drafts.length, hpos, ⟨rules.toArray, by simp [h]⟩⟩
    | .error e => .error e
  else .error .empty

/-- The grammar that a text writes. -/
def compile (text : String) : Except Error Grammar := do
  let drafts ← Draft.ofTokens (← tokenize text.toList)
  match repeated? (drafts.map (·.name)) with
  | some name => throw (.duplicate name)
  | none => pure ()
  let g ← resolve drafts
  match g.leftRecursion? with
  | some r => throw (.leftRecursive (g.rule r).name)
  | none => return g

end Typeahead.Grammar
