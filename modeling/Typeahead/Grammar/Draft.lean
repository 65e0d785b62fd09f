import Typeahead.Grammar.Basic
import Typeahead.Grammar.Token

/-!
# Rules as written

A rule begins with its name and `::=`, and its body ends where the next rule begins, so a body may
run over several lines.

- **Drafts** (`Draft`): rules whose references are still names.
- **Grouping** (`Draft.ofTokens`): cuts the tokens into drafts. A token that stands before the first
  rule, or a second `::=` in a body, is no part of a rule; a rule with an empty alternative is
  refused as soon as its body ends.
-/

namespace Typeahead.Grammar

/-- A rule whose references are names. -/
abbrev Draft := Rule String

namespace Draft

/-- A rule whose body is being read; alternatives and items stand in reverse. -/
structure Body where
  name : String
  finished : List (List (Item String))
  current : List (Item String)

namespace Body

/-- A body before its first token. -/
def ofName (name : String) : Body := ⟨name, [], []⟩

/-- Adds an item to the current alternative. -/
def push (b : Body) (item : Item String) : Body := { b with current := item :: b.current }

/-- Ends the current alternative. -/
def next (b : Body) : Body :=
  { b with finished := b.current.reverse :: b.finished, current := [] }

/-- All alternatives, in order. -/
def alternatives (b : Body) : List (List (Item String)) :=
  (b.current.reverse :: b.finished).reverse

/-- The rule, when none of its alternatives is empty. -/
def close (b : Body) : Except Error Draft :=
  if b.alternatives.any List.isEmpty then .error (.emptyAlternative b.name)
  else .ok ⟨b.name, Emission.ofName b.name, b.alternatives⟩

end Body

/-- Adds the rule that has been read, if one has, to the rules before it (last first). -/
def close (drafts : List Draft) : Option Body → Except Error (List Draft)
  | none => .ok drafts
  | some b =>
    match b.close with
    | .ok d => .ok (d :: drafts)
    | .error e => .error e

/-- Reads tokens into the rule that is open, after the rules in `drafts` (last first). -/
def collect (drafts : List Draft) (body : Option Body) : List Token → Except Error (List Draft)
  | [] => (close drafts body).map List.reverse
  | ⟨.reference name, _⟩ :: ⟨.define, _⟩ :: rest =>
    match close drafts body with
    | .ok drafts => collect drafts (some (.ofName name)) rest
    | .error e => .error e
  | ⟨word, place⟩ :: rest =>
    match body, word with
    | none, _ => .error (.expectedRule place)
    | some _, .define => .error (.expectedRule place)
    | some b, .pipe => collect drafts (some b.next) rest
    | some b, .reference name => collect drafts (some (b.push (.reference name))) rest
    | some b, .literal text => collect drafts (some (b.push (.literal text))) rest

/-- The rules that tokens write, in order. -/
def ofTokens (tokens : List Token) : Except Error (List Draft) := collect [] none tokens

end Draft

end Typeahead.Grammar
