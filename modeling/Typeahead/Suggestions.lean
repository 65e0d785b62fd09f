import Typeahead.Json.Value

/-!
# Tables of suggestions

A table lists, for each kind of node, the texts that may stand there, in the order in which they
should be offered.

- **Look-up** (`candidates`): a kind that the table does not list has none.
- **Writing** (`set`): what was listed for the kind before is gone (`candidates_set`).
- **From JSON** (`ofJson?`): an object of lists of strings; of two members with one key the later
  counts.
-/

namespace Typeahead

/-- Texts by kind of node. -/
structure Suggestions where
  entries : List (String × List String)
  deriving Repr

namespace Suggestions

/-- The table that lists nothing. -/
def empty : Suggestions := ⟨[]⟩

/-- What may stand in a node of a kind. -/
def candidates (s : Suggestions) (kind : String) : List String :=
  (s.entries.lookup kind).getD []

/-- The table with a new list for one kind. -/
def set (s : Suggestions) (kind : String) (candidates : List String) : Suggestions :=
  ⟨(kind, candidates) :: s.entries⟩

theorem candidates_set (s : Suggestions) (kind other : String) (cs : List String) :
    (s.set kind cs).candidates other = if other = kind then cs else s.candidates other := by
  unfold candidates set
  by_cases h : other = kind
  · subst h
    simp
  · simp [List.lookup_cons, h, beq_eq_false_iff_ne.2 h]

/-- The texts of a JSON list of strings. -/
def textsOf? : Json → Option (List String)
  | .array items => items.mapM Json.text?
  | _ => none

/-- Adds one member of a JSON object. -/
def addMember? (s : Suggestions) (m : Option String × Json) : Option Suggestions := do
  let kind ← m.1
  let candidates ← textsOf? m.2
  return s.set kind candidates

/-- The table that a JSON text writes. -/
def ofJson? (text : String) : Option Suggestions :=
  match Json.parse? text with
  | some (.object members) => members.foldlM addMember? empty
  | _ => none

end Suggestions

end Typeahead
