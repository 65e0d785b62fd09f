/-!
# Why a grammar is refused

- **Places** (`Place`): a line and a column, both counted from one; a line feed ends a line.
- **Causes** (`Error`): one constructor for each rule that a grammar text can break. Where a cause
  has a place, it is the place to look at.
- **Wording** (`Error.message`).
-/

namespace Typeahead.Grammar

/-- A line and a column of a grammar text. -/
structure Place where
  line : Nat
  column : Nat
  deriving Repr, DecidableEq

namespace Place

/-- Where a text begins. -/
def first : Place := ⟨1, 1⟩

/-- The place after a character. -/
def next (p : Place) (c : Char) : Place :=
  if c = '\n' then ⟨p.line + 1, 1⟩ else ⟨p.line, p.column + 1⟩

/-- The words that name a place. -/
def describe (p : Place) : String :=
  "line " ++ toString p.line ++ ", column " ++ toString p.column

end Place

/-- What is wrong with a grammar text. -/
inductive Error where
  /-- There is no rule at all. -/
  | empty
  | unexpected (found : Char) (place : Place)
  | openLiteral (place : Place)
  | openReference (place : Place)
  | expectedRule (place : Place)
  | duplicate (name : String)
  | undefined (rule missing : String)
  | emptyAlternative (name : String)
  | leftRecursive (name : String)
  deriving Repr, DecidableEq

/-- The wording of a cause. -/
def Error.message : Error → String
  | .empty => "grammar definition is empty"
  | .unexpected found place =>
    "unexpected character '" ++ found.toString ++ "' at " ++ place.describe
  | .openLiteral place => "unterminated literal starting at " ++ place.describe
  | .openReference place => "unterminated rule reference starting at " ++ place.describe
  | .expectedRule place => "expected '<rule> ::=' at " ++ place.describe
  | .duplicate name => "rule <" ++ name ++ "> is defined more than once"
  | .undefined rule missing =>
    "rule <" ++ rule ++ "> references undefined rule <" ++ missing ++ ">"
  | .emptyAlternative name =>
    "rule <" ++ name ++ "> has an empty alternative (use \"\" for an empty match)"
  | .leftRecursive name => "rule <" ++ name ++ "> is left-recursive"

end Typeahead.Grammar
