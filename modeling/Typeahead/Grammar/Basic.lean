import Typeahead.Text.Letter

/-!
# Grammars

A grammar is a list of rules; the first is the start rule. A rule has alternatives, tried in order,
and an alternative is a sequence of items, matched one after the other.

- **Items** (`Item`): literals and references. A reference is a name while a grammar is being read
  and an index into the rules afterwards, so the type of references is a parameter.
- **Emission** (`Emission`): what a match of a rule leaves in the tree. The rule's name says which
  (`Emission.ofName`).
- **Grammars** (`Grammar`): references are indices below the number of rules, and there is at least
  one rule, both by type.
-/

namespace Typeahead

namespace Grammar

/-- What a match of a rule leaves in the tree. -/
inductive Emission where
  /-- A node, which holds what the items left. -/
  | node
  /-- Nothing, whatever the items left. -/
  | silent
  /-- What the items left, with no node around it. -/
  | splice
  deriving Repr, DecidableEq

/-- A name that begins with a percent sign splices; one with an alphabetic character and no lower
case is silent; any other name makes a node. -/
def Emission.ofName (name : String) : Emission :=
  if name.toList.head? = some '%' then .splice
  else if name.toList.any Text.isAlphabetic && !name.toList.any Text.isLowercase then .silent
  else .node

/-- One item of an alternative, with references of type `ρ`. -/
inductive Item (ρ : Type) where
  | reference (target : ρ)
  | literal (text : List Char)
  deriving Repr, DecidableEq

/-- A rule with references of type `ρ`. -/
structure Rule (ρ : Type) where
  name : String
  emission : Emission
  alternatives : List (List (Item ρ))
  deriving Repr, DecidableEq

end Grammar

/-- A grammar of `size` rules. -/
structure Grammar where
  size : Nat
  size_pos : 0 < size
  rules : Vector (Grammar.Rule (Fin size)) size

namespace Grammar

/-- The index of a rule of `g`. -/
abbrev RuleId (g : Grammar) := Fin g.size

/-- The rule that a whole text is matched against. -/
def start (g : Grammar) : g.RuleId := ⟨0, g.size_pos⟩

/-- The rule with an index. -/
def rule (g : Grammar) (r : g.RuleId) : Rule g.RuleId := g.rules.get r

/-- The first rule of a name. -/
def rule? (g : Grammar) (name : String) : Option (Rule g.RuleId) :=
  g.rules.toList.find? (·.name == name)

end Grammar

end Typeahead
