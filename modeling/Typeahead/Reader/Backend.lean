import Typeahead.Match.Report

/-!
# Parsers

A backend makes a reading of any text; where a text is not as it should be the reading says so, and
still there is one.

- **Grammars** (`Grammar.backend`).
- **Tables** (`Backend.table`): readings listed for single texts. Any other text is a line of words
  between single spaces, and every exclamation mark in it is a fault.
-/

namespace Typeahead

/-- A parser. -/
structure Backend where
  /-- What kind of parser it is. -/
  name : String
  /-- The rule that the root of every reading stands for. -/
  startRule : String
  read : String → Reading

/-- The parser of a grammar. -/
def Grammar.backend (g : Grammar) : Backend where
  name := "bnf"
  startRule := (g.rule g.start).name
  read := g.read

namespace Backend

/-- The word from byte `start` to byte `stop`, if it has any characters. -/
def word (start stop : Nat) : List Branch :=
  if start < stop then [.mk { kind := "token", start, stop } []] else []

/-- The words of a text that follows byte `stop`, when a word began at `start`. -/
def words (start stop : Nat) : List Char → List Branch
  | [] => word start stop
  | c :: cs =>
    let next := stop + c.utf8Size
    if c = ' ' then word start stop ++ words next next cs else words start next cs

/-- A fault for each exclamation mark of a text that begins at byte `start`. -/
def bangs (start : Nat) : List Char → List Fault
  | [] => []
  | c :: cs =>
    let rest := bangs (start + c.utf8Size) cs
    if c = '!' then ⟨"bang", start⟩ :: rest else rest

/-- A text as a line of words. -/
def lineOf (text : String) : Reading where
  root := .mk { kind := "line", start := 0, stop := text.utf8ByteSize } (words 0 0 text.toList)
  faults := bangs 0 text.toList

/-- The parser that gives the readings of a list; of two for one text the later counts. -/
def table (listed : List (String × Reading)) : Backend where
  name := "table"
  startRule := "line"
  read text := (listed.reverse.lookup text).getD (lineOf text)

end Backend

end Typeahead
