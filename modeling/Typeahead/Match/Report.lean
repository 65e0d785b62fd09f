import Typeahead.Distinct
import Typeahead.Match.Machine
import Typeahead.Text.Quoted

/-!
# Reading a text with a grammar

- **Root**: there always is one. It spans what the start rule matched from the beginning, or
  nothing, and bears the start rule's name whatever that rule emits.
- **Faults**: an empty text has none, nor has a text that was matched to its end. Any other text has
  one, at the farther of the match's end and the farthest failure.
- **Wording** (`unexpected`): the character that stands there, and the literals that failed there,
  each once, in the order in which they first failed.
-/

namespace Typeahead

open Grammar

/-- The number of literals that a message names. -/
def maxNamedLiterals : Nat := 6

/-- What stands at a spot. -/
def Spot.describe (s : Spot) : String :=
  match s.rest with
  | c :: _ => Text.quotedChar c
  | [] => "end of input"

/-- The words that list literals: the first few, and how many are left. -/
def listLiterals (literals : List String) : String :=
  let named := ", ".intercalate ((literals.take maxNamedLiterals).map Text.quoted)
  if maxNamedLiterals < literals.length then
    named ++ " or " ++ toString (literals.length - maxNamedLiterals) ++ " more"
  else named

/-- The fault of a text that is not matched beyond `spot`, where `literals` failed. -/
def unexpected (spot : Spot) (literals : List String) : Fault where
  message :=
    let found := "Unexpected " ++ spot.describe ++ " at position " ++ toString spot.offset
    if literals.isEmpty then found else found ++ ", expected " ++ listLiterals literals
  position := spot.offset

/-- The literals that failed at the farthest spot, in the order in which they first failed. -/
def Farthest.literals (far : Farthest) : List String :=
  distinct (far.failed.reverse.map String.ofList)

/-- The fault of a text of which a match ends at `stop`. -/
def Farthest.fault (far : Farthest) (stop : Spot) : Fault :=
  if far.spot.offset < stop.offset then unexpected stop []
  else unexpected far.spot far.literals

namespace Grammar

variable (g : Grammar)

/-- The label of the root of a text of which the first `stop` bytes are matched. -/
def rootLabel (stop : Nat) : Label where
  kind := (g.rule g.start).name
  start := 0
  stop
  splice := (g.rule g.start).emission = .splice
  silent := (g.rule g.start).emission = .silent

/-- The machine that has matched the start rule at the beginning of a text. -/
def finalMachine (text : String) : Machine g :=
  let spot := Spot.ofText text
  (Machine.start g.start spot).run (Machine.limit g spot.rest.length)

/-- What the grammar makes of a text. -/
def read (text : String) : Reading :=
  if text.isEmpty then ⟨⟨g.rootLabel 0, []⟩, []⟩
  else
    let m := g.finalMachine text
    let found := m.outcome.getD ⟨Spot.ofText text, []⟩
    ⟨⟨g.rootLabel found.stop.offset, found.branches⟩,
      if found.stop.offset < text.utf8ByteSize then [m.farthest.fault found.stop] else []⟩

end Grammar

end Typeahead
