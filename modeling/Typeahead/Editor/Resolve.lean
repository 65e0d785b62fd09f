import Typeahead.Editor.Basic
import Typeahead.Grammar.Error

/-!
# Parsing the text

- **At once** (`resolveNow`): parse the text, put the document in place.
- **Held back** (`resolve`): a long text is parsed in a pass of its own, during which the text may
  change. A pass looks its text up, parses it when it is not at hand, and ends (`advance`).
- **Ends** (`finish`): the document of a text that is no longer the present one is dropped.
  Otherwise it is put in place, and a question to the source is scheduled when there is a target to
  ask about.
- **Beginnings** (`install`, `reject`): the reader has come, or there is none to come.
-/

namespace Typeahead.Editor

/-- The number of bytes from which on a text that was held back is parsed in a pass of its own. -/
def longText : Nat := 16384

variable (e : Editor)

/-- The document of a text has come. -/
def finish (text : String) (d : Document) (silent : Bool) : Editor :=
  if e.input.text == text then
    let e := e.publish (e.input.resolve d silent)
    if silent || !d.tree.faults.isEmpty then e else e.schedule .fetch
  else e

/-- Parses the present text and puts the document in place, in one step. -/
def resolveNow (silent : Bool) : Editor :=
  match e.reader with
  | none => e
  | some reader =>
    let text := e.input.text
    let (d, reader, observed) := reader.read text
    let e := { e with reader := some reader }
    ((e.publish e.input.parsing).observe observed).finish text d silent

/-- Parses the present text: at once, or in a pass when it is long. -/
def resolve (silent : Bool) : Editor :=
  match e.reader with
  | none => e
  | some _ =>
    let text := e.input.text
    if text.utf8ByteSize < longText then e.resolveNow silent
    else
      { e.publish e.input.parsing with passes := e.passes ++ [{ text, silent }] }

/-- Moves a pass on by one stage. -/
def advance (index : Nat) : Editor :=
  match e.passes[index]?, e.reader with
  | some pass, some reader =>
    match pass.stage with
    | .queued =>
      let (found, reader) := reader.lookUp pass.text
      let stage :=
        match found with
        | some d => .done d
        | none => .missed
      { e with
        reader := some reader
        passes := e.passes.set index { pass with stage } }.observe (Reader.lookedUp found)
    | .missed =>
      let (d, reader) := reader.absorb pass.text
      { e with
        reader := some reader
        passes := e.passes.set index { pass with stage := .done d } }.observe
          (Reader.absorbed d 0)
    | .done d => { e with passes := e.passes.eraseIdx index }.finish pass.text d pass.silent
  | _, _ => e

/-- The reader has come. -/
def install (reader : Reader) : Editor :=
  { e.publish e.input.readied with reader := some reader }.resolveNow true

/-- There will be no reader. -/
def reject (error : Grammar.Error) : Editor :=
  e.publish (e.input.rejected ("Invalid grammar: " ++ error.message))

end Typeahead.Editor
