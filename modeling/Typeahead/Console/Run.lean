import Typeahead.Console.Command
import Typeahead.Console.Options
import Typeahead.Editor.Host
import Typeahead.Sample
import Typeahead.Tally.Report
import Typeahead.Tree.Outline

/-!
# Running an editor at the console

- **Beginning** (`begin`): settings, grammar and suggestions come from the files that the options
  name, or are those of the sample. The settings' delay gives way to the environment's, and that to
  the option's.
- **Lines** (`step`): each is passed on to the editor; then time passes until nothing more is to
  come, and what there is to see is shown.
- **Ends** (`Failure`): why a run ends early.
-/

namespace Typeahead.Console

/-- Something that is shown. -/
inductive Output where
  | line (text : String)
  /-- A text of whole lines. -/
  | block (text : String)
  /-- All counts; they cannot be shown when durations come to too much. -/
  | summary (tally : Tally)
  | warning (text : String)

/-- Why a run ends early: a message, and what caused it. -/
structure Failure where
  message : String
  cause : Option String := none
  deriving Repr, DecidableEq

/-- The lines that report a failure. -/
def Failure.report (f : Failure) : List String :=
  ("Error: " ++ f.message) ::
    match f.cause with
    | some cause => ["", "Caused by:", "    " ++ cause]
    | none => []

/-- What surrounds a run. -/
structure Surroundings where
  /-- The text of a file, or why there is none. -/
  file : String → Except FileError String
  /-- The delay that the environment asks for. -/
  delay : Option String

/-- The failure of settings. -/
def ofSettingsError (e : Settings.Error) : Failure where
  message := e.message
  cause :=
    match e with
    | .unreadable _ cause => some cause.message
    | _ => none

/-- The text of a file that is needed as `what`. -/
def readFile (s : Surroundings) (what path : String) : Except Failure String :=
  match s.file path with
  | .ok text => .ok text
  | .error e => .error { message := "failed to read " ++ what ++ " " ++ path, cause := e.message }

/-- The settings of a file, or those of the sample. -/
def readSettings (s : Surroundings) : Option String → Except Failure Settings
  | none => .ok { initialText := Sample.text }
  | some path =>
    match s.file path with
    | .ok text => (Settings.ofJson? text).mapError ofSettingsError
    | .error cause => .error (ofSettingsError (.unreadable path cause))

/-- The settings with their grammar. -/
def withGrammar (s : Surroundings) (settings : Settings) :
    Option String → Except Failure Settings
  | some path => (readFile s "grammar" path).map fun grammar => { settings with grammar }
  | none =>
    .ok (if settings.grammar.isEmpty then { settings with grammar := Sample.grammar } else settings)

/-- The settings of a run. -/
def chooseSettings (s : Surroundings) (o : Options) : Except Failure Settings := do
  let settings ← readSettings s o.config
  let settings ← withGrammar s settings o.grammar
  let settings ← (settings.override s.delay).mapError ofSettingsError
  return { settings with delay := o.delay.getD settings.delay }

/-- The suggestions of a run. -/
def chooseSuggestions (s : Surroundings) (o : Options) : Except Failure Suggestions :=
  match o.suggestions with
  | none => .ok Sample.suggestions
  | some path => do
    let text ← readFile s "suggestions" path
    match Suggestions.ofJson? text with
    | some table => return table
    | none => throw { message := "invalid suggestions JSON" }

/-- What there is to see. -/
def shown (h : Host) : Output := .line h.editor.display.json

/-- The editor of a run, once its grammar has been compiled. -/
def open? (s : Surroundings) (o : Options) : Except Failure Host := do
  let settings ← chooseSettings s o
  let suggestions ← chooseSuggestions s o
  return (Host.compilingGrammar settings settings.maxCandidates true (.table suggestions)).ready

/-- Why an editor that is not ready never will be. -/
def notReady (h : Host) : Failure where
  message := h.editor.input.error.getD "grammar failed to compile"

/-- Passes a command on to the editor. -/
def apply (h : Host) : Command → Host × Option Substitution
  | .text text =>
    let (h, _) := h.handle (.text text)
    h.handle (.caret text.utf8ByteSize)
  | .event event => h.handle event
  | _ => (h, none)

/-- What a line leads to, and what is shown on the way. -/
def step (h : Host) (line : String) : Host × List Output :=
  match Command.ofLine line with
  | .error e => (h, [.warning e.message])
  | .ok .tree => (h, (h.editor.input.target.map fun n => .block n.document.tree.outline).toList)
  | .ok .metrics => (h, [.summary h.editor.tally])
  | .ok command =>
    let (h, substitution) := apply h command
    let h := h.settle
    (h, (substitution.map fun s => .line s.json).toList ++ [shown h])

/-- All that is shown for some lines. -/
def stepAll (h : Host) : List String → List Output
  | [] => []
  | line :: lines =>
    let (h, out) := step h line
    out ++ stepAll h lines

/-- What a run has shown, and how it ended. -/
structure Outcome where
  output : List Output
  failure : Option Failure := none

/-- A whole run over lines that are all there from the beginning. -/
def run (s : Surroundings) (o : Options) (lines : List String) : Outcome :=
  match open? s o with
  | .error failure => { output := [], failure := some failure }
  | .ok h =>
    if h.isReady then { output := shown h :: stepAll h lines }
    else { output := [shown h], failure := some (notReady h) }

end Typeahead.Console
