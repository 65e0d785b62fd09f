import Typeahead.Folder
import Typeahead.Json.Value
import Typeahead.Text.Blank
import Typeahead.Text.Number
import Typeahead.Text.Quoted

/-!
# Settings

- **Fields** (`Settings`): each has a default, so every one may be left out.
- **JSON** (`Settings.ofJson?`): an object by field name, or a list in field order. Members that
  are no field are passed over; a field that comes twice is refused.
- **Environment** (`Settings.override`): one variable sets the delay.
- **Errors** (`Settings.Error`): the file could not be read, or did not hold settings, or the
  variable holds no number.
-/

namespace Typeahead

/-- What follows when a candidate has been put into the text. -/
inductive AfterSelect where
  /-- The new text is parsed at once, and no suggestions are asked for. -/
  | resolve
  /-- Nothing, until the next edit or caret move. -/
  | close
  deriving Repr, DecidableEq

/-- How an editor behaves. -/
structure Settings where
  grammar : String := ""
  initialText : String := ""
  /-- The quiet time before a text is parsed, and again before suggestions are asked for. -/
  delay : Nat := 300
  readOnly : Bool := false
  placeholder : Option String := none
  afterSelect : AfterSelect := .resolve
  /-- Whether a failure of the suggestion source is shown. -/
  showFailures : Bool := false
  /-- How many candidates are offered at most. -/
  maxCandidates : Option Nat := none
  deriving Repr, DecidableEq

namespace Settings

/-- Why there are no settings. -/
inductive Error where
  | unreadable (path : String) (cause : FileError)
  | malformed
  | delay (value : String)
  deriving Repr, DecidableEq

/-- The environment variable that sets the delay. -/
def delayVariable : String := "SYNTAX_COMPLETION_DELAY_MS"

/-- The wording of an error. -/
def Error.message : Error → String
  | .unreadable path cause => "failed to read config file " ++ path ++ ": " ++ cause.message
  | .malformed => "invalid config JSON"
  | .delay value =>
    "invalid value " ++ Text.quoted value ++ " for " ++ delayVariable ++
      ": expected a whole number of milliseconds"

/-- The fields, in order. -/
inductive Field where
  | grammar
  | initialText
  | delay
  | readOnly
  | placeholder
  | afterSelect
  | showFailures
  | maxCandidates
  deriving Repr, DecidableEq

namespace Field

/-- All fields, in order. -/
def all : List Field :=
  [grammar, initialText, delay, readOnly, placeholder, afterSelect, showFailures, maxCandidates]

/-- The name of a field in JSON. -/
def name : Field → String
  | grammar => "grammar"
  | initialText => "initial_value"
  | delay => "delay_ms"
  | readOnly => "read_only"
  | placeholder => "placeholder"
  | afterSelect => "after_select"
  | showFailures => "surface_fetch_errors"
  | maxCandidates => "max_candidates"

/-- The field of a name. -/
def ofName? (name : String) : Option Field := all.find? (·.name == name)

end Field

/-- The choice that a name stands for. -/
def afterSelectOfName? : String → Option AfterSelect
  | "resolve_silently" => some .resolve
  | "close" => some .close
  | _ => none

/-- A choice is written as its name, or as an object with its name and null. -/
def afterSelectOfJson? : Json → Option AfterSelect
  | .string (some name) => afterSelectOfName? name
  | .object [(some name, .null)] => afterSelectOfName? name
  | _ => none

/-- The settings with one field read from a value of the field's type. -/
def setField? (s : Settings) (f : Field) (v : Json) : Option Settings :=
  match f with
  | .grammar => v.text?.map fun x => { s with grammar := x }
  | .initialText => v.text?.map fun x => { s with initialText := x }
  | .delay => v.nat?.map fun x => { s with delay := x }
  | .readOnly => v.bool?.map fun x => { s with readOnly := x }
  | .placeholder => (v.nullable? Json.text?).map fun x => { s with placeholder := x }
  | .afterSelect => (afterSelectOfJson? v).map fun x => { s with afterSelect := x }
  | .showFailures => v.bool?.map fun x => { s with showFailures := x }
  | .maxCandidates => (v.nullable? Json.nat?).map fun x => { s with maxCandidates := x }

/-- Reads members of an object; `seen` are the fields read before. -/
def ofMembers? (s : Settings) (seen : List Field) :
    List (Option String × Json) → Option Settings
  | [] => some s
  | (none, _) :: _ => none
  | (some name, v) :: rest =>
    match Field.ofName? name with
    | none => ofMembers? s seen rest
    | some f =>
      if f ∈ seen then none
      else
        match s.setField? f v with
        | some s => ofMembers? s (f :: seen) rest
        | none => none

/-- Reads values for the fields in order; there may be fewer values, but not more. -/
def ofItems? (s : Settings) : List Field → List Json → Option Settings
  | _, [] => some s
  | [], _ :: _ => none
  | f :: fields, v :: rest =>
    match s.setField? f v with
    | some s => ofItems? s fields rest
    | none => none

/-- The settings that a JSON value holds. -/
def ofValue? : Json → Option Settings
  | .object members => ofMembers? {} [] members
  | .array items => ofItems? {} Field.all items
  | _ => none

/-- The settings that a JSON text writes. -/
def ofJson? (text : String) : Except Error Settings :=
  match (Json.parse? text).bind ofValue? with
  | some s => .ok s
  | none => .error .malformed

/-- The settings with the delay that the environment asks for, when it asks for one. -/
def override (s : Settings) : Option String → Except Error Settings
  | none => .ok s
  | some value =>
    match Text.readNumber (Text.trim value.toList) with
    | .ok delay => .ok { s with delay }
    | .error _ => .error (.delay value)

end Settings

end Typeahead
