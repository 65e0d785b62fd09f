import Typeahead.Editor.Input
import Typeahead.Json.Write

/-!
# What is shown

- **Displays** (`Display`): what there is to see of an input field.
- **Written form** (`Display.json`): one JSON object with its members in a fixed order.
-/

namespace Typeahead

/-- What there is to see of an input field. -/
structure Display where
  text : String
  caret : Nat
  error : Option String
  target : Option Node
  candidates : List String
  active : Nat
  loading : Bool
  panelOpen : Bool
  readOnly : Bool
  placeholder : Option String
  phase : Phase
  deriving BEq

/-- What stands in an empty field while the grammar is being compiled. -/
def initializingPlaceholder : String := "Parsing syntax..."

/-- What there is to see of an input field under some settings. -/
def Input.display (i : Input) (s : Settings) : Display where
  text := i.text
  caret := i.caret
  error := i.error
  target := i.target
  candidates := i.candidates
  active := i.active
  loading := i.loading
  panelOpen := i.panelOpen
  readOnly := i.readOnly s
  placeholder := if i.phase = .initializing then some initializingPlaceholder else s.placeholder
  phase := i.phase

/-- The name of a phase. -/
def Phase.name : Phase → String
  | initializing => "initializing"
  | idle => "idle"
  | parsing => "parsing"
  | resolving => "resolving"
  | fetching => "fetching"
  | error => "error"

/-- The name of a phase with a capital letter. -/
def Phase.title (p : Phase) : String := p.name.capitalize

open Json

/-- Kind, text and span of a node. -/
def Node.json (n : Node) : String :=
  Write.object [("kind", Write.string n.label.kind), ("text", Write.string n.text),
    ("start", Write.nat n.label.start), ("end", Write.nat n.label.stop)]

namespace Substitution

/-- Text and caret. -/
def json (s : Substitution) : String :=
  Write.object [("text", Write.string s.text), ("cursor", Write.nat s.caret)]

end Substitution

namespace Display

variable (d : Display)

/-- The candidate that the target's text already is. -/
def selected? : Option String :=
  d.target.bind fun n => d.candidates.find? (· == n.text)

/-- The highlighted candidate. -/
def activeCandidate? : Option String := d.candidates[d.active]?

/-- All there is to see. -/
def json : String :=
  Write.object [("text", Write.string d.text), ("cursor", Write.nat d.caret),
    ("error", Write.option Write.string d.error), ("target", Write.option Node.json d.target),
    ("candidates", Write.array (d.candidates.map Write.string)),
    ("active_index", Write.nat d.active), ("loading", Write.bool d.loading),
    ("panel_open", Write.bool d.panelOpen), ("read_only", Write.bool d.readOnly),
    ("placeholder", Write.option Write.string d.placeholder), ("phase", Write.string d.phase.name)]

end Display

end Typeahead
