import Typeahead.Editor.Node
import Typeahead.Settings
import Typeahead.Text.Offset

/-!
# The input field

Text and caret are what the user gives; all else is worked out from them.

- **Phases** (`Phase`): what is being done about the present text.
- **Fields** (`Input`): `target` is the node that suggestions are for, and `resolvedAt` the caret
  that it was found for.
- **Edits** (`retype`, `moveTo`, `substitute?`): the caret stays on a boundary of the text
  (`isBoundary_retype`, `isBoundary_moveTo`).
- **The panel** (`closePanel`, `up`, `down`): closing it also outdates every answer that is still to
  come, by a new `generation`.
-/

namespace Typeahead

/-- What is being done about the present text. -/
inductive Phase where
  /-- The grammar is being compiled. -/
  | initializing
  | idle
  | parsing
  /-- The target is known, and the source will be asked about it. -/
  | resolving
  | fetching
  /-- The text has faults, or there is no grammar. -/
  | error
  deriving Repr, DecidableEq

/-- An input field with a panel of candidates. -/
structure Input where
  text : String
  caret : Nat
  /-- Whether there is something to parse texts with. -/
  ready : Bool := false
  document : Option Document := none
  target : Option Node := none
  candidates : List String := []
  /-- The position of the highlighted candidate. -/
  active : Nat := 0
  phase : Phase := .initializing
  panelOpen : Bool := false
  loading : Bool := false
  /-- Whether the pointer is over the panel. -/
  hovering : Bool := false
  error : Option String := none
  resolvedAt : Option Nat := none
  /-- Changes with every request to the source and every close. -/
  generation : Nat := 0

/-- The text after a candidate has been put into it, and the caret behind the candidate. -/
structure Substitution where
  text : String
  caret : Nat
  deriving Repr, DecidableEq

namespace Input

/-- The field that holds a text, with the caret behind it. -/
def ofText (text : String) : Input := { text, caret := text.utf8ByteSize }

variable (i : Input)

/-- Whether the text may not be edited. -/
def readOnly (s : Settings) : Bool := !i.ready || s.readOnly

/-- Whether the document was made from the present text. -/
def documentIsCurrent : Bool :=
  match i.document with
  | some d => d.tree.source == i.text
  | none => false

/-- Whether the target belongs to another text or caret. -/
def needsResolve : Bool := i.resolvedAt != some i.caret || !i.documentIsCurrent

/-- A caret at the end follows the end; any other stays, as near as the new text allows. -/
def retype (text : String) : Input :=
  { i with
    text
    caret :=
      if i.text.utf8ByteSize ≤ i.caret then text.utf8ByteSize
      else Text.clampBoundary text i.caret }

/-- Puts the caret at the boundary at or below an offset. -/
def moveTo (offset : Nat) : Input := { i with caret := Text.clampBoundary i.text offset }

theorem isBoundary_clampBoundary (text : String) (offset : Nat) :
    Text.isBoundary text (Text.clampBoundary text offset) = true :=
  Text.isBoundary_floorBoundary _ _

/-- The caret of an edited text is on a boundary of it. -/
theorem isBoundary_retype (text : String) :
    Text.isBoundary (i.retype text).text (i.retype text).caret = true := by
  unfold retype
  split
  · exact Text.isBoundary_size text
  · exact isBoundary_clampBoundary text i.caret

/-- The caret is on a boundary wherever it is put. -/
theorem isBoundary_moveTo (offset : Nat) :
    Text.isBoundary (i.moveTo offset).text (i.moveTo offset).caret = true :=
  isBoundary_clampBoundary i.text offset

/-- The phase once nothing more is wanted for the present target. -/
def settledPhase : Phase → Phase
  | .resolving => .idle
  | .fetching => .idle
  | phase => phase

/-- Hides the panel and outdates what was asked for it. -/
def closePanel : Input :=
  { i with
    candidates := []
    active := 0
    loading := false
    panelOpen := false
    generation := i.generation + 1
    phase := settledPhase i.phase }

/-- Highlights the candidate above. -/
def up : Input := { i with active := i.active - 1 }

/-- Highlights the candidate below. -/
def down : Input := { i with active := min (i.active + 1) (i.candidates.length - 1) }

/-- The highlighted candidate. -/
def activeCandidate? : Option String := i.candidates[i.active]?

/-- The text with the span of a node replaced. -/
def splice (n : Node) (candidate : String) : String :=
  Text.slice i.text 0 n.label.start ++ candidate ++ Text.sliceFrom i.text n.label.stop

/-- Puts a candidate in the place of the target. It is refused in a field that may not be edited,
and when there is no target or the target belongs to another text. -/
def substitute? (s : Settings) (candidate : String) : Option (Input × Substitution) :=
  if i.readOnly s then none
  else
    match i.target with
    | none => none
    | some target =>
      if target.source == i.text then
        let text := i.splice target candidate
        let caret := target.label.start + candidate.utf8ByteSize
        some ({ i with text, caret }.closePanel, ⟨text, caret⟩)
      else none

/-- A parse of the present text begins. -/
def parsing : Input := { i with phase := .parsing }

/-- The field once the document of its text is known. Where the text has faults the first one is
shown; else the node under the caret becomes the target, and unless `silent` the source will be
asked about it. -/
def resolve (d : Document) (silent : Bool) : Input :=
  let i := { i with document := some d, resolvedAt := some i.caret }
  match d.tree.faults with
  | fault :: _ =>
    { i with error := some fault.message, target := some (.root d), phase := .error }.closePanel
  | [] =>
    { i with
      error := none
      target := some (.under d i.caret)
      active := 0
      phase := if silent then .idle else .resolving }

/-- The source is asked about the target. -/
def fetching : Input :=
  { i with generation := i.generation + 1, panelOpen := true, loading := true, phase := .fetching }

/-- The candidates have come. -/
def offer (candidates : List String) : Input :=
  { i with loading := false, phase := .idle, candidates, active := 0 }

/-- The source has failed; what it said is shown where that is wanted. -/
def fail (s : Settings) (message : String) : Input :=
  let i := { i with loading := false, phase := .idle }.closePanel
  if s.showFailures then { i with error := some message } else i

/-- There is something to parse texts with. -/
def readied : Input := { i with ready := true }

/-- There will be nothing to parse texts with. -/
def rejected (message : String) : Input := { i with phase := .error, error := some message }

end Input

end Typeahead
