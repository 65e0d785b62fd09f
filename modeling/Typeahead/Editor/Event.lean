import Typeahead.Editor.Fetch

/-!
# What the user does

- **Events** (`UserEvent`): edits, caret moves, keys, clicks, and the pointer over the panel.
- **Responses** (`handle`): each is one step, and only holds work back; nothing is parsed or asked,
  but for the text that a candidate was put into.
- **Selecting** (`select`): puts a candidate in the place of the target, closes the panel and drops
  what was held back.
-/

namespace Typeahead

/-- What a user does. -/
inductive UserEvent where
  /-- The text is now another one. -/
  | text (text : String)
  /-- The caret is put to a byte offset. -/
  | caret (offset : Nat)
  | left
  | right
  | up
  | down
  | enter
  | escape
  /-- A candidate of the panel is clicked. -/
  | click (candidate : String)
  | blur
  /-- The pointer comes over the panel, or leaves it. -/
  | hover (inside : Bool)
  | close
  deriving Repr, DecidableEq

namespace Editor

variable (e : Editor)

/-- The text is now another one. -/
def retype (text : String) : Editor :=
  if e.input.readOnly e.settings || e.input.text == text then e
  else (e.publish (e.input.retype text)).schedule (.resolve false)

/-- The caret is put to an offset. -/
def moveTo (offset : Nat) : Editor :=
  let input := e.input.moveTo offset
  if !e.input.ready || (input.caret == e.input.caret && !e.input.needsResolve) then e
  else (e.publish input).schedule (.resolve false)

/-- The caret may have moved; where it is will be told apart from this. -/
def recheck : Editor :=
  if e.input.ready && e.input.needsResolve then e.schedule (.resolve false) else e

/-- Moves the highlight. -/
def highlight (move : Input → Input) : Editor :=
  if e.input.panelOpen then e.publish (move e.input) else e

/-- Closes the panel and drops what was held back. -/
def close : Editor := e.cancel.publish e.input.closePanel

/-- Puts a candidate in the place of the target, where that is possible. -/
def select (candidate : String) : Editor × Option Substitution :=
  match e.input.substitute? e.settings candidate with
  | none => (e, none)
  | some (input, substitution) =>
    let e := ((e.publish input).cancel.observe [.selected]).tell substitution.text
    match e.settings.afterSelect with
    | .resolve => (e.resolveNow true, some substitution)
    | .close => (e, some substitution)

/-- Selects the highlighted candidate of an open panel. -/
def enter : Editor × Option Substitution :=
  match e.input.activeCandidate? with
  | some candidate => if e.input.panelOpen then e.select candidate else (e, none)
  | none => (e, none)

/-- Selects a candidate that is offered. -/
def click (candidate : String) : Editor × Option Substitution :=
  if candidate ∈ e.input.candidates then e.select candidate else (e, none)

/-- What an event leads to; the substitution is what the host has to show in place of its text. -/
def handle : UserEvent → Editor × Option Substitution
  | .text text => (e.retype text, none)
  | .caret offset => (e.moveTo offset, none)
  | .left => (e.recheck, none)
  | .right => (e.recheck, none)
  | .up => (e.highlight .up, none)
  | .down => (e.highlight .down, none)
  | .enter => e.enter
  | .escape => (e.close, none)
  | .click candidate => e.click candidate
  | .blur => (if e.input.hovering then e else e.close, none)
  | .hover inside => (e.publish { e.input with hovering := inside }, none)
  | .close => (e.close, none)

/-- Phase, text, caret and panel as a record. -/
def describe : String :=
  "CompletionEngine \x7b phase: " ++ e.input.phase.title ++ ", text: " ++
    Text.quoted e.input.text ++ ", cursor: " ++ toString e.input.caret ++ ", panel_open: " ++
    toString e.input.panelOpen ++ " \x7d"

end Editor

end Typeahead
