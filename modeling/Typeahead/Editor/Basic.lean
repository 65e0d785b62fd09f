import Typeahead.Debounce.Slot
import Typeahead.Editor.Display
import Typeahead.Shortlist

/-!
# Editors

An editor keeps an input field, and works on its text in passes: a text is parsed once it has been
left alone for a while, and once it has been left alone for as long again the suggestion source is
asked about the node under the caret.

- **Actions** (`Action`): one slot holds back both kinds, so a later input takes the place of
  either.
- **Work on the way** (`Pass`, `Request`): long parses and questions to the source take time. Other
  things may happen before they end, and an editor names each of them so that it can be told of the
  end.
- **Publication** (`publish`): a change that shows counts as one more revision.
-/

namespace Typeahead

/-- What an editor holds back for a while. -/
inductive Action where
  /-- Parse the text; unless `silent`, suggestions are to follow. -/
  | resolve (silent : Bool)
  /-- Ask the source. -/
  | fetch
  deriving Repr, DecidableEq

/-- How far a long parse is. -/
inductive Stage where
  | queued
  /-- The text was not at hand, and is being parsed. -/
  | missed
  | done (d : Document)

/-- A long parse. -/
structure Pass where
  text : String
  silent : Bool
  stage : Stage := .queued

/-- A question to the source, asked about a node. -/
structure Request where
  generation : Nat
  target : Node
  /-- When it was asked. -/
  asked : Nat

/-- An input field and the work that goes on behind it. -/
structure Editor where
  settings : Settings
  /-- How many candidates are offered at most. -/
  limit : Option Nat
  /-- Whether somebody wants to be told of every text that a candidate was put into. -/
  listening : Bool
  input : Input
  reader : Option Reader := none
  slot : Slot Action := {}
  passes : List Pass := []
  /-- The questions without an answer yet. -/
  requests : List Request := []
  /-- All questions, the latest first. -/
  asked : List Request := []
  /-- The texts that were told, the latest first. -/
  told : List String := []
  /-- The number of changes that showed. -/
  revision : Nat := 0
  tally : Tally := {}
  clock : Nat := 0

namespace Editor

/-- A fresh editor, not yet ready. -/
def ofSettings (settings : Settings) (limit : Option Nat) (listening : Bool) : Editor :=
  { settings, limit, listening, input := .ofText settings.initialText }

variable (e : Editor)

/-- What there is to see. -/
def display : Display := e.input.display e.settings

/-- The number of things that wait, go on, or were dropped lately. -/
def active : Nat := e.slot.active + e.passes.length + e.requests.length

/-- Puts a new state of the field in place. -/
def publish (input : Input) : Editor :=
  let shown := input.display e.settings
  { e with input, revision := if e.display == shown then e.revision else e.revision + 1 }

/-- Counts what was observed. -/
def observe (observed : List Observation) : Editor :=
  { e with tally := e.tally.addAll observed }

/-- Holds an action back for the settings' delay. -/
def schedule (action : Action) : Editor :=
  { e with slot := e.slot.schedule e.clock e.settings.delay action }

/-- Drops the action that is held back. -/
def cancel : Editor := { e with slot := e.slot.cancel }

/-- Tells a text that a candidate was put into. -/
def tell (text : String) : Editor :=
  if e.listening then { e with told := text :: e.told } else e

end Editor

end Typeahead
