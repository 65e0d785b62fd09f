import Typeahead.Editor.Event
import Typeahead.Editor.Source
import Typeahead.Grammar.Compile

/-!
# Editors over time

A host gives an editor what it lacks: a source, somebody who compiles the grammar, and the passing
of time. Time is a whole number of milliseconds, and jumps from one due action to the next.

- **Work** (`work`): the grammar is compiled, passes go on, and the source answers; this takes no
  time. A shut gate holds up parses, but not look-ups.
- **Passing time** (`runUntil`): the action that is held back is performed when it is due. A parse
  may hold back a question to the source, and after the question there is nothing to come, so two
  turns are all that can be.
- **Waiting** (`sleep`, `jump`, `ready`, `settle`).
- **News from outside** (`reply`, `openGate`): an action that is due when the news comes was there
  before it, and is performed first.
-/

namespace Typeahead

/-- An editor with what it needs to run. -/
structure Host where
  editor : Editor
  source : Source
  /-- What the compiled grammar will be, as long as it is not there. -/
  compiling : Option (Except Grammar.Error Reader) := none
  /-- Whether long texts may be parsed at present. -/
  gateOpen : Bool := true

namespace Host

/-- A host whose editor is ready from the beginning. -/
def ofReader (settings : Settings) (limit : Option Nat) (listening : Bool) (source : Source)
    (reader : Reader) : Host :=
  { editor := (Editor.ofSettings settings limit listening).install reader, source }

/-- A host that has to compile the settings' grammar first. -/
def compilingGrammar (settings : Settings) (limit : Option Nat) (listening : Bool)
    (source : Source) : Host :=
  { editor := .ofSettings settings limit listening
    source
    compiling := some ((Grammar.compile settings.grammar).map fun g => .ofBackend g.backend) }

variable (h : Host)

/-- Brings the compiled grammar, once. -/
def compile : Host :=
  match h.compiling with
  | none => h
  | some (.ok reader) => { h with editor := h.editor.install reader, compiling := none }
  | some (.error error) => { h with editor := h.editor.reject error, compiling := none }

/-- Whether a pass can go on. -/
def mayAdvance (p : Pass) : Bool :=
  match p.stage with
  | .missed => h.gateOpen
  | _ => true

/-- Moves the first pass on that can go on. -/
def advance : Host :=
  match h.editor.passes.findIdx? h.mayAdvance with
  | some index => { h with editor := h.editor.advance index }
  | none => h

/-- Moves all passes on as far as they can: three stages each. -/
def advanceAll : Host := (3 * h.editor.passes.length).repeat advance h

/-- Has a question answered where the source answers at once. -/
def consult (r : Request) : Host :=
  match h.source.answer? r.target with
  | some a => { h with editor := h.editor.answer r.generation a }
  | none => h

/-- Has all questions answered that the source answers at once. -/
def consultAll : Host := h.editor.requests.foldl consult h

/-- Lets everything happen that takes no time. -/
def work : Host :=
  let h := h.compile
  let h := { h with editor := { h.editor with slot := h.editor.slot.reap } }
  h.advanceAll.consultAll

/-- Whether the action that is held back is due within a limit, if there is one. -/
def dueWithin (limit : Option Nat) : Bool :=
  match h.editor.slot.due?, limit with
  | none, _ => false
  | some _, none => true
  | some due, some limit => due ≤ limit

/-- Performs the action that is held back, when it is due. -/
def fire : Host :=
  let clock := max h.editor.clock ((h.editor.slot.due?).getD 0)
  { h with editor := { h.editor with clock }.fire }

/-- Lets everything happen that takes no time, and then the next action within a limit. -/
def turn (limit : Option Nat) : Host :=
  let h := h.work
  if h.dueWithin limit then h.fire else h

/-- Lets everything happen up to a limit, or all there is. -/
def runUntil (limit : Option Nat) : Host := ((h.turn limit).turn limit).work

/-- Sets the clock. -/
def setClock (clock : Nat) : Host := { h with editor := { h.editor with clock } }

/-- Lets everything happen that is due. -/
def flush : Host := h.runUntil (some h.editor.clock)

/-- Lets some time pass. -/
def sleep (duration : Nat) : Host :=
  let stop := Clock.after h.editor.clock duration
  (h.runUntil (some stop)).setClock stop

/-- Lets some time pass at once: what comes due meanwhile happens at the end. -/
def jump (duration : Nat) : Host :=
  let h := h.flush
  (h.setClock (h.editor.clock + duration)).flush

/-- Whether the grammar is being compiled or the text parsed. -/
def busy : Bool := h.editor.input.phase == .initializing || h.editor.input.phase == .parsing

/-- Lets time pass until the present text has been parsed. -/
def ready : Host :=
  if h.busy then
    let h := h.work
    if h.busy then (h.turn none).work else h
  else h

/-- Whether there is something to parse texts with. -/
def isReady : Bool := h.editor.reader.isSome

/-- Lets time pass until nothing more is to come. -/
def settle : Host := h.ready.runUntil none

/-- Passes on what the user does. -/
def handle (event : UserEvent) : Host × Option Substitution :=
  let (editor, substitution) := h.editor.handle event
  ({ h with editor }, substitution)

/-- The question with a number, in the order of asking, if it has no answer yet. -/
def open? (number : Nat) : Option Request :=
  h.editor.asked.reverse[number]?.bind fun r => h.editor.request? r.generation

/-- Answers a question by its number. An action that is due already comes before the answer, and
what follows from that action comes after it. -/
def reply (number : Nat) (a : Answer) : Host :=
  match h.open? number with
  | some r =>
    let h := h.turn (some h.editor.clock)
    { h with editor := h.editor.answer r.generation a }.flush
  | none => h.flush

/-- Shuts the gate. -/
def shutGate : Host := { h with gateOpen := false }

/-- Opens the gate; what is due already comes first, then what was held up goes on, and a
millisecond passes. -/
def openGate : Host := { h.turn (some h.editor.clock) with gateOpen := true }.sleep 1

end Host

end Typeahead
