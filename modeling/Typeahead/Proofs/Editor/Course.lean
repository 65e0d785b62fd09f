import Typeahead.Proofs.Editor.Effect

/-!
# Courses of an editor

What can happen to an editor, in any order: the user does something, the time of the action that
is held back is up, an action begins, a long parse goes on, an answer comes, time passes.

- **Courses** (`Course`): an editor together with the actions whose time is up (`ripe`). Such an
  action has left the slot, so nothing drops it any more, and it may begin late. With nothing in
  between, an action that ripens and begins is `Editor.fire` (`perform_ripen_begin`).
- **Runs** (`Course.Run`): all that moves lead to, one after the other, with the history of the
  moves. What the moves of a run have in common is a parameter, so a law can speak of all runs or of
  those where, say, the source answers by a table.
- **Rest** (`Course.Quiet`): nothing is held back, ripe, being parsed or without an answer.
-/

namespace Typeahead

/-- An editor, and the actions whose time is up but which have not begun. -/
structure Course where
  editor : Editor
  ripe : List Action := []

/-- What happens next. -/
inductive Move where
  /-- The grammar has been compiled, or refused. -/
  | compiled (result : Except Grammar.Error Reader)
  | user (event : UserEvent)
  /-- The time of the action that is held back is up. -/
  | ripen
  /-- A ripe action begins. -/
  | begin (index : Nat)
  /-- A long parse goes on by one stage. -/
  | advance (index : Nat)
  /-- The question of a generation is answered. -/
  | answer (generation : Nat) (a : Answer)
  /-- Time passes. -/
  | wait (duration : Nat)
  /-- The dropped actions are forgotten. -/
  | reap

/-- The moves of a run, the latest first, each with the course that it found. -/
abbrev History := List (Course × Move)

/-- The parser that takes any text for one node. -/
def Backend.whole : Backend where
  name := "whole"
  startRule := "text"
  read text :=
    { root := .mk { kind := "text", start := 0, stop := text.utf8ByteSize } [], faults := [] }

namespace Editor

variable (e : Editor)

/-- Performs an action. -/
def perform : Action → Editor
  | .resolve silent => e.resolve silent
  | .fetch => e.fetch

end Editor

namespace Course

/-- A new editor, for which the grammar is still to be compiled. -/
def fresh (settings : Settings) (limit : Option Nat) (listening : Bool) : Course :=
  ⟨.ofSettings settings limit listening, []⟩

variable (c : Course)

/-- The course after a move. A move for which there is nothing to do changes nothing. -/
def perform : Move → Course
  | .compiled (.ok reader) => { c with editor := c.editor.install reader }
  | .compiled (.error error) => { c with editor := c.editor.reject error }
  | .user event => { c with editor := (c.editor.handle event).1 }
  | .ripen =>
    match c.editor.slot.fire? with
    | some (action, slot) => ⟨{ c.editor with slot }, c.ripe ++ [action]⟩
    | none => c
  | .begin index =>
    match c.ripe[index]? with
    | some action => ⟨c.editor.perform action, c.ripe.eraseIdx index⟩
    | none => c
  | .advance index => { c with editor := c.editor.advance index }
  | .answer generation a => { c with editor := c.editor.answer generation a }
  | .wait duration => { c with editor := { c.editor with clock := c.editor.clock + duration } }
  | .reap => { c with editor := { c.editor with slot := c.editor.slot.reap } }

/-- The grammar is compiled once, and a reader has read nothing before. -/
def Admits : Move → Prop
  | .compiled (.ok reader) =>
    c.editor.reader = none ∧ ∃ hash capacity backend, reader = .hashed hash capacity backend
  | .compiled (.error _) => c.editor.reader = none
  | _ => True

/-- What moves lead to from a course, when each of them is `allowed`. -/
inductive Run (allowed : Course → Move → Prop) (first : Course) : History → Course → Prop
  | start : Run allowed first [] first
  | step {history : History} {c : Course} (m : Move) : Run allowed first history c → c.Admits m →
      allowed c m → Run allowed first ((c, m) :: history) (c.perform m)

/-- Any move may happen at any time. -/
def Anything (_ : Course) (_ : Move) : Prop := True

/-- No action is held back or has begun without an end. -/
structure Quiet : Prop where
  held : c.editor.held = none
  ripe : c.ripe = []
  passes : c.editor.passes = []
  requests : c.editor.requests = []

/-- A move by which a parse is held back. -/
def Schedules : Move → Prop
  | .user event => c.editor.input.prompts c.editor.settings event = true
  | _ => False

theorem Run.invariant {c} {allowed : Course → Move → Prop} {first : Course} {I : Course → Prop}
    (start : I first) (step : ∀ c m, I c → c.Admits m → allowed c m → I (c.perform m))
    {history : History} (h : Run allowed first history c) : I c := by
  induction h with
  | start => exact start
  | step m _ had hal ih => exact step _ m ih had hal

/-- An action that begins as soon as its time is up is fired. -/
theorem perform_ripen_begin (h : c.ripe = []) :
    (c.perform .ripen).perform (.begin 0) = { c with editor := c.editor.fire } := by
  obtain ⟨e, ripe⟩ := c
  subst h
  unfold Editor.fire
  cases hf : e.slot.fire? with
  | none => simp [perform, hf]
  | some fired =>
    obtain ⟨action, slot⟩ := fired
    cases action <;> simp [perform, hf, Editor.perform]

end Course

end Typeahead
