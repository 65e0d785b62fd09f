import Typeahead.Proofs.Editor.Caret
import Typeahead.Proofs.Recall

/-!
# An editor that may not be edited

Before its reader has come an editor does nothing, and where none comes it never does.

- **Locked editors** (`Course.Locked`): the field is as it was at first, but for what leaves no
  trace later on, and nothing waits, goes on, was asked or was told.
- **Stirring** (`Course.Stirs`): all that can become of such an editor, until the grammar has been
  compiled or refused: the pointer comes and goes, the panel that was never open is closed, dropped
  actions are forgotten, time passes (`Locked.perform`, `Locked.run`). It comes to nothing
  (`Course.Unmoved`, `Locked.unmoved`).
- **Reading at last** (`Display.Alike`): once the reader has come there is to see what a new editor
  shows that has its reader from the beginning (`Locked.alike_install`).
- **Settings**: under settings that forbid edits the text stays as it was at first
  (`Run.text_of_readOnly`).
-/

namespace Typeahead

/-! ## What is seen -/

instance : ReflBEq Node := ⟨fun {n} => n.beq_self⟩

namespace Display

theorem beq_self (d : Display) : (d == d) = true := by
  show instBEqDisplay.beq d d = true
  unfold instBEqDisplay.beq
  simp

/-- Two displays show the same. The nodes may be of different documents: they agree in kind, span
and text. -/
structure Alike (d d' : Display) : Prop where
  target : (d.target.map fun n => (n.label, n.text)) = d'.target.map fun n => (n.label, n.text)
  others : { d with target := none } = { d' with target := none }

end Display

namespace Editor

/-- An editor, but for where the pointer is, how often the panel was closed, how many actions were
dropped, and the time. -/
def stirred (e : Editor) (hovering : Bool) (generation dropped clock : Nat) : Editor :=
  { e with input := { e.input with hovering, generation }, slot := ⟨none, dropped⟩, clock }

/-- A field that looks the same counts as no change. -/
theorem publish_eq {e : Editor} {i : Input} (h : i.display e.settings = e.display) :
    e.publish i = { e with input := i } := by
  simp only [publish, h, Display.beq_self, if_true]

theorem input_install (e : Editor) (r : Reader) :
    (e.install r).input = e.input.readied.resolve (r.read e.input.text).1 true :=
  input_resolveNow (e := { e.publish e.input.readied with reader := some r }) rfl true

theorem reader_install (e : Editor) (r : Reader) :
    (e.install r).reader = some (r.read e.input.text).2.1 :=
  reader_resolveNow (e := { e.publish e.input.readied with reader := some r }) rfl true

theorem settings_install (e : Editor) (r : Reader) : (e.install r).settings = e.settings :=
  settings_resolveNow (e := { e.publish e.input.readied with reader := some r }) rfl true

end Editor

namespace Course

/-! ## Locked editors -/

/-- A course whose editor has no reader yet, and had this text at first. -/
structure Locked (c : Course) (text : String) : Prop where
  input : ∃ hovering generation phase error, Input.settledPhase phase = phase ∧
    c.editor.input = { Input.ofText text with hovering, generation, phase, error }
  reader : c.editor.reader = none
  waiting : c.editor.slot.waiting = none
  ripe : c.ripe = []
  passes : c.editor.passes = []
  requests : c.editor.requests = []
  asked : c.editor.asked = []
  told : c.editor.told = []

/-- Nothing that shows, or that anybody else takes part in, has happened. -/
def Stirs (c c' : Course) : Prop :=
  ∃ hovering generation dropped clock, c' = ⟨c.editor.stirred hovering generation dropped clock, []⟩

/-- The editor shows what it showed, nothing waits or goes on, nobody was asked or told, and no
event selects. -/
structure Unmoved (c c' : Course) : Prop where
  display : c'.editor.display = c.editor.display
  revision : c'.editor.revision = c.editor.revision
  quiet : c'.Quiet
  asked : c'.editor.asked = []
  told : c'.editor.told = []
  refused : ∀ event, (c'.editor.handle event).2 = none

/-- A move that is not about the grammar. -/
def Uncompiled (_ : Course) (m : Move) : Prop := ∀ result, m ≠ .compiled result

variable {c c' : Course} {text : String}

theorem Stirs.trans {c'' : Course} (h : c.Stirs c') (h' : c'.Stirs c'') : c.Stirs c'' := by
  obtain ⟨_, _, _, _, rfl⟩ := h
  obtain ⟨hovering, generation, dropped, clock, rfl⟩ := h'
  exact ⟨hovering, generation, dropped, clock, rfl⟩

namespace Locked

theorem slot_eq (h : c.Locked text) : c.editor.slot = ⟨none, c.editor.slot.dropped⟩ := by
  rw [← h.waiting]

theorem stirs_self (h : c.Locked text) : c.Stirs c := by
  obtain ⟨e, ripe⟩ := c
  obtain rfl : ripe = [] := h.ripe
  refine ⟨e.input.hovering, e.input.generation, e.slot.dropped, e.clock, ?_⟩
  unfold Editor.stirred
  rw [← h.slot_eq]

/-- Whatever stirs a locked editor leaves it locked. -/
theorem of_stirs (h : c.Locked text) (hs : c.Stirs c') : c'.Locked text := by
  obtain ⟨hovering, generation, dropped, clock, rfl⟩ := hs
  obtain ⟨_, _, phase, error, hphase, hinput⟩ := h.input
  refine { h with
    input := ⟨hovering, generation, phase, error, hphase, ?_⟩
    waiting := rfl
    ripe := rfl }
  show ({ c.editor.input with hovering, generation } : Input) = _
  rw [hinput]

theorem readOnly (h : c.Locked text) (s : Settings) : c.editor.input.readOnly s = true := by
  obtain ⟨_, _, _, _, -, hinput⟩ := h.input
  rw [hinput]
  rfl

theorem closePanel_eq (h : c.Locked text) : c.editor.input.closePanel =
    { c.editor.input with generation := c.editor.input.generation + 1 } := by
  obtain ⟨_, _, phase, _, hphase, hinput⟩ := h.input
  rw [hinput]
  simp only [Input.closePanel, hphase]
  rfl

/-- To close a panel that was never open counts, and does no more. -/
theorem stirs_close (h : c.Locked text) : c.Stirs ⟨c.editor.close, c.ripe⟩ := by
  refine ⟨c.editor.input.hovering, c.editor.input.generation + 1, c.editor.slot.active,
    c.editor.clock, ?_⟩
  have hsame : ({ c.editor.input with generation := c.editor.input.generation + 1 } : Input).display
      c.editor.cancel.settings = c.editor.cancel.display := rfl
  rw [h.ripe, Editor.close, h.closePanel_eq, Editor.publish_eq hsame]
  rfl

theorem stirs_hover (h : c.Locked text) (inside : Bool) :
    c.Stirs ⟨(c.editor.handle (.hover inside)).1, c.ripe⟩ := by
  refine ⟨inside, c.editor.input.generation, c.editor.slot.dropped, c.editor.clock, ?_⟩
  have hsame : ({ c.editor.input with hovering := inside } : Input).display c.editor.settings =
      c.editor.display := rfl
  rw [h.ripe, Editor.handle, Editor.publish_eq hsame, Editor.stirred, ← h.slot_eq]

theorem stirs_handle (h : c.Locked text) (event : UserEvent) :
    c.Stirs ⟨(c.editor.handle event).1, c.ripe⟩ := by
  obtain ⟨hovering, _, _, _, -, hinput⟩ := h.input
  have hready : c.editor.input.ready = false := by rw [hinput]; rfl
  have hclosed : c.editor.input.panelOpen = false := by rw [hinput]; rfl
  have hnone : c.editor.input.candidates = [] := by rw [hinput]; rfl
  cases event with
  | text text =>
    rw [Editor.retype_eq_self (.inl (h.readOnly _))]
    exact h.stirs_self
  | caret offset =>
    simp only [Editor.handle, Editor.moveTo, hready, Bool.not_false, Bool.true_or, if_true]
    exact h.stirs_self
  | left | right =>
    simp only [Editor.handle, Editor.recheck, hready, Bool.false_and, Bool.false_eq_true, if_false]
    exact h.stirs_self
  | up | down =>
    simp only [Editor.handle, Editor.highlight, hclosed, Bool.false_eq_true, if_false]
    exact h.stirs_self
  | enter =>
    simp only [Editor.handle, Editor.enter, Input.activeCandidate?, hnone, List.getElem?_nil]
    exact h.stirs_self
  | click candidate =>
    simp only [Editor.handle, Editor.click, hnone, List.not_mem_nil, if_false]
    exact h.stirs_self
  | escape | close => exact h.stirs_close
  | blur =>
    simp only [Editor.handle]
    split
    · exact h.stirs_self
    · exact h.stirs_close
  | hover inside => exact h.stirs_hover inside

/-- No move but one about the grammar does more than stir a locked editor. -/
theorem perform (h : c.Locked text) {m : Move} (hm : c.Uncompiled m) : c.Stirs (c.perform m) := by
  cases m with
  | compiled result => exact absurd rfl (hm result)
  | user event => exact h.stirs_handle event
  | ripen =>
    simp only [Course.perform, Slot.fire?, h.waiting, Option.map_none]
    exact h.stirs_self
  | begin index =>
    simp only [Course.perform, h.ripe, List.getElem?_nil]
    exact h.stirs_self
  | advance index =>
    simp only [Course.perform, Editor.advance, h.passes, List.getElem?_nil]
    exact h.stirs_self
  | answer generation a =>
    have hnone : c.editor.request? generation = none := by
      rw [Editor.request?, h.requests, List.find?_nil]
    simp only [Course.perform, Editor.answer_of_none _ a hnone]
    exact h.stirs_self
  | wait duration =>
    refine ⟨c.editor.input.hovering, c.editor.input.generation, c.editor.slot.dropped,
      c.editor.clock + duration, ?_⟩
    rw [Course.perform, h.ripe, Editor.stirred, ← h.slot_eq]
  | reap =>
    refine ⟨c.editor.input.hovering, c.editor.input.generation, 0, c.editor.clock, ?_⟩
    rw [Course.perform, h.ripe, Slot.reap, h.waiting]
    rfl

/-- Until the grammar has been compiled or refused, a locked editor is stirred and no more. -/
theorem run (h : c.Locked text) {history : History} (later : Run Uncompiled c history c') :
    c.Stirs c' := by
  induction later with
  | start => exact h.stirs_self
  | step m _ _ hm ih => exact ih.trans ((h.of_stirs ih).perform hm)

/-- A refusal is shown, and leaves the editor locked. -/
theorem reject (h : c.Locked text) (error : Grammar.Error) :
    (c.perform (.compiled (.error error))).Locked text := by
  obtain ⟨hovering, generation, _, _, -, hinput⟩ := h.input
  refine { h with input := ⟨hovering, generation, .error,
    some ("Invalid grammar: " ++ error.message), rfl, ?_⟩ }
  show c.editor.input.rejected _ = _
  rw [hinput]
  rfl

/-- What stirs a locked editor comes to nothing. -/
theorem unmoved (h : c.Locked text) (hs : c.Stirs c') : c.Unmoved c' := by
  have h' := h.of_stirs hs
  obtain ⟨hovering, generation, dropped, clock, rfl⟩ := hs
  refine ⟨rfl, rfl, ⟨rfl, rfl, h.passes, h.requests⟩, h.asked, h.told, fun event => ?_⟩
  exact (Editor.text_handle_of_readOnly (h'.readOnly _) event).2

end Locked

section

variable {settings : Settings} {limit : Option Nat} {listening : Bool}

theorem locked_fresh : (fresh settings limit listening).Locked settings.initialText :=
  ⟨⟨false, 0, .initializing, none, rfl, rfl⟩, rfl, rfl, rfl, rfl, rfl, rfl, rfl⟩

/-- A reader that has come stays. -/
theorem reader_of_perform {m : Move} (had : c.Admits m) (h : (c.perform m).editor.reader = none) :
    c.editor.reader = none := by
  have hs := c.step_parts had
  have h : (c.perform m).parts.reader = none := h
  show c.parts.reader = none
  generalize (c.perform m).parts = p at hs h
  cases hs with
  | install | selectAndResolve | parse | look => cases h
  | _ => exact h

variable {allowed : Course → Move → Prop} {history : History}

/-- As long as there is no reader an editor is locked. -/
theorem Run.locked (h : Run allowed (fresh settings limit listening) history c)
    (hr : c.editor.reader = none) : c.Locked settings.initialText := by
  induction h with
  | start => exact locked_fresh
  | @step _ c m _ had _ ih =>
    have hlocked := ih (reader_of_perform had hr)
    cases m with
    | compiled result =>
      cases result with
      | ok r =>
        rw [show (c.perform (.compiled (.ok r))).editor.reader = some _ from
          c.editor.reader_install r] at hr
        cases hr
      | error error => exact hlocked.reject error
    | _ => exact hlocked.of_stirs (hlocked.perform fun _ hm => by cases hm)

/-! ## Reading at last -/

/-- Trees of one text show the same, whichever documents they belong to, and the same as in a field
that nothing has stirred. -/
theorem alike_resolve {d d' : Document} (ht : d.tree = d'.tree) (s : Settings) (hovering : Bool)
    (generation : Nat) (phase : Phase) (error : Option String) :
    ((({ Input.ofText text with
        hovering, generation, phase, error } : Input).readied.resolve d true).display s).Alike
      (((Input.ofText text).readied.resolve d' true).display s) := by
  obtain ⟨serial, t⟩ := d
  obtain ⟨serial', t'⟩ := d'
  obtain rfl : t = t' := ht
  cases hf : t.faults with
  | nil =>
    simp only [Input.resolve, hf]
    exact ⟨rfl, rfl⟩
  | cons fault faults =>
    simp only [Input.resolve, hf]
    exact ⟨rfl, rfl⟩

theorem Locked.alike_install (h : c.Locked settings.initialText) (hs : c.editor.settings = settings)
    {r r' : Reader} (ht : (r.read settings.initialText).1.tree =
      (r'.read settings.initialText).1.tree) :
    (c.editor.install r).display.Alike
      ((Editor.ofSettings settings limit listening).install r').display := by
  obtain ⟨hovering, generation, phase, error, -, hinput⟩ := h.input
  simp only [Editor.display, Editor.input_install, Editor.settings_install, hinput, hs]
  exact alike_resolve ht settings hovering generation phase error

/-! ## Settings -/

theorem Run.readOnly (h : Run allowed (fresh settings limit listening) history c)
    (hs : settings.readOnly = true) : c.editor.input.readOnly c.editor.settings = true := by
  rw [h.settings_eq.1, Input.readOnly, hs, Bool.or_true]

/-- Under settings that forbid edits the text stays as it was at first. -/
theorem Run.text_of_readOnly (h : Run allowed (fresh settings limit listening) history c)
    (hs : settings.readOnly = true) : c.editor.input.text = settings.initialText := by
  induction h with
  | start => rfl
  | @step _ c m h had _ ih =>
    cases m with
    | user event => exact (Editor.text_handle_of_readOnly (h.readOnly hs) event).1.trans ih
    | _ => exact ((c.step_parts had).agrees fun _ hm => by cases hm).1.trans ih

/-- **Nothing happens to an editor that may not be edited.** Before its reader has come, and also
when the grammar was refused, no move but one about the grammar changes what is shown; nothing waits
or goes on, the source is not asked and the listener not told, and no event selects. A reader that
comes at last makes the editor show what a new editor shows that has a reader of the same backend
from the beginning, whatever that one has read before. And under settings that forbid edits, the
text of an editor with a reader stays as it was at first as well, and no event selects. -/
theorem Run.inert (h : Run allowed (fresh settings limit listening) history c) :
    (c.editor.reader = none →
      (∀ later c', Run Uncompiled c later c' → c.Unmoved c') ∧
      ∀ (backend : Backend) (hash hash' : String → UInt64) (capacity capacity' : Nat)
        (texts : List String),
        (c.perform (.compiled (.ok (.hashed hash capacity backend)))).editor.display.Alike
          ((Editor.ofSettings settings limit listening).install
            ((Reader.hashed hash' capacity' backend).readAll texts)).display) ∧
    (settings.readOnly = true → c.editor.input.text = settings.initialText ∧
      ∀ event, (c.editor.handle event).2 = none) := by
  refine ⟨fun hr => ?_, fun hs => ⟨h.text_of_readOnly hs, fun event => ?_⟩⟩
  · have hlocked := h.locked hr
    refine ⟨fun later c' run => hlocked.unmoved (hlocked.run run), ?_⟩
    intro backend hash hash' capacity capacity' texts
    refine hlocked.alike_install h.settings_eq.1 ?_
    have hfirst := Reader.tree_read_readAll hash capacity backend [] settings.initialText
    exact hfirst.trans (Reader.tree_read_readAll hash' capacity' backend texts _).symm
  · exact (Editor.text_handle_of_readOnly (h.readOnly hs) event).2

/-- The pointer comes over the panel of a new editor, and the panel is closed; then a text is typed
into it in vain. -/
theorem Run.inert_hovered :
    ∃ history c, Run Anything (fresh { initialText := "a", readOnly := true } none true) history c ∧
      c.editor.input.hovering = true ∧ c.editor.input.generation = 1 ∧
      (∀ later c', Run Uncompiled c later c' → c.Unmoved c') ∧
      (∀ (backend : Backend) (hash hash' : String → UInt64) (capacity capacity' : Nat)
        (texts : List String),
        (c.perform (.compiled (.ok (.hashed hash capacity backend)))).editor.display.Alike
          ((Editor.ofSettings { initialText := "a", readOnly := true } none true).install
            ((Reader.hashed hash' capacity' backend).readAll texts)).display) ∧
      c.editor.input.text = "a" ∧ ∀ event, (c.editor.handle event).2 = none := by
  have new : Run Anything (fresh { initialText := "a", readOnly := true } none true) [] _ := .start
  have hovered := new.step (.user (.hover true)) trivial trivial
  have closed := hovered.step (.user .escape) trivial trivial
  have typed := closed.step (.user (.text "b")) trivial trivial
  obtain ⟨before, forbidden⟩ := typed.inert
  exact ⟨_, _, typed, rfl, rfl, (before rfl).1, (before rfl).2, forbidden rfl⟩

end

end Course

end Typeahead
