import Typeahead.Proofs.Editor.Course

/-!
# What a move does

All that can become of an editor depends on a few of its parts: the field, the reader, the actions
that are held back or ripe, the passes and the open questions.

- **Parts** (`Parts`, `Course.parts`).
- **Steps** (`Parts.Step`): all that a move can do to the parts, one constructor for each way, with
  what it takes for it.
- **Moves are steps** (`Course.step_parts`), so that what every step keeps holds in every run
  (`Course.Run.parts_invariant`).
-/

namespace Typeahead

/-- The parts of an editor, and of its course, on which depends what comes next. -/
structure Parts where
  settings : Settings
  limit : Option Nat
  input : Input
  reader : Option Reader
  held : Option Action
  ripe : List Action
  passes : List Pass
  requests : List Request

/-- The parts of a course. -/
def Course.parts (c : Course) : Parts where
  settings := c.editor.settings
  limit := c.editor.limit
  input := c.editor.input
  reader := c.editor.reader
  held := c.editor.held
  ripe := c.ripe
  passes := c.editor.passes
  requests := c.editor.requests

namespace Parts

variable (p : Parts)

/-- Whether a move holds back a parse. -/
def prompts : Move → Bool
  | .user event => p.input.prompts p.settings event
  | _ => false

/-- What is held back once a document has been put in place: a question, where there is one to ask,
and else what was held back before. -/
def heldAfter (d : Document) (silent : Bool) : Option Action :=
  if silent || !d.tree.faults.isEmpty then p.held else some .fetch

/-- The first open question of a generation. -/
def request? (generation : Nat) : Option Request :=
  p.requests.find? (·.generation == generation)

/-- The question that a move answers. -/
def answered? : Move → Option Request
  | .answer generation _ => p.request? generation
  | _ => none

/-- The field once a candidate has taken the place of a node. -/
def chosen (n : Node) (candidate : String) : Input :=
  { p.input with
    text := p.input.splice n candidate
    caret := n.label.start + candidate.utf8ByteSize }.closePanel

/-- All that a move can do. -/
inductive Step (p : Parts) : Move → Parts → Prop
  | idle {m : Move} : p.prompts m = false → p.answered? m = none → Step p m p
  | install {r r' : Reader} {d : Document} {os : List Observation} : p.reader = none →
      (∃ hash capacity backend, r = .hashed hash capacity backend) →
      r.read p.input.text = (d, r', os) →
      Step p (.compiled (.ok r)) { p with
        reader := some r', input := p.input.readied.resolve d true }
  | reject (error : Grammar.Error) : p.reader = none →
      Step p (.compiled (.error error)) { p with
        input := p.input.rejected ("Invalid grammar: " ++ error.message) }
  | edit {event : UserEvent} (text : String) (caret : Nat) : p.prompts (.user event) = true →
      Step p (.user event) { p with
        input := { p.input with text, caret }, held := some (.resolve false) }
  | recheck {event : UserEvent} : p.prompts (.user event) = true →
      Step p (.user event) { p with held := some (.resolve false) }
  | highlight {event : UserEvent} (active : Nat) : p.prompts (.user event) = false →
      event = .up ∨ event = .down →
      Step p (.user event) { p with input := { p.input with active } }
  | hover (inside : Bool) :
      Step p (.user (.hover inside)) { p with input := { p.input with hovering := inside } }
  | close {event : UserEvent} : p.prompts (.user event) = false → event.closes = true →
      Step p (.user event) { p with input := p.input.closePanel, held := none }
  | select {event : UserEvent} {candidate : String} {n : Node} :
      p.prompts (.user event) = false → p.input.chooses event = some candidate →
      p.input.readOnly p.settings = false → p.input.target = some n → n.source = p.input.text →
      p.settings.afterSelect = .close ∨ p.reader = none →
      Step p (.user event) { p with input := p.chosen n candidate, held := none }
  | selectAndResolve {event : UserEvent} {candidate : String} {n : Node} {r r' : Reader}
      {d : Document} {os : List Observation} :
      p.prompts (.user event) = false → p.input.chooses event = some candidate →
      p.input.readOnly p.settings = false → p.input.target = some n → n.source = p.input.text →
      p.settings.afterSelect = .resolve → p.reader = some r →
      r.read (p.chosen n candidate).text = (d, r', os) →
      Step p (.user event) { p with
        input := (p.chosen n candidate).resolve d true, reader := some r', held := none }
  | ripen {a : Action} : p.held = some a →
      Step p .ripen { p with held := none, ripe := p.ripe ++ [a] }
  /-- A ripe action finds nothing to do. -/
  | lapse {index : Nat} {a : Action} : p.ripe[index]? = some a →
      (a = .fetch → p.input.phase = .error ∨ p.input.target = none) →
      (a ≠ .fetch → p.reader = none) →
      Step p (.begin index) { p with ripe := p.ripe.eraseIdx index }
  | parse {index : Nat} {silent : Bool} {r r' : Reader} {d : Document} {os : List Observation} :
      p.ripe[index]? = some (.resolve silent) → p.reader = some r →
      p.input.text.utf8ByteSize < Editor.longText → r.read p.input.text = (d, r', os) →
      Step p (.begin index) { p with
        ripe := p.ripe.eraseIdx index
        reader := some r'
        input := p.input.resolve d silent
        held := p.heldAfter d silent }
  | parseLong {index : Nat} {silent : Bool} {r : Reader} :
      p.ripe[index]? = some (.resolve silent) → p.reader = some r →
      ¬ p.input.text.utf8ByteSize < Editor.longText →
      Step p (.begin index) { p with
        ripe := p.ripe.eraseIdx index
        input := p.input.parsing
        passes := p.passes ++ [{ text := p.input.text, silent }] }
  | ask {index : Nat} {t : Node} (clock : Nat) : p.ripe[index]? = some .fetch →
      p.input.phase ≠ .error → p.input.target = some t →
      Step p (.begin index) { p with
        ripe := p.ripe.eraseIdx index
        input := p.input.fetching
        requests := p.requests ++ [⟨p.input.generation + 1, t, clock⟩] }
  | look {index : Nat} {pass : Pass} {r r' : Reader} {stage : Stage} :
      p.passes[index]? = some pass → p.reader = some r → Editor.Looks r pass stage r' →
      Step p (.advance index) { p with
        reader := some r', passes := p.passes.set index { pass with stage } }
  /-- A pass ends that is for another text. -/
  | drop {index : Nat} {pass : Pass} {d : Document} : p.passes[index]? = some pass →
      pass.stage = .done d → p.input.text ≠ pass.text →
      Step p (.advance index) { p with passes := p.passes.eraseIdx index }
  | put {index : Nat} {pass : Pass} {d : Document} : p.passes[index]? = some pass →
      pass.stage = .done d → p.input.text = pass.text →
      Step p (.advance index) { p with
        passes := p.passes.eraseIdx index
        input := p.input.resolve d pass.silent
        held := p.heldAfter d pass.silent }
  | discard {generation : Nat} {r : Request} (a : Answer) : p.request? generation = some r →
      p.input.wants r = false →
      Step p (.answer generation a) { p with
        requests := p.requests.eraseP (·.generation == generation) }
  | take {generation : Nat} {r : Request} (a : Answer) : p.request? generation = some r →
      p.input.wants r = true →
      Step p (.answer generation a) { p with
        requests := p.requests.eraseP (·.generation == generation)
        input := p.input.taken p.settings p.limit r a }

theorem Step.settings_eq {p p' : Parts} {m : Move} (h : p.Step m p') :
    p'.settings = p.settings ∧ p'.limit = p.limit := by
  cases h <;> exact ⟨rfl, rfl⟩

end Parts

namespace Course

variable (c : Course)

theorem parts_eq {e : Editor} {ripe : List Action} (h₁ : e.settings = c.editor.settings)
    (h₂ : e.limit = c.editor.limit) : (⟨e, ripe⟩ : Course).parts =
      { c.parts with
        input := e.input, reader := e.reader, held := e.held, ripe, passes := e.passes
        requests := e.requests } := by
  simp only [parts, h₁, h₂]

theorem step_user (event : UserEvent) :
    c.parts.Step (.user event) (c.perform (.user event)).parts := by
  obtain ⟨e, ripe⟩ := c
  change Parts.Step _ _ (Course.parts ⟨(e.handle event).1, ripe⟩)
  cases hp : e.input.prompts e.settings event with
  | true =>
    have hu := e.prompted_handle hp
    generalize (e.handle event).1 = e' at hu ⊢
    cases hu with
    | edit text caret => exact .edit text caret hp
    | recheck => exact .recheck hp
  | false =>
    have hu := e.unprompted_handle hp
    generalize (e.handle event).1 = e' at hu ⊢
    cases hu with
    | none => exact .idle hp rfl
    | highlight active hm => exact .highlight active hp hm
    | hover inside => exact .hover inside
    | close hc => exact .close hp hc
    | @select _ candidate i s hc hs hm =>
      obtain ⟨hr, n, ht, hn, rfl, rfl⟩ := Input.substitute?_eq_some _ hs
      obtain ⟨h₁, h₂, h₃, h₄, h₅, h₆, h₇⟩ := e.replace_keeps _ _
      rw [parts_eq ⟨e, ripe⟩ h₆ h₇, h₁, h₂, h₃, h₄, h₅]
      exact .select hp hc hr ht hn (.inl hm)
    | @selectAndResolve _ candidate i s hc hs hm =>
      obtain ⟨hr, n, ht, hn, rfl, rfl⟩ := Input.substitute?_eq_some _ hs
      generalize hj : ({ e.input with
        text := e.input.splice n candidate
        caret := n.label.start + candidate.utf8ByteSize } : Input).closePanel = j
      obtain ⟨h₁, h₂, h₃, h₄, h₅, h₆, h₇⟩ := e.replace_keeps j _
      generalize e.replace j _ = e₁ at *
      cases hrd : e.reader with
      | none =>
        rw [hrd] at h₅
        rw [show e₁.resolveNow true = e₁ by simp only [Editor.resolveNow, h₅],
          parts_eq ⟨e, ripe⟩ h₆ h₇, h₁, h₂, h₃, h₄, h₅, ← hj]
        have := @Parts.Step.select (Course.parts ⟨e, ripe⟩) _ _ n hp hc hr ht hn (.inr hrd)
        simpa only [parts, hrd, Parts.chosen] using this
      | some r =>
        rw [hrd] at h₅
        rw [parts_eq ⟨e, ripe⟩ ((Editor.settings_resolveNow h₅ true).trans h₆)
            ((Editor.limit_resolveNow h₅ true).trans h₇),
          Editor.input_resolveNow h₅, Editor.held_resolveNow h₅, Editor.passes_resolveNow h₅,
          Editor.requests_resolveNow h₅, Editor.reader_resolveNow h₅, h₁, h₂, h₃, h₄, ← hj]
        exact .selectAndResolve hp hc hr ht hn hm hrd rfl

theorem step_begin (index : Nat) :
    c.parts.Step (.begin index) (c.perform (.begin index)).parts := by
  obtain ⟨e, ripe⟩ := c
  cases ha : ripe[index]? with
  | none =>
    simp only [perform, ha]
    exact .idle rfl rfl
  | some a =>
    simp only [perform, ha]
    cases a with
    | resolve silent =>
      change Parts.Step _ _ (Course.parts ⟨e.resolve silent, ripe.eraseIdx index⟩)
      cases hr : e.reader with
      | none =>
        rw [show e.resolve silent = e by simp only [Editor.resolve, hr]]
        exact .lapse ha (fun h => by cases h) fun _ => hr
      | some r =>
        by_cases hl : e.input.text.utf8ByteSize < Editor.longText
        · rw [Editor.resolve_short hr silent hl,
            parts_eq ⟨e, ripe⟩ (Editor.settings_resolveNow hr silent)
              (Editor.limit_resolveNow hr silent),
            Editor.input_resolveNow hr, Editor.held_resolveNow hr, Editor.passes_resolveNow hr,
            Editor.requests_resolveNow hr, Editor.reader_resolveNow hr]
          exact .parse ha hr hl rfl
        · rw [Editor.resolve_long hr silent hl]
          exact .parseLong ha hr hl
    | fetch =>
      change Parts.Step _ _ (Course.parts ⟨e.fetch, ripe.eraseIdx index⟩)
      by_cases hp : e.input.phase = .error
      · rw [Editor.fetch_eq_self e (.inl hp)]
        exact .lapse ha (fun _ => .inl hp) fun h => absurd rfl h
      · cases ht : e.input.target with
        | none =>
          rw [Editor.fetch_eq_self e (.inr ht)]
          exact .lapse ha (fun _ => .inr ht) fun h => absurd rfl h
        | some t =>
          rw [Editor.fetch_eq hp ht]
          exact .ask e.clock ha hp ht

theorem step_advance (index : Nat) :
    c.parts.Step (.advance index) (c.perform (.advance index)).parts := by
  obtain ⟨e, ripe⟩ := c
  have ha := e.advances_advance index
  change Parts.Step _ _ (Course.parts ⟨e.advance index, ripe⟩)
  generalize e.advance index = e' at ha ⊢
  cases ha with
  | none => exact .idle rfl rfl
  | look os hp hr hl => exact .look hp hr hl
  | @finish pass d hp hs =>
    generalize hb : ({ e with passes := e.passes.eraseIdx index } : Editor) = base
    have hi : base.input = e.input := by rw [← hb]
    have hps : base.passes = e.passes.eraseIdx index := by rw [← hb]
    by_cases ht : e.input.text = pass.text
    · rw [← ht, ← hi, parts_eq ⟨e, ripe⟩ (e := base.finish _ d _)
        (by rw [Editor.settings_finish, ← hb]) (by rw [Editor.limit_finish, ← hb]),
        Editor.input_finish, Editor.held_finish, Editor.passes_finish, Editor.requests_finish,
        Editor.reader_finish, hi, hps, ← hb]
      exact .put hp hs ht
    · rw [Editor.finish_of_ne base _ _ (by rwa [hi]), ← hb]
      exact .drop hp hs ht

theorem step_answer (generation : Nat) (a : Answer) :
    c.parts.Step (.answer generation a) (c.perform (.answer generation a)).parts := by
  obtain ⟨e, ripe⟩ := c
  change Parts.Step _ _ (Course.parts ⟨e.answer generation a, ripe⟩)
  cases hr : e.request? generation with
  | none =>
    rw [Editor.answer_of_none e a hr]
    exact .idle rfl hr
  | some r =>
    obtain ⟨h₁, h₂, h₃, h₄, h₅, h₆⟩ := Editor.answer_keeps hr a
    rw [parts_eq ⟨e, ripe⟩ h₅ h₆, Editor.input_answer hr, h₁, h₂, h₃, h₄]
    split
    · rename_i hw
      exact .take a hr hw
    · rename_i hw
      exact .discard a hr (Bool.eq_false_iff.2 hw)

/-- A move is a step of the parts. -/
theorem step_parts {m : Move} (h : c.Admits m) : c.parts.Step m (c.perform m).parts := by
  cases m with
  | compiled result =>
    obtain ⟨e, ripe⟩ := c
    cases result with
    | error error => exact .reject error h
    | ok r =>
      obtain ⟨hn, hf⟩ := h
      change Parts.Step _ _ (Course.parts ⟨e.install r, ripe⟩)
      have hr : ({ e.publish e.input.readied with reader := some r } : Editor).reader = some r :=
        rfl
      unfold Editor.install
      rw [parts_eq ⟨e, ripe⟩ (Editor.settings_resolveNow hr true) (Editor.limit_resolveNow hr true),
        Editor.input_resolveNow hr, Editor.held_resolveNow hr, Editor.passes_resolveNow hr,
        Editor.requests_resolveNow hr, Editor.reader_resolveNow hr]
      exact .install hn hf rfl
  | user event => exact c.step_user event
  | ripen =>
    obtain ⟨e, ripe⟩ := c
    cases hw : e.slot.waiting with
    | none =>
      simp only [perform, Slot.fire?, hw, Option.map_none]
      exact .idle rfl rfl
    | some w =>
      have hh : e.held = some w.action := by simp only [Editor.held, hw, Option.map_some]
      simp only [perform, Slot.fire?, hw, Option.map_some]
      exact .ripen hh
  | begin index => exact c.step_begin index
  | advance index => exact c.step_advance index
  | answer generation a => exact c.step_answer generation a
  | wait _ => exact .idle rfl rfl
  | reap => exact .idle rfl rfl

/-- What every step keeps holds in every run. -/
theorem Run.parts_invariant {allowed : Course → Move → Prop} {first c : Course}
    {I : Parts → Prop} (start : I first.parts)
    (step : ∀ p m p', Parts.Step p m p' → I p → I p')
    {history : History} (h : Run allowed first history c) : I c.parts :=
  h.invariant start fun c _ hi had _ => step _ _ _ (c.step_parts had) hi

/-- Settings and limit stay as they are. -/
theorem Run.settings_eq {allowed : Course → Move → Prop} {settings : Settings}
    {limit : Option Nat} {listening : Bool} {history : History} {c : Course}
    (h : Run allowed (fresh settings limit listening) history c) :
    c.editor.settings = settings ∧ c.editor.limit = limit :=
  h.parts_invariant (I := fun p => p.settings = settings ∧ p.limit = limit) ⟨rfl, rfl⟩
    fun _ _ _ hs hi => by rwa [hs.settings_eq.1, hs.settings_eq.2]

end Course

end Typeahead
