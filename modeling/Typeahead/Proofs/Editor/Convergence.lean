import Typeahead.Proofs.Editor.Execute
import Typeahead.Proofs.Editor.Wait

/-!
# Where editing ends

A user edits the text and moves the caret, long parses and questions overlap in any order, and the
source answers by a fixed function after any time. Once the editor is at rest all this is forgotten:
the field is what its text and its caret alone make it (`Course.Run.converges`).

- **The last word** (`Input.converged`): the field that a document and the source's answer give.
- **On the way there** (`Parts.Settling`): a parse of the present text is awaited; or its document
  is in place and the source is asked about the target; or the last word has been spoken. Every step
  keeps this (`Settling.step`), and from the first edit on it holds (`Course.Run.settling`).
-/

namespace Typeahead

/-- What a source answers about nodes of a kind and a text. -/
abbrev Answers := String → String → Answer

namespace Input

variable (i : Input) (s : Settings) (limit : Option Nat) (f : Answers) (d : Document)

/-- The field that the document of its text and the answers of the source give. -/
def converged : Input :=
  let i := { i with
    document := some d, resolvedAt := some i.caret, loading := false, active := 0 }
  match d.tree.faults with
  | fault :: _ =>
    { i with
      target := some (.root d)
      phase := .error, error := some fault.message, panelOpen := false, candidates := [] }
  | [] =>
    let n := Node.under d i.caret
    let i := { i with target := some n, phase := .idle }
    match f n.label.kind n.text with
    | .ok candidates =>
      { i with candidates := shortlist limit candidates n.text, panelOpen := true, error := none }
    | .error message =>
      { i with
        candidates := [], panelOpen := false
        error := if s.showFailures then some message else none }

/-- The document is in place and has no faults, and what is shown besides agrees with it. -/
structure Clean (i : Input) (s : Settings) (f : Answers) (d : Document) : Prop where
  faults : d.tree.faults = []
  document : i.document = some d
  resolvedAt : i.resolvedAt = some i.caret
  target : i.target = some (.under d i.caret)
  active : i.active = 0
  phase : i.phase ≠ .error
  error : i.error = none ∨ s.showFailures = true ∧ ∃ message,
    f (Node.under d i.caret).label.kind (Node.under d i.caret).text = .error message ∧
      i.error = some message

variable {i s limit f d}

/-- A faulty document has the last word. -/
theorem converged_resolve (h : d.tree.faults ≠ []) (silent : Bool) :
    i.resolve d silent = (i.resolve d silent).converged s limit f d := by
  cases hf : d.tree.faults with
  | nil => exact absurd hf h
  | cons fault faults =>
    simp only [resolve, converged, hf]
    rfl

theorem clean_resolve (h : d.tree.faults = []) : (i.resolve d false).Clean s f d := by
  simp only [resolve, h]
  exact ⟨h, rfl, rfl, rfl, rfl, fun h => (by cases h), .inl rfl⟩

theorem clean_of_converged (h : d.tree.faults = []) (hi : i = i.converged s limit f d) :
    i.Clean s f d := by
  rw [hi]
  simp only [converged, h]
  split
  · exact ⟨h, rfl, rfl, rfl, rfl, fun h => (by cases h), .inl rfl⟩
  · rename_i message hm
    refine ⟨h, rfl, rfl, rfl, rfl, fun h => (by cases h), ?_⟩
    cases hs : s.showFailures with
    | true => exact .inr ⟨rfl, message, hm, rfl⟩
    | false => exact .inl rfl

theorem Clean.fetching (h : i.Clean s f d) : i.fetching.Clean s f d :=
  { h with phase := fun h => by cases h }

/-- The answer of the source has the last word. -/
theorem Clean.taken (h : i.Clean s f d) (ho : i.panelOpen = true) {r : Request}
    (hr : i.target = some r.target) :
    i.taken s limit r (f r.target.label.kind r.target.text) =
      (i.taken s limit r (f r.target.label.kind r.target.text)).converged s limit f d := by
  obtain ⟨hf, hd, ha, ht, hx, -, he⟩ := h
  rw [ht] at hr
  rw [← Option.some.inj hr]
  cases hw : f (Node.under d i.caret).label.kind (Node.under d i.caret).text with
  | ok candidates =>
    have hn : i.error = none := by
      rcases he with he | ⟨-, message, hm, -⟩
      · exact he
      · rw [hw] at hm
        cases hm
    simp only [Input.taken, offer, converged, hf, hw, hd, ha, ht, hn, ho, ← Option.some.inj hr]
  | error message =>
    cases hs : s.showFailures with
    | true =>
      simp only [Input.taken, fail, hs, if_true, closePanel, settledPhase, converged, hf, hw, hd,
        ha, ht]
    | false =>
      have hn : i.error = none := by
        rcases he with he | ⟨he, -⟩
        · exact he
        · rw [hs] at he
          cases he
      simp only [Input.taken, fail, hs, Bool.false_eq_true, if_false, closePanel, settledPhase,
        converged, hf, hw, hd, ha, ht, hn]

/-- The pointer has no part in it. -/
theorem converged_hover (hovering : Bool) (hi : i = i.converged s limit f d) :
    { i with hovering } = ({ i with hovering } : Input).converged s limit f d := by
  have he : ({ i with hovering } : Input).converged s limit f d =
      { i.converged s limit f d with hovering } := by
    simp only [converged]
    split
    · rfl
    · split <;> rfl
  rw [he, ← hi]

/-- Where the panel is open there are no faults. -/
theorem faults_of_panelOpen (hi : i = i.converged s limit f d) (ho : i.panelOpen = true) :
    d.tree.faults = [] := by
  cases hf : d.tree.faults with
  | nil => rfl
  | cons fault faults =>
    rw [hi] at ho
    simp only [converged, hf] at ho
    cases ho

theorem faults_of_phase (hi : i = i.converged s limit f d) (ho : i.phase ≠ .error) :
    d.tree.faults = [] := by
  cases hf : d.tree.faults with
  | nil => rfl
  | cons fault faults =>
    rw [hi] at ho
    simp only [converged, hf] at ho
    exact absurd rfl ho

end Input

namespace Parts

variable {backend : Backend} {f : Answers} {p p' : Parts} {m : Move}

/-- The document of the present text is in place, and its last word is spoken or is asked for. -/
def Found (f : Answers) (d : Document) (p : Parts) : Prop :=
  p.input = p.input.converged p.settings p.limit f d ∨ p.input.Clean p.settings f d ∧ p.Asking

/-- What edits lead to. -/
def Settling (backend : Backend) (f : Answers) (p : Parts) : Prop :=
  p.Awaited ∨
    ∃ d, d.tree = Tree.ofReading p.input.text (backend.read p.input.text) ∧ p.Found f d

theorem found_of_puts {d : Document} (hs : p'.settings = p.settings) (hl : p'.limit = p.limit)
    (h : p.Puts d p') : p'.Found f d := by
  unfold Found
  rw [h.input, hs, hl]
  cases hf : d.tree.faults with
  | nil =>
    refine .inr ⟨Input.clean_resolve hf, .inl ?_⟩
    rw [h.held, heldAfter, hf]
    rfl
  | cons fault faults =>
    exact .inl (Input.converged_resolve (by rw [hf]; exact List.cons_ne_nil _ _) false)

theorem Found.target {d : Document} (h : p.Found f d) : ∃ n, p.input.target = some n := by
  rcases h with h | ⟨h, -⟩
  · rw [h]
    simp only [Input.converged]
    split
    · exact ⟨_, rfl⟩
    · split <;> exact ⟨_, rfl⟩
  · exact ⟨_, h.target⟩

/-- A step of an editing user, with a source that answers by `f`. -/
structure Follows (f : Answers) (p : Parts) (m : Move) : Prop where
  edits : ∀ event, m = .user event → event.edits = true
  answers : ∀ generation a r, m = .answer generation a → p.request? generation = some r →
    a = f r.target.label.kind r.target.text

theorem Settling.step (h : p.Step m p') (o : p.Orderly) (g : p.Documented)
    (hb : ∀ r, p.reader = some r → r.backend = backend) (hm : p.Follows f m)
    (hs : p.Settling backend f) : p'.Settling backend f := by
  obtain ⟨hss, hsl⟩ := h.settings_eq
  have put : ∀ d, p.Puts d p' → p'.Settling backend f := by
    intro d hd
    obtain ⟨r, hr, ht⟩ := hd.tree
    refine .inr ⟨d, ?_, found_of_puts hss hsl hd⟩
    rw [ht, hd.input, Input.text_resolve, Reader.treeOf, hb r hr]
  rcases hs with ha | ⟨d, hd, hf⟩
  · rcases ha.step h o g with ha | ⟨d, hd⟩ | ⟨hn, -⟩
    · exact .inl ha
    · exact put d hd
    · exact absurd hn (not_drops_of_edits hm.edits)
  have clean : d.tree.faults = [] → p.input.Clean p.settings f d := by
    intro hn
    rcases hf with hi | ⟨hc, -⟩
    · exact Input.clean_of_converged hn hi
    · exact hc
  have take : p.Takes m p' → p'.Settling backend f := by
    intro ht
    cases m with
    | answer generation a =>
      obtain ⟨r, hr, hg, ht, hi⟩ := ht
      obtain rfl := hm.answers generation a r rfl hr
      have ho := o.numbered.panelOpen r (List.mem_of_find?_eq_some hr) hg
      have hn : d.tree.faults = [] := by
        rcases hf with hi | ⟨hc, -⟩
        · exact Input.faults_of_panelOpen hi ho
        · exact hc.faults
      refine .inr ⟨d, ?_, .inl ?_⟩
      · rw [hi, Input.text_taken, hd]
      · rw [hi, hss, hsl]
        exact (clean hn).taken ho ht
    | _ => cases ht
  have hr := hf.target.elim fun n hn => o.prepared.reader_ne_of_target hn
  rcases h.of_edits o g hr hm.edits with ha | ⟨d', hd'⟩ | ht | ⟨hovering, hi⟩ | ⟨hi, ha, hp⟩
  · exact .inl ha
  · exact put d' hd'
  · exact take ht
  · have hd : d.tree = Tree.ofReading p'.input.text (backend.read p'.input.text) := by rw [hi, hd]
    rcases hf with hc | ⟨hc, ha⟩
    · refine .inr ⟨d, hd, .inl ?_⟩
      rw [hi, hss, hsl]
      exact Input.converged_hover hovering hc
    · rcases ha.step h o g with ha | ha | ⟨d', hd'⟩ | ht | hn | ⟨-, hp⟩
      · exact .inr ⟨d, hd, .inr ⟨by rw [hi, hss]; exact { hc with }, ha⟩⟩
      · exact .inl ha
      · exact put d' hd'
      · exact take ht
      · exact absurd hn (not_drops_of_edits hm.edits)
      · exact absurd hp hc.phase
  · have hn : d.tree.faults = [] := by
      rcases hf with hi | ⟨hc, -⟩
      · exact Input.faults_of_phase hi hp
      · exact hc.faults
    refine .inr ⟨d, ?_, .inr ⟨?_, ha⟩⟩
    · rw [hi, hd]
      rfl
    · rw [hi, hss]
      exact (clean hn).fetching

end Parts

namespace Course

variable {backend : Backend} {f : Answers} {settings : Settings} {limit : Option Nat}
  {listening : Bool} {history : History} {c : Course}

/-- The user edits, the grammar gives this parser, and the source answers by `f`. All else that can
happen may happen at any time. -/
def Editing (backend : Backend) (f : Answers) (c : Course) : Move → Prop
  | .compiled (.ok reader) => reader.backend = backend
  | .user event => event.edits = true
  | .answer generation a => ∀ r, c.editor.request? generation = some r →
      a = f r.target.label.kind r.target.text
  | _ => True

theorem Editing.follows {m : Move} (h : Editing backend f c m) : c.parts.Follows f m where
  edits event he := by rwa [he] at h
  answers generation a r he hr := by
    rw [he] at h
    exact h r hr

theorem Run.backend_eq (h : Run (Editing backend f) (fresh settings limit listening) history c) :
    ∀ r, c.parts.reader = some r → r.backend = backend := by
  induction h with
  | start => exact fun _ h => by cases h
  | @step history c m h had hal ih =>
    refine (c.step_parts had).backend_eq h.documented ih fun r hm _ => ?_
    subst hm
    exact hal

/-- From the first edit on, what edits lead to holds. -/
theorem Run.settling (h : Run (Editing backend f) (fresh settings limit listening) history c)
    (hs : ∃ cm ∈ history, cm.1.Schedules cm.2) : c.parts.Settling backend f := by
  induction h with
  | start =>
    obtain ⟨_, hm, -⟩ := hs
    cases hm
  | @step history c m h had hal ih =>
    obtain ⟨cm, hm, hc⟩ := hs
    rcases List.mem_cons.1 hm with rfl | hm
    · exact .inl (awaited_of_schedules hc)
    · exact (ih ⟨cm, hm, hc⟩).step (c.step_parts had) h.orderly h.documented h.backend_eq
        hal.follows

/-- **Convergence.** However edits, timers, parses and answers overlap, once the editor is at rest
the field is what its text and its caret make it, with the parser and the answers of the source. -/
theorem Run.converges (h : Run (Editing backend f) (fresh settings limit listening) history c)
    (hs : ∃ cm ∈ history, cm.1.Schedules cm.2) (hq : c.Quiet) : ∃ serial,
      c.editor.input = c.editor.input.converged settings limit f
        ⟨serial, Tree.ofReading c.editor.input.text (backend.read c.editor.input.text)⟩ := by
  have he : c.editor.settings = settings ∧ c.editor.limit = limit := h.settings_eq
  rcases h.settling hs with ha | ⟨d, hd, hi | ⟨-, ha⟩⟩
  · exact absurd ha hq.not_awaited
  · rw [show c.parts.settings = settings from he.1, show c.parts.limit = limit from he.2] at hi
    exact ⟨d.serial, hd ▸ hi⟩
  · exact absurd ha hq.not_asking

/-- A letter is typed, parsed and asked about, and the answer comes. -/
theorem Run.converges_typing : ∃ history c,
    Run (Editing .whole fun _ _ => .ok ["x"]) (fresh {} none false) history c ∧
      (∃ cm ∈ history, cm.1.Schedules cm.2) ∧ c.Quiet ∧ ∃ serial,
        c.editor.input = c.editor.input.converged {} none (fun _ _ => .ok ["x"])
          ⟨serial,
            Tree.ofReading c.editor.input.text (Backend.whole.read c.editor.input.text)⟩ := by
  have ready : Run (Editing .whole fun _ _ => .ok ["x"]) (fresh {} none false) _ _ :=
    .step (.compiled (.ok (.hashed (fun _ => 0) 1 .whole))) .start ⟨rfl, _, _, _, rfl⟩ rfl
  obtain ⟨moves, c, clock, run, typed, -, e⟩ := ready.suggest "a" rfl
    (fun _ => ⟨rfl, trivial, trivial⟩) rfl rfl (by decide) (by decide) rfl rfl rfl rfl
    (.ok ["x"]) fun _ _ _ => rfl
  have quiet : c.Quiet := ⟨congrArg Parts.held e, congrArg Parts.ripe e, congrArg Parts.passes e,
    congrArg Parts.requests e⟩
  refine ⟨_, c, run, ?scheduled, quiet, run.converges ?scheduled quiet⟩
  exact ⟨_, List.mem_append_left _ typed, rfl⟩

end Course

end Typeahead
