import Typeahead.Editor.Event

/-!
# What the operations of an editor do

An editor changes by a few operations, and each changes few of its parts. Here every operation is
described by the parts that matter for what comes next: the field, the action that is held back
(`Editor.held`), the passes, the open questions and the reader.

- **Parts that stay** (`finish_keeps`, `answer_keeps`, `replace_keeps`): one lemma for an operation.
- **Parsing** (`input_resolveNow`, `held_resolveNow`, `resolve_long`): where the text has not
  changed, a document is put in place (`input_finish`); where it has, nothing is (`finish_of_ne`).
- **Asking** (`fetch_eq_self`, `fetch_eq`) and **answers** (`input_answer`).
- **Events**: one that prompts a parse holds it back (`prompted_handle`); any other moves the
  highlight or the pointer, closes, or selects (`unprompted_handle`).
-/

namespace Typeahead

/-- Whether an event can close the panel. -/
def UserEvent.closes : UserEvent → Bool
  | .escape | .blur | .close => true
  | _ => false

namespace Input

variable (i : Input)

/-- The phase before a document is put in place does not matter. -/
theorem resolve_parsing (d : Document) (silent : Bool) :
    i.parsing.resolve d silent = i.resolve d silent := by
  unfold resolve parsing
  split <;> rfl

/-- Whether an event holds back a parse. -/
def prompts (s : Settings) : UserEvent → Bool
  | .text text => !(i.readOnly s || i.text == text)
  | .caret offset => i.ready && ((i.moveTo offset).caret != i.caret || i.needsResolve)
  | .left | .right => i.ready && i.needsResolve
  | _ => false

/-- The candidate that an event is to put into the field. -/
def chooses : UserEvent → Option String
  | .enter => if i.panelOpen then i.activeCandidate? else none
  | .click candidate => if candidate ∈ i.candidates then some candidate else none
  | _ => none

/-- What is chosen is one of the candidates. -/
theorem mem_of_chooses {event : UserEvent} {candidate : String}
    (h : i.chooses event = some candidate) : candidate ∈ i.candidates := by
  cases event with
  | enter =>
    simp only [chooses] at h
    split at h
    · exact List.mem_of_getElem? h
    · cases h
  | click =>
    simp only [chooses] at h
    split at h
    · rename_i hm
      cases h
      exact hm
    · cases h
  | _ => cases h

/-- Whether the answer to a question is still wanted. -/
def wants (r : Request) : Bool := i.generation == r.generation && i.target == some r.target

/-- The field once an answer has been taken. -/
def taken (s : Settings) (limit : Option Nat) (r : Request) : Answer → Input
  | .ok candidates => i.offer (shortlist limit candidates r.target.text)
  | .error message => i.fail s message

/-- Selecting replaces text and caret and closes the panel. -/
theorem substitute?_eq_some {s : Settings} {candidate : String} {j : Input} {out : Substitution}
    (h : i.substitute? s candidate = some (j, out)) :
    i.readOnly s = false ∧ ∃ n, i.target = some n ∧ n.source = i.text ∧
      out = ⟨i.splice n candidate, n.label.start + candidate.utf8ByteSize⟩ ∧
      j = { i with text := out.text, caret := out.caret }.closePanel := by
  unfold substitute? at h
  split at h
  · cases h
  · rename_i hr
    split at h
    · cases h
    · rename_i n hn
      split at h
      · rename_i hs
        cases h
        exact ⟨by simpa using hr, n, hn, by simpa using hs, rfl, rfl⟩
      · cases h

/-- Where there are no faults the node under the caret becomes the target. -/
theorem resolve_of_faults_nil {d : Document} (h : d.tree.faults = []) (silent : Bool) :
    i.resolve d silent = { i with
      document := some d
      resolvedAt := some i.caret
      error := none
      target := some (.under d i.caret)
      active := 0
      phase := if silent then .idle else .resolving } := by
  simp only [resolve, h]

@[simp] theorem text_resolve (d : Document) (silent : Bool) :
    (i.resolve d silent).text = i.text := by
  unfold resolve
  split <;> rfl

@[simp] theorem text_taken (s : Settings) (limit : Option Nat) (r : Request) (a : Answer) :
    (i.taken s limit r a).text = i.text := by
  cases a with
  | ok => rfl
  | error =>
    simp only [taken, fail]
    split <;> rfl

end Input

namespace Editor

/-- The action that is held back. -/
def held (e : Editor) : Option Action := e.slot.waiting.map (·.action)

variable (e : Editor)

/-! ## Parsing -/

section

variable (d : Document) (silent : Bool)

theorem finish_of_ne {text : String} (h : e.input.text ≠ text) : e.finish text d silent = e := by
  unfold finish
  rw [if_neg (by simpa using h)]

/-- The document of the present text is put in place. -/
theorem finish_current : e.finish e.input.text d silent =
    if silent || !d.tree.faults.isEmpty then e.publish (e.input.resolve d silent)
    else (e.publish (e.input.resolve d silent)).schedule .fetch := by
  unfold finish
  rw [if_pos (beq_self_eq_true _)]

@[simp] theorem input_finish :
    (e.finish e.input.text d silent).input = e.input.resolve d silent := by
  rw [finish_current]
  split <;> rfl

theorem held_finish : (e.finish e.input.text d silent).held =
    if silent || !d.tree.faults.isEmpty then e.held else some .fetch := by
  rw [finish_current]
  split <;> rfl

variable (text : String)

/-- Only the field and the slot change when a parse ends. -/
theorem finish_keeps : (e.finish text d silent).passes = e.passes ∧
    (e.finish text d silent).requests = e.requests ∧ (e.finish text d silent).reader = e.reader ∧
    (e.finish text d silent).settings = e.settings ∧ (e.finish text d silent).limit = e.limit ∧
    (e.finish text d silent).asked = e.asked := by
  unfold finish
  split
  · dsimp only
    split <;> exact ⟨rfl, rfl, rfl, rfl, rfl, rfl⟩
  · exact ⟨rfl, rfl, rfl, rfl, rfl, rfl⟩

@[simp] theorem passes_finish : (e.finish text d silent).passes = e.passes :=
  (e.finish_keeps d silent text).1

@[simp] theorem requests_finish : (e.finish text d silent).requests = e.requests :=
  (e.finish_keeps d silent text).2.1

@[simp] theorem reader_finish : (e.finish text d silent).reader = e.reader :=
  (e.finish_keeps d silent text).2.2.1

@[simp] theorem settings_finish : (e.finish text d silent).settings = e.settings :=
  (e.finish_keeps d silent text).2.2.2.1

@[simp] theorem limit_finish : (e.finish text d silent).limit = e.limit :=
  (e.finish_keeps d silent text).2.2.2.2.1

@[simp] theorem asked_finish : (e.finish text d silent).asked = e.asked :=
  (e.finish_keeps d silent text).2.2.2.2.2

end

section

variable {e} {r : Reader} (h : e.reader = some r) (silent : Bool)

include h

/-- Parsing at once is an end of a parse that nothing came in between. -/
theorem resolveNow_eq : e.resolveNow silent =
    (({ e with reader := some (r.read e.input.text).2.1 }.publish e.input.parsing).observe
      (r.read e.input.text).2.2).finish e.input.text (r.read e.input.text).1 silent := by
  unfold resolveNow
  rw [h]

theorem input_resolveNow :
    (e.resolveNow silent).input = e.input.resolve (r.read e.input.text).1 silent := by
  rw [resolveNow_eq h, ← Input.resolve_parsing]
  exact input_finish _ _ _

theorem held_resolveNow : (e.resolveNow silent).held =
    if silent || !(r.read e.input.text).1.tree.faults.isEmpty then e.held else some .fetch := by
  rw [resolveNow_eq h]
  exact held_finish _ _ _

theorem passes_resolveNow : (e.resolveNow silent).passes = e.passes := by
  rw [resolveNow_eq h, passes_finish]
  rfl

theorem requests_resolveNow : (e.resolveNow silent).requests = e.requests := by
  rw [resolveNow_eq h, requests_finish]
  rfl

theorem reader_resolveNow : (e.resolveNow silent).reader = some (r.read e.input.text).2.1 := by
  rw [resolveNow_eq h, reader_finish]
  rfl

theorem settings_resolveNow : (e.resolveNow silent).settings = e.settings := by
  rw [resolveNow_eq h, settings_finish]
  rfl

theorem limit_resolveNow : (e.resolveNow silent).limit = e.limit := by
  rw [resolveNow_eq h, limit_finish]
  rfl

/-- A short text that was held back is parsed at once. -/
theorem resolve_short (hl : e.input.text.utf8ByteSize < longText) :
    e.resolve silent = e.resolveNow silent := by
  simp only [resolve, h, if_pos hl]

/-- A long text that was held back is parsed in a pass. -/
theorem resolve_long (hl : ¬ e.input.text.utf8ByteSize < longText) :
    e.resolve silent = { e.publish e.input.parsing with
      passes := e.passes ++ [{ text := e.input.text, silent }] } := by
  simp only [resolve, h, if_neg hl]

end

/-- How a pass goes on that is not done: it looks its text up, and parses it when it has missed. -/
inductive Looks (r : Reader) (p : Pass) : Stage → Reader → Prop
  | found {d : Document} {r' : Reader} : p.stage = .queued → r.lookUp p.text = (some d, r') →
      Looks r p (.done d) r'
  | missed {r' : Reader} : p.stage = .queued → r.lookUp p.text = (none, r') → Looks r p .missed r'
  | parsed {d : Document} {r' : Reader} : p.stage = .missed → r.absorb p.text = (d, r') →
      Looks r p (.done d) r'

/-- A pass goes on, or it ends. -/
inductive Advances (e : Editor) (index : Nat) : Editor → Prop
  | none : Advances e index e
  | look {p : Pass} {r r' : Reader} {stage : Stage} (os : List Observation) :
      e.passes[index]? = some p → e.reader = some r → Looks r p stage r' →
      Advances e index ({ e with
        reader := some r'
        passes := e.passes.set index { p with stage } }.observe os)
  | finish {p : Pass} {d : Document} : e.passes[index]? = some p → p.stage = .done d →
      Advances e index ({ e with passes := e.passes.eraseIdx index }.finish p.text d p.silent)

theorem advances_advance (index : Nat) : Advances e index (e.advance index) := by
  unfold advance
  split
  · rename_i p r hp hr
    split
    · rename_i hs
      cases hl : r.lookUp p.text with
      | mk found r' =>
        cases found with
        | none => exact .look _ hp hr (.missed hs hl)
        | some d => exact .look _ hp hr (.found hs hl)
    · rename_i hs
      exact .look _ hp hr (.parsed hs rfl)
    · rename_i d hs
      exact .finish hp hs
  · exact .none

/-- A pass that is done ends. -/
theorem advance_of_done {index : Nat} {p : Pass} {r : Reader} {d : Document}
    (hr : e.reader = some r) (hp : e.passes[index]? = some p) (hs : p.stage = .done d) :
    e.advance index =
      { e with passes := e.passes.eraseIdx index }.finish p.text d p.silent := by
  unfold advance
  simp only [hp, hr, hs]

/-! ## Asking, and answers -/

/-- Nothing is asked about a faulty text or without a target. -/
theorem fetch_eq_self (h : e.input.phase = .error ∨ e.input.target = none) : e.fetch = e := by
  unfold fetch
  split
  · rfl
  · rfl
  · rename_i t ht hp
    rcases h with h | h
    · exact absurd h hp
    · rw [ht] at h
      cases h

section

variable {e} {t : Node} (hp : e.input.phase ≠ .error) (ht : e.input.target = some t)

include hp ht

theorem fetch_eq : e.fetch =
    { (e.publish e.input.fetching).observe [.asked] with
      requests := e.requests ++ [⟨e.input.generation + 1, t, e.clock⟩]
      asked := ⟨e.input.generation + 1, t, e.clock⟩ :: e.asked } := by
  unfold fetch
  split
  · contradiction
  · rename_i hn _
    rw [ht] at hn
    cases hn
  · rename_i t' hn _
    rw [ht] at hn
    cases hn
    rfl

end

/-- An answer that nobody asked for changes nothing. -/
theorem answer_of_none {generation : Nat} (a : Answer) (h : e.request? generation = none) :
    e.answer generation a = e := by
  simp only [answer, h]

section

variable {e} {generation : Nat} {r : Request} (h : e.request? generation = some r) (a : Answer)

include h

theorem input_answer : (e.answer generation a).input =
    if e.input.wants r then e.input.taken e.settings e.limit r a else e.input := by
  simp only [answer, h]
  change Editor.input (if e.input.wants r = true then _ else _) = _
  by_cases hw : e.input.wants r = true
  · rw [if_pos hw, if_pos hw]
    cases a <;> rfl
  · rw [if_neg hw, if_neg hw]
    rfl

/-- An answer changes the field and closes the question, and nothing else. -/
theorem answer_keeps : (e.answer generation a).held = e.held ∧
    (e.answer generation a).passes = e.passes ∧
    (e.answer generation a).requests = e.requests.eraseP (·.generation == generation) ∧
    (e.answer generation a).reader = e.reader ∧ (e.answer generation a).settings = e.settings ∧
    (e.answer generation a).limit = e.limit := by
  simp only [answer, h]
  split
  · cases a <;> exact ⟨rfl, rfl, rfl, rfl, rfl, rfl⟩
  · exact ⟨rfl, rfl, rfl, rfl, rfl, rfl⟩

end

/-! ## Events -/

/-- A candidate has been put into the field, and what was held back has been dropped. -/
def replace (i : Input) (s : Substitution) : Editor :=
  ((e.publish i).cancel.observe [.selected]).tell s.text

/-- Selecting changes the field and empties the slot. -/
theorem replace_keeps (i : Input) (s : Substitution) : (e.replace i s).input = i ∧
    (e.replace i s).held = none ∧ (e.replace i s).passes = e.passes ∧
    (e.replace i s).requests = e.requests ∧ (e.replace i s).reader = e.reader ∧
    (e.replace i s).settings = e.settings ∧ (e.replace i s).limit = e.limit := by
  unfold replace tell
  split <;> exact ⟨rfl, rfl, rfl, rfl, rfl, rfl, rfl⟩

/-- A parse is held back, for a field that has another text or caret or may have. -/
inductive Prompted (e : Editor) : Editor → Prop
  | edit (text : String) (caret : Nat) :
      Prompted e ((e.publish { e.input with text, caret }).schedule (.resolve false))
  | recheck : Prompted e (e.schedule (.resolve false))

/-- Nothing is held back on account of the event. -/
inductive Unprompted (e : Editor) : UserEvent → Editor → Prop
  | none {event : UserEvent} : Unprompted e event e
  | highlight {event : UserEvent} (active : Nat) : event = .up ∨ event = .down →
      Unprompted e event (e.publish { e.input with active })
  | hover (inside : Bool) :
      Unprompted e (.hover inside) (e.publish { e.input with hovering := inside })
  | close {event : UserEvent} : event.closes = true → Unprompted e event e.close
  | select {event : UserEvent} {candidate : String} {i : Input} {s : Substitution} :
      e.input.chooses event = some candidate →
      e.input.substitute? e.settings candidate = some (i, s) → e.settings.afterSelect = .close →
      Unprompted e event (e.replace i s)
  | selectAndResolve {event : UserEvent} {candidate : String} {i : Input} {s : Substitution} :
      e.input.chooses event = some candidate →
      e.input.substitute? e.settings candidate = some (i, s) → e.settings.afterSelect = .resolve →
      Unprompted e event ((e.replace i s).resolveNow true)

theorem prompted_handle {event : UserEvent} (h : e.input.prompts e.settings event = true) :
    Prompted e (e.handle event).1 := by
  cases event with
  | text text =>
    simp only [Input.prompts, Bool.not_eq_true'] at h
    simp only [handle, retype, h, Bool.false_eq_true, if_false]
    exact .edit _ _
  | caret offset =>
    simp only [Input.prompts, Bool.and_eq_true, Bool.or_eq_true, bne_iff_ne] at h
    have : (!e.input.ready || ((e.input.moveTo offset).caret == e.input.caret &&
        !e.input.needsResolve)) = false := by
      rcases h with ⟨hr, hc | hn⟩ <;> simp [*]
    simp only [handle, moveTo, this, Bool.false_eq_true, if_false]
    exact .edit _ _
  | left =>
    simp only [Input.prompts] at h
    simp only [handle, recheck, h, if_true]
    exact .recheck
  | right =>
    simp only [Input.prompts] at h
    simp only [handle, recheck, h, if_true]
    exact .recheck
  | _ => cases h

/-- Where a candidate can be put into the field, it is; the settings say what follows. -/
theorem select_eq {candidate : String} {i : Input} {s : Substitution}
    (h : e.input.substitute? e.settings candidate = some (i, s)) : e.select candidate =
      (match e.settings.afterSelect with
        | .resolve => (e.replace i s).resolveNow true
        | .close => e.replace i s, some s) := by
  have hs : e.select candidate = match (e.replace i s).settings.afterSelect with
      | .resolve => ((e.replace i s).resolveNow true, some s)
      | .close => (e.replace i s, some s) := by
    unfold select
    rw [h]
    rfl
  rw [hs, (e.replace_keeps i s).2.2.2.2.2.1]
  split <;> rfl

theorem unprompted_select {event : UserEvent} {candidate : String}
    (hc : e.input.chooses event = some candidate) : Unprompted e event (e.select candidate).1 := by
  cases h : e.input.substitute? e.settings candidate with
  | none =>
    unfold select
    rw [h]
    exact .none
  | some selected =>
    rw [e.select_eq h]
    cases hs : e.settings.afterSelect with
    | resolve => exact .selectAndResolve hc h hs
    | close => exact .select hc h hs

theorem unprompted_handle {event : UserEvent} (h : e.input.prompts e.settings event = false) :
    Unprompted e event (e.handle event).1 := by
  cases event with
  | text text =>
    simp only [Input.prompts, Bool.not_eq_false'] at h
    simp only [handle, retype, h, if_true]
    exact .none
  | caret offset =>
    have : (!e.input.ready || ((e.input.moveTo offset).caret == e.input.caret &&
        !e.input.needsResolve)) = true := by
      simp only [Input.prompts] at h
      cases hr : e.input.ready <;> simp_all
    simp only [handle, moveTo, this, if_true]
    exact .none
  | left =>
    simp only [Input.prompts] at h
    simp only [handle, recheck, h, Bool.false_eq_true, if_false]
    exact .none
  | right =>
    simp only [Input.prompts] at h
    simp only [handle, recheck, h, Bool.false_eq_true, if_false]
    exact .none
  | up =>
    simp only [handle, highlight]
    split
    · exact .highlight (e.input.active - 1) (.inl rfl)
    · exact .none
  | down =>
    simp only [handle, highlight]
    split
    · exact .highlight (min (e.input.active + 1) (e.input.candidates.length - 1)) (.inr rfl)
    · exact .none
  | enter =>
    simp only [handle, enter]
    split
    · rename_i candidate hc
      split
      · rename_i ho
        exact e.unprompted_select (by simp only [Input.chooses, ho, if_true, hc])
      · exact .none
    · exact .none
  | escape => exact .close rfl
  | click candidate =>
    simp only [handle, click]
    split
    · rename_i hm
      exact e.unprompted_select (by simp only [Input.chooses, hm, if_true])
    · exact .none
  | blur =>
    simp only [handle]
    split
    · exact .none
    · exact .close rfl
  | hover inside => exact .hover inside
  | close => exact .close rfl

theorem substitute?_of_select {candidate : String} {s : Substitution}
    (h : (e.select candidate).2 = some s) :
    ∃ i, e.input.substitute? e.settings candidate = some (i, s) := by
  cases hs : e.input.substitute? e.settings candidate with
  | none =>
    unfold select at h
    rw [hs] at h
    cases h
  | some selected =>
    rw [e.select_eq hs] at h
    obtain ⟨i, s'⟩ := selected
    cases h
    exact ⟨i, rfl⟩

/-- An event that puts a candidate into the field chooses it and selects it. -/
theorem selected_handle {event : UserEvent} {s : Substitution}
    (h : (e.handle event).2 = some s) : ∃ candidate i, e.input.chooses event = some candidate ∧
      e.input.substitute? e.settings candidate = some (i, s) ∧
      e.handle event = e.select candidate := by
  cases event with
  | enter =>
    cases hc : e.input.activeCandidate? with
    | none =>
      simp only [handle, enter, hc] at h
      cases h
    | some candidate =>
      cases ho : e.input.panelOpen with
      | false =>
        simp only [handle, enter, hc, ho, Bool.false_eq_true, if_false] at h
        cases h
      | true =>
        have he : e.handle .enter = e.select candidate := by
          simp only [handle, enter, hc, ho, if_true]
        rw [he] at h
        obtain ⟨i, hs⟩ := e.substitute?_of_select h
        exact ⟨candidate, i, by simp only [Input.chooses, ho, if_true, hc], hs, he⟩
  | click candidate =>
    by_cases hm : candidate ∈ e.input.candidates
    · have he : e.handle (.click candidate) = e.select candidate := by
        simp only [handle, click, hm, if_true]
      rw [he] at h
      obtain ⟨i, hs⟩ := e.substitute?_of_select h
      exact ⟨candidate, i, by simp only [Input.chooses, hm, if_true], hs, he⟩
    · simp only [handle, click, hm, if_false] at h
      cases h
  | _ => cases h

/-- An event that puts a candidate into the field chooses it, and the target has to be there. -/
theorem substitution_of_handle {event : UserEvent} {s : Substitution}
    (h : (e.handle event).2 = some s) : ∃ candidate n, e.input.chooses event = some candidate ∧
      e.input.target = some n ∧ n.source = e.input.text ∧
      s = ⟨e.input.splice n candidate, n.label.start + candidate.utf8ByteSize⟩ := by
  obtain ⟨candidate, i, hc, hs, -⟩ := e.selected_handle h
  obtain ⟨-, n, hn, ht, hs, -⟩ := Input.substitute?_eq_some _ hs
  exact ⟨candidate, n, hc, hn, ht, hs⟩

/-- A click on a candidate puts it into the field, when the target belongs to the text. -/
theorem substitution_of_click {candidate : String} {n : Node} (hc : candidate ∈ e.input.candidates)
    (hw : e.input.readOnly e.settings = false) (hn : e.input.target = some n)
    (ht : n.source = e.input.text) : (e.handle (.click candidate)).2 =
      some ⟨e.input.splice n candidate, n.label.start + candidate.utf8ByteSize⟩ := by
  have hs : (n.source == e.input.text) = true := beq_iff_eq.2 ht
  simp only [handle, click, hc, if_true, select, Input.substitute?, hw, Bool.false_eq_true,
    if_false, hn, hs]
  split <;> rfl

/-! ## What does not ask -/

theorem asked_resolveNow (silent : Bool) : (e.resolveNow silent).asked = e.asked := by
  cases hr : e.reader with
  | none => rw [resolveNow, hr]
  | some r =>
    rw [resolveNow_eq hr, asked_finish]
    rfl

theorem asked_resolve (silent : Bool) : (e.resolve silent).asked = e.asked := by
  cases hr : e.reader with
  | none => rw [resolve, hr]
  | some r =>
    by_cases hl : e.input.text.utf8ByteSize < longText
    · rw [resolve_short hr silent hl, asked_resolveNow]
    · rw [resolve_long hr silent hl]
      rfl

theorem asked_advance (index : Nat) : (e.advance index).asked = e.asked := by
  have ha := e.advances_advance index
  generalize e.advance index = e' at ha ⊢
  cases ha with
  | none | look => rfl
  | finish => exact asked_finish ..

theorem asked_answer (generation : Nat) (a : Answer) :
    (e.answer generation a).asked = e.asked := by
  unfold answer
  split
  · rfl
  · dsimp only
    split
    · cases a <;> rfl
    · rfl

theorem asked_replace (i : Input) (s : Substitution) : (e.replace i s).asked = e.asked := by
  unfold replace tell
  split <;> rfl

theorem asked_handle (event : UserEvent) : (e.handle event).1.asked = e.asked := by
  cases hp : e.input.prompts e.settings event with
  | true =>
    have hu := e.prompted_handle hp
    generalize (e.handle event).1 = e' at hu ⊢
    cases hu <;> rfl
  | false =>
    have hu := e.unprompted_handle hp
    generalize (e.handle event).1 = e' at hu ⊢
    cases hu with
    | select => exact asked_replace ..
    | selectAndResolve => exact (asked_resolveNow ..).trans (asked_replace ..)
    | _ => rfl

end Editor

end Typeahead
