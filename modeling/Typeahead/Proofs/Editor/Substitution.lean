import Typeahead.Proofs.Editor.Closing
import Typeahead.Proofs.Editor.Selection
import Typeahead.Proofs.Tree.Normal

/-!
# What a selection does

A selection puts a candidate where the target stands, or does nothing. The tree that the target
belongs to may be older than the text; that its source is the present text is looked up first, and a
normal tree cuts its own source on boundaries.

- **Cutting out** (`Node.exists_parts`): the span of a node of a normal tree cuts its source in
  three.
- **When** (`Input.Replaceable`): the field may be edited, and the target belongs to its text.
- **What** (`Editor.Replaced`): text, caret, panel and listener afterwards. The parse that may
  follow changes none of them, whether or not it finds faults (`Input.caret_resolve`,
  `Input.Closed.resolve`, `Editor.told_resolveNow`).

`Course.Run.selects` is the law of both for every run.
-/

namespace Typeahead

/-- A node of a normal tree cuts the source in three. -/
theorem Node.exists_parts {n : Node} (h : n.document.tree.Normal) : ∃ before after,
    n.source = before ++ n.text ++ after ∧ n.label.start = before.utf8ByteSize ∧
      n.label.stop = (before ++ n.text).utf8ByteSize :=
  h.exists_parts n.id

namespace Input

variable (i : Input)

/-- A candidate may be put in the place of `n`: the field may be edited, and the target belongs to
its text. -/
structure Replaceable (s : Settings) (n : Node) : Prop where
  ready : i.ready = true
  writable : s.readOnly = false
  target : i.target = some n
  source : n.source = i.text

theorem readOnly_eq_false_iff {s : Settings} :
    i.readOnly s = false ↔ i.ready = true ∧ s.readOnly = false := by
  unfold readOnly
  rw [Bool.or_eq_false_iff, Bool.not_eq_false']

/-- A candidate can be put into the field just where it may. -/
theorem isSome_substitute?_iff {s : Settings} (candidate : String) :
    (i.substitute? s candidate).isSome = true ↔ ∃ n, i.Replaceable s n := by
  constructor
  · intro h
    obtain ⟨⟨j, out⟩, h⟩ := Option.isSome_iff_exists.1 h
    obtain ⟨hr, n, hn, hs, -, -⟩ := i.substitute?_eq_some h
    obtain ⟨hr, hw⟩ := i.readOnly_eq_false_iff.1 hr
    exact ⟨n, hr, hw, hn, hs⟩
  · rintro ⟨n, hr, hw, hn, hs⟩
    have hs : (n.source == i.text) = true := beq_iff_eq.2 hs
    simp [substitute?, i.readOnly_eq_false_iff.2 ⟨hr, hw⟩, hn, hs]

@[simp] theorem caret_resolve (d : Document) (silent : Bool) :
    (i.resolve d silent).caret = i.caret := by
  unfold resolve
  split <;> rfl

/-- Where the source of the target is the text, the target's span is cut out of the text. -/
theorem splice_eq {n : Node} {before after : String} (candidate : String)
    (ht : i.text = before ++ n.text ++ after) (hs : n.label.start = before.utf8ByteSize)
    (he : n.label.stop = (before ++ n.text).utf8ByteSize) :
    i.splice n candidate = before ++ candidate ++ after := by
  have hbefore : Text.slice i.text 0 n.label.start = before := by
    have := Text.slice_append "" before (n.text ++ after)
    simpa [ht, hs, String.append_assoc] using this
  have hafter : Text.sliceFrom i.text n.label.stop = after := by
    have := Text.slice_append (before ++ n.text) after ""
    simpa [Text.sliceFrom, ht, he, String.append_assoc, Nat.add_assoc] using this
  rw [splice, hbefore, hafter]

end Input

namespace Editor

variable (e : Editor)

/-! ## What does not tell -/

theorem told_finish (text : String) (d : Document) (silent : Bool) :
    (e.finish text d silent).told = e.told := by
  unfold finish
  split
  · dsimp only
    split <;> rfl
  · rfl

theorem told_resolveNow (silent : Bool) : (e.resolveNow silent).told = e.told := by
  cases hr : e.reader with
  | none => rw [resolveNow, hr]
  | some r =>
    rw [resolveNow_eq hr, told_finish]
    rfl

theorem told_replace (i : Input) (s : Substitution) :
    (e.replace i s).told = if e.listening then s.text :: e.told else e.told := by
  unfold replace tell
  split <;> rename_i h
  · rw [if_pos (show e.listening = true from h)]
    rfl
  · rw [if_neg (show ¬ e.listening = true from h)]
    rfl

/-! ## Selecting -/

/-- What an editor is after a candidate has been put in the place of `n`: the text has been cut
where the span of `n` starts and where it ends, the caret is behind the candidate, the panel is
closed, and who wanted to be told has been told of the text, once. -/
structure Replaced (n : Node) (candidate : String) (e' : Editor) (s : Substitution) : Prop where
  parts : ∃ before after, e.input.text = before ++ n.text ++ after ∧
    n.label.start = before.utf8ByteSize ∧ n.label.stop = (before ++ n.text).utf8ByteSize ∧
    s = ⟨before ++ candidate ++ after, n.label.start + candidate.utf8ByteSize⟩
  text : e'.input.text = s.text
  caret : e'.input.caret = s.caret
  closed : e'.input.panelOpen = false ∧ e'.input.candidates = []
  told : e'.told = if e.listening then s.text :: e.told else e.told

/-- The parse that follows a selection leaves what the selection has done. -/
theorem Replaced.resolveNow {e e' : Editor} {n : Node} {candidate : String} {s : Substitution}
    (h : e.Replaced n candidate e' s) (hl : e'.input.loading = false) (silent : Bool) :
    e.Replaced n candidate (e'.resolveNow silent) s := by
  cases hr : e'.reader with
  | none =>
    rw [Editor.resolveNow, hr]
    exact h
  | some r =>
    have hi := input_resolveNow hr silent
    have hc : e'.input.Closed := ⟨h.closed.1, h.closed.2, hl⟩
    have hc := hc.resolve (r.read e'.input.text).1 silent
    refine ⟨h.parts, ?_, ?_, ?_, ?_⟩
    · rw [hi, Input.text_resolve, h.text]
    · rw [hi, Input.caret_resolve, h.caret]
    · rw [hi]
      exact ⟨hc.panelOpen, hc.candidates⟩
    · rw [told_resolveNow, h.told]

variable {e} {candidate : String} {n : Node}

/-- The candidate takes the place of the target, whatever the settings ask for next. -/
theorem replaced_select {s : Substitution} (hn : e.input.Replaceable e.settings n)
    (h : n.document.tree.Normal) (hs : (e.select candidate).2 = some s) :
    e.Replaced n candidate (e.select candidate).1 s := by
  obtain ⟨i, hi⟩ := e.substitute?_of_select hs
  obtain ⟨-, n', hn', -, hout, hin⟩ := Input.substitute?_eq_some _ hi
  obtain rfl := Option.some.inj (hn.target.symm.trans hn')
  obtain ⟨before, after, ht, hb, he⟩ := Node.exists_parts h
  rw [hn.source] at ht
  have hr : (e.replace i s).input = i := (e.replace_keeps i s).1
  have replaced : e.Replaced n candidate (e.replace i s) s := by
    refine ⟨⟨before, after, ht, hb, he, ?_⟩, ?_, ?_, ?_, told_replace ..⟩
    · rw [hout, Input.splice_eq _ candidate ht hb he]
    all_goals rw [hr, hin]
    · rfl
    · rfl
    · exact ⟨rfl, rfl⟩
  rw [e.select_eq hi]
  cases e.settings.afterSelect with
  | close => exact replaced
  | resolve =>
    refine replaced.resolveNow ?_ true
    rw [hr, hin]
    rfl

/-- Selecting does something just where a candidate may be put into the field. -/
theorem isSome_select_iff :
    (e.select candidate).2.isSome = true ↔ ∃ n, e.input.Replaceable e.settings n := by
  rw [← e.input.isSome_substitute?_iff candidate]
  cases h : e.input.substitute? e.settings candidate with
  | none => simp [select, h]
  | some selected => simp [e.select_eq h]

theorem select_of_none (h : (e.select candidate).2 = none) : (e.select candidate).1 = e := by
  cases hs : e.input.substitute? e.settings candidate with
  | none => rw [select, hs]
  | some selected =>
    rw [e.select_eq hs] at h
    cases h

/-- Both events that select do so with the candidate that they choose, if there is one. -/
theorem handle_of_selects {event : UserEvent}
    (h : event = .enter ∨ ∃ candidate, event = .click candidate) : e.handle event =
      match e.input.chooses event with
      | some candidate => e.select candidate
      | none => (e, none) := by
  rcases h with rfl | ⟨candidate, rfl⟩
  · simp only [handle, enter, Input.chooses]
    cases e.input.activeCandidate? <;> cases e.input.panelOpen <;> rfl
  · simp only [handle, click, Input.chooses]
    by_cases hm : candidate ∈ e.input.candidates
    · simp [hm]
    · simp [hm]

end Editor

namespace Course

variable {allowed : Course → Move → Prop} {settings : Settings} {limit : Option Nat}
  {listening : Bool} {history : History} {c : Course}

/-- The tree of a target is one that the reader made, so it is normal. -/
theorem Run.normal_of_target (h : Run allowed (fresh settings limit listening) history c) {n : Node}
    (hn : c.editor.input.target = some n) : n.document.tree.Normal := by
  obtain ⟨r, hr⟩ := Option.ne_none_iff_exists'.1 (h.orderly.prepared.reader_ne_of_target hn)
  obtain ⟨texts, -, made⟩ := h.documented r hr
  obtain ⟨text, -, ht⟩ := made.target n hn
  rw [ht]
  exact Tree.normal_ofReading ..

/-- **Selections.** In every run a click on a candidate puts it into the field just when it is
offered and may be put there, and so does Enter with the highlighted candidate of an open panel.
What is put into the field takes the place of the target alone; where nothing is, nothing changes.
-/
theorem Run.selects (h : Run allowed (fresh settings limit listening) history c) :
    (∀ candidate, (c.editor.handle (.click candidate)).2.isSome = true ↔
      (∃ n, c.editor.input.Replaceable settings n) ∧ candidate ∈ c.editor.input.candidates) ∧
    ((c.editor.handle .enter).2.isSome = true ↔
      (∃ n, c.editor.input.Replaceable settings n) ∧ c.editor.input.panelOpen = true ∧
        ∃ candidate, c.editor.input.candidates[c.editor.input.active]? = some candidate) ∧
    (∀ event s, (c.editor.handle event).2 = some s → ∃ candidate n,
      c.editor.input.chooses event = some candidate ∧ c.editor.input.Replaceable settings n ∧
        c.editor.Replaced n candidate (c.editor.handle event).1 s) ∧
    ∀ event, (event = .enter ∨ ∃ candidate, event = .click candidate) →
      (c.editor.handle event).2 = none → (c.editor.handle event).1 = c.editor := by
  have hs : c.editor.settings = settings := h.settings_eq.1
  have selected : ∀ event, (event = .enter ∨ ∃ candidate, event = .click candidate) →
      ((c.editor.handle event).2.isSome = true ↔ (∃ n, c.editor.input.Replaceable settings n) ∧
        ∃ candidate, c.editor.input.chooses event = some candidate) := by
    intro event he
    rw [Editor.handle_of_selects he]
    cases c.editor.input.chooses event with
    | none => simp
    | some candidate => simp [Editor.isSome_select_iff, hs]
  refine ⟨fun candidate => ?_, ?_, fun event s he => ?_, fun event he hn => ?_⟩
  · rw [selected _ (.inr ⟨candidate, rfl⟩)]
    simp [Input.chooses]
  · rw [selected _ (.inl rfl)]
    simp [Input.chooses, Input.activeCandidate?]
  · obtain ⟨candidate, i, hc, -, hh⟩ := c.editor.selected_handle he
    rw [hh] at he ⊢
    obtain ⟨n, hn⟩ := Editor.isSome_select_iff.1 (Option.isSome_of_eq_some he)
    refine ⟨candidate, n, hc, hs ▸ hn, ?_⟩
    exact Editor.replaced_select hn (h.normal_of_target hn.target) he
  · rw [Editor.handle_of_selects he] at hn ⊢
    cases hc : c.editor.input.chooses event with
    | none => rfl
    | some candidate =>
      rw [hc] at hn
      exact Editor.select_of_none hn

/-- After a text has been typed and its candidates have come, a click puts one of them in the place
of the text, and the listener is told. -/
theorem Run.selects_suggested : ∃ history c s, Run Anything (fresh {} none true) history c ∧
    (c.editor.handle (.click "x")).2 = some s ∧ ∃ n,
      c.editor.Replaced n "x" (c.editor.handle (.click "x")).1 s := by
  have ready : Run Anything (fresh {} none true) _ _ :=
    .step (.compiled (.ok (.hashed (fun _ => 0) 1 .whole))) .start ⟨rfl, _, _, _, rfl⟩ trivial
  obtain ⟨moves, c, clock, run, -, -, e⟩ := ready.suggest "a" rfl
    (fun _ => ⟨trivial, trivial, trivial⟩) rfl rfl (by decide) (by decide) rfl rfl rfl rfl
    (.ok ["x"]) fun _ => trivial
  have hi : c.editor.input = _ := congrArg Parts.input e
  have hc : "x" ∈ c.editor.input.candidates := by
    rw [hi]
    exact mem_rank.2 (List.mem_singleton_self _)
  have hn : ∃ n, c.editor.input.Replaceable {} n := by
    rw [hi]
    exact ⟨_, rfl, rfl, rfl, rfl⟩
  obtain ⟨clicks, -, replaces, -⟩ := run.selects
  obtain ⟨s, hs⟩ := Option.isSome_iff_exists.1 ((clicks "x").2 ⟨hn, hc⟩)
  obtain ⟨candidate, n, hx, -, hr⟩ := replaces _ s hs
  obtain rfl : candidate = "x" := by simpa [Input.chooses, hc] using hx.symm
  exact ⟨_, c, s, run, hs, n, hr⟩

end Course

end Typeahead
