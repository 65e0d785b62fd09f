import Mathlib.Order.Bounds.Defs
import Typeahead.Proofs.Editor.Substitution
import Typeahead.Proofs.Editor.Target

/-!
# Where the caret is

The caret is a byte offset, and whatever becomes of the text it lies where two characters of it
meet.

- **Who moves it** (`Input.Rewrites`): an edit, a caret move or a selection. Any other event, and
  whatever goes on behind the field, leaves text and caret (`Parts.Step.agrees`).
- **Edits** (`Input.Carried`): a caret at the end stays at the end, and any other goes back to where
  two characters of the new text meet, and no farther.
- **Selections** (`Input.atBoundary_substitute?`): the caret comes to lie behind the candidate,
  which has taken the place of a part of the text.
- **Targets** (`Input.Covers`): the span of a target that belongs to the text is a part of it.
-/

namespace Typeahead

namespace Input

variable (i : Input)

/-- The caret lies where two characters meet. -/
def AtBoundary : Prop := Text.isBoundary i.text i.caret = true

/-- The span of `n` is a part of the text. -/
def Covers (n : Node) : Prop :=
  ∃ before after, i.text = before ++ n.text ++ after ∧ n.label.start = before.utf8ByteSize ∧
    n.label.stop = (before ++ n.text).utf8ByteSize

/-- What becomes of text and caret when another text is accepted. -/
structure Carried (text : String) (j : Input) : Prop where
  text_eq : j.text = text
  atEnd : i.caret = i.text.utf8ByteSize → j.caret = text.utf8ByteSize
  inside : i.caret ≠ i.text.utf8ByteSize →
    IsGreatest {offset | Text.isBoundary text offset = true ∧ offset ≤ i.caret} j.caret

end Input

theorem Text.isGreatest_clampBoundary (s : String) (i : Nat) :
    IsGreatest {offset | isBoundary s offset = true ∧ offset ≤ i} (clampBoundary s i) := by
  refine ⟨⟨isBoundary_floorBoundary _ _, ?_⟩, fun k hk => ?_⟩
  · exact Nat.le_trans (floorBoundary_le _ _) (Nat.min_le_left _ _)
  · exact le_floorBoundary hk.1 (Nat.le_min.2 ⟨hk.2, le_size_of_isBoundary hk.1⟩)

namespace Input

variable {i : Input}

theorem carried_retype (h : i.AtBoundary) (text : String) : i.Carried text (i.retype text) := by
  have hle : i.caret ≤ i.text.utf8ByteSize := Text.le_size_of_isBoundary h
  refine ⟨rfl, fun he => ?_, fun hne => ?_⟩
  · simp only [retype, he, Nat.le_refl, if_true]
  · have hlt : ¬ i.text.utf8ByteSize ≤ i.caret := by omega
    simp only [retype, hlt, if_false]
    exact Text.isGreatest_clampBoundary text i.caret

/-- Where a node covers a part of the text, a candidate can take its place. -/
theorem Covers.splice_eq {n : Node} (h : i.Covers n) (candidate : String) :
    ∃ before after, i.splice n candidate = before ++ candidate ++ after ∧
      n.label.start = before.utf8ByteSize := by
  obtain ⟨before, after, ht, hs, he⟩ := h
  exact ⟨before, after, Input.splice_eq i candidate ht hs he, hs⟩

/-- After a selection the caret lies behind the candidate. -/
theorem atBoundary_substitute? {s : Settings} {candidate : String} {j : Input} {out : Substitution}
    (h : i.substitute? s candidate = some (j, out))
    (hc : ∀ n, i.target = some n → n.source = i.text → i.Covers n) : j.AtBoundary := by
  obtain ⟨-, n, hn, hs, rfl, rfl⟩ := i.substitute?_eq_some h
  obtain ⟨before, after, htext, hstart⟩ := (hc n hn hs).splice_eq candidate
  refine Text.isBoundary_iff.2 ⟨before ++ candidate, after, htext, ?_⟩
  show n.label.start + candidate.utf8ByteSize = (before ++ candidate).utf8ByteSize
  rw [String.utf8ByteSize_append, hstart]

/-- Both fields have one text and one caret. -/
def Agrees (i j : Input) : Prop := j.text = i.text ∧ j.caret = i.caret

theorem Agrees.atBoundary {j : Input} (h : i.Agrees j) (hb : i.AtBoundary) : j.AtBoundary := by
  unfold AtBoundary
  rw [h.1, h.2]
  exact hb

theorem agrees_resolve (i : Input) (d : Document) (silent : Bool) :
    i.Agrees (i.resolve d silent) :=
  ⟨i.text_resolve d silent, i.caret_resolve d silent⟩

/-- All that an event can do to text and caret. -/
inductive Rewrites (i : Input) (s : Settings) : UserEvent → Input → Prop
  | keep {event : UserEvent} {j : Input} : i.Agrees j → Rewrites i s event j
  | retype {text : String} {j : Input} : i.readOnly s = false → text ≠ i.text →
      (i.retype text).Agrees j → Rewrites i s (.text text) j
  | move {offset : Nat} {j : Input} : (i.moveTo offset).Agrees j → Rewrites i s (.caret offset) j
  | select {event : UserEvent} {candidate : String} {k j : Input} {out : Substitution} :
      i.substitute? s candidate = some (k, out) → k.Agrees j → Rewrites i s event j

end Input

namespace Editor

variable {e : Editor}

theorem agrees_resolveNow (e : Editor) (silent : Bool) :
    e.input.Agrees (e.resolveNow silent).input := by
  cases hr : e.reader with
  | none =>
    rw [resolveNow, hr]
    exact ⟨rfl, rfl⟩
  | some r =>
    rw [input_resolveNow hr]
    exact e.input.agrees_resolve _ _

theorem rewrites_unprompted {event : UserEvent} {e' : Editor} (h : e.Unprompted event e') :
    e.input.Rewrites e.settings event e'.input := by
  cases h with
  | none | highlight | hover | close => exact .keep ⟨rfl, rfl⟩
  | @select _ _ i s _ hs =>
    rw [(e.replace_keeps i s).1]
    exact .select hs ⟨rfl, rfl⟩
  | @selectAndResolve _ _ i s _ hs =>
    have hr := (e.replace i s).agrees_resolveNow true
    rw [(e.replace_keeps i s).1] at hr
    exact .select hs hr

theorem rewrites_handle (e : Editor) (event : UserEvent) :
    e.input.Rewrites e.settings event (e.handle event).1.input := by
  cases event with
  | text text =>
    simp only [handle, Editor.retype]
    split
    · exact .keep ⟨rfl, rfl⟩
    · rename_i h
      rw [Bool.or_eq_true, beq_iff_eq, not_or, Bool.not_eq_true] at h
      exact .retype h.1 (Ne.symm h.2) ⟨rfl, rfl⟩
  | caret offset =>
    simp only [handle, Editor.moveTo]
    split
    · exact .keep ⟨rfl, rfl⟩
    · exact .move ⟨rfl, rfl⟩
  | left | right =>
    simp only [handle, recheck]
    split <;> exact .keep ⟨rfl, rfl⟩
  | _ => exact rewrites_unprompted (e.unprompted_handle rfl)

/-- Whatever the user does, the caret lies where two characters meet. -/
theorem atBoundary_handle (h : e.input.AtBoundary)
    (hc : ∀ n, e.input.target = some n → n.source = e.input.text → e.input.Covers n)
    (event : UserEvent) : (e.handle event).1.input.AtBoundary := by
  have hr := e.rewrites_handle event
  generalize (e.handle event).1.input = j at hr ⊢
  cases hr with
  | keep hj => exact hj.atBoundary h
  | retype _ _ hj => exact hj.atBoundary (e.input.isBoundary_retype _)
  | move hj => exact hj.atBoundary (e.input.isBoundary_moveTo _)
  | select hs hj => exact hj.atBoundary (Input.atBoundary_substitute? hs hc)

/-- In a field that may not be edited the text stays, and nothing is selected. -/
theorem text_handle_of_readOnly (h : e.input.readOnly e.settings = true) (event : UserEvent) :
    (e.handle event).1.input.text = e.input.text ∧ (e.handle event).2 = none := by
  have refused : ∀ candidate, e.input.substitute? e.settings candidate = none := by
    intro candidate
    rw [Input.substitute?, if_pos h]
  constructor
  · have hr := e.rewrites_handle event
    generalize (e.handle event).1.input = j at hr ⊢
    cases hr with
    | keep hj => exact hj.1
    | retype hw =>
      rw [h] at hw
      cases hw
    | move hj => exact hj.1
    | select hs =>
      rw [refused] at hs
      cases hs
  · refine Option.eq_none_iff_forall_ne_some.2 fun s hs => ?_
    obtain ⟨candidate, i, -, hi, -⟩ := e.selected_handle hs
    rw [refused] at hi
    cases hi

/-- A text is not accepted by a field that may not be edited, nor when it is there already. -/
theorem retype_eq_self {text : String}
    (h : e.input.readOnly e.settings = true ∨ text = e.input.text) :
    (e.handle (.text text)).1 = e := by
  have : (e.input.readOnly e.settings || e.input.text == text) = true := by
    rw [Bool.or_eq_true, beq_iff_eq]
    exact h.imp_right Eq.symm
  simp only [handle, retype, this, if_true]

theorem carried_handle (h : e.input.AtBoundary) {text : String}
    (hr : e.input.readOnly e.settings = false) (ht : text ≠ e.input.text) :
    e.input.Carried text (e.handle (.text text)).1.input := by
  have : (e.input.readOnly e.settings || e.input.text == text) = false := by
    rw [Bool.or_eq_false_iff, beq_eq_false_iff_ne]
    exact ⟨hr, ht.symm⟩
  simp only [handle, retype, this, Bool.false_eq_true, if_false]
  exact Input.carried_retype h text

end Editor

/-- What the user does not do leaves text and caret. -/
theorem Parts.Step.agrees {p p' : Parts} {m : Move} (h : p.Step m p')
    (hm : ∀ event, m ≠ .user event) : p.input.Agrees p'.input := by
  cases h with
  | edit | recheck | highlight | hover | close | select | selectAndResolve =>
    exact absurd rfl (hm _)
  | install => exact p.input.readied.agrees_resolve _ _
  | parse | put => exact p.input.agrees_resolve _ _
  | take => exact ⟨Input.text_taken .., (Input.caret_taken ..).1⟩
  | _ => exact ⟨rfl, rfl⟩

namespace Course

variable {allowed : Course → Move → Prop} {settings : Settings} {limit : Option Nat}
  {listening : Bool} {history : History} {c : Course}

/-- A target that belongs to the text covers a part of it. -/
theorem Run.covers (h : Run allowed (fresh settings limit listening) history c) {n : Node}
    (hn : c.editor.input.target = some n) (hs : n.source = c.editor.input.text) :
    c.editor.input.Covers n := by
  obtain ⟨before, after, ht, hb, he⟩ := Node.exists_parts (h.normal_of_target hn)
  exact ⟨before, after, hs ▸ ht, hb, he⟩

/-- In every run the caret lies where two characters of the text meet. -/
theorem Run.atBoundary (h : Run allowed (fresh settings limit listening) history c) :
    c.editor.input.AtBoundary := by
  induction h with
  | start => exact Text.isBoundary_size _
  | @step _ c m h had _ ih =>
    cases m with
    | user event => exact Editor.atBoundary_handle ih (fun _ hn hs => h.covers hn hs) event
    | _ => exact ((c.step_parts had).agrees fun _ hm => by cases hm).atBoundary ih

/-- While the document is that of the text, there is a target, and it covers a part of the text. -/
theorem Run.covers_of_current (h : Run allowed (fresh settings limit listening) history c)
    (hd : c.editor.input.documentIsCurrent = true) :
    ∃ n, c.editor.input.target = some n ∧ c.editor.input.Covers n := by
  have o := h.orderly.prepared
  have hr : c.parts.reader ≠ none := by
    intro hr
    have hn : c.editor.input.document = none := (o.before hr).document
    simp only [Input.documentIsCurrent, hn] at hd
    cases hd
  obtain ⟨n, hdoc, hn⟩ := o.after hr
  have hdoc : c.editor.input.document = some n.document := hdoc
  simp only [Input.documentIsCurrent, hdoc, beq_iff_eq] at hd
  exact ⟨n, hn, h.covers hn hd⟩

/-- **The caret is a valid offset.** In every run the caret lies in the text, where two characters
meet. While the document is that of the text, the target covers a part of the text. And when another
text is accepted, a caret at the end follows the end, and any other is kept, or goes back to the
nearest offset at which two characters of the new text meet; a text that is not accepted changes
nothing. -/
theorem Run.caret_valid (h : Run allowed (fresh settings limit listening) history c) :
    c.editor.input.caret ≤ c.editor.input.text.utf8ByteSize ∧ c.editor.input.AtBoundary ∧
    (c.editor.input.documentIsCurrent = true →
      ∃ n, c.editor.input.target = some n ∧ c.editor.input.Covers n) ∧
    ∀ text, if c.editor.input.readOnly settings = true ∨ text = c.editor.input.text
      then (c.perform (.user (.text text))).editor = c.editor
      else c.editor.input.Carried text (c.perform (.user (.text text))).editor.input := by
  have hs : c.editor.settings = settings := h.settings_eq.1
  have hb := h.atBoundary
  refine ⟨Text.le_size_of_isBoundary hb, hb, h.covers_of_current, fun text => ?_⟩
  rw [← hs]
  split
  · rename_i hk
    exact Editor.retype_eq_self hk
  · rename_i hk
    obtain ⟨hr, ht⟩ := not_or.1 hk
    exact Editor.carried_handle hb (Bool.eq_false_iff.2 hr) ht

/-- The caret is put into the middle of a character of two bytes, and goes back before it. -/
theorem Run.caret_valid_accent : ∃ history c, Run Anything (fresh {} none false) history c ∧
    c.editor.input.text = "né" ∧ c.editor.input.caret = 1 ∧
    c.editor.input.caret ≤ c.editor.input.text.utf8ByteSize ∧ c.editor.input.AtBoundary ∧
    (c.editor.input.documentIsCurrent = true →
      ∃ n, c.editor.input.target = some n ∧ c.editor.input.Covers n) ∧
    ∀ text, if c.editor.input.readOnly {} = true ∨ text = c.editor.input.text
      then (c.perform (.user (.text text))).editor = c.editor
      else c.editor.input.Carried text (c.perform (.user (.text text))).editor.input := by
  have ready : Run Anything (fresh {} none false) _ _ :=
    .step (.compiled (.ok (.hashed (fun _ => 0) 1 .whole))) .start ⟨rfl, _, _, _, rfl⟩ trivial
  have typed := ready.step (.user (.text "né")) trivial trivial
  have moved := typed.step (.user (.caret 2)) trivial trivial
  exact ⟨_, _, moved, rfl, rfl, moved.caret_valid⟩

end Course

end Typeahead
