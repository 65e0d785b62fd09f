import Typeahead.Editor.Host
import Typeahead.Proofs.Editor.Order
import Typeahead.Proofs.Editor.Posture

/-!
# What happens up to a time

A host lets happen what takes no time, performs the action that is due, and does so once more. What
comes of it is told by the posture of its editor.

- **No time** (`work_of_calm`, `work_of_pass`): without passes and questions nothing happens, and a
  pass ends.
- **Turns** (`turn_of_lt`, `turn_of_le`): an action that is not due waits on; one that is due is
  performed at its time (`work_fire_resolve`, `posture_fire_fetch`).
- **Spent editors** (`Editor.Spent`): nothing is held back any more, and only answers can come. They
  change neither the reader nor the target, and no question follows from them (`Host.Spent.runUntil`).
-/

namespace Typeahead

/-! ## Spent editors -/

namespace Editor

/-- Nothing is held back and no parse goes on. Text, document and target are those of `i`. -/
structure Spent (e : Editor) (i : Input) (r : Reader) (asked : List Request) : Prop where
  waiting : e.slot.waiting = none
  passes : e.passes = []
  reader : e.reader = some r
  asked : e.asked = asked
  text : e.input.text = i.text
  document : e.input.document = i.document
  target : e.input.target = i.target

variable {e : Editor} {i : Input} {r : Reader} {asked : List Request}

theorem slot_answer (e : Editor) (generation : Nat) (a : Answer) :
    (e.answer generation a).slot = e.slot ∧ (e.answer generation a).clock = e.clock := by
  unfold answer
  split
  · exact ⟨rfl, rfl⟩
  · dsimp only
    split
    · cases a <;> exact ⟨rfl, rfl⟩
    · exact ⟨rfl, rfl⟩

/-- An answer is all that can come, and it is about the target. -/
theorem Spent.answer (h : e.Spent i r asked) (generation : Nat) (a : Answer) :
    (e.answer generation a).Spent i r asked := by
  cases hr : e.request? generation with
  | none => rwa [e.answer_of_none a hr]
  | some q =>
    obtain ⟨-, hpasses, -, hreader, -, -⟩ := answer_keeps hr a
    have hinput := input_answer hr a
    have htaken : ∀ j, j = e.input.taken e.settings e.limit q a ∨ j = e.input →
        j.text = i.text ∧ j.document = i.document ∧ j.target = i.target := by
      rintro j (rfl | rfl)
      · obtain ⟨hdocument, htarget⟩ := e.input.document_taken e.settings e.limit q a
        exact ⟨(e.input.text_taken ..).trans h.text, hdocument.trans h.document,
          htarget.trans h.target⟩
      · exact ⟨h.text, h.document, h.target⟩
    obtain ⟨htext, hdocument, htarget⟩ := htaken (e.answer generation a).input (by
      rw [hinput]
      split
      · exact .inl rfl
      · exact .inr rfl)
    exact ⟨(congrArg Slot.waiting (e.slot_answer generation a).1).trans h.waiting,
      hpasses.trans h.passes, hreader.trans h.reader, (e.asked_answer generation a).trans h.asked,
      htext, hdocument, htarget⟩

end Editor

namespace Host

/-- The grammar has been compiled, and long texts may be parsed. -/
structure Unhindered (h : Host) : Prop where
  compiling : h.compiling = none
  gateOpen : h.gateOpen = true

/-- The posture of the editor. -/
def posture (h : Host) : Posture := h.editor.posture

variable {h : Host}

/-! ## What takes no time -/

/-- The dropped actions are forgotten. -/
def reap (h : Host) : Host := { h with editor := { h.editor with slot := h.editor.slot.reap } }

theorem work_eq (ho : h.Unhindered) : h.work = h.reap.advanceAll.consultAll := by
  unfold work compile
  rw [ho.compiling]
  rfl

theorem advanceAll_of_nil (hp : h.editor.passes = []) : h.advanceAll = h := by
  rw [advanceAll, hp]
  rfl

theorem consultAll_of_nil (hq : h.editor.requests = []) : h.consultAll = h := by
  rw [consultAll, hq]
  rfl

/-- Without passes and questions nothing happens. -/
theorem work_of_calm (ho : h.Unhindered) (hp : h.editor.passes = []) (hq : h.editor.requests = []) :
    h.work = h.reap := by
  have hp' : h.reap.editor.passes = [] := hp
  rw [work_eq ho, advanceAll_of_nil hp', consultAll_of_nil (by exact hq)]

theorem length_advance_le (e : Editor) (index : Nat) :
    (e.advance index).passes.length ≤ e.passes.length := by
  have ha := e.advances_advance index
  generalize e.advance index = e' at ha ⊢
  cases ha with
  | none => exact Nat.le_refl _
  | look => exact Nat.le_of_eq List.length_set
  | finish =>
    rw [Editor.passes_finish]
    exact List.length_eraseIdx_le _ _

/-- The only pass goes on. -/
theorem advance_eq (ho : h.Unhindered) (hp : h.editor.passes.length ≤ 1) :
    h.advance = { h with editor := h.editor.advance 0 } := by
  unfold advance
  match hpasses : h.editor.passes, hp with
  | [], _ => rw [h.editor.advance_of_nil hpasses]; rfl
  | [pass], _ =>
    have hmay : h.mayAdvance pass = true := by
      unfold mayAdvance
      split
      · exact ho.gateOpen
      · rfl
    simp [List.findIdx?_cons, hmay]

theorem advanceAll_of_pass (ho : h.Unhindered) (hp : h.editor.passes.length = 1) :
    h.advanceAll = { h with editor := ((h.editor.advance 0).advance 0).advance 0 } := by
  have h₁ := advance_eq ho (Nat.le_of_eq hp)
  have hp₁ := Nat.le_trans (length_advance_le h.editor 0) (Nat.le_of_eq hp)
  have h₂ := advance_eq (h := { h with editor := h.editor.advance 0 }) ⟨ho.1, ho.2⟩ hp₁
  have h₃ := advance_eq (h := { h with editor := (h.editor.advance 0).advance 0 }) ⟨ho.1, ho.2⟩
    (Nat.le_trans (length_advance_le _ 0) hp₁)
  rw [advanceAll, hp]
  show advance (advance (advance h)) = _
  rw [h₁, h₂, h₃]

/-- A pass for the present text ends. -/
theorem work_of_pass {r : Reader} {silent : Bool} (ho : h.Unhindered)
    (hr : h.editor.reader = some r) (hq : h.editor.requests = [])
    (hp : h.editor.passes = [{ text := h.editor.input.text, silent }]) :
    h.work.Unhindered ∧ h.work.posture = { h.posture with passes := [] }.read r silent := by
  have hposture := Editor.posture_pass (e := h.reap.editor) hr silent hp
  have hadvance := advanceAll_of_pass (h := h.reap) ⟨ho.1, ho.2⟩ (congrArg List.length hp)
  have hrequests : h.reap.advanceAll.editor.requests = [] := by
    rw [hadvance]
    exact (congrArg Posture.requests hposture).trans hq
  rw [work_eq ho, consultAll_of_nil hrequests, hadvance]
  exact ⟨⟨ho.1, ho.2⟩, hposture⟩

/-! ## Turns -/

theorem dueWithin_of_waiting {w : Waiting Action} (hw : h.editor.slot.waiting = some w)
    (limit : Nat) : h.dueWithin (some limit) = decide (w.due ≤ limit) := by
  simp [dueWithin, Slot.due?, hw]

theorem dueWithin_of_none (hw : h.editor.slot.waiting = none) (limit : Option Nat) :
    h.dueWithin limit = false := by
  simp [dueWithin, Slot.due?, hw]

section

variable {w : Waiting Action} (hw : h.editor.slot.waiting = some w)

include hw

/-- An action that is performed has left the slot, and it is performed when it is due. -/
theorem fire_eq : h.fire = { h with
    editor := { h.editor with
      slot := { h.editor.slot with waiting := none }
      clock := max h.editor.clock w.due }.perform w.action } := by
  have hfire : h.editor.slot.fire? = some (w.action, { h.editor.slot with waiting := none }) := by
    rw [Slot.fire?, hw]
    rfl
  have hdue : h.editor.slot.due? = some w.due := by
    rw [Slot.due?, hw]
    rfl
  unfold fire Editor.fire
  simp only [hfire, hdue, Option.getD_some]
  cases w.action <;> rfl

/-- A question that is due is asked. -/
theorem posture_fire_fetch {t : Node} (ha : w.action = .fetch)
    (hp : h.editor.input.phase ≠ .error) (ht : h.editor.input.target = some t) :
    h.fire.posture = { h.posture with
      input := h.editor.input.fetching
      waiting := none
      requests :=
        h.editor.requests ++ [⟨h.editor.input.generation + 1, t, max h.editor.clock w.due⟩]
      asked := ⟨h.editor.input.generation + 1, t, max h.editor.clock w.due⟩ :: h.editor.asked
      clock := max h.editor.clock w.due } := by
  rw [fire_eq hw, ha]
  exact Editor.posture_fetch _ hp ht

/-- A parse that is due is over at once, in a pass or not. -/
theorem work_fire_resolve {r : Reader} {silent : Bool} (ha : w.action = .resolve silent)
    (ho : h.Unhindered) (hr : h.editor.reader = some r) (hp : h.editor.passes = [])
    (hq : h.editor.requests = []) :
    h.fire.work.Unhindered ∧ h.fire.work.posture =
      { h.posture with waiting := none, clock := max h.editor.clock w.due }.read r silent := by
  rw [fire_eq hw, ha, Editor.perform]
  generalize he : ({ h.editor with
    slot := { h.editor.slot with waiting := none }
    clock := max h.editor.clock w.due } : Editor) = e
  have hposture : e.posture =
      { h.posture with waiting := none, clock := max h.editor.clock w.due } := by
    rw [← he]
    rfl
  have hr' : e.reader = some r := (congrArg Posture.reader hposture).trans hr
  have hp' : e.passes = [] := (congrArg Posture.passes hposture).trans hp
  have hq' : e.requests = [] := (congrArg Posture.requests hposture).trans hq
  rw [← hposture]
  by_cases hl : e.input.text.utf8ByteSize < Editor.longText
  · rw [Editor.resolve_short hr' silent hl]
    have hread := Editor.posture_resolveNow hr' silent
    rw [work_of_calm (h := { h with editor := e.resolveNow silent }) ⟨ho.1, ho.2⟩
      ((Editor.passes_resolveNow hr' silent).trans hp')
      ((Editor.requests_resolveNow hr' silent).trans hq')]
    exact ⟨⟨ho.1, ho.2⟩, hread⟩
  · rw [Editor.resolve_long hr' silent hl, hp', List.nil_append]
    obtain ⟨ho', hwork⟩ := work_of_pass (h := { h with
      editor := { e.publish e.input.parsing with passes := [{ text := e.input.text, silent }] } })
      ⟨ho.1, ho.2⟩ hr' hq' rfl
    refine ⟨ho', hwork.trans ?_⟩
    have hparsing := Posture.read_parsing { e.posture with passes := [] } r silent
    exact hparsing.trans (by rw [← hp']; rfl)

end

/-- An action that is not due waits on. -/
theorem turn_of_lt {limit : Nat}
    (hw : ∀ w, h.work.editor.slot.waiting = some w → limit < w.due) :
    h.turn (some limit) = h.work := by
  have hdue : h.work.dueWithin (some limit) = false := by
    cases hwaiting : h.work.editor.slot.waiting with
    | none => exact dueWithin_of_none hwaiting _
    | some w =>
      rw [dueWithin_of_waiting hwaiting]
      exact decide_eq_false (Nat.not_le.2 (hw w hwaiting))
  unfold turn
  simp only [hdue, Bool.false_eq_true, if_false]

/-- An action that is due is performed. -/
theorem turn_of_le {limit : Nat} {w : Waiting Action} (hw : h.work.editor.slot.waiting = some w)
    (hle : w.due ≤ limit) : h.turn (some limit) = h.work.fire := by
  have hdue : h.work.dueWithin (some limit) = true := by
    rw [dueWithin_of_waiting hw]
    exact decide_eq_true hle
  unfold turn
  simp only [hdue, if_true]

section

variable {limit : Nat} {w : Waiting Action} (ho : h.Unhindered) (hp : h.editor.passes = [])
  (hq : h.editor.requests = []) (hw : h.editor.slot.waiting = some w)

include ho hp hq hw

/-- Up to the time at which an action is due nothing happens. -/
theorem runUntil_of_lt (hlt : limit < w.due) : h.runUntil (some limit) = h.reap := by
  have hwork := work_of_calm ho hp hq
  have hwork' : h.reap.work = h.reap := work_of_calm (h := h.reap) ⟨ho.1, ho.2⟩ hp hq
  have hlate : ∀ w', h.reap.editor.slot.waiting = some w' → limit < w'.due := by
    intro w' hw'
    cases hw.symm.trans hw'
    exact hlt
  have hturn : h.turn (some limit) = h.reap := by
    rw [turn_of_lt (by rwa [hwork]), hwork]
  have hturn' : h.reap.turn (some limit) = h.reap := by
    rw [turn_of_lt (by rwa [hwork']), hwork']
  rw [runUntil, hturn, hturn', hwork']

/-- When its time has come an action is performed first. -/
theorem runUntil_of_le (hle : w.due ≤ limit) :
    h.runUntil (some limit) = (h.reap.fire.turn (some limit)).work := by
  have hwork := work_of_calm ho hp hq
  have hturn : h.turn (some limit) = h.reap.fire := by
    rw [turn_of_le (by rw [hwork]; exact hw) hle, hwork]
  rw [runUntil, hturn]

end

/-! ## Hosts of spent editors -/

/-- The editor is spent at a time. -/
structure Spent (h : Host) (i : Input) (r : Reader) (asked : List Request) (clock : Nat) :
    Prop where
  unhindered : h.Unhindered
  editor : h.editor.Spent i r asked
  clock_eq : h.editor.clock = clock

variable {i : Input} {r : Reader} {asked : List Request} {clock : Nat}

theorem Spent.self (hs : h.Spent i r asked clock) : h.Spent i r asked h.editor.clock :=
  ⟨hs.unhindered, hs.editor, rfl⟩

theorem Spent.answer (hs : h.Spent i r asked clock) (generation : Nat) (a : Answer) :
    Spent { h with editor := h.editor.answer generation a } i r asked clock where
  unhindered := ⟨hs.unhindered.1, hs.unhindered.2⟩
  editor := hs.editor.answer generation a
  clock_eq := (h.editor.slot_answer generation a).2.trans hs.clock_eq

theorem Spent.consult (hs : h.Spent i r asked clock) (q : Request) :
    (h.consult q).Spent i r asked clock := by
  unfold Host.consult
  split
  · exact hs.answer _ _
  · exact hs

theorem Spent.work (hs : h.Spent i r asked clock) : h.work.Spent i r asked clock := by
  have hreap : h.reap.Spent i r asked clock :=
    ⟨⟨hs.unhindered.1, hs.unhindered.2⟩, { hs.editor with waiting := hs.editor.waiting },
      hs.clock_eq⟩
  rw [work_eq hs.unhindered, advanceAll_of_nil hreap.editor.passes, consultAll]
  generalize h.reap.editor.requests = requests
  generalize h.reap = h' at hreap
  induction requests generalizing h' with
  | nil => exact hreap
  | cons q requests ih => exact ih _ (hreap.consult q)

/-- For a spent editor there is nothing to perform. -/
theorem Spent.turn (hs : h.Spent i r asked clock) (limit : Option Nat) :
    (h.turn limit).Spent i r asked clock := by
  unfold Host.turn
  simp only [dueWithin_of_none hs.work.editor.waiting, Bool.false_eq_true, if_false]
  exact hs.work

theorem Spent.runUntil (hs : h.Spent i r asked clock) (limit : Option Nat) :
    (h.runUntil limit).Spent i r asked clock :=
  ((hs.turn limit).turn limit).work

/-- An answer to a spent editor, whether or not it is to an open question. -/
theorem Spent.reply (hs : h.Spent i r asked clock) (number : Nat) (a : Answer) :
    (h.reply number a).Spent i r asked clock := by
  unfold Host.reply
  split
  · rename_i q hq
    exact ((hs.turn (some h.editor.clock)).answer q.generation a).runUntil _
  · exact hs.runUntil _

/-- Where no question is open, none is answered. -/
theorem reply_of_nil (hq : h.editor.requests = []) (number : Nat) (a : Answer) :
    h.reply number a = h.flush := by
  have hopen : h.open? number = none := by
    rw [open?, Option.bind_eq_none_iff]
    intro q _
    rw [Editor.request?, hq, List.find?_nil]
  unfold Host.reply
  rw [hopen]

end Host

end Typeahead
