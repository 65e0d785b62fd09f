import Typeahead.Proofs.Editor.Execute
import Typeahead.Proofs.Editor.Wait

/-!
# What a target was found for

Text and caret may leave the values that the target was found for, and come back to them, while
parses are dropped and called off. The target stays what it was found to be.

- **Targets** (`Document.target`): the node that a document and a caret give.
- **Found together** (`Input.Resolved`): document, target and caret of the target change all at
  once, when a document is put in place, and never else (`Parts.Step.resolved`).
- **Nothing to parse** (`Editor.Repeats`): where the document is that of the text and the target that
  of the caret, to parse the text once more would give the same (`Parts.Documented.repeats`). So an
  editor that holds back no parse for a caret has lost nothing (`Course.Run.skips`).
-/

namespace Typeahead

/-- The node that suggestions are for, with the caret at `pos`: the root where there are faults. -/
def Document.target (d : Document) (pos : Nat) : Node :=
  if d.tree.faults.isEmpty then .under d pos else .root d

theorem Document.document_target (d : Document) (pos : Nat) : (d.target pos).document = d := by
  unfold target
  split <;> rfl

/-- One tree gives targets at one place. -/
theorem Document.id_target_eq {d d' : Document} (h : d'.tree = d.tree) (pos : Nat) :
    (d'.target pos).id.val = (d.target pos).id.val := by
  obtain ⟨serial, tree⟩ := d
  obtain ⟨serial', tree'⟩ := d'
  obtain rfl : tree' = tree := h
  unfold target
  by_cases hf : tree'.faults.isEmpty = true
  · rw [if_pos hf, if_pos hf]
    rfl
  · rw [if_neg hf, if_neg hf]
    rfl

/-- Whether an event is about the caret alone. -/
def UserEvent.movesCaret : UserEvent → Bool
  | .caret _ | .left | .right => true
  | _ => false

theorem UserEvent.edits_of_movesCaret {event : UserEvent} (h : event.movesCaret = true) :
    event.edits = true := by
  cases event <;> first | rfl | cases h

namespace Input

variable {i j : Input}

/-- There is no document and no target, or the target is that of the document and the caret that it
was found for. -/
def Resolved (i : Input) : Prop :=
  (i.document = none ∧ i.target = none ∧ i.resolvedAt = none) ∨
    ∃ d pos, i.document = some d ∧ i.resolvedAt = some pos ∧ i.target = some (d.target pos)

theorem resolve_found (i : Input) (d : Document) (silent : Bool) :
    (i.resolve d silent).document = some d ∧ (i.resolve d silent).resolvedAt = some i.caret ∧
      (i.resolve d silent).target = some (d.target i.caret) := by
  unfold resolve Document.target
  split
  · rename_i hf
    rw [hf]
    exact ⟨rfl, rfl, rfl⟩
  · rename_i hf
    rw [hf]
    exact ⟨rfl, rfl, rfl⟩

theorem resolved_resolve (i : Input) (d : Document) (silent : Bool) :
    (i.resolve d silent).Resolved :=
  .inr ⟨d, i.caret, i.resolve_found d silent⟩

theorem Resolved.congr (h : i.Resolved) (hd : j.document = i.document)
    (ht : j.target = i.target) (hp : j.resolvedAt = i.resolvedAt) : j.Resolved := by
  unfold Resolved
  rw [hd, ht, hp]
  exact h

/-- The target is that of the document, and of the caret that it was found for. -/
theorem Resolved.target_eq (h : i.Resolved) {d : Document} {pos : Nat} (hd : i.document = some d)
    (hp : i.resolvedAt = some pos) : i.target = some (d.target pos) := by
  rcases h with ⟨hn, -, -⟩ | ⟨d', pos', hd', hp', ht⟩
  · rw [hd] at hn
    cases hn
  · rw [ht, Option.some.inj (hd.symm.trans hd'), Option.some.inj (hp.symm.trans hp')]

/-- An answer leaves the caret, and the one that the target was found for. -/
theorem caret_taken (i : Input) (s : Settings) (limit : Option Nat) (r : Request) (a : Answer) :
    (i.taken s limit r a).caret = i.caret ∧
      (i.taken s limit r a).resolvedAt = i.resolvedAt := by
  cases a with
  | ok => exact ⟨rfl, rfl⟩
  | error =>
    simp only [taken, fail]
    split <;> exact ⟨rfl, rfl⟩

/-- Nothing is left to parse when the document is that of the text, and the target that of the
caret. -/
theorem needsResolve_eq_false_iff : i.needsResolve = false ↔
    i.resolvedAt = some i.caret ∧ ∃ d, i.document = some d ∧ d.tree.source = i.text := by
  unfold needsResolve documentIsCurrent
  cases hd : i.document <;> simp

end Input

namespace Parts

variable {p p' : Parts} {m : Move}

theorem Step.resolved (h : p.Step m p') (k : p.input.Resolved) : p'.input.Resolved := by
  cases h with
  | install | selectAndResolve | parse | put => exact Input.resolved_resolve ..
  | take a =>
    exact k.congr (Input.document_taken ..).1 (Input.document_taken ..).2
      (Input.caret_taken ..).2
  | _ => exact k

/-- A document that is that of the text was made from it. -/
theorem Documented.tree_of_current (g : p.Documented) (k : p.input.Resolved) {r : Reader}
    {d : Document} (hr : p.reader = some r) (hd : p.input.document = some d)
    (hs : d.tree.source = p.input.text) : d.tree = r.treeOf p.input.text := by
  rcases k with ⟨hn, -, -⟩ | ⟨d', pos, hd', -, ht⟩
  · rw [hd] at hn
    cases hn
  · obtain rfl := Option.some.inj (hd.symm.trans hd')
    obtain ⟨texts, -, hm⟩ := g r hr
    obtain ⟨text, -, hmade⟩ := hm.target _ ht
    rw [d.document_target] at hmade
    have htext : text = p.input.text := by
      rw [← hs, hmade]
      rfl
    rw [hmade, htext]
    rfl

end Parts

/-- To parse the text of an editor once more, and to look under its caret, gives a target at the
place of the one that it has, in an equal tree. -/
def Editor.Repeats (e : Editor) : Prop :=
  ∃ n, e.input.target = some n ∧ ∀ silent, ∃ n', (e.resolveNow silent).input.target = some n' ∧
    n'.document.tree = n.document.tree ∧ n'.id.val = n.id.val

/-- An editor that needs no parse would get the same from one. -/
theorem Parts.Documented.repeats {c : Course} (g : c.parts.Documented)
    (k : c.editor.input.Resolved) {r : Reader} (hr : c.editor.reader = some r)
    (hn : c.editor.input.needsResolve = false) : c.editor.Repeats := by
  obtain ⟨hp, d, hd, hs⟩ := Input.needsResolve_eq_false_iff.1 hn
  have htree : d.tree = r.treeOf c.editor.input.text := g.tree_of_current k hr hd hs
  have hread : (r.read c.editor.input.text).1.tree = d.tree := by
    obtain ⟨texts, hparsed, -⟩ := g r hr
    generalize hx : r.read c.editor.input.text = x
    obtain ⟨_, -, -, -, -, hmade⟩ := hparsed.read hx
    exact hmade.trans htree.symm
  refine ⟨_, k.target_eq hd hp, fun silent =>
    ⟨(r.read c.editor.input.text).1.target c.editor.input.caret, ?_, ?_,
      Document.id_target_eq hread _⟩⟩
  · rw [Editor.input_resolveNow hr]
    exact (Input.resolve_found ..).2.2
  · rw [Document.document_target, Document.document_target, hread]

namespace Course

variable {allowed : Course → Move → Prop} {settings : Settings} {limit : Option Nat}
  {listening : Bool} {history : History} {c : Course}

theorem Run.resolved (h : Run allowed (fresh settings limit listening) history c) :
    c.editor.input.Resolved :=
  h.parts_invariant (I := fun p => p.input.Resolved) (.inl ⟨rfl, rfl, rfl⟩)
    fun _ _ _ hs => hs.resolved

/-- An event about the caret that holds back no parse changes nothing. -/
theorem handle_of_slot_eq {event : UserEvent} (hm : event.movesCaret = true)
    (hs : (c.editor.handle event).1.slot = c.editor.slot) :
    (c.editor.handle event).1 = c.editor ∧
      c.editor.input.prompts c.editor.settings event = false := by
  cases hp : c.editor.input.prompts c.editor.settings event with
  | true =>
    have hu := c.editor.prompted_handle hp
    generalize (c.editor.handle event).1 = e' at hu hs
    have hne : ∀ clock delay action,
        c.editor.slot.schedule clock delay action ≠ c.editor.slot := by
      intro clock delay action he
      have := congrArg Slot.active he
      rw [Slot.active_schedule] at this
      omega
    cases hu with
    | edit => exact absurd hs (hne _ _ _)
    | recheck => exact absurd hs (hne _ _ _)
  | false =>
    refine ⟨?_, rfl⟩
    have hedits := UserEvent.edits_of_movesCaret hm
    have hu := c.editor.unprompted_handle hp
    generalize (c.editor.handle event).1 = e' at hu
    cases hu with
    | none => rfl
    | highlight _ he => rcases he with rfl | rfl <;> cases hm
    | hover => cases hm
    | close hc => rw [UserEvent.closes_of_edits hedits] at hc; cases hc
    | select hc | selectAndResolve hc => rw [Input.chooses_of_edits _ hedits] at hc; cases hc

/-- **Nothing is lost.** At any time the target is that of the document and of the caret that it was
found for, unless there is no document yet. When the editor is ready and an event about the caret
holds back no parse, a parse would have given the same. -/
theorem Run.skips (h : Run allowed (fresh settings limit listening) history c) :
    c.editor.input.Resolved ∧
      ∀ event, event.movesCaret = true → c.editor.input.ready = true →
        (c.editor.handle event).1.slot = c.editor.slot →
        (c.editor.handle event).1.input.needsResolve = false ∧
          (c.editor.handle event).1.Repeats := by
  refine ⟨h.resolved, fun event hm hready hs => ?_⟩
  obtain ⟨he, hp⟩ := handle_of_slot_eq hm hs
  have hn : c.editor.input.needsResolve = false := by
    cases event with
    | caret offset =>
      simp only [Input.prompts, hready, Bool.true_and, Bool.or_eq_false_iff] at hp
      exact hp.2
    | left | right => simpa only [Input.prompts, hready, Bool.true_and] using hp
    | _ => cases hm
  have hreader : c.editor.reader.isSome = true := h.orderly.prepared.ready ▸ hready
  obtain ⟨r, hr⟩ := Option.isSome_iff_exists.1 hreader
  rw [he]
  exact ⟨hn, h.documented.repeats h.resolved hr hn⟩

/-- A text has been typed and parsed when the caret is put where it is. -/
theorem Run.skips_typed : ∃ history c, Run Anything (fresh {} none false) history c ∧
    c.editor.input.text = "a" ∧ c.editor.input.ready = true ∧
    (c.editor.handle (.caret 1)).1.slot = c.editor.slot ∧
    (c.editor.handle (.caret 1)).1.Repeats := by
  obtain ⟨moves, c, run, -, -, e⟩ := Run.ready.parse "a" rfl (fun _ => ⟨trivial, trivial, trivial⟩)
    rfl rfl (by decide) (by decide) rfl rfl rfl
  have hi : c.editor.input = _ := congrArg Parts.input e
  have hready : c.editor.input.ready = true := by
    rw [hi]
    rfl
  have hs : (c.editor.handle (.caret 1)).1.slot = c.editor.slot := by
    have hn : c.editor.input.needsResolve = false := by
      rw [hi]
      decide
    have hc : (c.editor.input.moveTo 1).caret = c.editor.input.caret := by
      rw [hi]
      decide
    simp only [Editor.handle, Editor.moveTo, hready, hn, hc, beq_self_eq_true]
    rfl
  refine ⟨_, c, run, ?_, hready, hs, (run.skips.2 (.caret 1) rfl hready hs).2⟩
  rw [hi]
  rfl

end Course

end Typeahead
