import Typeahead.Proofs.Editor.Closing
import Typeahead.Proofs.Editor.Target

/-!
# What the source is asked about

A question is held back for a whole delay after the parse that led to it, and then it is asked about
the target that the field has by that time. Meanwhile other parses may have ended.

- **Current documents** (`Input.Current`): of the present text, without faults, and put in place for
  the present caret.
- **Questions to come** (`Parts.Aimed`): while there is one, the document is current. An event that
  would change this drops what is held back. A parse cannot: the present text has been found to have
  no faults, and one text is always found to have the same (`Parts.Puts.aimed`).
- **Questions asked** (`Course.Run.asks_target`). A ripe question that begins is asked, as there is a
  fault in the document of a field that is in error (`Parts.Step.faulty`). All this is for users who
  do nothing between the end of a delay and the action that it was for (`Course.Punctual`).
-/

namespace Typeahead

namespace Input

variable {i j : Input} {d : Document}

/-- The document is that of the text and has no faults, and the caret has stayed where it was when
the document was put in place. -/
structure Current (i : Input) (d : Document) : Prop where
  document : i.document = some d
  faults : d.tree.faults = []
  source : d.tree.source = i.text
  resolvedAt : i.resolvedAt = some i.caret

theorem Current.congr (h : i.Current d) (hd : j.document = i.document) (ht : j.text = i.text)
    (hp : j.resolvedAt = i.resolvedAt) (hc : j.caret = i.caret) : j.Current d where
  document := hd.trans h.document
  faults := h.faults
  source := h.source.trans ht.symm
  resolvedAt := by rw [hp, hc, h.resolvedAt]

theorem current_resolve (hf : d.tree.faults = []) (hs : d.tree.source = i.text) (silent : Bool) :
    (i.resolve d silent).Current d := by
  rw [i.resolve_of_faults_nil hf]
  exact ⟨rfl, hf, hs, rfl⟩

/-- The target is the node under the caret. -/
theorem Current.target_eq (h : i.Current d) (k : i.Resolved) :
    i.target = some (.under d i.caret) := by
  rw [k.target_eq h.document h.resolvedAt, Document.target, if_pos (by rw [h.faults]; rfl)]

/-- In error the field has no document without faults. -/
def Faulty (i : Input) : Prop :=
  i.phase = .error → ∀ d, i.document = some d → d.tree.faults ≠ []

theorem faulty_resolve (i : Input) (d : Document) (silent : Bool) : (i.resolve d silent).Faulty := by
  intro hp d' hd hf
  obtain rfl := Option.some.inj ((i.document_resolve d silent).1.symm.trans hd)
  rw [i.resolve_of_faults_nil hf] at hp
  cases silent <;> cases hp

theorem Faulty.closePanel (h : i.Faulty) : i.closePanel.Faulty :=
  fun hp => h (phase_of_closePanel hp (by decide))

end Input

namespace Parts

variable {p p' : Parts} {m : Move} {d : Document}

theorem Step.faulty (h : p.Step m p') (w : p.Prepared) (k : p.input.Faulty) :
    p'.input.Faulty := by
  cases h with
  | install | selectAndResolve | parse | put => exact Input.faulty_resolve _ _ _
  | reject _ hn =>
    intro _ d hd
    cases (w.before hn).document.symm.trans hd
  | close => exact k.closePanel
  | @select _ candidate n =>
    exact Input.Faulty.closePanel (i := { p.input with text := _, caret := _ }) k
  | parseLong | ask => exact fun hp => by cases hp
  | take a => exact fun hp => by cases (Input.phase_taken ..).symm.trans hp
  | _ => exact k

/-- A question is held back or ripe. -/
def ToAsk (p : Parts) : Prop := p.held = some .fetch ∨ .fetch ∈ p.ripe

/-- While there is a question to ask, the document is current. -/
def Aimed (p : Parts) : Prop := p.ToAsk → ∃ d, p.input.Current d

/-- What leads to no question has nothing to aim at. -/
theorem aimed_of_ripe_nil (hh : p.held ≠ some .fetch) (hr : p.ripe = []) : p.Aimed := by
  rintro (h | h)
  · exact absurd h hh
  · rw [hr] at h
    cases h

/-- The field may change in what does not matter, and actions may come to an end. -/
theorem Aimed.mono (h : p.Aimed) (ht : p'.ToAsk → p.ToAsk)
    (hi : ∀ d, p.input.Current d → p'.input.Current d) : p'.Aimed := by
  intro ha
  obtain ⟨d, hd⟩ := h (ht ha)
  exact ⟨d, hi d hd⟩

/-- A parse ends. Where it finds faults no question can have been to come: the parse that it came
from would have found them as well. -/
theorem Puts.aimed (h : p.Puts d p') (hp : p'.ripe ⊆ p.ripe) (g : p.Documented)
    (k : p.input.Resolved) (ha : p.Aimed) : p'.Aimed := by
  obtain ⟨hi, hh, r, hr, htree⟩ := h
  intro ht
  by_cases hf : d.tree.faults = []
  · refine ⟨d, ?_⟩
    rw [hi]
    exact Input.current_resolve hf (by rw [htree]; rfl) false
  · have before : p.ToAsk := by
      refine ht.imp (fun h => ?_) fun h => hp h
      rwa [hh, heldAfter, if_pos (by simp [hf])] at h
    obtain ⟨d', hd'⟩ := ha before
    refine absurd ?_ hf
    rw [htree, ← g.tree_of_current k hr hd'.document hd'.source]
    exact hd'.faults

/-- Questions stay aimed, if no event comes while an action is ripe. -/
theorem Aimed.step (h : p.Step m p') (hm : ∀ event, m = .user event → p.ripe = [])
    (o : p.Orderly) (g : p.Documented) (k : p.input.Resolved) (ha : p.Aimed) : p'.Aimed := by
  obtain ⟨l, w, -⟩ := o
  have erased : ∀ index, .fetch ∈ p.ripe.eraseIdx index → .fetch ∈ p.ripe :=
    fun _ => List.mem_of_mem_eraseIdx
  cases h with
  | install hn | reject _ hn =>
    have u := w.before hn
    exact aimed_of_ripe_nil (by rw [u.held]; exact fun h => by cases h) u.ripe
  | edit | recheck => exact aimed_of_ripe_nil (fun h => by cases h) (hm _ rfl)
  | close | select | selectAndResolve => exact aimed_of_ripe_nil (fun h => by cases h) (hm _ rfl)
  | highlight | hover => exact ha.mono id fun _ hd => hd.congr rfl rfl rfl rfl
  | @ripen a hh =>
    refine ha.mono (fun ht => ?_) fun _ => id
    rcases ht with ht | ht
    · cases ht
    · rcases List.mem_append.1 ht with ht | ht
      · exact .inr ht
      · exact .inl (hh.trans (congrArg some (List.mem_singleton.1 ht).symm))
  | lapse => exact ha.mono (Or.imp_right (erased _)) fun _ => id
  | parse hk hr _ hd => exact (puts_parse l g hk hr hd).aimed (List.eraseIdx_subset ..) g k ha
  | parseLong | ask =>
    exact ha.mono (Or.imp_right (erased _)) fun _ hd => hd.congr rfl rfl rfl rfl
  | put hq hs ht => exact (puts_pass l w g hq hs ht).aimed (List.Subset.refl _) g k ha
  | take a =>
    obtain ⟨hc, hp⟩ := Input.caret_taken ..
    exact ha.mono id fun _ hd => hd.congr (Input.document_taken ..).1 (Input.text_taken ..) hp hc
  | _ => exact ha

end Parts

namespace Course

variable {settings : Settings} {limit : Option Nat} {listening : Bool} {history : History}
  {c : Course} {m : Move}

/-- An action whose time is up begins before the user does anything. -/
def Punctual (c : Course) : Move → Prop
  | .user _ => c.ripe = []
  | _ => True

/-- A ripe question begins. -/
def Asks (c : Course) (m : Move) : Prop :=
  ∃ index, m = .begin index ∧ c.ripe[index]? = some .fetch

/-- A ripe question that begins is asked about the target. -/
theorem Asks.asked_perform {n : Node} (h : c.Asks m) (hp : c.editor.input.phase ≠ .error)
    (ht : c.editor.input.target = some n) :
    (c.perform m).editor.asked =
        ⟨c.editor.input.generation + 1, n, c.editor.clock⟩ :: c.editor.asked ∧
      (c.perform m).editor.input = c.editor.input.fetching := by
  obtain ⟨index, rfl, hr⟩ := h
  simp only [perform, hr, Editor.perform, Editor.fetch_eq hp ht]
  trivial

theorem Run.aimed (h : Run Punctual (fresh settings limit listening) history c) :
    c.parts.Aimed := by
  induction h with
  | start => exact Parts.aimed_of_ripe_nil (fun h => by cases h) rfl
  | @step _ c m h had hp ih =>
    refine ih.step (c.step_parts had) (fun event hm => ?_) h.orderly h.documented h.resolved
    subst hm
    exact hp

theorem Run.faulty {allowed : Course → Move → Prop}
    (h : Run allowed (fresh settings limit listening) history c) : c.editor.input.Faulty := by
  induction h with
  | start => exact fun hp => by cases hp
  | step m h had _ ih => exact (Course.step_parts _ had).faulty h.orderly.prepared ih

/-- **Aim.** A ripe question that begins is asked, and nothing else is. It is about the node under
the caret, in a document of the present text that has no faults. -/
theorem Run.asks_target (h : Run Punctual (fresh settings limit listening) history c) (m : Move) :
    (c.Asks m → ∃ r d, (c.perform m).editor.asked = r :: c.editor.asked ∧
      (c.perform m).editor.input.Current d ∧
      r.target = .under d (c.perform m).editor.input.caret) ∧
    (¬ c.Asks m → (c.perform m).editor.asked = c.editor.asked) := by
  refine ⟨fun hm => ?_, fun hm => asked_perform fun index hb hr => hm ⟨index, hb, hr⟩⟩
  obtain ⟨index, -, hr⟩ := id hm
  obtain ⟨d, hd⟩ := h.aimed (.inr (List.mem_of_getElem? hr))
  have hp : c.editor.input.phase ≠ .error := fun hp => h.faulty hp d hd.document hd.faults
  obtain ⟨ha, hi⟩ := hm.asked_perform hp (hd.target_eq h.resolved)
  refine ⟨_, d, ha, ?_, ?_⟩
  · rw [hi]
    exact hd.congr rfl rfl rfl rfl
  · rw [hi]
    rfl

/-- A text is typed, parsed, and asked about. -/
theorem Run.asks_target_typed : ∃ history c, Run Punctual (fresh {} none false) history c ∧
    c.Asks (.begin 0) ∧ ∃ r d, (c.perform (.begin 0)).editor.asked = r :: c.editor.asked ∧
      (c.perform (.begin 0)).editor.input.Current d ∧
      r.target = .under d (c.perform (.begin 0)).editor.input.caret := by
  have h₀ : Run Punctual (fresh {} none false) _ ((fresh {} none false).perform installing) :=
    .step installing .start ⟨rfl, _, _, _, rfl⟩ trivial
  have h₁ := h₀.step (.user (.text "a")) trivial rfl
  have e₁ := @parts_retype ((fresh {} none false).perform installing) _ rfl "a" rfl (by decide)
  have h₂ := h₁.step .ripen trivial trivial
  have e₂ := parts_ripen e₁ rfl
  have h₃ := h₂.step (.begin 0) trivial trivial
  have e₃ := parts_begin_short e₂ rfl rfl (by decide) rfl
  have h₄ := h₃.step .ripen trivial trivial
  have hm : Asks _ (.begin 0) := ⟨0, rfl, congrArg (fun p => p.ripe[0]?) (parts_ripen e₃ rfl)⟩
  exact ⟨_, _, h₄, hm, (h₄.asks_target (.begin 0)).1 hm⟩

end Course

end Typeahead
