import Typeahead.Proofs.Editor.Execute
import Typeahead.Proofs.Editor.Wait

/-!
# An editor at rest has come to an end

Whatever happens to an editor, and in whatever order, it is not at rest while it says that it loads,
or that it resolves or asks (`Parts.Progressing`). With the phase `parsing` it is otherwise: an
event that closes the panel or selects drops the parse that the text waits for, and leaves the
phase. If the pass that had begun is for another text it leaves the phase too, and nothing is to
come.

`Course.Stranded` says of a history that this has happened, and that nothing was edited since. Then
and only then does an editor rest with the phase `parsing` (`Course.Run.settles`).
-/

namespace Typeahead

namespace Input

variable {i : Input}

/-- Nothing is loading, and the source is not to be asked. -/
structure Calm (i : Input) : Prop where
  loading : i.loading = false
  resolving : i.phase ≠ .resolving
  fetching : i.phase ≠ .fetching

theorem calm_closePanel : i.closePanel.Calm := by
  refine ⟨rfl, ?_, ?_⟩ <;> cases h : i.phase <;> simp [closePanel, settledPhase, h]

theorem calm_taken (s : Settings) (limit : Option Nat) (r : Request) (a : Answer) :
    (i.taken s limit r a).Calm := by
  cases a with
  | ok => exact ⟨rfl, fun h => (by cases h), fun h => by cases h⟩
  | error =>
    simp only [taken, fail]
    split <;> exact ⟨rfl, fun h => (by cases h), fun h => by cases h⟩

/-- Only a loud parse of a text without faults leads to a question. -/
theorem calm_resolve {d : Document} {silent : Bool} (h : silent = true ∧ i.loading = false ∨
    d.tree.faults ≠ []) : (i.resolve d silent).Calm := by
  unfold resolve
  split
  · exact ⟨rfl, fun h => (by cases h), fun h => by cases h⟩
  · rename_i hf
    rcases h with ⟨rfl, hl⟩ | h
    · exact ⟨hl, fun h => (by cases h), fun h => by cases h⟩
    · exact absurd hf h

/-- A document leaves a field that is idle, has faults, or is about to be asked about. -/
theorem phase_resolve (d : Document) (silent : Bool) : (i.resolve d silent).phase = .idle ∨
    (i.resolve d silent).phase = .resolving ∨ (i.resolve d silent).phase = .error := by
  unfold resolve
  split
  · exact .inr (.inr rfl)
  · cases silent
    · exact .inr (.inl rfl)
    · exact .inl rfl

/-- To close the panel begins no phase but the idle one. -/
theorem phase_of_closePanel {phase : Phase} (h : i.closePanel.phase = phase)
    (hn : phase ≠ .idle) : i.phase = phase := by
  subst h
  cases hi : i.phase <;> simp [closePanel, settledPhase, hi] at hn ⊢

theorem phase_taken (s : Settings) (limit : Option Nat) (r : Request) (a : Answer) :
    (i.taken s limit r a).phase = .idle := by
  cases a with
  | ok => rfl
  | error =>
    simp only [taken, fail]
    split <;> rfl

/-- In any other phase no document has just been put in place. -/
theorem phase_resolve_ne (d : Document) (silent : Bool) {phase : Phase}
    (h : phase ∉ [.idle, .resolving, .error]) : (i.resolve d silent).phase ≠ phase := by
  rintro rfl
  rcases i.phase_resolve d silent with h' | h' | h' <;> simp [h'] at h

end Input

namespace Parts

variable {p p' : Parts} {m : Move}

/-- What is to come while the field says that it loads, resolves or asks. -/
structure Progressing (p : Parts) : Prop where
  error : p.input.phase = .error → p.input.loading = false
  busy : p.input.Calm ∨ p.Awaited ∨ p.Asking

namespace Progressing

theorem of_calm (h : p.input.Calm) : p.Progressing := ⟨fun _ => h.loading, .inl h⟩

theorem of_puts {d : Document} (h : p.Puts d p') : p'.Progressing := by
  by_cases hf : d.tree.faults = []
  · refine ⟨fun he => ?_, .inr (.inr (.inl ?_))⟩
    · rw [h.input] at he
      simp only [Input.resolve, hf] at he
      cases he
    · rw [h.held, heldAfter, hf]
      rfl
  · refine of_calm ?_
    rw [h.input]
    exact Input.calm_resolve (.inr hf)

theorem of_takes (h : p.Takes m p') : p'.Progressing := by
  cases m with
  | answer generation a =>
    obtain ⟨r, -, -, -, hi⟩ := h
    refine of_calm ?_
    rw [hi]
    exact Input.calm_taken ..
  | _ => cases h

/-- What is to come is still to come, or the wait has ended. -/
theorem of_input_eq (h : p.Step m p') (o : p.Orderly) (g : p.Documented) (hm : ¬ p.Drops m)
    (hi : p'.input = p.input) (w : p.Progressing) : p'.Progressing := by
  have error : p'.input.phase = .error → p'.input.loading = false := by rw [hi]; exact w.error
  rcases w.busy with hc | ha | ha
  · exact ⟨error, .inl (by rwa [hi])⟩
  · rcases ha.step h o g with ha | ⟨d, hd⟩ | ⟨hd, -⟩
    · exact ⟨error, .inr (.inl ha)⟩
    · exact of_puts hd
    · exact absurd hd hm
  · rcases ha.step h o g with ha | ha | ⟨d, hd⟩ | ht | hd | ⟨-, hp⟩
    · exact ⟨error, .inr (.inr ha)⟩
    · exact ⟨error, .inr (.inl ha)⟩
    · exact of_puts hd
    · exact of_takes ht
    · exact absurd hd hm
    · refine ⟨error, .inl ⟨?_, ?_, ?_⟩⟩
      · rw [hi]
        exact w.error hp
      · rw [hi, hp]
        exact fun h => by cases h
      · rw [hi, hp]
        exact fun h => by cases h

theorem step (h : p.Step m p') (o : p.Orderly) (g : p.Documented) (w : p.Progressing) :
    p'.Progressing := by
  cases h with
  | idle => exact w
  | install hn => exact of_calm (Input.calm_resolve (.inl ⟨rfl, (o.prepared.before hn).loading⟩))
  | reject error hn =>
    exact of_calm ⟨(o.prepared.before hn).loading, fun h => (by cases h), fun h => by cases h⟩
  | edit | recheck => exact ⟨w.error, .inr (.inl (.inl rfl))⟩
  | highlight | hover => exact ⟨w.error, w.busy.imp_left fun hc => ⟨hc.1, hc.2, hc.3⟩⟩
  | close | select => exact of_calm Input.calm_closePanel
  | selectAndResolve => exact of_calm (Input.calm_resolve (.inl ⟨rfl, rfl⟩))
  | parse hk hr _ hd => exact of_puts (puts_parse o.loud g hk hr hd)
  | parseLong =>
    exact ⟨fun h => (by cases h),
      .inr (.inl (.inr (.inr ⟨_, List.mem_append_right _ (List.mem_singleton_self _), rfl⟩)))⟩
  | ask clock _ _ ht => exact ⟨fun h => (by cases h), .inr (.inr (asking_ask ht clock rfl rfl))⟩
  | put hk hs ht => exact of_puts (puts_pass o.loud o.prepared g hk hs ht)
  | take a => exact of_calm (Input.calm_taken ..)
  | ripen ha => exact w.of_input_eq (.ripen ha) o g id rfl
  | lapse h₁ h₂ h₃ => exact w.of_input_eq (.lapse h₁ h₂ h₃) o g id rfl
  | look h₁ h₂ h₃ => exact w.of_input_eq (.look h₁ h₂ h₃) o g id rfl
  | drop h₁ h₂ h₃ => exact w.of_input_eq (.drop h₁ h₂ h₃) o g id rfl
  | discard a h₁ h₂ => exact w.of_input_eq (.discard a h₁ h₂) o g id rfl

end Progressing

/-- The phase `parsing` begins with a pass, or a step finds it. -/
theorem Step.parsing (h : p.Step m p') (hp : p'.input.phase = .parsing) :
    p.input.phase = .parsing ∨ p'.Awaited := by
  cases h with
  | install | selectAndResolve | parse | put =>
    exact absurd hp (Input.phase_resolve_ne _ _ (by decide))
  | reject | ask => cases hp
  | close | select => exact .inl (Input.phase_of_closePanel hp (by decide))
  | parseLong =>
    exact .inr (.inr (.inr ⟨_, List.mem_append_right _ (List.mem_singleton_self _), rfl⟩))
  | take a => cases (Input.phase_taken ..).symm.trans hp
  | _ => exact .inl hp

/-- With a reader the phase is not the first one. -/
theorem Step.begun (h : p.Step m p')
    (hb : p.reader ≠ none → p.input.phase ≠ .initializing) :
    p'.reader ≠ none → p'.input.phase ≠ .initializing := by
  intro hr he
  cases h with
  | install | selectAndResolve | parse | put => exact Input.phase_resolve_ne _ _ (by decide) he
  | reject | parseLong | ask => cases he
  | close | select => exact hb hr (Input.phase_of_closePanel he (by decide))
  | look _ hr' => exact hb (by rw [hr']; exact fun h => by cases h) he
  | take a => cases (Input.phase_taken ..).symm.trans he
  | _ => exact hb hr he

/-- A ripe question stays until it is asked, unless the text has faults. -/
theorem Step.fetch_mem_ripe (h : p.Step m p') (w : p.Prepared) (hm : .fetch ∈ p.ripe) :
    .fetch ∈ p'.ripe ∨ p'.input.phase = .fetching ∨ p.input.phase = .error := by
  have hr := w.reader_ne_of_mem_ripe hm
  cases h with
  | ripen => exact .inl (List.mem_append_left _ hm)
  | @lapse _ a hk hf =>
    by_cases ha : a = .fetch
    · rcases hf ha with hp | ht
      · exact .inr (.inr hp)
      · obtain ⟨n, -, hn⟩ := w.after hr
        rw [ht] at hn
        cases hn
    · exact .inl (mem_eraseIdx_of_ne hk hm fun he => ha he.symm)
  | parse hk | parseLong hk => exact .inl (mem_eraseIdx_of_ne hk hm fun he => by cases he)
  | ask => exact .inr (.inl rfl)
  | _ => exact .inl hm

/-- Nothing is held back or ripe, there is nothing to choose, and no open question counts. -/
structure Still (p : Parts) : Prop where
  reader : p.reader ≠ none
  held : p.held = none
  ripe : p.ripe = []
  candidates : p.input.candidates = []
  requests : ∀ r ∈ p.requests, r.generation < p.input.generation

/-- Without an edit there is little that can happen then: highlight and pointer move, passes go on,
answers come in vain; the panel is closed once more; a pass for the present text ends. -/
theorem Still.step_cases (h : p.Step m p') (hm : p.prompts m = false) (k : p.Still) :
    (∃ active hovering reader passes requests, reader ≠ none ∧
      (∀ q ∈ passes, ∃ q' ∈ p.passes, q'.text = q.text) ∧ requests ⊆ p.requests ∧
      p' = { p with input := { p.input with active, hovering }, reader, passes, requests }) ∨
    p' = { p with input := p.input.closePanel, held := none } ∨
    ∃ index q d, p.passes[index]? = some q ∧ q.stage = .done d ∧ p.input.text = q.text ∧
      p' = { p with
        passes := p.passes.eraseIdx index
        input := p.input.resolve d q.silent
        held := p.heldAfter d q.silent } := by
  have none_of_ripe : ∀ {index : Nat} {a : Action}, p.ripe[index]? ≠ some a := by
    intro index a ha
    rw [k.ripe] at ha
    cases ha
  have none_chosen : ∀ {event : UserEvent} {candidate : String},
      p.input.chooses event ≠ some candidate := by
    intro event candidate hc
    have := p.input.mem_of_chooses hc
    rw [k.candidates] at this
    cases this
  have same : ∀ q ∈ p.passes, ∃ q' ∈ p.passes, q'.text = q.text := fun q hq => ⟨q, hq, rfl⟩
  cases h with
  | idle => exact .inl ⟨_, _, _, _, _, k.reader, same, List.Subset.refl _, rfl⟩
  | install hn => exact absurd hn k.reader
  | reject _ hn => exact absurd hn k.reader
  | edit _ _ hp => rw [hm] at hp; cases hp
  | recheck hp => rw [hm] at hp; cases hp
  | highlight | hover => exact .inl ⟨_, _, _, _, _, k.reader, same, List.Subset.refl _, rfl⟩
  | close => exact .inr (.inl rfl)
  | select _ hc => exact absurd hc none_chosen
  | selectAndResolve _ hc => exact absurd hc none_chosen
  | ripen ha => rw [k.held] at ha; cases ha
  | lapse ha => exact absurd ha none_of_ripe
  | parse ha => exact absurd ha none_of_ripe
  | parseLong ha => exact absurd ha none_of_ripe
  | ask _ ha => exact absurd ha none_of_ripe
  | @look _ pass _ _ _ hq =>
    refine .inl ⟨_, _, _, _, _, fun h => (by cases h), fun q hm => ?_, List.Subset.refl _, rfl⟩
    rcases List.mem_or_eq_of_mem_set hm with hm | rfl
    · exact same q hm
    · exact ⟨pass, List.mem_of_getElem? hq, rfl⟩
  | drop =>
    exact .inl ⟨_, _, _, _, _, k.reader, fun q hq => same q (List.mem_of_mem_eraseIdx hq),
      List.Subset.refl _, rfl⟩
  | put hq hs ht => exact .inr (.inr ⟨_, _, _, hq, hs, ht, rfl⟩)
  | discard => exact .inl ⟨_, _, _, _, _, k.reader, same, List.eraseP_subset .., rfl⟩
  | take _ hf hw =>
    have := k.requests _ (List.mem_of_find?_eq_some hf)
    simp only [Input.wants, Bool.and_eq_true, beq_iff_eq] at hw
    omega

/-- The phase is `parsing`, and nothing is to come that changes it. -/
structure Stuck (p : Parts) : Prop where
  reader : p.reader ≠ none
  phase : p.input.phase = .parsing
  held : p.held = none
  ripe : p.ripe = []
  passes : ∀ q ∈ p.passes, q.text ≠ p.input.text
  candidates : p.input.candidates = []
  requests : ∀ r ∈ p.requests, r.generation < p.input.generation

theorem Stuck.still (k : p.Stuck) : p.Still := { k with }

/-- Nothing but an edit helps. -/
theorem Stuck.step (h : p.Step m p') (hm : p.prompts m = false) (k : p.Stuck) : p'.Stuck := by
  rcases k.still.step_cases h hm with
    ⟨_, _, _, _, _, hr, hp, hq, rfl⟩ | rfl | ⟨_, q, _, hq, -, ht, -⟩
  · refine { k with reader := hr, passes := fun q hm => ?_, requests := fun r hm => ?_ }
    · obtain ⟨q', hm', he⟩ := hp q hm
      exact he ▸ k.passes q' hm'
    · exact k.requests r (hq hm)
  · refine { k with phase := ?_, held := rfl, candidates := rfl, requests := fun r hr => ?_ }
    · simp only [Input.closePanel, k.phase, Input.settledPhase]
    · exact Nat.lt_succ_of_lt (k.requests r hr)
  · exact absurd ht.symm (k.passes q (List.mem_of_getElem? hq))

/-- An event that closes the panel or selects leaves no candidate and no question that counts. -/
theorem Stuck.of_drops (h : p.Step m p') (w : p.Prepared) (n : p.Numbered) (ha : p.Awaited)
    (hd : p.Drops m) (hn : ¬ p'.Awaited) (hp : p'.input.phase = .parsing) (hr : p'.ripe = []) :
    p'.Stuck := by
  have passes : ∀ q ∈ p'.passes, q.text ≠ p'.input.text :=
    fun q hq ht => hn (.inr (.inr ⟨q, hq, ht⟩))
  cases h with
  | idle => exact absurd ha hn
  | edit | recheck => exact absurd (.inl rfl) hn
  | highlight _ _ he => rcases he with rfl | rfl <;> rcases hd with hc | ⟨_, hc⟩ <;> cases hc
  | hover => rcases hd with hc | ⟨_, hc⟩ <;> cases hc
  | close | select =>
    exact ⟨ha.reader_ne w, hp, rfl, hr, passes, rfl, fun r hm => Nat.lt_succ_of_le (n.le r hm)⟩
  | selectAndResolve => exact absurd hp (Input.phase_resolve_ne _ _ (by decide))
  | _ => cases hd

end Parts

namespace Course

variable {allowed : Course → Move → Prop} {settings : Settings} {limit : Option Nat}
  {listening : Bool} {history : History} {c first : Course}

/-- The event drops the parse that the present text waits for, and leaves the phase. -/
def Abandons (c : Course) (m : Move) : Prop :=
  c.parts.Drops m ∧ c.parts.Awaited ∧ ¬ (c.perform m).parts.Awaited ∧
    (c.perform m).editor.input.phase = .parsing ∧ (c.perform m).ripe = []

/-- A parse was abandoned, and no other has been held back since. -/
def Stranded : History → Prop
  | [] => False
  | (c, m) :: earlier => c.Abandons m ∨ ¬ c.Schedules m ∧ Stranded earlier

theorem Run.progressing (h : Run allowed (fresh settings limit listening) history c) :
    c.parts.Progressing := by
  induction h with
  | start => exact ⟨fun _ => rfl, .inl ⟨rfl, fun h => (by cases h), fun h => by cases h⟩⟩
  | step m h had _ ih => exact ih.step (Course.step_parts _ had) h.orderly h.documented

/-- While the phase is `parsing` a parse is to come, or a question that ends the phase, unless the
parse was abandoned. -/
theorem Run.parsing (h : Run allowed (fresh settings limit listening) history c)
    (hp : c.editor.input.phase = .parsing) :
    c.parts.Awaited ∨ .fetch ∈ c.ripe ∨ Stranded history := by
  induction h with
  | start => cases hp
  | @step history c m h had _ ih =>
    have o := h.orderly
    have hst := c.step_parts had
    by_cases hs : c.Schedules m
    · exact .inl (awaited_of_schedules hs)
    rcases hst.parsing hp with hp' | ha
    swap
    · exact .inl ha
    rcases ih hp' with ha | hm | hr
    · rcases ha.step hst o h.documented with ha' | ⟨d, hd⟩ | ⟨hd, hh⟩
      · exact .inl ha'
      · have hi : (c.perform m).editor.input = c.editor.input.resolve d false := hd.input
        rw [hi] at hp
        rcases Input.phase_resolve (i := c.editor.input) d false with h | h | h <;>
          rw [hp] at h <;> cases h
      · by_cases ha' : (c.perform m).parts.Awaited
        · exact .inl ha'
        by_cases hf : .fetch ∈ (c.perform m).ripe
        · exact .inr (.inl hf)
        refine .inr (.inr (.inl ⟨hd, ha, ha', hp, ?_⟩))
        refine List.eq_nil_iff_forall_not_mem.2 fun a hm => ?_
        cases a with
        | fetch => exact hf hm
        | resolve silent =>
          cases silent with
          | true => exact (o.step hst).loud.ripe hm
          | false => exact ha' (.inr (.inl hm))
    · rcases hst.fetch_mem_ripe o.prepared hm with hm | he | he
      · exact .inr (.inl hm)
      · rw [show (c.perform m).editor.input.phase = .fetching from he] at hp
        cases hp
      · rw [he] at hp'
        cases hp'
    · exact .inr (.inr (.inr ⟨hs, hr⟩))

theorem Run.stuck (h : Run allowed (fresh settings limit listening) history c)
    (hs : Stranded history) : c.parts.Stuck := by
  induction h with
  | start => cases hs
  | @step history c m h had _ ih =>
    have o := h.orderly
    have hst := c.step_parts had
    rcases hs with ⟨hd, ha, hn, hp, hr⟩ | ⟨hm, hs⟩
    · exact .of_drops hst o.prepared o.numbered ha hd hn hp hr
    · refine (ih hs).step hst ?_
      cases m with
      | user event => exact Bool.eq_false_iff.2 hm
      | _ => rfl

/-! ## How a parse is abandoned -/

/-- A pass for another text comes to its end and leaves nothing. -/
theorem Run.drop {p : Parts} {r : Reader} {q : Pass}
    (h : Run allowed first history c) (index : Nat) (hc : c.parts = p) (hr : p.reader = some r)
    (hp : p.passes[index]? = some q) (ht : p.input.text ≠ q.text)
    (advancing : ∀ c, allowed c (.advance index)) : ∃ history c' r', Run allowed first history c' ∧
      c'.parts = { p with reader := some r', passes := p.passes.eraseIdx index } := by
  obtain ⟨_, c', r', passes, d, h, -, e, hq, he⟩ := h.complete hc hr hp advancing
  refine ⟨_, _, r', h.step (.advance index) trivial (advancing c'), ?_⟩
  rw [parts_advance_drop e rfl hq rfl ht, he]

/-- From any rest an editor can come to rest with the phase `parsing`: a long text is typed, while
it is being parsed another one takes its place, and the panel is closed. -/
theorem Run.strand (long text : String)
    (h : Run Anything (fresh settings limit listening) history c) (hq : c.Quiet)
    (hw : c.editor.input.readOnly c.editor.settings = false)
    (hl : ¬ long.utf8ByteSize < Editor.longText) (hn : c.editor.input.text ≠ long)
    (ht : long ≠ text) : ∃ history c, Run Anything (fresh settings limit listening) history c ∧
      c.editor.reader ≠ none ∧ c.Quiet ∧ c.editor.input.phase = .parsing := by
  have hready : c.parts.reader.isSome = true := by
    rw [← h.orderly.prepared.ready]
    simp only [Input.readOnly, Bool.or_eq_false_iff, Bool.not_eq_false'] at hw
    exact hw.1
  obtain ⟨r, hr⟩ := Option.isSome_iff_exists.1 hready
  obtain ⟨_, c₁, h₁, e₁⟩ :=
    h.pass rfl hr long (fun _ => ⟨trivial, trivial, trivial⟩) hq.ripe hw hn hl
  rw [show c.parts.passes = [] from hq.passes] at e₁
  have h₂ := (h₁.step (.user (.text text)) trivial trivial).step (.user .escape) trivial trivial
  have e₂ := parts_escape (parts_retype e₁ hw ht)
  obtain ⟨history', c', r', h', he⟩ := h₂.drop 0 e₂ hr rfl ht.symm fun _ => trivial
  refine ⟨history', c', h', ?_, ⟨?_, ?_, ?_, ?_⟩, ?_⟩
  · rw [show c'.editor.reader = some r' from congrArg Parts.reader he]
    exact fun h => by cases h
  · exact congrArg Parts.held he
  · exact (congrArg Parts.ripe he).trans hq.ripe
  · exact congrArg Parts.passes he
  · exact (congrArg Parts.requests he).trans hq.requests
  · exact congrArg (fun p => p.input.phase) he

/-! ## Rest -/

/-- **Rest.** An editor at rest does not load; it is idle or shows an error, unless a parse was
abandoned and nothing was edited since. -/
theorem Run.settles (h : Run allowed (fresh settings limit listening) history c)
    (hr : c.editor.reader ≠ none) (hq : c.Quiet) :
    c.editor.input.loading = false ∧ (c.editor.input.phase = .parsing ↔ Stranded history) ∧
      (¬ Stranded history → c.editor.input.phase = .idle ∨ c.editor.input.phase = .error) := by
  have hc : c.editor.input.Calm := by
    rcases h.progressing.busy with hc | ha | ha
    · exact hc
    · exact absurd ha hq.not_awaited
    · exact absurd ha hq.not_asking
  have hp : c.editor.input.phase = .parsing ↔ Stranded history := by
    refine ⟨fun hp => ?_, fun hs => (h.stuck hs).phase⟩
    rcases h.parsing hp with ha | hm | hs
    · exact absurd ha hq.not_awaited
    · rw [hq.ripe] at hm
      cases hm
    · exact hs
  refine ⟨hc.loading, hp, fun hs => ?_⟩
  cases he : c.editor.input.phase with
  | initializing =>
    have hbegun := h.parts_invariant
      (I := fun p => p.reader ≠ none → p.input.phase ≠ .initializing)
      (fun h => absurd rfl h) (fun _ _ _ hs hb => hs.begun hb)
    exact absurd he (hbegun hr)
  | idle => exact .inl rfl
  | parsing => exact absurd (hp.1 he) hs
  | resolving => exact absurd he hc.resolving
  | fetching => exact absurd he hc.fetching
  | error => exact .inr rfl

/-- An editor can rest with the phase `parsing`. -/
theorem Run.rests_parsing : ∃ history c, Run Anything (fresh {} none false) history c ∧
    c.editor.reader ≠ none ∧ c.Quiet ∧ c.editor.input.phase = .parsing := by
  have ready : Run Anything (fresh {} none false) _ _ :=
    .step (.compiled (.ok (.hashed (fun _ => 0) 1 .whole))) .start ⟨rfl, _, _, _, rfl⟩ trivial
  refine ready.strand _ "b" ⟨rfl, rfl, rfl, rfl⟩ rfl not_replicate_lt_longText ?_ ?_
  · intro h
    exact not_replicate_lt_longText (h ▸ by decide)
  · intro h
    exact not_replicate_lt_longText (h ▸ by decide)

/-- An editor that rests so has abandoned a parse. -/
theorem Run.settles_stranded : ∃ history c, Run Anything (fresh {} none false) history c ∧
    c.Quiet ∧ c.editor.input.loading = false ∧ Stranded history := by
  have ready : Run Anything (fresh {} none false) _ _ :=
    .step (.compiled (.ok (.hashed (fun _ => 0) 1 .whole))) .start ⟨rfl, _, _, _, rfl⟩ trivial
  obtain ⟨history, c, run, hr, hq, hp⟩ := ready.strand _ "b" ⟨rfl, rfl, rfl, rfl⟩ rfl
    not_replicate_lt_longText (fun h => not_replicate_lt_longText (h ▸ by decide))
    fun h => not_replicate_lt_longText (h ▸ by decide)
  obtain ⟨hl, hs, -⟩ := run.settles hr hq
  exact ⟨history, c, run, hq, hl, hs.1 hp⟩

end Course

end Typeahead
