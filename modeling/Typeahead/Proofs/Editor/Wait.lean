import Mathlib.Data.List.Nodup
import Typeahead.Proofs.Editor.Documents

/-!
# What an editor waits for

A text that was edited waits for a parse (`Parts.Awaited`): the parse is held back, ripe, or in a
pass. A target waits for an answer (`Parts.Asking`): the question is held back, ripe, or open.

How such a wait ends: that for a parse when a document is put in place, or when an event closes the
panel or selects (`Awaited.step`); that for an answer also when the answer is taken, or when a parse
is awaited again (`Asking.step`).
-/

namespace Typeahead

theorem mem_eraseIdx_of_ne {α : Type} {l : List α} {index : Nat} {a b : α}
    (hb : l[index]? = some b) (ha : a ∈ l) (hne : a ≠ b) : a ∈ l.eraseIdx index := by
  obtain ⟨k, hk⟩ := List.getElem?_of_mem ha
  refine List.mem_eraseIdx_iff_getElem?.2 ⟨k, fun he => hne ?_, hk⟩
  rw [he, hb] at hk
  exact (Option.some.inj hk).symm

/-- Whether an event is about the text, the caret or the pointer. -/
def UserEvent.edits : UserEvent → Bool
  | .text _ | .caret _ | .left | .right | .hover _ => true
  | _ => false

theorem UserEvent.closes_of_edits {event : UserEvent} (h : event.edits = true) :
    event.closes = false := by
  cases event <;> first | rfl | cases h

theorem Input.chooses_of_edits (i : Input) {event : UserEvent} (h : event.edits = true) :
    i.chooses event = none := by
  cases event <;> first | rfl | cases h

namespace Parts

variable {p p' : Parts} {m : Move}

/-- A parse of the present text is to come. -/
def Awaited (p : Parts) : Prop :=
  p.held = some (.resolve false) ∨ .resolve false ∈ p.ripe ∨ ∃ q ∈ p.passes, q.text = p.input.text

/-- The source is to be asked about the target, or it has been. -/
def Asking (p : Parts) : Prop :=
  p.held = some .fetch ∨ .fetch ∈ p.ripe ∨ ∃ r ∈ p.requests, p.input.wants r = true

theorem Awaited.reader_ne (h : p.Awaited) (w : p.Prepared) : p.reader ≠ none := by
  intro hr
  have u := w.before hr
  simp [Awaited, u.held, u.ripe, u.passes] at h

/-- The document of the present text is put in place. -/
structure Puts (p : Parts) (d : Document) (p' : Parts) : Prop where
  input : p'.input = p.input.resolve d false
  held : p'.held = p.heldAfter d false
  tree : ∃ r, p.reader = some r ∧ d.tree = r.treeOf p.input.text

/-- An event that closes the panel, or selects. -/
def Drops (p : Parts) : Move → Prop
  | .user event => event.closes = true ∨ ∃ candidate, p.input.chooses event = some candidate
  | _ => False

/-- The answer to a question about the target is taken. -/
def Takes (p : Parts) : Move → Parts → Prop
  | .answer generation a, p' => ∃ r, p.request? generation = some r ∧
      r.generation = p.input.generation ∧ p.input.target = some r.target ∧
      p'.input = p.input.taken p.settings p.limit r a
  | _, _ => False

/-- A parse that comes to its end puts a document in place. -/
theorem puts_parse {index : Nat} {silent : Bool} {r r' : Reader} {d : Document}
    {os : List Observation} (l : p.Loud) (g : p.Documented)
    (ha : p.ripe[index]? = some (.resolve silent)) (hr : p.reader = some r)
    (hd : r.read p.input.text = (d, r', os)) :
    p.Puts d { p with
      ripe := p.ripe.eraseIdx index, reader := some r', input := p.input.resolve d silent
      held := p.heldAfter d silent } := by
  cases silent with
  | true => exact absurd (List.mem_of_getElem? ha) l.ripe
  | false =>
    obtain ⟨texts, hm, -⟩ := g r hr
    obtain ⟨_, -, -, -, hd'⟩ := hm.read hd
    exact ⟨rfl, rfl, r, hr, hd'.2⟩

theorem puts_pass {index : Nat} {pass : Pass} {d : Document} (l : p.Loud) (w : p.Prepared)
    (g : p.Documented) (hq : p.passes[index]? = some pass) (hs : pass.stage = .done d)
    (ht : p.input.text = pass.text) :
    p.Puts d { p with
      passes := p.passes.eraseIdx index, input := p.input.resolve d pass.silent
      held := p.heldAfter d pass.silent } := by
  have hm := List.mem_of_getElem? hq
  rw [l.passes pass hm]
  obtain ⟨r, hr⟩ := Option.ne_none_iff_exists'.1 (w.reader_ne_of_mem_passes hm)
  obtain ⟨texts, -, hf⟩ := g r hr
  refine ⟨rfl, rfl, r, hr, ?_⟩
  rw [ht]
  exact (hf.passes pass hm d hs).2

/-- A question that was just asked waits for its answer. -/
theorem asking_ask {t : Node} (ht : p.input.target = some t) (clock : Nat)
    (hi : p'.input = p.input.fetching)
    (hq : p'.requests = p.requests ++ [⟨p.input.generation + 1, t, clock⟩]) : p'.Asking := by
  refine .inr (.inr ⟨⟨p.input.generation + 1, t, clock⟩, ?_, ?_⟩)
  · rw [hq]
    exact List.mem_append_right _ (List.mem_singleton_self _)
  · rw [hi]
    simp only [Input.wants, Input.fetching, ht, beq_self_eq_true, Bool.true_and]
    exact t.beq_self

/-- A parse is awaited until a document is put in place, or an event closes or selects. -/
theorem Awaited.step (h : p.Step m p') (o : p.Orderly) (g : p.Documented) (ha : p.Awaited) :
    p'.Awaited ∨ (∃ d, p.Puts d p') ∨ p.Drops m ∧ p'.held = none := by
  obtain ⟨l, w, -⟩ := o
  cases h with
  | edit | recheck => exact .inl (.inl rfl)
  | close _ hc => exact .inr (.inr ⟨.inl hc, rfl⟩)
  | select _ hc => exact .inr (.inr ⟨.inr ⟨_, hc⟩, rfl⟩)
  | selectAndResolve _ hc => exact .inr (.inr ⟨.inr ⟨_, hc⟩, rfl⟩)
  | ripen hh =>
    refine .inl (.inr ?_)
    rcases ha with ha | ha | ha
    · rw [hh] at ha
      rw [Option.some.inj ha]
      exact .inl (List.mem_append_right _ (List.mem_singleton_self _))
    · exact .inl (List.mem_append_left _ ha)
    · exact .inr ha
  | lapse hk _ hn =>
    refine .inl (ha.imp_right (Or.imp_left fun hr => ?_))
    refine mem_eraseIdx_of_ne hk hr fun he => ?_
    exact w.reader_ne_of_mem_ripe hr (hn (by rw [← he]; exact fun h => by cases h))
  | parse hk hr _ hd => exact .inr (.inl ⟨_, puts_parse l g hk hr hd⟩)
  | parseLong =>
    exact .inl (.inr (.inr ⟨_, List.mem_append_right _ (List.mem_singleton_self _), rfl⟩))
  | ask clock hk =>
    exact .inl (ha.imp_right (Or.imp_left fun hr =>
      mem_eraseIdx_of_ne hk hr fun he => by cases he))
  | @look index pass r r' stage hk =>
    refine .inl (ha.imp_right (Or.imp_right ?_))
    rintro ⟨q, hq, ht⟩
    obtain ⟨k, hq⟩ := List.getElem?_of_mem hq
    by_cases he : index = k
    · rw [← he, hk] at hq
      refine ⟨{ pass with stage }, List.mem_iff_getElem?.2 ⟨index, ?_⟩, ?_⟩
      · rw [List.getElem?_set_self (List.getElem?_eq_some_iff.1 hk).1]
      · rw [← ht, ← Option.some.inj hq]
    · refine ⟨q, List.mem_iff_getElem?.2 ⟨k, ?_⟩, ht⟩
      rw [List.getElem?_set_ne he, hq]
  | @drop _ pass _ hk _ hne =>
    refine .inl (ha.imp_right (Or.imp_right ?_))
    rintro ⟨q, hq, ht⟩
    exact ⟨q, mem_eraseIdx_of_ne hk hq fun he => hne (by rw [← ht, he]), ht⟩
  | put hk hs ht => exact .inr (.inl ⟨_, puts_pass l w g hk hs ht⟩)
  | take a => exact .inl (by simpa only [Awaited, Input.text_taken] using ha)
  | install => exact .inl (by simpa only [Awaited, Input.text_resolve, Input.readied] using ha)
  | idle | reject | highlight | hover | discard => exact .inl ha

/-- The question whose answer is wanted stays open when another one is closed. -/
theorem Numbered.mem_eraseP (n : p.Numbered) {generation : Nat} {r r' : Request}
    (hf : p.request? generation = some r) (hw : p.input.wants r = false) (hr' : r' ∈ p.requests)
    (hw' : p.input.wants r' = true) : r' ∈ p.requests.eraseP (·.generation == generation) := by
  refine (List.mem_eraseP_of_neg fun he => ?_).2 hr'
  -- The generations are distinct, so the question that is closed would be the one that is wanted.
  have hg : r'.generation = r.generation := by
    rw [beq_iff_eq.1 he, beq_iff_eq.1 (List.find?_some hf :)]
  rw [List.inj_on_of_nodup_map n.nodup hr' (List.mem_of_find?_eq_some hf) hg, hw] at hw'
  cases hw'

/-- An answer is asked for until it is taken, a parse is awaited or ends, or an event closes or
selects. -/
theorem Asking.step (h : p.Step m p') (o : p.Orderly) (g : p.Documented) (ha : p.Asking) :
    p'.Asking ∨ p'.Awaited ∨ (∃ d, p.Puts d p') ∨ p.Takes m p' ∨ p.Drops m ∨
      p'.input = p.input ∧ p.input.phase = .error := by
  obtain ⟨l, w, n⟩ := o
  cases h with
  | edit | recheck => exact .inr (.inl (.inl rfl))
  | close _ hc => exact .inr (.inr (.inr (.inr (.inl (.inl hc)))))
  | select _ hc => exact .inr (.inr (.inr (.inr (.inl (.inr ⟨_, hc⟩)))))
  | selectAndResolve _ hc => exact .inr (.inr (.inr (.inr (.inl (.inr ⟨_, hc⟩)))))
  | install hn =>
    have u := w.before hn
    rcases ha with ha | ha | ⟨r, ha, -⟩
    · rw [u.held] at ha
      cases ha
    · rw [u.ripe] at ha
      cases ha
    · rw [u.requests] at ha
      cases ha
  | ripen hh =>
    refine .inl (.inr ?_)
    rcases ha with ha | ha | ha
    · rw [hh] at ha
      rw [Option.some.inj ha]
      exact .inl (List.mem_append_right _ (List.mem_singleton_self _))
    · exact .inl (List.mem_append_left _ ha)
    · exact .inr ha
  | @lapse _ a hk hf =>
    have hr := w.reader_ne_of_mem_ripe (List.mem_of_getElem? hk)
    by_cases hf' : a = .fetch
    · rcases hf hf' with hp | ht
      · exact .inr (.inr (.inr (.inr (.inr ⟨rfl, hp⟩))))
      · obtain ⟨k, -, hk⟩ := w.after hr
        rw [ht] at hk
        cases hk
    · exact .inl (ha.imp_right (Or.imp_left fun hm =>
        mem_eraseIdx_of_ne hk hm fun he => hf' he.symm))
  | parse hk hr _ hd => exact .inr (.inr (.inl ⟨_, puts_parse l g hk hr hd⟩))
  | parseLong =>
    exact .inr (.inl (.inr (.inr ⟨_, List.mem_append_right _ (List.mem_singleton_self _), rfl⟩)))
  | ask clock _ _ ht => exact .inl (asking_ask ht clock rfl rfl)
  | put hk hs ht => exact .inr (.inr (.inl ⟨_, puts_pass l w g hk hs ht⟩))
  | @discard generation r a hf hw =>
    refine .inl (ha.imp_right (Or.imp_right ?_))
    rintro ⟨r', hr', hw'⟩
    exact ⟨r', n.mem_eraseP hf hw hr' hw', hw'⟩
  | @take generation r a hf hw =>
    have hm := List.mem_of_find?_eq_some hf
    obtain ⟨hg, ht⟩ := g.eq_of_wants w hm hw
    exact .inr (.inr (.inr (.inl ⟨r, hf, hg, ht, rfl⟩)))
  | idle | reject | highlight | hover | look | drop => exact .inl ha

/-- The ways of a step that a user who only edits can bring about. -/
theorem Step.of_edits (h : p.Step m p') (o : p.Orderly) (g : p.Documented) (hr : p.reader ≠ none)
    (hm : ∀ event, m = .user event → event.edits = true) :
    p'.Awaited ∨ (∃ d, p.Puts d p') ∨ p.Takes m p' ∨
      (∃ hovering, p'.input = { p.input with hovering }) ∨
      p'.input = p.input.fetching ∧ p'.Asking ∧ p.input.phase ≠ .error := by
  obtain ⟨l, w, n⟩ := o
  cases h with
  | edit | recheck => exact .inl (.inl rfl)
  | install hn => exact absurd hn hr
  | reject _ hn => exact absurd hn hr
  | highlight _ _ he => rcases he with rfl | rfl <;> cases hm _ rfl
  | hover inside => exact .inr (.inr (.inr (.inl ⟨inside, rfl⟩)))
  | close _ hc => rw [UserEvent.closes_of_edits (hm _ rfl)] at hc; cases hc
  | select _ hc => rw [p.input.chooses_of_edits (hm _ rfl)] at hc; cases hc
  | selectAndResolve _ hc => rw [p.input.chooses_of_edits (hm _ rfl)] at hc; cases hc
  | parse hk hr _ hd => exact .inr (.inl ⟨_, puts_parse l g hk hr hd⟩)
  | parseLong =>
    exact .inl (.inr (.inr ⟨_, List.mem_append_right _ (List.mem_singleton_self _), rfl⟩))
  | ask clock _ hp ht => exact .inr (.inr (.inr (.inr ⟨rfl, asking_ask ht clock rfl rfl, hp⟩)))
  | put hk hs ht => exact .inr (.inl ⟨_, puts_pass l w g hk hs ht⟩)
  | @take generation r a hf hw =>
    have hm := List.mem_of_find?_eq_some hf
    obtain ⟨hg, ht⟩ := g.eq_of_wants w hm hw
    exact .inr (.inr (.inl ⟨r, hf, hg, ht, rfl⟩))
  | idle | ripen | lapse | look | drop | discard => exact .inr (.inr (.inr (.inl ⟨_, rfl⟩)))

theorem not_drops_of_edits (hm : ∀ event, m = .user event → event.edits = true) :
    ¬ p.Drops m := by
  cases m with
  | user event =>
    rintro (hc | ⟨_, hc⟩)
    · rw [UserEvent.closes_of_edits (hm _ rfl)] at hc
      cases hc
    · rw [p.input.chooses_of_edits (hm _ rfl)] at hc
      cases hc
  | _ => exact id

end Parts

/-- At rest no parse is awaited. -/
theorem Course.Quiet.not_awaited {c : Course} (h : c.Quiet) : ¬ c.parts.Awaited := by
  rintro (ha | ha | ⟨q, ha, -⟩)
  · rw [show c.parts.held = none from h.held] at ha
    cases ha
  · rw [show c.parts.ripe = [] from h.ripe] at ha
    cases ha
  · rw [show c.parts.passes = [] from h.passes] at ha
    cases ha

/-- At rest no answer is. -/
theorem Course.Quiet.not_asking {c : Course} (h : c.Quiet) : ¬ c.parts.Asking := by
  rintro (ha | ha | ⟨r, ha, -⟩)
  · rw [show c.parts.held = none from h.held] at ha
    cases ha
  · rw [show c.parts.ripe = [] from h.ripe] at ha
    cases ha
  · rw [show c.parts.requests = [] from h.requests] at ha
    cases ha

/-- A parse that an event holds back is awaited. -/
theorem Course.awaited_of_schedules {c : Course} {m : Move} (hs : c.Schedules m) :
    (c.perform m).parts.Awaited := by
  cases m with
  | user event =>
    have hu := c.editor.prompted_handle hs
    change Parts.Awaited (Course.parts ⟨(c.editor.handle event).1, c.ripe⟩)
    generalize (c.editor.handle event).1 = e' at hu ⊢
    cases hu <;> exact .inl rfl
  | _ => cases hs

end Typeahead
