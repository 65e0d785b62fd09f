import Typeahead.Proofs.Editor.Progress

/-!
# A closed panel

An event that closes the panel, or selects, drops what is held back and outdates every question. Of
what is to come, one thing it cannot drop: a parse that a pass has begun.

- **Closed** (`Input.Closed`): nothing is shown and nothing is loading. So is the field after such
  an event (`Parts.Step.still`), which is told by its new generation
  (`Course.Closes.generation_lt`).
- **Shut** (`Parts.Shut`): nothing is to come that could open the panel. Only an edit changes that
  (`Parts.Shut.step`), and without one the source is not asked (`Course.asked_perform`).
- **Opened again** (`Course.Run.reopens`): a pass for the present text that finds no faults leads to
  a question, and the panel opens for it.

So a closed panel stays closed just when no such pass was going on (`Course.Run.stays_closed`).
-/

namespace Typeahead

namespace Input

variable {i : Input}

/-- Nothing is shown, and nothing is loading. -/
structure Closed (i : Input) : Prop where
  panelOpen : i.panelOpen = false
  candidates : i.candidates = []
  loading : i.loading = false

theorem closed_closePanel : i.closePanel.Closed := ⟨rfl, rfl, rfl⟩

/-- A document does not open the panel. -/
theorem Closed.resolve (h : i.Closed) (d : Document) (silent : Bool) :
    (i.resolve d silent).Closed := by
  unfold Input.resolve
  split
  · exact closed_closePanel
  · exact { h with }

end Input

/-- A parse leaves the generation, or begins one. -/
theorem Editor.generation_le_resolveNow (e : Editor) (silent : Bool) :
    e.input.generation ≤ (e.resolveNow silent).input.generation := by
  cases hr : e.reader with
  | none => exact Nat.le_of_eq (by rw [resolveNow, hr])
  | some r =>
    rw [input_resolveNow hr]
    rcases e.input.panel_resolve (r.read e.input.text).1 silent with h | ⟨h, -⟩
    · exact Nat.le_of_lt h
    · exact Nat.le_of_eq h.symm

namespace Parts

variable {p p' : Parts} {m : Move} {backend : Backend}

/-- A new generation, begun by an event: the panel has been closed, and what was held back dropped.
Passes go on. -/
theorem Step.still {event : UserEvent} (h : p.Step (.user event) p')
    (hg : p.input.generation < p'.input.generation) (n : p.Numbered) (hr : p.reader ≠ none)
    (hp : p.ripe = []) : p'.Still ∧ p'.input.Closed ∧ p'.passes = p.passes := by
  have le : ∀ {i : Input}, p.input.generation < i.generation →
      ∀ r ∈ p.requests, r.generation < i.generation :=
    fun hi r hm => Nat.lt_of_le_of_lt (n.le r hm) hi
  cases h with
  | idle | edit | recheck | highlight | hover => exact absurd hg (Nat.lt_irrefl _)
  | close | select =>
    exact ⟨⟨hr, rfl, hp, rfl, le hg⟩, Input.closed_closePanel, rfl⟩
  | @selectAndResolve _ candidate k _ _ d =>
    have hc : (p.chosen k candidate).Closed := Input.closed_closePanel
    have hc := hc.resolve d true
    exact ⟨⟨fun h => (by cases h), rfl, hp, hc.candidates, le hg⟩, hc, rfl⟩

/-- Nothing is to come that could open the panel. -/
structure Shut (backend : Backend) (p : Parts) : Prop extends p.Still where
  closed : p.input.Closed
  backend_eq : ∀ r, p.reader = some r → r.backend = backend
  passes : ∀ q ∈ p.passes, q.text = p.input.text →
    (Tree.ofReading q.text (backend.read q.text)).faults ≠ []

/-- The tree of a pass that is done is the tree of its text. -/
theorem Documented.tree_eq (g : p.Documented) {r : Reader} {q : Pass} {d : Document}
    (hr : p.reader = some r) (hq : q ∈ p.passes) (hs : q.stage = .done d) :
    d.tree = r.treeOf q.text := by
  obtain ⟨_, -, hm⟩ := g r hr
  exact (hm.passes q hq d hs).2

/-- Only an edit can open the panel. -/
theorem Shut.step (h : p.Step m p') (hm : p.prompts m = false) (g : p.Documented)
    (k : p.Shut backend) : p'.Shut backend := by
  have hb := h.backend_eq g k.backend_eq fun r _ hn => absurd hn k.reader
  rcases k.toStill.step_cases h hm with
    ⟨_, _, _, _, _, hr, hp, hq, rfl⟩ | rfl | ⟨_, q, d, hq, hs, ht, rfl⟩
  · refine ⟨⟨hr, k.held, k.ripe, k.candidates, fun r hm => k.requests r (hq hm)⟩,
      { k.closed with }, hb, fun q hm ht => ?_⟩
    obtain ⟨q', hm', he⟩ := hp q hm
    rw [← he]
    exact k.passes q' hm' (he.trans ht)
  · exact ⟨⟨k.reader, rfl, k.ripe, rfl, fun r hr => Nat.lt_succ_of_lt (k.requests r hr)⟩,
      Input.closed_closePanel, hb, k.passes⟩
  · -- The pass that ends is for a faulty text, so no question follows.
    have hq := List.mem_of_getElem? hq
    obtain ⟨r, hr⟩ := Option.ne_none_iff_exists'.1 k.reader
    have hf : d.tree.faults ≠ [] := by
      rw [g.tree_eq hr hq hs, Reader.treeOf, k.backend_eq r hr]
      exact k.passes q hq ht.symm
    have hc := k.closed.resolve d q.silent
    refine ⟨⟨k.reader, ?_, k.ripe, hc.candidates, fun r hm => ?_⟩, hc, hb, fun q hm ht => ?_⟩
    · rw [heldAfter, if_pos (by simp [hf])]
      exact k.held
    · have := k.requests r hm
      rcases p.input.panel_resolve d q.silent with hg | ⟨hg, -⟩
      · exact Nat.lt_trans this hg
      · exact Nat.lt_of_lt_of_eq this hg.symm
    · rw [Input.text_resolve] at ht
      exact k.passes q (List.mem_of_mem_eraseIdx hm) ht

end Parts

namespace Course

variable {allowed : Course → Move → Prop} {settings : Settings} {limit : Option Nat}
  {listening : Bool} {history : History} {c first : Course} {m : Move}

/-- The event closes the panel, or puts a candidate into the field. -/
def Closes (c : Course) (event : UserEvent) : Prop :=
  event.closes = true ∧ (event = .blur → c.editor.input.hovering = false) ∨
    (c.editor.handle event).2.isSome = true

/-- Nothing is typed, and the caret is not moved. -/
def Undisturbed (_ : Course) : Move → Prop
  | .user (.text _) | .user (.caret _) | .user .left | .user .right => False
  | _ => True

theorem Undisturbed.prompts_eq (h : Undisturbed c m) : c.parts.prompts m = false := by
  cases m with
  | user event => cases event <;> first | rfl | exact h.elim
  | _ => rfl

/-- To close begins a generation. -/
theorem Closes.generation_lt {event : UserEvent} (h : c.Closes event) :
    c.editor.input.generation < (c.perform (.user event)).editor.input.generation := by
  change _ < (c.editor.handle event).1.input.generation
  rcases h with ⟨hc, hb⟩ | hs
  · have he : (c.editor.handle event).1 = c.editor.close := by
      cases event with
      | blur => simp only [Editor.handle, hb rfl, Bool.false_eq_true, if_false]
      | escape | close => rfl
      | _ => cases hc
    rw [he]
    exact Nat.lt_succ_self _
  · obtain ⟨s, hs⟩ := Option.isSome_iff_exists.1 hs
    obtain ⟨candidate, i, -, hi, he⟩ := c.editor.selected_handle hs
    have hg : c.editor.input.generation < i.generation := by
      obtain ⟨-, _, -, -, -, rfl⟩ := Input.substitute?_eq_some _ hi
      exact Nat.lt_succ_self _
    have hin : (c.editor.replace i s).input = i := (c.editor.replace_keeps i s).1
    rw [he, c.editor.select_eq hi]
    dsimp only
    split
    · exact Nat.lt_of_lt_of_le (by rwa [hin]) (Editor.generation_le_resolveNow _ true)
    · rwa [hin]

/-- Only a ripe question is asked. -/
theorem asked_perform (h : ∀ index, m = .begin index → c.ripe[index]? ≠ some .fetch) :
    (c.perform m).editor.asked = c.editor.asked := by
  cases m with
  | compiled result =>
    cases result with
    | error => rfl
    | ok r => exact Editor.asked_resolveNow ..
  | user event => exact Editor.asked_handle ..
  | ripen =>
    simp only [perform]
    split <;> rfl
  | begin index =>
    cases ha : c.ripe[index]? with
    | none => simp only [perform, ha]
    | some a =>
      cases a with
      | fetch => exact absurd ha (h index rfl)
      | resolve silent =>
        simp only [perform, ha]
        exact Editor.asked_resolve ..
  | advance index => exact Editor.asked_advance ..
  | answer generation a => exact Editor.asked_answer ..
  | wait | reap => rfl

/-- What is shut stays shut, and nothing is asked, until something is typed or the caret moved. -/
theorem Run.shut {backend : Backend} (h : Run Undisturbed first history c)
    (o : first.parts.Orderly) (g : first.parts.Documented) (k : first.parts.Shut backend) :
    c.parts.Shut backend ∧ c.editor.asked = first.editor.asked := by
  have := h.invariant
    (I := fun c => c.parts.Orderly ∧ c.parts.Documented ∧ c.parts.Shut backend ∧
      c.editor.asked = first.editor.asked) ⟨o, g, k, rfl⟩ fun c m ⟨o, g, k, ha⟩ had hu => by
    have hs := c.step_parts had
    refine ⟨o.step hs, g.step hs o.prepared, k.step hs hu.prompts_eq g, ?_⟩
    rw [asked_perform fun index _ hi => ?_, ha]
    rw [show c.ripe = [] from k.ripe] at hi
    cases hi
  exact this.2.2

/-- A pass for the present text that finds no faults opens the panel, for a new question. -/
theorem Run.reopens {r : Reader} {q : Pass} (o : c.parts.Orderly) (g : c.parts.Documented)
    (k : c.parts.Still) (hr : c.editor.reader = some r) (hq : q ∈ c.editor.passes)
    (ht : q.text = c.editor.input.text) (hf : (r.treeOf q.text).faults = []) :
    ∃ later c' question, Run Undisturbed c later c' ∧ c'.editor.input.panelOpen = true ∧
      c'.editor.requests = c.editor.requests ++ [question] := by
  obtain ⟨index, hi⟩ := List.getElem?_of_mem hq
  have here : Run Undisturbed c [] c := .start
  obtain ⟨_, c₁, r₁, passes, d, h₁, hb, e₁, hp, -⟩ :=
    here.complete (p := c.parts) rfl hr hi fun _ => trivial
  have hd : d.tree.faults = [] := by
    have := (h₁.keeps o g).2.tree_eq (r := r₁) (by rw [e₁])
      (by rw [e₁]; exact List.mem_of_getElem? hp) rfl
    rw [this, Reader.treeOf, hb]
    exact hf
  have h₂ := h₁.step (.advance index) trivial trivial
  have e₂ := parts_advance_put e₁ rfl hp rfl ht.symm
  have hs : q.silent = false := o.loud.passes q hq
  simp only [Parts.heldAfter, hs, hd, Input.resolve_of_faults_nil _ hd] at e₂
  have h₃ := h₂.step .ripen trivial trivial
  have e₃ := parts_ripen e₂ rfl
  rw [k.ripe] at e₃
  have h₄ := h₃.step (.begin 0) trivial trivial
  obtain ⟨clock, e₄⟩ := parts_ask e₃ rfl (fun h => by cases h) rfl
  exact ⟨_, _, _, h₄, congrArg (fun p => p.input.panelOpen) e₄, congrArg Parts.requests e₄⟩

/-- **Closing.** An event that closes the panel or selects leaves nothing shown. Until something is
typed or the caret moved it stays so, and the source is not asked, unless a parse of the text that
the event leaves was going on, and the text has no faults. -/
theorem Run.stays_closed {event : UserEvent} {r : Reader}
    (h : Run allowed (fresh settings limit listening) history c) (hr : c.editor.reader = some r)
    (hp : c.ripe = []) (hc : c.Closes event) :
    (c.perform (.user event)).editor.input.Closed ∧
      ((∀ later c', Run Undisturbed (c.perform (.user event)) later c' →
          c'.editor.input.Closed ∧ c'.editor.asked = c.editor.asked) ↔
        ∀ q ∈ c.editor.passes, q.text = (c.perform (.user event)).editor.input.text →
          (r.treeOf q.text).faults ≠ []) := by
  have o := h.orderly
  have g := h.documented
  have hs := c.step_user event
  obtain ⟨k, hcl, hps⟩ := hs.still hc.generation_lt o.numbered
    (by rw [show c.parts.reader = some r from hr]; exact fun h => by cases h) hp
  have hb : ∀ r', (c.perform (.user event)).parts.reader = some r' → r'.backend = r.backend :=
    hs.backend_eq g (fun r' hr' => by rw [Option.some.inj (hr.symm.trans hr')])
      fun _ hm => by cases hm
  have o' := o.step hs
  have g' := g.step hs o.prepared
  refine ⟨hcl, fun hall q hq ht hf => ?_, fun hall later c' run => ?_⟩
  · obtain ⟨r', hr'⟩ := Option.ne_none_iff_exists'.1 k.reader
    have hq : q ∈ (c.perform (.user event)).editor.passes := by
      rwa [show (c.perform (.user event)).editor.passes = c.editor.passes from hps]
    rw [Reader.treeOf, ← hb r' hr'] at hf
    obtain ⟨later, c', _, run, ho, -⟩ := Run.reopens o' g' k hr' hq ht hf
    rw [(hall later c' run).1.panelOpen] at ho
    cases ho
  · have hshut : (c.perform (.user event)).parts.Shut r.backend :=
      ⟨k, hcl, hb, fun q hq ht => hall q (by rwa [← show _ = c.editor.passes from hps]) ht⟩
    obtain ⟨hshut', hasked⟩ := run.shut o' g' hshut
    refine ⟨hshut'.closed, hasked.trans ?_⟩
    exact asked_perform fun _ hm => by cases hm

/-- A question is open when the panel is closed: its answer comes in vain. -/
theorem Run.stays_closed_escape : ∃ history c, Run Anything (fresh {} none false) history c ∧
    c.editor.input.panelOpen = true ∧ c.editor.requests ≠ [] ∧
    ∀ later c', Run Undisturbed (c.perform (.user .escape)) later c' →
      c'.editor.input.Closed ∧ c'.editor.asked = c.editor.asked := by
  obtain ⟨moves, c, clock, run, -, -, e⟩ := Run.ready.ask "a" rfl
    (fun _ => ⟨trivial, trivial, trivial⟩) rfl rfl (by decide) (by decide) rfl rfl rfl
  have hr : c.editor.reader = some _ := congrArg Parts.reader e
  have hq : c.editor.requests = [_] := congrArg Parts.requests e
  refine ⟨_, c, run, congrArg (fun p => p.input.panelOpen) e, ?_, ?_⟩
  · rw [hq]
    exact List.cons_ne_nil _ _
  · have hc : c.Closes .escape := .inl ⟨rfl, fun h => by cases h⟩
    refine (run.stays_closed hr (congrArg Parts.ripe e) hc).2.2 fun q hq => ?_
    rw [show c.editor.passes = [] from congrArg Parts.passes e] at hq
    cases hq

/-- A long text is being parsed when the panel is closed: the panel opens again. -/
theorem Run.reopens_escape : ∃ history c later c', Run Anything (fresh {} none false) history c ∧
    c.ripe = [] ∧ c.Closes .escape ∧ Run Undisturbed (c.perform (.user .escape)) later c' ∧
    c'.editor.input.panelOpen = true ∧ c.editor.requests = [] ∧ c'.editor.requests ≠ [] := by
  obtain ⟨long, hl⟩ : ∃ long : String, ¬ long.utf8ByteSize < Editor.longText :=
    ⟨_, not_replicate_lt_longText⟩
  have hn : "" ≠ long := fun h => hl (h ▸ by decide)
  obtain ⟨_, c, run, e⟩ := Run.ready.pass rfl rfl long (fun _ => ⟨trivial, trivial, trivial⟩) rfl rfl
    hn hl
  have o := run.orderly
  have hs := c.step_user .escape
  have hp : c.ripe = [] := congrArg Parts.ripe e
  have hc : c.Closes .escape := .inl ⟨rfl, fun h => by cases h⟩
  have hr : c.editor.reader = some _ := congrArg Parts.reader e
  obtain ⟨k, -, -⟩ := hs.still hc.generation_lt o.numbered
    (by rw [show c.parts.reader = some _ from hr]; exact fun h => by cases h) hp
  have hq : c.editor.passes = [_] := congrArg Parts.passes e
  obtain ⟨later, c', question, run', ho, he⟩ := Run.reopens (o.step hs)
    (run.documented.step hs o.prepared) k hr (hq ▸ List.mem_singleton_self _)
    (congrArg (fun p => p.input.text) e).symm rfl
  refine ⟨_, c, later, c', run, hp, hc, run', ho, congrArg Parts.requests e, ?_⟩
  rw [he]
  exact List.append_ne_nil_of_right_ne_nil _ (List.cons_ne_nil _ _)

end Course

end Typeahead
