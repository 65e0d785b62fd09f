import Typeahead.Proofs.Editor.Closing

/-!
# What the panel shows

Candidates and the sign that they are loading belong to an open panel; while the source is asked
there is a question about the target whose answer will be taken; and a faulty text shows its fault
and nothing else. About fifteen operations write the fields that say so, each some of them.

- **The field** (`Input.Coherent`): what one look at it shows. Every operation keeps this, but for
  candidates that come: they need an open panel (`Coherent.taken`). It is open, as only a question of
  the present generation is answered (`Parts.Numbered.panelOpen`).
- **The question** (`Parts.Step.fetching`): it stays open for as long as the phase is `fetching`.
- **Every run** (`Course.Run.consistent`).
-/

namespace Typeahead

namespace Input

variable {i : Input}

/-- What is shown agrees with what is being done. -/
structure Coherent (i : Input) : Prop where
  loading : i.loading = true → i.panelOpen = true
  candidates : i.candidates ≠ [] → i.panelOpen = true
  fetching : i.phase = .fetching → i.loading = true
  closed : i.phase = .initializing ∨ i.phase = .error →
    i.panelOpen = false ∧ i.candidates = [] ∧ i.loading = false
  error : i.phase = .error → i.error ≠ none
  active : i.active < i.candidates.length ∨ i.candidates = [] ∧ i.active = 0

theorem active_zero (candidates : List String) :
    0 < candidates.length ∨ candidates = [] ∧ 0 = 0 := by
  cases candidates with
  | nil => exact .inr ⟨rfl, rfl⟩
  | cons => exact .inl (Nat.succ_pos _)

/-- A closed panel is coherent, if a fault is there to be shown. -/
theorem Closed.coherent (h : i.Closed) (ha : i.active = 0) (hf : i.phase ≠ .fetching)
    (he : i.phase = .error → i.error ≠ none) : i.Coherent where
  loading hl := by
    rw [h.loading] at hl
    cases hl
  candidates hc := absurd h.candidates hc
  fetching hp := absurd hp hf
  closed _ := ⟨h.panelOpen, h.candidates, h.loading⟩
  error := he
  active := .inr ⟨h.candidates, ha⟩

theorem Coherent.closePanel (k : i.Coherent) : i.closePanel.Coherent :=
  closed_closePanel.coherent rfl calm_closePanel.fetching
    fun hp => k.error (phase_of_closePanel hp (by decide))

theorem Coherent.resolve (k : i.Coherent) (d : Document) (silent : Bool) :
    (i.resolve d silent).Coherent := by
  unfold Input.resolve
  split
  · refine closed_closePanel.coherent rfl (fun h => ?_) fun _ h => ?_ <;> cases h
  · have hp : ∀ phase : Phase, phase = .initializing ∨ phase = .error ∨ phase = .fetching →
        (if silent then .idle else .resolving) ≠ phase := by
      rintro _ (rfl | rfl | rfl) <;> cases silent <;> exact fun h => by cases h
    exact {
      loading := k.loading
      candidates := k.candidates
      fetching := fun h => absurd h (hp _ (.inr (.inr rfl)))
      closed := fun h => h.elim (fun h => absurd h (hp _ (.inl rfl)))
        fun h => absurd h (hp _ (.inr (.inl rfl)))
      error := fun h => absurd h (hp _ (.inr (.inl rfl)))
      active := active_zero _ }

theorem Coherent.parsing (k : i.Coherent) : i.parsing.Coherent where
  loading := k.loading
  candidates := k.candidates
  fetching h := by cases h
  closed h := by rcases h with h | h <;> cases h
  error h := by cases h
  active := k.active

theorem Coherent.asked (k : i.Coherent) : i.fetching.Coherent where
  loading _ := rfl
  candidates _ := rfl
  fetching _ := rfl
  closed h := by rcases h with h | h <;> cases h
  error h := by cases h
  active := k.active

/-- An answer comes while the panel is open. -/
theorem Coherent.taken (ho : i.panelOpen = true) (s : Settings) (limit : Option Nat) (r : Request)
    (a : Answer) : (i.taken s limit r a).Coherent := by
  cases a with
  | ok candidates => exact {
      loading := fun h => by cases h
      candidates := fun _ => ho
      fetching := fun h => by cases h
      closed := fun h => by rcases h with h | h <;> cases h
      error := fun h => by cases h
      active := active_zero _ }
  | error message =>
    simp only [Input.taken, fail]
    split <;> exact Closed.coherent ⟨rfl, rfl, rfl⟩ rfl (fun h => (by cases h)) fun h => by cases h

/-- A highlight that moves stays on a candidate, if there is one. -/
theorem Coherent.up (k : i.Coherent) : i.up.Coherent := by
  refine { k with active := ?_ }
  rcases k.active with h | ⟨hc, ha⟩
  · exact .inl (Nat.lt_of_le_of_lt (Nat.sub_le _ _) h)
  · exact .inr ⟨hc, by rw [Input.up, ha]⟩

theorem Coherent.down (k : i.Coherent) : i.down.Coherent := by
  refine { k with active := ?_ }
  rcases k.active with h | ⟨hc, ha⟩
  · refine .inl ?_
    simp only [Input.down]
    omega
  · exact .inr ⟨hc, by simp only [Input.down, hc, List.length_nil, Nat.zero_sub, Nat.min_zero]⟩

end Input

namespace Parts

variable {p p' : Parts} {m : Move}

/-- Whatever moves, but for the highlight, the field stays coherent. -/
theorem Step.coherent (h : p.Step m p') (w : p.Prepared) (n : p.Numbered)
    (hm : m ≠ .user .up ∧ m ≠ .user .down) (k : p.input.Coherent) : p'.input.Coherent := by
  cases h with
  | install => exact Input.Coherent.resolve (i := p.input.readied) { k with } _ _
  | reject error hr =>
    have hc := k.closed (w.before hr).phase
    exact { k with
      fetching := fun h => by cases h
      closed := fun _ => hc
      error := fun _ h => by cases h }
  | edit | hover => exact { k with }
  | highlight _ _ he => rcases he with rfl | rfl <;> simp at hm
  | close => exact k.closePanel
  | @select _ candidate n =>
    exact Input.Coherent.closePanel (i := { p.input with text := _, caret := _ }) { k with }
  | @selectAndResolve _ candidate n =>
    have hc : (p.chosen n candidate).Coherent :=
      Input.Coherent.closePanel (i := { p.input with text := _, caret := _ }) { k with }
    exact hc.resolve _ _
  | parse | put => exact k.resolve _ _
  | parseLong => exact k.parsing
  | ask => exact k.asked
  | take a hf hw =>
    refine Input.Coherent.taken (n.panelOpen _ (List.mem_of_find?_eq_some hf) ?_) _ _ _ a
    simp only [Input.wants, Bool.and_eq_true, beq_iff_eq] at hw
    exact hw.1.symm
  | _ => exact k

/-- While the phase is `fetching` there is a question whose answer is wanted. -/
theorem Step.fetching (h : p.Step m p') (n : p.Numbered)
    (k : p.input.phase = .fetching → ∃ r ∈ p.requests, p.input.wants r = true) :
    p'.input.phase = .fetching → ∃ r ∈ p'.requests, p'.input.wants r = true := by
  intro hp
  cases h with
  | install | selectAndResolve | parse | put =>
    exact absurd hp (Input.phase_resolve_ne _ _ (by decide))
  | reject | parseLong => cases hp
  | close | select => exact absurd hp Input.calm_closePanel.fetching
  | @ask _ t clock _ _ ht =>
    refine ⟨⟨p.input.generation + 1, t, clock⟩,
      List.mem_append_right _ (List.mem_singleton_self _), ?_⟩
    simp only [Input.wants, Input.fetching, ht, beq_self_eq_true, Bool.true_and]
    exact t.beq_self
  | discard a hf hw =>
    obtain ⟨r, hr, hw'⟩ := k hp
    exact ⟨r, n.mem_eraseP hf hw hr hw', hw'⟩
  | take a => exact absurd hp (Input.calm_taken ..).fetching
  | _ => exact k hp

end Parts

namespace Course

variable {allowed : Course → Move → Prop} {settings : Settings} {limit : Option Nat}
  {listening : Bool} {history : History} {c : Course} {m : Move}

theorem coherent_perform (had : c.Admits m) (o : c.parts.Orderly)
    (k : c.editor.input.Coherent) : (c.perform m).editor.input.Coherent := by
  by_cases hu : m = .user .up
  · subst hu
    simp only [perform, Editor.handle, Editor.highlight]
    split
    · exact k.up
    · exact k
  by_cases hd : m = .user .down
  · subst hd
    simp only [perform, Editor.handle, Editor.highlight]
    split
    · exact k.down
    · exact k
  exact (c.step_parts had).coherent o.prepared o.numbered ⟨hu, hd⟩ k

/-- Panel, phase and questions agree. -/
structure Consistent (c : Course) : Prop where
  loading : c.editor.input.loading = true → c.editor.input.panelOpen = true
  candidates : c.editor.input.candidates ≠ [] → c.editor.input.panelOpen = true
  fetching : c.editor.input.phase = .fetching → c.editor.input.loading = true ∧
    ∃ r ∈ c.editor.requests, r.generation = c.editor.input.generation ∧
      c.editor.input.target = some r.target
  error : c.editor.input.phase = .error → c.editor.input.panelOpen = false ∧
    c.editor.input.candidates = [] ∧ c.editor.input.loading = false ∧ c.editor.input.error ≠ none
  active : c.editor.input.active < c.editor.input.candidates.length ∨
    c.editor.input.candidates = [] ∧ c.editor.input.active = 0

theorem Run.coherent (h : Run allowed (fresh settings limit listening) history c) :
    c.editor.input.Coherent := by
  induction h with
  | start => exact Input.Closed.coherent ⟨rfl, rfl, rfl⟩ rfl (fun h => by cases h) fun h => by cases h
  | step m h had _ ih => exact coherent_perform had h.orderly ih

theorem Run.fetching (h : Run allowed (fresh settings limit listening) history c) :
    c.editor.input.phase = .fetching →
      ∃ r ∈ c.editor.requests, c.editor.input.wants r = true := by
  induction h with
  | start => exact fun h => by cases h
  | step m h had _ ih => exact (Course.step_parts _ had).fetching h.orderly.numbered ih

/-- **Consistency.** In every run panel, phase and questions agree at any time. -/
theorem Run.consistent (h : Run allowed (fresh settings limit listening) history c) :
    c.Consistent where
  loading := h.coherent.loading
  candidates := h.coherent.candidates
  fetching hp := by
    refine ⟨h.coherent.fetching hp, ?_⟩
    obtain ⟨r, hr, hw⟩ := h.fetching hp
    exact ⟨r, hr, h.documented.eq_of_wants h.orderly.prepared hr hw⟩
  error hp := by
    obtain ⟨ho, hc, hl⟩ := h.coherent.closed (.inr hp)
    exact ⟨ho, hc, hl, h.coherent.error hp⟩
  active := h.coherent.active

/-- A question is on its way. -/
theorem Run.consistent_asked : ∃ history c, Run Anything (fresh {} none false) history c ∧
    c.editor.input.phase = .fetching ∧ c.Consistent := by
  obtain ⟨moves, c, clock, run, -, -, e⟩ := Run.ready.ask "a" rfl
    (fun _ => ⟨trivial, trivial, trivial⟩) rfl rfl (by decide) (by decide) rfl rfl rfl
  exact ⟨_, c, run, congrArg (fun p => p.input.phase) e, run.consistent⟩

end Course

end Typeahead
