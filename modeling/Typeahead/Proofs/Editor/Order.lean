import Typeahead.Proofs.Editor.Step

/-!
# What holds in every run

Three laws of the parts, each kept by every step.

- **Nothing silent waits** (`Parts.Loud`). A silent parse is one that an installation or a selection
  does at once; what is held back, ripe or in a pass is to lead to a question.
- **Nothing happens without a reader** (`Parts.Prepared`). Before the reader has come there is no
  document and no target, and nothing waits; from then on there are both.
- **Questions are told apart** (`Parts.Numbered`). Each has a generation of its own, none is ahead
  of the field, and while one of the present generation is open so is the panel.
-/

namespace Typeahead

namespace Input

variable (i : Input)

@[simp] theorem ready_resolve (d : Document) (silent : Bool) :
    (i.resolve d silent).ready = i.ready := by
  unfold resolve
  split <;> rfl

@[simp] theorem ready_taken (s : Settings) (limit : Option Nat) (r : Request) (a : Answer) :
    (i.taken s limit r a).ready = i.ready := by
  cases a with
  | ok => rfl
  | error =>
    simp only [taken, fail]
    split <;> rfl

/-- The document becomes that of the field, and the target is a node of it. -/
theorem document_resolve (d : Document) (silent : Bool) :
    (i.resolve d silent).document = some d ∧
      ∃ n, (i.resolve d silent).target = some n ∧ n.document = d := by
  unfold resolve
  split
  · exact ⟨rfl, .root d, rfl, rfl⟩
  · exact ⟨rfl, .under d i.caret, rfl, rfl⟩

/-- An answer leaves document and target. -/
theorem document_taken (s : Settings) (limit : Option Nat) (r : Request) (a : Answer) :
    (i.taken s limit r a).document = i.document ∧ (i.taken s limit r a).target = i.target := by
  cases a with
  | ok => exact ⟨rfl, rfl⟩
  | error =>
    simp only [taken, fail]
    split <;> exact ⟨rfl, rfl⟩

/-- Where the document is faulty the panel is closed, and every question is outdated; else neither
changes. -/
theorem panel_resolve (d : Document) (silent : Bool) :
    i.generation < (i.resolve d silent).generation ∨
      (i.resolve d silent).generation = i.generation ∧
        (i.resolve d silent).panelOpen = i.panelOpen := by
  unfold resolve
  split
  · exact .inl (Nat.lt_succ_self _)
  · exact .inr ⟨rfl, rfl⟩

theorem panel_taken (s : Settings) (limit : Option Nat) (r : Request) (a : Answer) :
    i.generation < (i.taken s limit r a).generation ∨
      (i.taken s limit r a).generation = i.generation ∧
        (i.taken s limit r a).panelOpen = i.panelOpen := by
  cases a with
  | ok => exact .inr ⟨rfl, rfl⟩
  | error =>
    simp only [taken, fail]
    split <;> exact .inl (Nat.lt_succ_self _)

end Input

namespace Parts

variable {p p' : Parts} {m : Move}

/-! ## Nothing silent waits -/

/-- Nothing silent is held back, ripe or in a pass. -/
structure Loud (p : Parts) : Prop where
  held : p.held ≠ some (.resolve true)
  ripe : .resolve true ∉ p.ripe
  passes : ∀ q ∈ p.passes, q.silent = false

/-- What is held back after a parse is not silent, if it was not before. -/
theorem heldAfter_ne (h : p.held ≠ some (.resolve true)) (d : Document) (silent : Bool) :
    p.heldAfter d silent ≠ some (.resolve true) := by
  unfold heldAfter
  split
  · exact h
  · exact fun h => by cases h

theorem Loud.step (h : p.Step m p') (l : p.Loud) : p'.Loud := by
  obtain ⟨hh, hr, hp⟩ := l
  have erased : ∀ index, .resolve true ∉ p.ripe.eraseIdx index :=
    fun index hm => hr (List.mem_of_mem_eraseIdx hm)
  cases h with
  | edit | recheck => exact ⟨fun h => (by cases h), hr, hp⟩
  | close | select | selectAndResolve => exact ⟨fun h => (by cases h), hr, hp⟩
  | @ripen a ha =>
    refine ⟨fun h => (by cases h), fun hm => ?_, hp⟩
    rcases List.mem_append.1 hm with hm | hm
    · exact hr hm
    · rw [List.mem_singleton.1 hm] at hh
      exact hh ha
  | lapse => exact ⟨hh, erased _, hp⟩
  | parse => exact ⟨heldAfter_ne hh _ _, erased _, hp⟩
  | @parseLong _ silent _ hm =>
    refine ⟨hh, erased _, fun q hq => ?_⟩
    rcases List.mem_append.1 hq with hq | hq
    · exact hp q hq
    · rw [List.mem_singleton.1 hq]
      cases silent with
      | false => rfl
      | true => exact absurd (List.mem_of_getElem? hm) hr
  | ask => exact ⟨hh, erased _, hp⟩
  | @look _ pass _ _ _ hm =>
    refine ⟨hh, hr, fun q hq => ?_⟩
    rcases List.mem_or_eq_of_mem_set hq with hq | rfl
    · exact hp q hq
    · exact hp pass (List.mem_of_getElem? hm)
  | drop => exact ⟨hh, hr, fun q hq => hp q (List.mem_of_mem_eraseIdx hq)⟩
  | put => exact ⟨heldAfter_ne hh _ _, hr, fun q hq => hp q (List.mem_of_mem_eraseIdx hq)⟩
  | _ => exact ⟨hh, hr, hp⟩

/-! ## Nothing happens without a reader -/

/-- Nothing waits, nothing is known, and nothing is shown. -/
structure Untouched (p : Parts) : Prop where
  held : p.held = none
  ripe : p.ripe = []
  passes : p.passes = []
  requests : p.requests = []
  document : p.input.document = none
  target : p.input.target = none
  candidates : p.input.candidates = []
  loading : p.input.loading = false
  phase : p.input.phase = .initializing ∨ p.input.phase = .error

/-- Before the reader has come nothing happens; from then on there is a target. -/
structure Prepared (p : Parts) : Prop where
  ready : p.input.ready = p.reader.isSome
  before : p.reader = none → p.Untouched
  after : p.reader ≠ none → ∃ n, p.input.document = some n.document ∧ p.input.target = some n

namespace Prepared

/-- Only a field with a reader is there to be edited. -/
theorem reader_ne_of_prompts (w : p.Prepared) (h : p.prompts m = true) : p.reader ≠ none := by
  intro hr
  have hn : p.input.ready = false := by rw [w.ready, hr, Option.isSome_none]
  cases m with
  | user event =>
    cases event <;> simp [prompts, Input.prompts, Input.readOnly, hn] at h
  | _ => cases h

theorem reader_ne_of_target (w : p.Prepared) {n : Node} (h : p.input.target = some n) :
    p.reader ≠ none := by
  intro hr
  rw [(w.before hr).target] at h
  cases h

theorem reader_ne_of_mem_ripe (w : p.Prepared) {a : Action} (h : a ∈ p.ripe) :
    p.reader ≠ none := by
  intro hr
  rw [(w.before hr).ripe] at h
  cases h

theorem reader_ne_of_mem_passes (w : p.Prepared) {q : Pass} (h : q ∈ p.passes) :
    p.reader ≠ none := by
  intro hr
  rw [(w.before hr).passes] at h
  cases h

theorem reader_ne_of_request? (w : p.Prepared) {generation : Nat} {r : Request}
    (h : p.request? generation = some r) : p.reader ≠ none := by
  intro hr
  rw [request?, (w.before hr).requests] at h
  cases h

/-- A field with a reader keeps it, and something to parse texts with. -/
theorem of_reader (hr : p'.reader ≠ none) (ready : p'.input.ready = true)
    (after : ∃ n, p'.input.document = some n.document ∧ p'.input.target = some n) :
    p'.Prepared where
  ready := by rw [ready, Option.isSome_iff_ne_none.2 hr]
  before h := absurd h hr
  after _ := after

/-- A document put in place leaves the field as it has to be. -/
theorem of_resolve {i : Input} {d : Document} {silent : Bool} (hr : p'.reader ≠ none)
    (ready : i.ready = true) (h : p'.input = i.resolve d silent) : p'.Prepared := by
  obtain ⟨hd, n, hn, rfl⟩ := i.document_resolve d silent
  exact of_reader hr (by rw [h, Input.ready_resolve, ready]) ⟨n, by rw [h, hd], by rw [h, hn]⟩

theorem step (h : p.Step m p') (w : p.Prepared) : p'.Prepared := by
  have isReady : p.reader ≠ none → p.input.ready = true :=
    fun hr => by rw [w.ready, Option.isSome_iff_ne_none.2 hr]
  cases h with
  | idle => exact w
  | install => exact of_resolve (fun h => by cases h) rfl rfl
  | reject error hr =>
    have u := w.before hr
    exact ⟨w.ready, fun _ => { u with phase := .inr rfl }, fun h => absurd hr h⟩
  | edit text caret hp =>
    have hr := w.reader_ne_of_prompts hp
    exact of_reader hr (isReady hr) (w.after hr)
  | recheck hp =>
    have hr := w.reader_ne_of_prompts hp
    exact of_reader hr (isReady hr) (w.after hr)
  | highlight | hover => exact ⟨w.ready, fun h => { w.before h with }, w.after⟩
  | close =>
    refine ⟨w.ready, fun h => ?_, w.after⟩
    have u := w.before h
    refine { u with held := rfl, candidates := rfl, loading := rfl, phase := ?_ }
    rcases u.phase with hp | hp
    · exact .inl (by simp only [Input.closePanel, hp, Input.settledPhase])
    · exact .inr (by simp only [Input.closePanel, hp, Input.settledPhase])
  | select hp hc ho ht =>
    have hr := w.reader_ne_of_target ht
    exact of_reader hr (isReady hr) (w.after hr)
  | @selectAndResolve _ candidate n _ _ _ _ hp hc ho ht =>
    have hr := w.reader_ne_of_target ht
    exact of_resolve (i := p.chosen n candidate) (fun h => by cases h) (isReady hr) rfl
  | ripen ha =>
    have hr : p.reader ≠ none := by
      intro hr
      rw [(w.before hr).held] at ha
      cases ha
    exact of_reader hr (isReady hr) (w.after hr)
  | lapse ha =>
    have hr := w.reader_ne_of_mem_ripe (List.mem_of_getElem? ha)
    exact of_reader hr (isReady hr) (w.after hr)
  | parse ha =>
    have hr := w.reader_ne_of_mem_ripe (List.mem_of_getElem? ha)
    exact of_resolve (fun h => by cases h) (isReady hr) rfl
  | parseLong ha =>
    have hr := w.reader_ne_of_mem_ripe (List.mem_of_getElem? ha)
    exact of_reader hr (isReady hr) (w.after hr)
  | ask clock ha =>
    have hr := w.reader_ne_of_mem_ripe (List.mem_of_getElem? ha)
    exact of_reader hr (isReady hr) (w.after hr)
  | look hq =>
    have hr := w.reader_ne_of_mem_passes (List.mem_of_getElem? hq)
    exact of_reader (fun h => by cases h) (isReady hr) (w.after hr)
  | drop hq =>
    have hr := w.reader_ne_of_mem_passes (List.mem_of_getElem? hq)
    exact of_reader hr (isReady hr) (w.after hr)
  | put hq =>
    have hr := w.reader_ne_of_mem_passes (List.mem_of_getElem? hq)
    exact of_resolve hr (isReady hr) rfl
  | discard a hf =>
    have hr := w.reader_ne_of_request? hf
    exact of_reader hr (isReady hr) (w.after hr)
  | take a hf =>
    have hr := w.reader_ne_of_request? hf
    obtain ⟨hd, ht⟩ := p.input.document_taken p.settings p.limit _ a
    refine of_reader hr ((p.input.ready_taken _ _ _ a).trans (isReady hr)) ?_
    rw [hd, ht]
    exact w.after hr

end Prepared

/-! ## Questions are told apart -/

/-- Every question has its own generation, and the panel is open for one of the present. -/
structure Numbered (p : Parts) : Prop where
  nodup : (p.requests.map (·.generation)).Nodup
  le : ∀ r ∈ p.requests, r.generation ≤ p.input.generation
  panelOpen : ∀ r ∈ p.requests, r.generation = p.input.generation → p.input.panelOpen = true

namespace Numbered

/-- Questions may be closed, and a new generation may begin. -/
theorem mono (n : p.Numbered) (hs : p'.requests.Sublist p.requests)
    (hg : p.input.generation < p'.input.generation ∨
      p'.input.generation = p.input.generation ∧ p'.input.panelOpen = p.input.panelOpen) :
    p'.Numbered := by
  refine ⟨n.nodup.sublist (hs.map _), fun r hr => ?_, fun r hr he => ?_⟩
  · have := n.le r (hs.subset hr)
    omega
  · rcases hg with hg | ⟨hg, ho⟩
    · have := n.le r (hs.subset hr)
      omega
    · rw [ho]
      exact n.panelOpen r (hs.subset hr) (he.trans hg)

theorem step (h : p.Step m p') (n : p.Numbered) : p'.Numbered := by
  cases h with
  | install => exact n.mono (List.Sublist.refl _) (p.input.readied.panel_resolve _ _)
  | parse | put => exact n.mono (List.Sublist.refl _) (p.input.panel_resolve _ _)
  | close | select => exact n.mono (List.Sublist.refl _) (.inl (Nat.lt_succ_self _))
  | @selectAndResolve _ candidate k _ _ d =>
    refine n.mono (List.Sublist.refl _) (.inl ?_)
    have hc : p.input.generation < (p.chosen k candidate).generation := Nat.lt_succ_self _
    rcases (p.chosen k candidate).panel_resolve d true with hg | ⟨hg, -⟩
    · exact Nat.lt_trans hc hg
    · exact Nat.lt_of_lt_of_eq hc hg.symm
  | ask clock =>
    refine ⟨?_, fun r hr => ?_, fun _ _ _ => rfl⟩
    · rw [List.map_append, List.nodup_append]
      refine ⟨n.nodup, List.pairwise_singleton _ _, fun g hg g' hg' he => ?_⟩
      obtain ⟨r, hr, rfl⟩ := List.mem_map.1 hg
      have := n.le r hr
      rw [List.map_singleton, List.mem_singleton] at hg'
      simp only [hg'] at he
      omega
    · simp only [Input.fetching]
      rcases List.mem_append.1 hr with hr | hr
      · have := n.le r hr
        omega
      · exact Nat.le_of_eq (congrArg Request.generation (List.mem_singleton.1 hr))
  | discard => exact n.mono (List.eraseP_sublist ..) (.inr ⟨rfl, rfl⟩)
  | take a =>
    exact n.mono (List.eraseP_sublist ..) (Input.panel_taken ..)
  | _ => exact n.mono (List.Sublist.refl _) (.inr ⟨rfl, rfl⟩)

end Numbered

/-! ## Every run -/

/-- What holds in every run. -/
structure Orderly (p : Parts) : Prop where
  loud : p.Loud
  prepared : p.Prepared
  numbered : p.Numbered

theorem Orderly.step (h : p.Step m p') (o : p.Orderly) : p'.Orderly :=
  ⟨o.loud.step h, o.prepared.step h, o.numbered.step h⟩

end Parts

namespace Course

variable {settings : Settings} {limit : Option Nat} {listening : Bool}

theorem orderly_fresh : (fresh settings limit listening).parts.Orderly where
  loud := ⟨fun h => (by cases h), List.not_mem_nil, fun _ h => (by cases h)⟩
  prepared := {
    ready := rfl
    before := fun _ => ⟨rfl, rfl, rfl, rfl, rfl, rfl, rfl, rfl, .inl rfl⟩
    after := fun h => absurd rfl h }
  numbered := ⟨List.nodup_nil, fun _ h => (by cases h), fun _ h => by cases h⟩

theorem Run.orderly {allowed : Course → Move → Prop} {history : History} {c : Course}
    (h : Run allowed (fresh settings limit listening) history c) : c.parts.Orderly :=
  h.parts_invariant orderly_fresh fun _ _ _ hs o => o.step hs

end Course

end Typeahead
