import Typeahead.Proofs.Editor.Step

/-!
# Moves one by one

What the parts are after a move that has something to do. Where `Parts.Step` says all that can
become of the parts, these say what becomes of them, so that a run can be followed move by move.
-/

namespace Typeahead.Course

variable {allowed : Course → Move → Prop} {history : History} {c first : Course}

section

variable {p : Parts} (h : c.parts = p)

include h

theorem parts_retype {text : String} (hr : p.input.readOnly p.settings = false)
    (ht : p.input.text ≠ text) : (c.perform (.user (.text text))).parts =
      { p with input := p.input.retype text, held := some (.resolve false) } := by
  subst h
  have : (c.editor.input.readOnly c.editor.settings || c.editor.input.text == text) = false := by
    rw [Bool.or_eq_false_iff, beq_eq_false_iff_ne]
    exact ⟨hr, ht⟩
  simp only [perform, Editor.handle, Editor.retype, this, Bool.false_eq_true, if_false]
  rfl

theorem parts_ripen {a : Action} (hh : p.held = some a) :
    (c.perform .ripen).parts = { p with held := none, ripe := p.ripe ++ [a] } := by
  subst h
  obtain ⟨w, hw, rfl⟩ := Option.map_eq_some_iff.1 hh
  simp only [perform, Slot.fire?, hw, Option.map_some]
  rfl

theorem parts_begin_long {silent : Bool} {r : Reader} {ripe : List Action}
    (hp : p.ripe = .resolve silent :: ripe) (hr : p.reader = some r)
    (hl : ¬ p.input.text.utf8ByteSize < Editor.longText) :
    (c.perform (.begin 0)).parts =
      { p with
        ripe
        input := p.input.parsing
        passes := p.passes ++ [{ text := p.input.text, silent }] } := by
  subst h
  have hp : c.ripe = .resolve silent :: ripe := hp
  simp only [perform, hp, List.getElem?_cons_zero, Editor.perform, Editor.resolve_long hr silent hl]
  rfl

theorem parts_begin_short {silent : Bool} {r r' : Reader} {d : Document} {os : List Observation}
    {ripe : List Action} (hp : p.ripe = .resolve silent :: ripe) (hr : p.reader = some r)
    (hl : p.input.text.utf8ByteSize < Editor.longText) (hd : r.read p.input.text = (d, r', os)) :
    (c.perform (.begin 0)).parts =
      { p with
        ripe
        reader := some r'
        input := p.input.resolve d silent
        held := p.heldAfter d silent } := by
  subst h
  have hp : c.ripe = .resolve silent :: ripe := hp
  have hd : r.read c.editor.input.text = (d, r', os) := hd
  simp only [perform, hp, List.getElem?_cons_zero, Editor.perform,
    Editor.resolve_short hr silent hl]
  rw [parts_eq c (Editor.settings_resolveNow hr silent) (Editor.limit_resolveNow hr silent),
    Editor.input_resolveNow hr, Editor.held_resolveNow hr, Editor.passes_resolveNow hr,
    Editor.requests_resolveNow hr, Editor.reader_resolveNow hr, hd]
  rfl

theorem parts_ask {ripe : List Action} {n : Node} (hp : p.ripe = .fetch :: ripe)
    (hf : p.input.phase ≠ .error) (ht : p.input.target = some n) : ∃ clock,
    (c.perform (.begin 0)).parts =
      { p with
        ripe
        input := p.input.fetching
        requests := p.requests ++ [⟨p.input.generation + 1, n, clock⟩] } := by
  subst h
  have hp : c.ripe = .fetch :: ripe := hp
  refine ⟨c.editor.clock, ?_⟩
  simp only [perform, hp, List.getElem?_cons_zero, Editor.perform, Editor.fetch_eq hf ht]
  rfl

/-- The only question, which is about the target, is answered. -/
theorem parts_answer {r : Request} (hq : p.requests = [r]) (hg : r.generation = p.input.generation)
    (ht : p.input.target = some r.target) (a : Answer) :
    p.answered? (.answer r.generation a) = some r ∧
      (c.perform (.answer r.generation a)).parts = { p with
        requests := [], input := p.input.taken p.settings p.limit r a } := by
  subst h
  have hq : c.editor.requests = [r] := hq
  have hr : c.editor.request? r.generation = some r := by
    rw [Editor.request?, hq, List.find?_cons_of_pos (by exact beq_self_eq_true r.generation)]
  have hw : c.editor.input.wants r = true := by
    rw [Input.wants, hg, show c.editor.input.target = some r.target from ht, Bool.and_eq_true]
    exact ⟨beq_self_eq_true _, r.target.beq_self⟩
  obtain ⟨h₁, h₂, h₃, h₄, h₅, h₆⟩ := Editor.answer_keeps hr a
  have hi := Editor.input_answer hr a
  rw [if_pos hw] at hi
  refine ⟨hr, ?_⟩
  change Course.parts ⟨c.editor.answer r.generation a, c.ripe⟩ = _
  rw [parts_eq c h₅ h₆, h₁, h₂, h₃, h₄, hi, hq,
    List.eraseP_cons_of_pos (by exact beq_self_eq_true r.generation)]
  rfl

theorem parts_escape : (c.perform (.user .escape)).parts =
    { p with input := p.input.closePanel, held := none } := by
  subst h
  rfl

variable {r : Reader} {q : Pass} {index : Nat} (hr : p.reader = some r)
  (hp : p.passes[index]? = some q)

include hr hp

theorem parts_advance_queued (hs : q.stage = .queued) : ∃ r' stage, r'.backend = r.backend ∧
    stage ≠ .queued ∧ (c.perform (.advance index)).parts =
      { p with reader := some r', passes := p.passes.set index { q with stage } } := by
  subst h
  have hr : c.editor.reader = some r := hr
  have hp : c.editor.passes[index]? = some q := hp
  cases hl : (r.lookUp q.text).1 with
  | some d =>
    refine ⟨(r.lookUp q.text).2, .done d, rfl, fun h => (by cases h), ?_⟩
    simp only [perform, Editor.advance, hp, hr, hs, hl]
    rfl
  | none =>
    refine ⟨(r.lookUp q.text).2, .missed, rfl, fun h => (by cases h), ?_⟩
    simp only [perform, Editor.advance, hp, hr, hs, hl]
    rfl

theorem parts_advance_missed (hs : q.stage = .missed) : ∃ r' d, r'.backend = r.backend ∧
    (c.perform (.advance index)).parts =
      { p with reader := some r', passes := p.passes.set index { q with stage := .done d } } := by
  subst h
  have hr : c.editor.reader = some r := hr
  have hp : c.editor.passes[index]? = some q := hp
  refine ⟨(r.absorb q.text).2, (r.absorb q.text).1, rfl, ?_⟩
  simp only [perform, Editor.advance, hp, hr, hs]
  rfl

theorem parts_advance_drop {d : Document} (hs : q.stage = .done d) (ht : p.input.text ≠ q.text) :
    (c.perform (.advance index)).parts = { p with passes := p.passes.eraseIdx index } := by
  subst h
  rw [perform, Editor.advance_of_done _ hr hp hs, Editor.finish_of_ne _ _ _ (by exact ht)]
  rfl

theorem parts_advance_put {d : Document} (hs : q.stage = .done d) (ht : p.input.text = q.text) :
    (c.perform (.advance index)).parts =
      { p with
        passes := p.passes.eraseIdx index
        input := p.input.resolve d q.silent
        held := p.heldAfter d q.silent } := by
  subst h
  rw [perform, Editor.advance_of_done _ hr hp hs, ← ht]
  generalize hb : ({ c.editor with passes := c.editor.passes.eraseIdx index } : Editor) = base
  have hi : c.parts.input.text = base.input.text := by rw [← hb]; rfl
  rw [hi, parts_eq c (by rw [Editor.settings_finish, ← hb])
      (by rw [Editor.limit_finish, ← hb]), Editor.input_finish, Editor.held_finish,
    Editor.passes_finish, Editor.requests_finish, Editor.reader_finish, ← hb]
  rfl

end

/-! ## Passes -/

section

variable {p : Parts} {r : Reader} (h : Run allowed first history c) (hc : c.parts = p)
  (hr : p.reader = some r)

include h hc hr

/-- A long text is typed, and a pass for it begins. -/
theorem Run.pass (long : String)
    (typing : ∀ c, allowed c (.user (.text long)) ∧ allowed c .ripen ∧ allowed c (.begin 0))
    (hp : p.ripe = []) (hw : p.input.readOnly p.settings = false) (ht : p.input.text ≠ long)
    (hl : ¬ long.utf8ByteSize < Editor.longText) : ∃ history c', Run allowed first history c' ∧
      c'.parts = { p with
        input := (p.input.retype long).parsing
        held := none
        passes := p.passes ++ [{ text := long, silent := false }] } := by
  have h₁ := h.step (.user (.text long)) trivial (typing c).1
  have e₁ := parts_retype hc hw ht
  have h₂ := h₁.step .ripen trivial (typing _).2.1
  have e₂ := parts_ripen e₁ rfl
  rw [hp] at e₂
  have h₃ := h₂.step (.begin 0) trivial (typing _).2.2
  refine ⟨_, _, h₃, ?_⟩
  rw [parts_begin_long e₂ rfl hr hl, hp]
  rfl

/-- A pass goes on until it is done. -/
theorem Run.complete {q : Pass} {index : Nat} (hp : p.passes[index]? = some q)
    (advancing : ∀ c, allowed c (.advance index)) : ∃ history c' r' passes d,
      Run allowed first history c' ∧ r'.backend = r.backend ∧
      c'.parts = { p with reader := some r', passes } ∧
      passes[index]? = some { q with stage := .done d } ∧
      passes.eraseIdx index = p.passes.eraseIdx index := by
  have hi := (List.getElem?_eq_some_iff.1 hp).1
  obtain ⟨text, silent, stage⟩ := q
  cases stage with
  | done d => exact ⟨_, c, r, p.passes, d, h, rfl, by rw [hc, ← hr], hp, rfl⟩
  | missed =>
    obtain ⟨r', d, hb, e⟩ := parts_advance_missed hc hr hp rfl
    exact ⟨_, _, r', _, d, h.step (.advance index) trivial (advancing c), hb, e,
      List.getElem?_set_self hi, List.eraseIdx_set_eq⟩
  | queued =>
    obtain ⟨r₁, stage, hb₁, hn, e₁⟩ := parts_advance_queued hc hr hp rfl
    have h₁ := h.step (.advance index) trivial (advancing c)
    cases stage with
    | queued => exact absurd rfl hn
    | done d =>
      exact ⟨_, _, r₁, _, d, h₁, hb₁, e₁, List.getElem?_set_self hi, List.eraseIdx_set_eq⟩
    | missed =>
      obtain ⟨r₂, d, hb₂, e₂⟩ := parts_advance_missed e₁ rfl (List.getElem?_set_self hi) rfl
      refine ⟨_, _, r₂, _, d, h₁.step (.advance index) trivial (advancing _), hb₂.trans hb₁, e₂,
        List.getElem?_set_self (by rwa [List.length_set]), ?_⟩
      rw [List.eraseIdx_set_eq, List.eraseIdx_set_eq]

end

/-- A field gets a session, whose parser takes any text as a whole. -/
def installing : Move := .compiled (.ok (.hashed (fun _ => 0) 1 .whole))

theorem Run.ready : Run Anything (fresh {} none false) [(fresh {} none false, installing)]
    ((fresh {} none false).perform installing) :=
  .step installing .start ⟨rfl, _, _, _, rfl⟩ trivial

/-- There are texts that are long enough to be parsed in a pass. -/
theorem not_replicate_lt_longText :
    ¬ (String.ofList (List.replicate Editor.longText 'a')).utf8ByteSize < Editor.longText := by
  have size : ('a' : Char).utf8Size = 1 := rfl
  rw [Text.utf8ByteSize_ofList, Text.byteCount, total_replicate, size, Nat.mul_one]
  exact Nat.lt_irrefl _

/-! ## A text is typed -/

variable {p : Parts} {r r' : Reader} {d : Document} {os : List Observation} (text : String)
  (h : Run allowed first history c) (hc : c.parts = p)
  (typing : ∀ c, allowed c (.user (.text text)) ∧ allowed c .ripen ∧ allowed c (.begin 0))
  (hp : p.ripe = [])
  (hw : p.input.readOnly p.settings = false) (ht : p.input.text ≠ text)
  (hl : text.utf8ByteSize < Editor.longText) (hr : p.reader = some r)
  (hd : r.read text = (d, r', os)) (hf : d.tree.faults = [])

include h hc typing hp hw ht hl hr hd hf

/-- A short text is typed and parsed. -/
theorem Run.parse : ∃ moves c', Run allowed first (moves ++ history) c' ∧
    (c, .user (.text text)) ∈ moves ∧ (∀ cm ∈ moves, cm.1.parts.answered? cm.2 = none) ∧
    c'.parts = { p with
      reader := some r'
      input := (p.input.retype text).resolve d false
      held := some .fetch } := by
  have h₁ := h.step (.user (.text text)) trivial (typing c).1
  have e₁ := parts_retype hc hw ht
  have h₂ := h₁.step .ripen trivial (typing _).2.1
  have e₂ := parts_ripen e₁ rfl
  rw [hp] at e₂
  have h₃ := h₂.step (.begin 0) trivial (typing _).2.2
  have e₃ := parts_begin_short e₂ rfl hr hl hd
  refine ⟨[_, _, _], _, h₃, .tail _ (.tail _ (.head _)), ?_, ?_⟩
  · intro cm hm
    simp only [List.mem_cons, List.not_mem_nil, or_false] at hm
    rcases hm with rfl | rfl | rfl <;> rfl
  · rw [e₃]
    simp only [Parts.heldAfter, hf, hp]
    rfl

/-- A short text is typed, parsed, and asked about. -/
theorem Run.ask : ∃ moves c' clock, Run allowed first (moves ++ history) c' ∧
    (c, .user (.text text)) ∈ moves ∧ (∀ cm ∈ moves, cm.1.parts.answered? cm.2 = none) ∧
    c'.parts = { p with
      reader := some r'
      input := ((p.input.retype text).resolve d false).fetching
      held := none
      requests := p.requests ++
        [⟨p.input.generation + 1, .under d (p.input.retype text).caret, clock⟩] } := by
  obtain ⟨moves, c₁, h₁, hm, hn, e₁⟩ := h.parse text hc typing hp hw ht hl hr hd hf
  rw [Input.resolve_of_faults_nil _ hf] at e₁ ⊢
  have h₂ := h₁.step .ripen trivial (typing _).2.1
  have e₂ := parts_ripen e₁ rfl
  rw [hp] at e₂
  have h₃ := h₂.step (.begin 0) trivial (typing _).2.2
  obtain ⟨clock, e₃⟩ := parts_ask e₂ rfl (fun h => by cases h) rfl
  refine ⟨_ :: _ :: moves, _, clock, h₃, .tail _ (.tail _ hm), fun cm hm => ?_, ?_⟩
  · simp only [List.mem_cons] at hm
    rcases hm with rfl | rfl | hm
    · rfl
    · rfl
    · exact hn cm hm
  · rw [e₃, hp]
    rfl

/-- A short text is typed, parsed, asked about, and answered. -/
theorem Run.suggest (hq : p.requests = []) (a : Answer)
    (answering : ∀ c, allowed c (.answer (p.input.generation + 1) a)) : ∃ moves c' clock,
    Run allowed first (moves ++ history) c' ∧ (c, .user (.text text)) ∈ moves ∧
    (∀ cm ∈ moves, ∀ r, cm.1.parts.answered? cm.2 = some r → r.target.document = d) ∧
    c'.parts = { p with
      reader := some r'
      input := ((p.input.retype text).resolve d false).fetching.taken p.settings p.limit
        ⟨p.input.generation + 1, .under d (p.input.retype text).caret, clock⟩ a
      held := none } := by
  obtain ⟨moves, c₁, clock, h₁, hm, hn, e₁⟩ := h.ask text hc typing hp hw ht hl hr hd hf
  rw [Input.resolve_of_faults_nil _ hf, hq] at e₁
  rw [Input.resolve_of_faults_nil _ hf]
  have h₂ := h₁.step (.answer (p.input.generation + 1) a) trivial (answering _)
  obtain ⟨hr, e₂⟩ := parts_answer e₁ rfl rfl rfl a
  refine ⟨_ :: moves, _, clock, h₂, .tail _ hm, fun cm hm r hr' => ?_, ?_⟩
  · simp only [List.mem_cons] at hm
    rcases hm with rfl | hm
    · simp only [e₁] at hr'
      rw [← Option.some.inj (hr.symm.trans hr')]
      rfl
    · rw [hn cm hm] at hr'
      cases hr'
  · rw [hq]
    exact e₂

end Typeahead.Course
