import Typeahead.Proofs.Editor.Documents
import Typeahead.Proofs.Editor.Execute

/-!
# What a selection inserts

Candidates come with an answer, and go with a closed panel. Between the two the target may change:
once a text has been parsed again the target is a node of the new document, or another node of the
old one, while the candidates on display are still those of the node before.

- **What is on display** (`Course.lastTaken`): the question whose answer was taken last.
- **What is inserted** (`Course.Run.substitutes`) is always one of its ranked candidates. It was
  suggested for the very node that it replaces if the question was about that node; this is so
  whenever nothing is being done about the text.
-/

namespace Typeahead

/-- Whether something is being done about the text. -/
def Phase.works : Phase → Bool
  | .parsing | .resolving | .fetching => true
  | _ => false

namespace Input

theorem candidates_resolve (i : Input) (d : Document) (silent : Bool) :
    (i.resolve d silent).candidates = [] ∨ (i.resolve d silent).candidates = i.candidates ∧
      (silent = false → (i.resolve d silent).phase.works = true) := by
  unfold resolve
  split
  · exact .inl rfl
  · refine .inr ⟨rfl, ?_⟩
    rintro rfl
    rfl

end Input

namespace Parts

variable {p p' : Parts} {m : Move}

/-- The question whose answer a move brings, with the candidates, if it is wanted. -/
def taken? (p : Parts) : Move → Option (Request × List String)
  | .answer generation (.ok candidates) =>
    (p.request? generation).bind fun r =>
      if p.input.wants r then some (r, candidates) else none
  | _ => none

theorem answered?_of_taken? {r : Request} {candidates : List String}
    (h : p.taken? m = some (r, candidates)) : p.answered? m = some r := by
  cases m with
  | answer generation a =>
    cases a with
    | ok candidates =>
      obtain ⟨r', hr, hw⟩ := Option.bind_eq_some_iff.1 h
      split at hw
      · cases hw
        exact hr
      · cases hw
    | error => cases h
  | _ => cases h

theorem taken?_eq_none (h : p.answered? m = none) : p.taken? m = none := by
  cases ht : p.taken? m with
  | none => rfl
  | some taken =>
    rw [answered?_of_taken? ht] at h
    cases h

/-- Candidates are gone, or stay as they are with the target unless something is being done about
the text, or come with an answer about the target. -/
theorem Step.candidates (h : p.Step m p') (o : p.Orderly) (g : p.Documented) :
    p'.input.candidates = [] ∨
    (p.taken? m = none ∧ p'.input.candidates = p.input.candidates ∧ (p'.input.phase.works = true ∨
      p'.input.phase = p.input.phase ∧ p'.input.target = p.input.target)) ∨
    ∃ r candidates, p.taken? m = some (r, candidates) ∧ p'.input.target = some r.target ∧
      p'.input.candidates = shortlist p.limit candidates r.target.text := by
  cases h with
  | idle _ hn => exact .inr (.inl ⟨taken?_eq_none hn, rfl, .inr ⟨rfl, rfl⟩⟩)
  | install hn =>
    rcases p.input.readied.candidates_resolve ‹_› true with h | ⟨h, -⟩
    · exact .inl h
    · exact .inl (h.trans (o.prepared.before hn).candidates)
  | close | select => exact .inl rfl
  | @selectAndResolve _ candidate n _ _ d =>
    rcases (p.chosen n candidate).candidates_resolve d true with h | ⟨h, -⟩ <;> exact .inl h
  | @parse _ silent _ _ d _ hk =>
    have hs : silent = false := by
      cases silent with
      | false => rfl
      | true => exact absurd (List.mem_of_getElem? hk) o.loud.ripe
    rcases p.input.candidates_resolve d silent with h | ⟨h, hw⟩
    · exact .inl h
    · exact .inr (.inl ⟨rfl, h, .inl (hw hs)⟩)
  | @put _ pass d hk =>
    rcases p.input.candidates_resolve d pass.silent with h | ⟨h, hw⟩
    · exact .inl h
    · exact .inr (.inl ⟨rfl, h, .inl (hw (o.loud.passes pass (List.mem_of_getElem? hk)))⟩)
  | parseLong | ask => exact .inr (.inl ⟨rfl, rfl, .inl rfl⟩)
  | @discard generation r a hf hw =>
    refine .inr (.inl ⟨?_, rfl, .inr ⟨rfl, rfl⟩⟩)
    cases a with
    | ok => simp only [taken?, hf, Option.bind_some, hw, Bool.false_eq_true, if_false]
    | error => rfl
  | @take generation r a hf hw =>
    cases a with
    | error =>
      refine .inl ?_
      simp only [Input.taken, Input.fail]
      split <;> rfl
    | ok candidates =>
      obtain ⟨-, ht⟩ := g.eq_of_wants o.prepared (List.mem_of_find?_eq_some hf) hw
      refine .inr (.inr ⟨r, candidates, ?_, ht, rfl⟩)
      simp only [taken?, hf, Option.bind_some, hw, if_true]
  | reject _ hn => exact .inl (o.prepared.before hn).candidates
  | _ => exact .inr (.inl ⟨rfl, rfl, .inr ⟨rfl, rfl⟩⟩)

end Parts

namespace Course

variable {allowed : Course → Move → Prop} {settings : Settings} {limit : Option Nat}
  {listening : Bool} {history : History} {c : Course}

/-- The question whose answer was taken last, with the candidates, and what happened before. -/
def lastTaken : History → Option (Request × List String × History)
  | [] => none
  | (c, m) :: earlier =>
    match c.parts.taken? m with
    | some (r, candidates) => some (r, candidates, earlier)
    | none => lastTaken earlier

/-- The candidate is in the ranked answer to a question about the node. -/
def Suggested (limit : Option Nat) (history : History) (n : Node) (candidate : String) : Prop :=
  ∃ cm ∈ history, ∃ r candidates, cm.1.parts.taken? cm.2 = some (r, candidates) ∧
    (r.target == n) = true ∧ candidate ∈ shortlist limit candidates r.target.text

theorem suggested_cons {m : Move} {n : Node} {candidate : String} :
    Suggested limit ((c, m) :: history) n candidate ↔
      (∃ r candidates, c.parts.taken? m = some (r, candidates) ∧ (r.target == n) = true ∧
        candidate ∈ shortlist limit candidates r.target.text) ∨
          Suggested limit history n candidate := by
  simp only [Suggested, List.mem_cons, or_and_right, exists_or, exists_eq_left]

/-- A candidate was suggested for a node by the answer that was taken last, or before it. -/
theorem suggested_iff {r : Request} {candidates : List String} {earlier : History} {n : Node}
    {candidate : String} (h : lastTaken history = some (r, candidates, earlier)) :
    Suggested limit history n candidate ↔
      (r.target == n) = true ∧ candidate ∈ shortlist limit candidates r.target.text ∨
        Suggested limit earlier n candidate := by
  induction history with
  | nil => cases h
  | cons cm history ih =>
    obtain ⟨c, m⟩ := cm
    rw [suggested_cons]
    cases ht : c.parts.taken? m with
    | none =>
      simp only [lastTaken, ht] at h
      rw [ih h]
      exact or_iff_right fun ⟨_, _, hn, _⟩ => by cases hn
    | some taken =>
      obtain ⟨r', candidates'⟩ := taken
      simp only [lastTaken, ht, Option.some.injEq, Prod.mk.injEq] at h
      obtain ⟨rfl, rfl, rfl⟩ := h
      refine or_congr_left ⟨fun ⟨r, candidates, he, hr⟩ => ?_, fun hr => ⟨r', candidates', rfl, hr⟩⟩
      cases he
      exact hr

/-- What is on display was the answer to the last question whose answer was taken; unless something
is being done about the text, that question was about the target. -/
theorem Run.displays (h : Run allowed (fresh settings limit listening) history c) :
    c.editor.input.candidates = [] ∨ ∃ r candidates earlier,
      lastTaken history = some (r, candidates, earlier) ∧
      c.editor.input.candidates = shortlist limit candidates r.target.text ∧
      (c.editor.input.phase.works = false → c.editor.input.target = some r.target) := by
  induction h with
  | start => exact .inl rfl
  | @step history c m h had _ ih =>
    have hl : c.parts.limit = limit := h.settings_eq.2
    rcases (c.step_parts had).candidates h.orderly h.documented with
      hn | ⟨hn, hc, ht⟩ | ⟨r, candidates, hs, ht, hc⟩
    · exact .inl hn
    · rcases ih with hi | ⟨r, candidates, earlier, hr, hd, hw⟩
      · exact .inl (hc.trans hi)
      refine .inr ⟨r, candidates, earlier, by simp only [lastTaken, hn, hr], hc.trans hd, ?_⟩
      intro hf
      rcases ht with ht | ⟨hp, ht⟩
      · rw [show (c.perform m).editor.input.phase.works = true from ht] at hf
        cases hf
      · exact Eq.trans ht (hw ((congrArg Phase.works hp).symm.trans hf))
    · exact .inr ⟨r, candidates, history, by simp only [lastTaken, hs], hl ▸ hc, fun _ => ht⟩

/-- **Selection.** What an event puts in the place of the target is one of the ranked candidates of
the last answer that was taken. It was suggested for the target just when that answer was about the
target, or an earlier one about the target had it too. The former is so unless something is being
done about the text. -/
theorem Run.substitutes {event : UserEvent} {s : Substitution}
    (h : Run allowed (fresh settings limit listening) history c)
    (hs : (c.editor.handle event).2 = some s) : ∃ candidate n r candidates earlier,
      c.editor.input.chooses event = some candidate ∧ c.editor.input.target = some n ∧
      s = ⟨c.editor.input.splice n candidate, n.label.start + candidate.utf8ByteSize⟩ ∧
      lastTaken history = some (r, candidates, earlier) ∧
      candidate ∈ shortlist limit candidates r.target.text ∧
      (Suggested limit history n candidate ↔
        (r.target == n) = true ∨ Suggested limit earlier n candidate) ∧
      (c.editor.input.phase.works = false → r.target = n) := by
  obtain ⟨candidate, n, hc, hn, -, hs⟩ := c.editor.substitution_of_handle hs
  have hm := c.editor.input.mem_of_chooses hc
  rcases h.displays with he | ⟨r, candidates, earlier, hl, hd, hw⟩
  · rw [he] at hm
    cases hm
  · rw [hd] at hm
    refine ⟨candidate, n, r, candidates, earlier, hc, hn, hs, hl, hm, ?_, fun hf => ?_⟩
    · rw [suggested_iff hl]
      exact or_congr_left (and_iff_left hm)
    · exact Option.some.inj ((hw hf).symm.trans hn)

/-- Ranking changes the order of the candidates alone. -/
theorem mem_rank {candidates : List String} {candidate query : String} :
    candidate ∈ rank candidates query ↔ candidate ∈ candidates := by
  unfold rank
  split
  · rfl
  · simp only [ofFit_fits, List.mem_append, List.mem_filter, decide_eq_true_eq]
    cases fit query candidate <;> simp

/-- A text is typed and its candidates come; another text takes its place and is parsed, and before
the source is asked about it a candidate of the first text is clicked. -/
theorem Run.substitutes_stale : ∃ history c s n, Run Anything (fresh {} none false) history c ∧
    (c.editor.handle (.click "x")).2 = some s ∧ c.editor.input.target = some n ∧
    s.text = c.editor.input.splice n "x" ∧ ¬ Suggested none history n "x" := by
  have ready : Run Anything (fresh {} none false) _ _ :=
    .step (.compiled (.ok (.hashed (fun _ => 0) 1 .whole))) .start ⟨rfl, _, _, _, rfl⟩ trivial
  obtain ⟨moves, c, clock, run, -, about, e⟩ := ready.suggest "a" rfl
    (fun _ => ⟨trivial, trivial, trivial⟩) rfl rfl (by decide) (by decide) rfl rfl rfl rfl
    (.ok ["x"]) fun _ => trivial
  obtain ⟨moves', c', run, -, none', e'⟩ := run.parse "b" e
    (fun _ => ⟨trivial, trivial, trivial⟩) rfl rfl (show "a" ≠ "b" by decide) (by decide)
    rfl rfl rfl
  have hi : c'.editor.input = _ := congrArg Parts.input e'
  have hw : c'.editor.input.readOnly c'.editor.settings = false := by
    rw [hi, show c'.editor.settings = _ from congrArg Parts.settings e']
    rfl
  have ht : ∃ n, c'.editor.input.target = some n ∧ n.source = c'.editor.input.text ∧
      n.document.serial = 2 := by
    rw [hi]
    exact ⟨_, rfl, rfl, rfl⟩
  have hc : "x" ∈ c'.editor.input.candidates := by
    rw [hi]
    exact mem_rank.2 (List.mem_singleton_self _)
  obtain ⟨n, hn, ht, hs⟩ := ht
  refine ⟨_, c', _, n, run, c'.editor.substitution_of_click hc hw hn ht, hn, rfl, ?_⟩
  rintro ⟨cm, hm, r, candidates, hr, he, -⟩
  have hr := Parts.answered?_of_taken? hr
  rcases List.mem_append.1 hm with hm | hm
  · rw [none' cm hm] at hr
    cases hr
  rcases List.mem_append.1 hm with hm | hm
  · have hd := (Node.beq_iff.1 he).1
    rw [about cm hm r hr, hs] at hd
    exact absurd hd (show ¬ (1 = 2) by decide)
  · rw [List.mem_singleton.1 hm] at hr
    cases hr

/-- At rest a candidate goes where it was suggested for. -/
theorem Run.substitutes_suggested : ∃ history c s n candidate,
    Run Anything (fresh {} none false) history c ∧ (c.editor.handle (.click "x")).2 = some s ∧
      c.editor.input.target = some n ∧ Suggested none history n candidate := by
  have ready : Run Anything (fresh {} none false) _ _ :=
    .step (.compiled (.ok (.hashed (fun _ => 0) 1 .whole))) .start ⟨rfl, _, _, _, rfl⟩ trivial
  obtain ⟨moves, c, clock, run, -, -, e⟩ := ready.suggest "a" rfl
    (fun _ => ⟨trivial, trivial, trivial⟩) rfl rfl (by decide) (by decide) rfl rfl rfl rfl
    (.ok ["x"]) fun _ => trivial
  have hi : c.editor.input = _ := congrArg Parts.input e
  have hw : c.editor.input.readOnly c.editor.settings = false := by
    rw [hi, show c.editor.settings = _ from congrArg Parts.settings e]
    rfl
  have ht : ∃ n, c.editor.input.target = some n ∧ n.source = c.editor.input.text := by
    rw [hi]
    exact ⟨_, rfl, rfl⟩
  have hc : "x" ∈ c.editor.input.candidates := by
    rw [hi]
    exact mem_rank.2 (List.mem_singleton_self _)
  obtain ⟨n, hn, ht⟩ := ht
  have hs := c.editor.substitution_of_click hc hw hn ht
  obtain ⟨candidate, n', r, candidates, earlier, -, hn', -, -, -, hiff, hrest⟩ := run.substitutes hs
  refine ⟨_, c, _, n', candidate, run, hs, hn', hiff.2 (.inl ?_)⟩
  rw [hrest (by rw [hi]; rfl)]
  exact n'.beq_self

end Course

end Typeahead
