import Mathlib.Data.List.Nodup
import Typeahead.Proofs.Editor.Execute
import Typeahead.Proofs.Editor.Order

/-!
# In which order answers come

Several questions may be open at once, and their answers may come in any order. One of them counts:
that to the question of the present generation. It may close the panel, by which a new generation
begins, but this one is ahead of every question that was asked.

- **One answer** (`Editor.input_answer_eq`): a question that is not of the present generation leaves
  the field as it is (`Editor.input_answer_of_ne`).
- **Nothing to wait for** (`Editor.Overtaken`): no open question is of the present generation. So it
  is once the answer that counts has come (`Course.overtaken_answer`), and no other answer changes
  this, or the field (`Editor.Overtaken.answer`).
- **Several answers** (`Course.answerAll`): together they do what the one that counts does
  (`Course.input_answerAll`), whatever their order (`Course.Run.answers_commute`).
-/

namespace Typeahead

/-- Of questions with generations of their own, none of a generation is left once one is closed. -/
theorem generation_ne_of_mem_eraseP {requests : List Request} {generation : Nat} {r : Request}
    (h : (requests.map (·.generation)).Nodup)
    (hr : r ∈ requests.eraseP (·.generation == generation)) : r.generation ≠ generation := by
  induction requests with
  | nil => cases hr
  | cons q requests ih =>
    obtain ⟨hq, hn⟩ := List.nodup_cons.1 h
    by_cases he : q.generation = generation
    · rw [List.eraseP_cons_of_pos (by exact beq_iff_eq.2 he)] at hr
      intro hg
      exact hq (List.mem_map.2 ⟨r, hr, hg.trans he.symm⟩)
    · rw [List.eraseP_cons_of_neg (by exact fun h => he (beq_iff_eq.1 h))] at hr
      rcases List.mem_cons.1 hr with rfl | hr
      · exact he
      · exact ih hn hr

/-- A question is found as before once one of another generation is closed. -/
theorem find?_eraseP_of_ne {generation other : Nat} (h : generation ≠ other)
    (requests : List Request) : (requests.eraseP (·.generation == other)).find?
      (·.generation == generation) = requests.find? (·.generation == generation) := by
  induction requests with
  | nil => rfl
  | cons q requests ih =>
    by_cases he : q.generation = other
    · rw [List.eraseP_cons_of_pos (by exact beq_iff_eq.2 he),
        List.find?_cons_of_neg (by exact fun hq => h ((beq_iff_eq.1 hq).symm.trans he))]
    · rw [List.eraseP_cons_of_neg (by exact fun hq => he (beq_iff_eq.1 hq)), List.find?_cons,
        List.find?_cons, ih]

namespace Editor

variable (e : Editor)

/-- The question that an answer is to, if it is open and wanted, decides about the field. -/
theorem input_answer_eq (generation : Nat) (a : Answer) : (e.answer generation a).input =
    ((e.request? generation).filter e.input.wants).elim e.input
      (e.input.taken e.settings e.limit · a) := by
  cases hr : e.request? generation with
  | none =>
    rw [answer_of_none e a hr]
    rfl
  | some r =>
    rw [input_answer hr]
    split <;> simp [Option.filter, *]

theorem requests_answer (generation : Nat) (a : Answer) : (e.answer generation a).requests =
    e.requests.eraseP (·.generation == generation) := by
  cases hr : e.request? generation with
  | none =>
    rw [answer_of_none e a hr, List.eraseP_of_forall_not]
    exact fun r hm => List.find?_eq_none.1 hr r hm
  | some r => exact (answer_keeps hr a).2.2.1

theorem settings_answer (generation : Nat) (a : Answer) :
    (e.answer generation a).settings = e.settings ∧
      (e.answer generation a).limit = e.limit := by
  cases hr : e.request? generation with
  | none =>
    rw [answer_of_none e a hr]
    exact ⟨rfl, rfl⟩
  | some r => exact (answer_keeps hr a).2.2.2.2

variable {e}

/-- An answer to no question of the present generation leaves the field as it is. -/
theorem input_answer_eq_self {generation : Nat} (a : Answer)
    (h : ∀ r ∈ e.requests, r.generation = generation → r.generation ≠ e.input.generation) :
    (e.answer generation a).input = e.input := by
  rw [input_answer_eq]
  cases hr : e.request? generation with
  | none => rfl
  | some r =>
    have hg : r.generation ≠ e.input.generation :=
      h r (List.mem_of_find?_eq_some hr) (beq_iff_eq.1 (List.find?_some hr :))
    have hw : e.input.wants r = false := by
      rw [Input.wants, beq_eq_false_iff_ne.2 hg.symm, Bool.false_and]
    simp only [Option.filter, hw, Bool.false_eq_true, if_false, Option.elim]

theorem input_answer_of_ne {generation : Nat} (a : Answer)
    (h : generation ≠ e.input.generation) : (e.answer generation a).input = e.input :=
  input_answer_eq_self a fun _ _ hr => hr ▸ h

/-- An answer that leaves the field takes nothing away from another one. -/
theorem input_answer_answer {generation other : Nat} {a : Answer} (b : Answer)
    (hi : (e.answer other a).input = e.input) (h : generation ≠ other) :
    ((e.answer other a).answer generation b).input = (e.answer generation b).input := by
  obtain ⟨hs, hl⟩ := e.settings_answer other a
  have hf : (e.answer other a).request? generation = e.request? generation := by
    rw [request?, requests_answer, find?_eraseP_of_ne h]
    rfl
  rw [input_answer_eq e generation, input_answer_eq (e.answer other a), hi, hs, hl, hf]

/-- No open question is of the present generation. -/
def Overtaken (e : Editor) : Prop := ∀ r ∈ e.requests, r.generation ≠ e.input.generation

/-- Where no question is of the present generation, no answer changes the field. -/
theorem Overtaken.answer (h : e.Overtaken) (generation : Nat) (a : Answer) :
    (e.answer generation a).input = e.input ∧ (e.answer generation a).Overtaken := by
  have hi := input_answer_eq_self a fun r hr (_ : r.generation = generation) => h r hr
  refine ⟨hi, fun r hr => ?_⟩
  rw [requests_answer] at hr
  rw [hi]
  exact h r (List.mem_of_mem_eraseP hr)

/-- A generation that an answer begins is ahead of the one before. -/
theorem generation_le_answer (generation : Nat) (a : Answer) :
    e.input.generation ≤ (e.answer generation a).input.generation := by
  rw [input_answer_eq]
  cases (e.request? generation).filter e.input.wants with
  | none => exact Nat.le_refl _
  | some r =>
    rcases e.input.panel_taken e.settings e.limit r a with h | ⟨h, -⟩
    · exact Nat.le_of_lt h
    · exact Nat.le_of_eq h.symm

end Editor

namespace Course

variable {c : Course}

/-- The answer that counts leaves nothing to wait for. -/
theorem overtaken_answer (n : c.parts.Numbered) (a : Answer) :
    (c.perform (.answer c.editor.input.generation a)).editor.Overtaken := by
  intro r hr
  have hr : r ∈ (c.editor.answer c.editor.input.generation a).requests := hr
  rw [Editor.requests_answer] at hr
  have hne := generation_ne_of_mem_eraseP n.nodup hr
  have hle : r.generation ≤ c.editor.input.generation := n.le r (List.mem_of_mem_eraseP hr)
  have hlt : r.generation < c.editor.input.generation := Nat.lt_of_le_of_ne hle hne
  exact Nat.ne_of_lt (Nat.lt_of_lt_of_le hlt (Editor.generation_le_answer _ a))

/-- Questions are answered one after the other. -/
def answerAll (c : Course) (f : Request → Answer) (order : List Request) : Course :=
  order.foldl (fun c r => c.perform (.answer r.generation (f r))) c

theorem answerAll_cons (f : Request → Answer) (r : Request) (order : List Request) :
    c.answerAll f (r :: order) = (c.perform (.answer r.generation (f r))).answerAll f order := rfl

theorem input_answerAll_of_overtaken (h : c.editor.Overtaken) (f : Request → Answer)
    (order : List Request) : (c.answerAll f order).editor.input = c.editor.input := by
  induction order generalizing c with
  | nil => rfl
  | cons r order ih =>
    obtain ⟨hi, ho⟩ := h.answer r.generation (f r)
    rw [answerAll_cons, ih ho]
    exact hi

/-- Of several answers the first that is of the present generation does all that they do. -/
theorem input_answerAll (n : c.parts.Numbered) (f : Request → Answer) (order : List Request) :
    (c.answerAll f order).editor.input =
      (order.find? (·.generation == c.editor.input.generation)).elim c.editor.input fun r =>
        (c.perform (.answer r.generation (f r))).editor.input := by
  induction order generalizing c with
  | nil => rfl
  | cons r order ih =>
    rw [answerAll_cons]
    by_cases hr : r.generation = c.editor.input.generation
    · rw [List.find?_cons_of_pos (by exact beq_iff_eq.2 hr),
        input_answerAll_of_overtaken (hr ▸ overtaken_answer n (f r))]
      rfl
    · have hi : (c.perform (.answer r.generation (f r))).editor.input = c.editor.input :=
        Editor.input_answer_of_ne (f r) hr
      rw [ih (n.step (c.step_parts (m := .answer r.generation (f r)) trivial)), hi,
        List.find?_cons_of_neg (by exact fun h => hr (beq_iff_eq.1 h))]
      cases hf : order.find? (·.generation == c.editor.input.generation) with
      | none => rfl
      | some q =>
        have hq : q.generation = c.editor.input.generation :=
          beq_iff_eq.1 (List.find?_some hf :)
        exact Editor.input_answer_answer (f q) hi (by rwa [hq, ne_comm])

variable {allowed : Course → Move → Prop} {settings : Settings} {limit : Option Nat}
  {listening : Bool} {history : History}

/-- **Answers in any order.** When open questions are answered, in whatever order, the field becomes
what the answer to the question of the present generation alone makes of it, if it is among them.
Every other answer leaves the field as it finds it. -/
theorem Run.answers_commute {order order' : List Request}
    (h : Run allowed (fresh settings limit listening) history c)
    (ho : order ⊆ c.editor.requests) (hp : order.Perm order') (f : Request → Answer) :
    (c.answerAll f order).editor.input = (c.answerAll f order').editor.input ∧
      (∀ r ∈ order, r.generation = c.editor.input.generation →
        (c.answerAll f order).editor.input = (c.answerAll f [r]).editor.input) ∧
      ((∀ r ∈ order, r.generation ≠ c.editor.input.generation) →
        (c.answerAll f order).editor.input = c.editor.input) ∧
      ∀ before r, r.generation ≠ c.editor.input.generation →
        (c.answerAll f (before ++ [r])).editor.input = (c.answerAll f before).editor.input := by
  have n := h.orderly.numbered
  have none_found : ∀ {order : List Request},
      (∀ r ∈ order, r.generation ≠ c.editor.input.generation) →
      order.find? (·.generation == c.editor.input.generation) = none :=
    fun hn => List.find?_eq_none.2 fun r hr hg => hn r hr (beq_iff_eq.1 hg)
  have found : ∀ {order : List Request}, order ⊆ c.editor.requests → ∀ r ∈ order,
      r.generation = c.editor.input.generation →
      order.find? (·.generation == c.editor.input.generation) = some r := by
    intro order ho r hr hg
    cases hf : order.find? (·.generation == c.editor.input.generation) with
    | none => exact absurd (beq_iff_eq.2 hg) (List.find?_eq_none.1 hf r hr)
    | some q =>
      have hq : q.generation = r.generation := (beq_iff_eq.1 (List.find?_some hf :)).trans hg.symm
      rw [List.inj_on_of_nodup_map n.nodup (ho (List.mem_of_find?_eq_some hf)) (ho hr) hq]
  refine ⟨?_, fun r hr hg => ?_, fun hn => ?_, fun before r hg => ?_⟩
  · rw [input_answerAll n, input_answerAll n]
    by_cases hn : ∀ r ∈ order, r.generation ≠ c.editor.input.generation
    · rw [none_found hn, none_found fun r hr => hn r (hp.mem_iff.2 hr)]
    · push Not at hn
      obtain ⟨r, hr, hg⟩ := hn
      rw [found ho r hr hg, found (List.Subset.trans hp.symm.subset ho) r (hp.mem_iff.1 hr) hg]
  · rw [input_answerAll n, found ho r hr hg]
    rfl
  · rw [input_answerAll n, none_found hn]
    rfl
  · rw [input_answerAll n, input_answerAll n, List.find?_append,
      List.find?_cons_of_neg (by exact fun h => hg (beq_iff_eq.1 h)), List.find?_nil,
      Option.or_none]

/-- A text is asked about, another takes its place and is asked about too: the first question is
answered in vain, before the second or after it. -/
theorem Run.answers_commute_two : ∃ history c r r',
    Run Anything (fresh {} none false) history c ∧ c.editor.requests = [r, r'] ∧
      r.generation ≠ c.editor.input.generation ∧ r'.generation = c.editor.input.generation ∧
      ∀ f, (c.answerAll f [r, r']).editor.input = (c.answerAll f [r', r]).editor.input ∧
        (c.answerAll f [r, r']).editor.input = (c.answerAll f [r']).editor.input := by
  obtain ⟨moves, c, clock, run, -, -, e⟩ := Run.ready.ask "a" rfl
    (fun _ => ⟨trivial, trivial, trivial⟩) rfl rfl (by decide) (by decide) rfl rfl rfl
  obtain ⟨moves', c', clock', run, -, -, e'⟩ := run.ask "b" e
    (fun _ => ⟨trivial, trivial, trivial⟩) rfl rfl (show "a" ≠ "b" by decide) (by decide)
    rfl rfl rfl
  have hq : c'.editor.requests = [_, _] := congrArg Parts.requests e'
  have hi : c'.editor.input = _ := congrArg Parts.input e'
  refine ⟨_, c', _, _, run, hq, ?_, ?_, fun f => ?_⟩
  · rw [hi]
    exact Nat.ne_of_lt (Nat.lt_succ_self 1)
  · rw [hi]
    rfl
  · obtain ⟨hs, hone, -, -⟩ := run.answers_commute (by rw [hq]; exact List.Subset.refl _)
      (List.Perm.swap _ _ _) f
    refine ⟨hs, hone _ (List.mem_cons_of_mem _ List.mem_cons_self) ?_⟩
    rw [hi]
    rfl

end Course

end Typeahead
