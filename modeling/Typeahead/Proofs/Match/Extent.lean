import Typeahead.Proofs.Match.Naive

/-!
# How far a match gets

To know where a text is wrong, all that has to be known of the failures is how far they lie. So here
the literals that fail are forgotten, and what is kept is an offset behind which none of them does.

- **Extents** (`Comes`): what a task comes to, with no failure behind an offset; one lemma for each
  way to come to an outcome.
- **Single characters** (`one`, `comes_oneOf`): alternatives each of which takes one character.
- **Runs** (`run`, `comes_run`): a rule that goes on with itself takes as many characters as there
  are.
-/

namespace Typeahead

open Grammar

namespace Spot

theorem past_append (s : Spot) (as bs : List Char) : s.past (as ++ bs) = (s.past as).past bs := by
  simp [past, Text.byteCount_append, Nat.add_assoc]

theorem past_cons (s : Spot) (c : Char) (cs : List Char) :
    s.past (c :: cs) = (s.past [c]).past cs :=
  s.past_append [c] cs

/-- Behind all the characters that can be taken, the rest is left. -/
theorem rest_past_takeWhile (s : Spot) (p : Char → Bool) :
    (s.past (s.rest.takeWhile p)).rest = s.rest.dropWhile p := by
  have h := @List.drop_left _ (s.rest.takeWhile p) (s.rest.dropWhile p)
  rwa [List.takeWhile_append_dropWhile] at h

end Spot

namespace Grammar

variable {g : Grammar}

/-- A task comes to an outcome, and no literal fails behind an offset. -/
def Comes (g : Grammar) (task : Task g) (s : Spot) (o : Option Match) (offset : Nat) : Prop :=
  ∃ failures, Yields g task s o failures ∧ ∀ f ∈ failures, f.1.offset ≤ offset

/-- A rule comes to an outcome, and no literal fails behind an offset. -/
abbrev Comes.Rule (g : Grammar) (r : g.RuleId) : Spot → Option Match → Nat → Prop :=
  Comes g (.first (g.rule r).alternatives)

namespace Comes

variable {s : Spot} {items : List (Item g.RuleId)} {others : List (List (Item g.RuleId))}
  {m m' : Match} {o : Option Match} {r : g.RuleId} {text : List Char} {n n' : Nat} {task : Task g}

theorem mono (h : Comes g task s o n) (hn : n ≤ n') : Comes g task s o n' := by
  obtain ⟨failures, hy, hf⟩ := h
  exact ⟨failures, hy, fun f hm => Nat.le_trans (hf f hm) hn⟩

theorem exhausted : Comes g (.first []) s none n := ⟨[], .exhausted, by simp⟩

theorem complete : Comes g (.all []) s (some ⟨s, []⟩) n := ⟨[], .complete, by simp⟩

theorem taken (h : Comes g (.all items) s (some m) n) :
    Comes g (.first (items :: others)) s (some m) n := by
  obtain ⟨failures, hy, hf⟩ := h
  exact ⟨failures, .taken hy, hf⟩

theorem passed (h : Comes g (.all items) s none n) (h' : Comes g (.first others) s o n) :
    Comes g (.first (items :: others)) s o n := by
  obtain ⟨failures, hy, hf⟩ := h
  obtain ⟨after, hy', hf'⟩ := h'
  exact ⟨failures ++ after, .passed hy hy', List.forall_mem_append.2 ⟨hf, hf'⟩⟩

theorem literal (hp : text <+: s.rest) (h : Comes g (.all items) (s.past text) o n) :
    Comes g (.all (.literal text :: items)) s o n := by
  obtain ⟨failures, hy, hf⟩ := h
  exact ⟨failures, .literal hp hy, hf⟩

theorem mismatch (hp : ¬ text <+: s.rest) (hn : s.offset ≤ n) :
    Comes g (.all (.literal text :: items)) s none n :=
  ⟨[(s, text)], .mismatch hp, by simpa using hn⟩

theorem refused (h : Comes.Rule g r s none n) : Comes g (.all (.reference r :: items)) s none n := by
  obtain ⟨failures, hy, hf⟩ := h
  exact ⟨failures, .refused hy, hf⟩

theorem reference (h : Comes.Rule g r s (some m) n) (h' : Comes g (.all items) m.stop o n) :
    Comes g (.all (.reference r :: items)) s
      (o.map fun rest => ⟨rest.stop, g.emit r s m ++ rest.branches⟩) n := by
  obtain ⟨failures, hy, hf⟩ := h
  obtain ⟨after, hy', hf'⟩ := h'
  exact ⟨failures ++ after, .reference hy hy', List.forall_mem_append.2 ⟨hf, hf'⟩⟩

/-- A rule, and nothing behind it. -/
theorem single (h : Comes.Rule g r s o n) :
    Comes g (.all [.reference r]) s (o.map fun m => ⟨m.stop, g.emit r s m⟩) n := by
  cases o with
  | none => exact h.refused
  | some m => simpa using h.reference .complete

end Comes

theorem emit_silent {r : g.RuleId} (h : (g.rule r).emission = .silent) (s : Spot) (m : Match) :
    g.emit r s m = [] := by
  rw [emit, h]

/-! ## Single characters -/

/-- The match of one character of a kind, which leaves nothing. -/
def one (p : Char → Bool) (s : Spot) : Option Match :=
  match s.rest with
  | c :: _ => if p c then some ⟨s.past [c], []⟩ else none
  | [] => none

/-- A silent rule that takes one character leaves nothing. -/
theorem map_emit_one {r : g.RuleId} (h : (g.rule r).emission = .silent) (p : Char → Bool) (s : Spot) :
    ((one p s).map fun m => (⟨m.stop, g.emit r s m⟩ : Match)) = one p s := by
  unfold one
  cases s.rest with
  | nil => rfl
  | cons c =>
    dsimp only
    split
    · simp [emit_silent h]
    · rfl

theorem one_or (p q : Char → Bool) (s : Spot) :
    one (fun c => p c || q c) s = (one p s).or (one q s) := by
  unfold one
  cases s.rest with
  | nil => rfl
  | cons c =>
    by_cases hp : p c = true <;> by_cases hq : q c = true <;> simp [hp, hq]

theorem Comes.literal_one (c : Char) (s : Spot) :
    Comes g (.all [.literal [c]]) s (one (· == c) s) s.offset := by
  unfold one
  cases hr : s.rest with
  | nil => exact .mismatch (by simp [hr]) (Nat.le_refl _)
  | cons d rest =>
    by_cases hd : d = c
    · subst hd
      simpa using Comes.literal (by simp [hr]) .complete
    · simpa [hd] using Comes.mismatch (by simp [hr, Ne.symm hd]) (Nat.le_refl _)

/-- Of two kinds of characters, the first alternative takes one, and those behind it the other. -/
theorem Comes.choose {items : List (Item g.RuleId)} {others : List (List (Item g.RuleId))}
    {p q : Char → Bool} {s : Spot} (h : Comes g (.all items) s (one p s) s.offset)
    (h' : Comes g (.first others) s (one q s) s.offset) :
    Comes g (.first (items :: others)) s (one (fun c => p c || q c) s) s.offset := by
  rw [one_or]
  cases ho : one p s with
  | none =>
    rw [ho] at h
    exact h.passed h'
  | some m =>
    rw [ho] at h
    exact h.taken

theorem Comes.choose_nil (s : Spot) :
    Comes g (.first []) s (one (fun _ => false) s) s.offset := by
  have : one (fun _ => false) s = none := by
    unfold one
    cases s.rest <;> rfl
  rw [this]
  exact .exhausted

/-- Alternatives that are one character each take one of them. -/
theorem Comes.choose_literals (cs : List Char) (s : Spot) :
    Comes g (.first (cs.map fun c => [.literal [c]])) s (one (cs.contains ·) s) s.offset := by
  induction cs with
  | nil => simpa using Comes.choose_nil s
  | cons c cs ih =>
    simp only [List.map_cons, List.contains_cons]
    exact (Comes.literal_one c s).choose ih

/-! ## Runs -/

/-- The match of all characters of a kind up to another one, of which there must be one. -/
def run (p : Char → Bool) (s : Spot) : Option Match :=
  if s.rest.takeWhile p = [] then none else some ⟨s.past (s.rest.takeWhile p), []⟩

/-- A rule that takes a character and goes on with itself takes all there are. -/
theorem comes_run {r x : g.RuleId} {p : Char → Bool}
    (hr : (g.rule r).alternatives = [[.reference x, .reference r], [.reference x]])
    (silent : (g.rule r).emission = .silent) (silent' : (g.rule x).emission = .silent)
    (hx : ∀ s, Comes.Rule g x s (one p s) s.offset) (s : Spot) :
    Comes.Rule g r s (run p s) (s.offset + Text.byteCount (s.rest.takeWhile p)) := by
  have both : ∀ {s o n}, Comes g (.first [[.reference x, .reference r], [.reference x]]) s o n →
      Comes.Rule g r s o n := by
    intro s o n h
    rwa [Comes.Rule, hr]
  induction hrest : s.rest generalizing s with
  | nil =>
    have hx := (hx s).mono (Nat.le_add_right _ (Text.byteCount []))
    simp only [one, hrest] at hx
    simpa [run, hrest] using both (hx.refused.passed (hx.refused.passed .exhausted))
  | cons c cs ih =>
    have hx := (hx s).mono (Nat.le_add_right _ (Text.byteCount ((c :: cs).takeWhile p)))
    simp only [one, hrest] at hx
    cases hc : p c with
    | false =>
      simp only [hc, List.takeWhile_cons] at hx
      simpa [run, hrest, hc] using both (hx.refused.passed (hx.refused.passed .exhausted))
    | true =>
      have hpast : (s.past [c]).rest = cs := by simp [Spot.past, hrest]
      have hn : (s.past [c]).offset + Text.byteCount (cs.takeWhile p) =
          s.offset + Text.byteCount (c :: cs.takeWhile p) := by
        simp [Spot.past, Text.byteCount, Nat.add_assoc]
      have ih := ih (s.past [c]) hpast
      simp only [hc, if_true, List.takeWhile_cons] at hx
      rw [hn] at ih
      have hrun : run p s = some ⟨(s.past [c]).past (cs.takeWhile p), []⟩ := by
        rw [← Spot.past_cons]
        simp [run, hrest, hc]
      simp only [hc, if_true, List.takeWhile_cons, hrun]
      apply both
      by_cases hend : cs.takeWhile p = []
      · -- There is no other character, so the first alternative fails behind this one.
        have hnone : run p (s.past [c]) = none := by simp [run, hpast, hend]
        rw [hnone] at ih
        have hone := hx.single
        simp only [Option.map_some, emit_silent silent'] at hone
        rw [hend] at hone hx ih ⊢
        exact (hx.reference ih.refused).passed hone.taken
      · have hsome : run p (s.past [c]) = some ⟨(s.past [c]).past (cs.takeWhile p), []⟩ := by
          simp [run, hpast, hend]
        rw [hsome] at ih
        have hboth := hx.reference ih.single
        simp only [Option.map_some, emit_silent silent, emit_silent silent', List.append_nil] at hboth
        exact hboth.taken

end Grammar

end Typeahead
