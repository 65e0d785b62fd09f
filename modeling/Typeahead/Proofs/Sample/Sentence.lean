import Mathlib

/-!
# Sentences of the sample

The language of the sample, without its grammar: words with pauses between them.

- **Words** (`IsWord`) and the pauses between them, made of characters that no word has
  (`not_inWord_of_inPause`, `not_inPause_of_opens`).
- **Sentences** (`IsSentence`): a list of phrases, each a word with the pause behind it. Only the
  last phrase may do without the pause, and there need not be any phrase at all.
- **Scanning** (`phrases`): from the left, each word and each pause as long as it can be. What is
  scanned is a sentence, and no sentence that the text begins with is longer (`longest_phrases`).
- **The longest sentence** that a text begins with (`Longest`) is the one that is scanned, phrase by
  phrase (`Longest.eq_phrases`).
-/

namespace Typeahead.Sample

/-! ## Words and pauses -/

/-- A character of a word, the mark apart that it may begin with. -/
def inWord (c : Char) : Bool := c.isAlphanum || c == '_' || c == '-'

/-- A character that a word can begin with. -/
def opens (c : Char) : Bool := inWord c || c == '@' || c == '#'

/-- A character between two words. -/
def inPause (c : Char) : Bool := c == ',' || c == '.' || c == ';' || c == ' '

/-- A run of word characters that is not empty, or a mark and such a run behind it, be it empty. -/
inductive IsWord : List Char → Prop
  | plain {cs : List Char} (hne : cs ≠ []) (h : ∀ c ∈ cs, inWord c = true) : IsWord cs
  | marked {mark : Char} {cs : List Char} (hmark : mark = '@' ∨ mark = '#')
      (h : ∀ c ∈ cs, inWord c = true) : IsWord (mark :: cs)

theorem not_isWord_nil : ¬ IsWord [] := by
  intro h
  cases h with
  | plain hne => exact hne rfl

theorem isWord_cons_iff {c : Char} {cs : List Char} :
    IsWord (c :: cs) ↔ opens c = true ∧ ∀ d ∈ cs, inWord d = true := by
  constructor
  · intro h
    cases h with
    | plain _ h =>
      rw [List.forall_mem_cons] at h
      exact ⟨by simp [opens, h.1], h.2⟩
    | marked hmark h =>
      refine ⟨?_, h⟩
      rcases hmark with rfl | rfl <;> decide
  · rintro ⟨hc, h⟩
    by_cases hword : inWord c = true
    · exact .plain (by simp) (List.forall_mem_cons.2 ⟨hword, h⟩)
    · exact .marked (by simpa [opens, hword] using hc) h

theorem not_inPause_of_opens {c : Char} (h : opens c = true) : inPause c = false := by
  by_contra hpause
  simp only [Bool.not_eq_false, inPause, Bool.or_eq_true, beq_iff_eq] at hpause
  rcases hpause with ((rfl | rfl) | rfl) | rfl <;> revert h <;> decide

theorem not_inWord_of_inPause {c : Char} (h : inPause c = true) : inWord c = false := by
  by_contra hword
  have := not_inPause_of_opens (c := c) (by simp_all [opens])
  rw [h] at this
  cases this

/-! ## Sentences -/

/-- A word, and the pause behind it. -/
structure Phrase where
  word : List Char
  pause : List Char

/-- The characters of a phrase. -/
def Phrase.chars (p : Phrase) : List Char := p.word ++ p.pause

/-- The characters of phrases. -/
def spell (ps : List Phrase) : List Char := ps.flatMap Phrase.chars

@[simp] theorem spell_nil : spell [] = [] := rfl

@[simp] theorem spell_cons (p : Phrase) (ps : List Phrase) :
    spell (p :: ps) = p.word ++ p.pause ++ spell ps := rfl

@[simp] theorem spell_append (ps qs : List Phrase) : spell (ps ++ qs) = spell ps ++ spell qs :=
  List.flatMap_append

/-- Words with pauses between them. Behind the last word there may be a pause or none; and there may
be no word. -/
inductive IsSentence : List Phrase → Prop
  | nil : IsSentence []
  | last {p : Phrase} (hword : IsWord p.word) (hpause : ∀ c ∈ p.pause, inPause c = true) :
      IsSentence [p]
  | cons {p q : Phrase} {ps : List Phrase} (hword : IsWord p.word) (hne : p.pause ≠ [])
      (hpause : ∀ c ∈ p.pause, inPause c = true) (h : IsSentence (q :: ps)) :
      IsSentence (p :: q :: ps)

/-- The longest sentence that a text begins with. -/
structure Longest (cs : List Char) (ps : List Phrase) : Prop where
  sentence : IsSentence ps
  isPrefix : spell ps <+: cs
  longest : ∀ qs, IsSentence qs → spell qs <+: cs → (spell qs).length ≤ (spell ps).length

theorem IsSentence.word {p : Phrase} {ps : List Phrase} (h : IsSentence (p :: ps)) :
    IsWord p.word := by
  cases h with
  | last hword | cons hword => exact hword

theorem IsSentence.exists_word {p : Phrase} {ps : List Phrase} (h : IsSentence (p :: ps)) :
    ∃ c cs, p.word = c :: cs ∧ opens c = true ∧ ∀ d ∈ cs, inWord d = true := by
  have hword := h.word
  cases hp : p.word with
  | nil => exact absurd (hp ▸ hword) not_isWord_nil
  | cons c cs => exact ⟨c, cs, rfl, isWord_cons_iff.1 (hp ▸ hword)⟩

theorem IsSentence.tail {p : Phrase} {ps : List Phrase} (h : IsSentence (p :: ps)) (hne : ps ≠ []) :
    p.pause ≠ [] ∧ IsSentence ps := by
  cases h with
  | last => exact absurd rfl hne
  | cons _ hpause _ h => exact ⟨hpause, h⟩

/-! ## Scanning -/

/-- The phrases that a text begins with. -/
def phrases : List Char → List Phrase
  | [] => []
  | c :: cs =>
    if opens c then
      let word := c :: cs.takeWhile inWord
      let rest := cs.dropWhile inWord
      if rest.takeWhile inPause = [] then [⟨word, []⟩]
      else ⟨word, rest.takeWhile inPause⟩ :: phrases (rest.dropWhile inPause)
    else []
termination_by cs => cs.length
decreasing_by
  have h₁ := (List.dropWhile_sublist (l := cs.dropWhile inWord) inPause).length_le
  have h₂ := (List.dropWhile_sublist (l := cs) inWord).length_le
  simp only [List.length_cons]
  omega

theorem phrases_of_not_opens {c : Char} (h : opens c = false) (cs : List Char) :
    phrases (c :: cs) = [] := by
  rw [phrases, h]
  rfl

theorem sentence_phrases (cs : List Char) : IsSentence (phrases cs) := by
  fun_induction phrases cs with
  | case1 => exact .nil
  | case2 c cs hc word rest hp =>
    exact .last (isWord_cons_iff.2 ⟨hc, fun d hd => List.mem_takeWhile_imp hd⟩) (by simp)
  | case3 c cs hc word rest hp ih =>
    have hword : IsWord word := isWord_cons_iff.2 ⟨hc, fun d hd => List.mem_takeWhile_imp hd⟩
    have hpause : ∀ c ∈ rest.takeWhile inPause, inPause c = true := fun d hd =>
      List.mem_takeWhile_imp hd
    generalize phrases (rest.dropWhile inPause) = ps at ih ⊢
    cases ps with
    | nil => exact .last hword hpause
    | cons q ps => exact .cons hword hp hpause ih
  | case4 => exact .nil

theorem spell_phrases_isPrefix (cs : List Char) : spell (phrases cs) <+: cs := by
  fun_induction phrases cs with
  | case1 => simp
  | case2 c cs hc word rest hp =>
    simpa [word] using List.takeWhile_prefix inWord
  | case3 c cs hc word rest hp ih =>
    obtain ⟨tail, htail⟩ := ih
    refine ⟨tail, ?_⟩
    rw [spell_cons, List.append_assoc, htail]
    simp [word, rest]
  | case4 => simp

/-! ## The longest sentence -/

theorem IsSentence.length_pos {p : Phrase} {ps : List Phrase} (h : IsSentence (p :: ps)) :
    0 < (spell (p :: ps)).length := by
  obtain ⟨c, cs, hp, -, -⟩ := h.exists_word
  simp [hp]

/-- After a word the scan goes on with the word. -/
theorem phrases_word_append {word : List Char} (h : IsWord word) (tail : List Char) :
    phrases (word ++ tail) =
      if (tail.dropWhile inWord).takeWhile inPause = [] then [⟨word ++ tail.takeWhile inWord, []⟩]
      else ⟨word ++ tail.takeWhile inWord, (tail.dropWhile inWord).takeWhile inPause⟩ ::
        phrases ((tail.dropWhile inWord).dropWhile inPause) := by
  cases word with
  | nil => exact absurd h not_isWord_nil
  | cons c cs =>
    obtain ⟨hc, hcs⟩ := isWord_cons_iff.1 h
    rw [List.cons_append, phrases, if_pos hc]
    simp only [List.takeWhile_append_of_pos hcs, List.dropWhile_append_of_pos hcs]
    rfl

/-- After a word and the beginning of a pause the scan goes on with the pause. -/
theorem phrases_pause_append {p : Phrase} (hword : IsWord p.word) (hne : p.pause ≠ [])
    (hpause : ∀ c ∈ p.pause, inPause c = true) (tail : List Char) :
    phrases (p.chars ++ tail) =
      ⟨p.word, p.pause ++ tail.takeWhile inPause⟩ :: phrases (tail.dropWhile inPause) := by
  have hend : (p.pause ++ tail).takeWhile inWord = [] ∧
      (p.pause ++ tail).dropWhile inWord = p.pause ++ tail := by
    cases hp : p.pause with
    | nil => exact absurd hp hne
    | cons c cs =>
      have hc := not_inWord_of_inPause (hpause c (by simp [hp]))
      simp [hc]
  rw [Phrase.chars, List.append_assoc, phrases_word_append hword, hend.1, hend.2,
    List.takeWhile_append_of_pos hpause, List.dropWhile_append_of_pos hpause, List.append_nil,
    if_neg (by simp [hne])]

theorem phrases_eq_nil_or_pos (cs : List Char) :
    phrases cs = [] ∨ 0 < (spell (phrases cs)).length := by
  have hs := sentence_phrases cs
  cases hp : phrases cs with
  | nil => exact .inl rfl
  | cons p ps => exact .inr (hp ▸ hs).length_pos

/-- A word alone: it may go on, and a pause may follow. -/
theorem word_eq_phrases_or_lt {word : List Char} (h : IsWord word) (tail : List Char) :
    [⟨word, []⟩] = phrases (word ++ tail) ∨
      word.length < (spell (phrases (word ++ tail))).length := by
  rw [phrases_word_append h]
  split
  · cases hmore : tail.takeWhile inWord with
    | nil => exact .inl (by simp)
    | cons => exact .inr (by simp)
  · rename_i hp
    have := List.length_pos_iff.2 hp
    refine .inr ?_
    simp only [spell_cons, List.length_append]
    omega

/-- A word with a pause: the pause may go on, and a word may follow. -/
theorem phrase_eq_phrases_or_lt {p : Phrase} (hword : IsWord p.word) (hne : p.pause ≠ [])
    (hpause : ∀ c ∈ p.pause, inPause c = true) (tail : List Char) :
    [p] = phrases (p.chars ++ tail) ∨
      p.chars.length < (spell (phrases (p.chars ++ tail))).length := by
  rw [phrases_pause_append hword hne hpause]
  cases hmore : tail.takeWhile inPause with
  | cons => exact .inr (by simp [Phrase.chars])
  | nil =>
    rcases phrases_eq_nil_or_pos (tail.dropWhile inPause) with hp | hp
    · exact .inl (by simp [hp])
    · refine .inr ?_
      simp only [Phrase.chars, spell_cons, List.append_nil, List.length_append]
      omega

/-- A sentence that a text begins with is the one that is scanned, or shorter. -/
theorem IsSentence.eq_phrases_or_lt {ps : List Phrase} (h : IsSentence ps) {cs : List Char}
    (hbegins : spell ps <+: cs) :
    ps = phrases cs ∨ (spell ps).length < (spell (phrases cs)).length := by
  induction h generalizing cs with
  | nil =>
    rcases phrases_eq_nil_or_pos cs with hp | hp
    · exact .inl hp.symm
    · exact .inr hp
  | @last p hword hpause =>
    obtain ⟨tail, rfl⟩ := hbegins
    obtain ⟨word, pause⟩ := p
    by_cases hne : pause = []
    · subst hne
      simpa using word_eq_phrases_or_lt hword tail
    · simpa [Phrase.chars] using phrase_eq_phrases_or_lt hword hne hpause tail
  | @cons p q ps hword hne hpause h ih =>
    obtain ⟨tail, rfl⟩ := hbegins
    obtain ⟨c, cs, hq, hc, -⟩ := h.exists_word
    -- The pause ends where the next word begins.
    have hend : (spell (q :: ps) ++ tail).takeWhile inPause = [] ∧
        (spell (q :: ps) ++ tail).dropWhile inPause = spell (q :: ps) ++ tail := by
      simp [hq, not_inPause_of_opens hc]
    rw [show spell (p :: q :: ps) = p.chars ++ spell (q :: ps) from rfl, List.append_assoc,
      phrases_pause_append hword hne hpause, hend.1, hend.2, List.append_nil]
    rcases ih (List.prefix_append _ tail) with heq | hlt
    · exact .inl (by rw [← heq])
    · refine .inr ?_
      simp only [spell_cons, List.length_append, Phrase.chars] at hlt ⊢
      omega

/-- The sentence that is scanned is the longest that a text begins with. -/
theorem longest_phrases (cs : List Char) : Longest cs (phrases cs) where
  sentence := sentence_phrases cs
  isPrefix := spell_phrases_isPrefix cs
  longest qs h hbegins := by
    rcases h.eq_phrases_or_lt hbegins with heq | hlt
    · exact Nat.le_of_eq (by rw [heq])
    · exact Nat.le_of_lt hlt

/-- No other sentence is as long, so its phrases are those of the scan. -/
theorem Longest.eq_phrases {cs : List Char} {ps : List Phrase} (h : Longest cs ps) :
    ps = phrases cs := by
  rcases h.sentence.eq_phrases_or_lt h.isPrefix with heq | hlt
  · exact heq
  · have := h.longest _ (sentence_phrases cs) (spell_phrases_isPrefix cs)
    omega

end Typeahead.Sample
