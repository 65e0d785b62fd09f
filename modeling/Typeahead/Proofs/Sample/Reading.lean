import Typeahead.Proofs.Match.Extent
import Typeahead.Proofs.Match.Fault
import Typeahead.Proofs.Sample.Grammar
import Typeahead.Proofs.Sample.Sentence
import Typeahead.Proofs.Tree.Image

/-!
# What the sample makes of a text

The grammar of the sample reads just the sentences of the sample, as far as there are any.

- **Rules** from the last to the first: each single character, runs of characters, words
  (`comes_word`), and phrases (`comes_composition`). What each comes to is said without the grammar,
  by the scan of the text; and no literal fails behind the end of a match.
- **Texts** (`read_rules`): so a text that goes on behind its sentence is faulty just there.
- **Trees** (`settled_nested`): the nodes of phrases are in their places already, so the tree shows
  them, and the way down to a position of a word ends at that word (`nodeAt_nested`).

`read_sentence` puts all together.
-/

namespace Typeahead

open Grammar

namespace Sample

/-- What a rule of the sample comes to. -/
abbrev Comes (r : Fin 13) : Spot → Option Match → Nat → Prop := Comes.Rule rules r

/-! ## Characters -/

/-- What the characters of a list have in common, when they are those between two of them. -/
theorem contains_eq {cs : List Char} {first count : Nat}
    (h : cs.map Char.toNat = List.range' first count) (c : Char) :
    cs.contains c = (decide (first ≤ c.toNat) && decide (c.toNat < first + count)) := by
  have hinj : Function.Injective Char.toNat := fun a b hab => Char.toNat_inj.1 hab
  rw [Bool.eq_iff_iff, List.contains_iff_mem, ← List.mem_map_of_injective hinj, h]
  simp

theorem comes_upper (s : Spot) : Comes Line.upper s (one Char.isUpper s) s.offset := by
  have hp : Char.isUpper = ("ABCDEFGHIJKLMNOPQRSTUVWXYZ".toList.contains ·) := by
    funext c
    rw [contains_eq (show _ = List.range' 65 26 by decide +kernel), Bool.eq_iff_iff]
    simp [Char.isUpper, UInt32.le_iff_toNat_le, ← Char.toNat_val]
    omega
  rw [hp]
  exact Comes.choose_literals _ s

theorem comes_lower (s : Spot) : Comes Line.lower s (one Char.isLower s) s.offset := by
  have hp : Char.isLower = ("abcdefghijklmnopqrstuvwxyz".toList.contains ·) := by
    funext c
    rw [contains_eq (show _ = List.range' 97 26 by decide +kernel), Bool.eq_iff_iff]
    simp [Char.isLower, UInt32.le_iff_toNat_le, ← Char.toNat_val]
    omega
  rw [hp]
  exact Comes.choose_literals _ s

theorem comes_digit (s : Spot) : Comes Line.digit s (one Char.isDigit s) s.offset := by
  have hp : Char.isDigit = ("0123456789".toList.contains ·) := by
    funext c
    rw [contains_eq (show _ = List.range' 48 10 by decide +kernel), Bool.eq_iff_iff]
    simp [Char.isDigit, UInt32.le_iff_toNat_le, ← Char.toNat_val]
    omega
  rw [hp]
  exact Comes.choose_literals _ s

theorem comes_breakSymbol (s : Spot) : Comes Line.pauseSymbol s (one inPause s) s.offset := by
  have hp : inPause = ([',', '.', ';', ' '].contains ·) := by
    funext c
    rw [Bool.eq_iff_iff]
    simp [inPause, or_assoc]
  rw [hp]
  exact Comes.choose_literals _ s

/-- A rule that takes a character, as the only item of an alternative. -/
theorem comes_reference {r : Fin 13} (hr : (rules.rule r).emission = .silent) {p : Char → Bool}
    {s : Spot} (h : Comes r s (one p s) s.offset) :
    Grammar.Comes rules (.all [.reference r]) s (one p s) s.offset := by
  have h := h.single
  rwa [map_emit_one hr] at h

theorem comes_letter (s : Spot) : Comes Line.letter s (one Char.isAlpha s) s.offset := by
  have hp : Char.isAlpha = fun c => c.isUpper || (c.isLower || false) := by
    funext c
    simp [Char.isAlpha]
  rw [hp]
  exact (comes_reference rfl (comes_upper s)).choose
    ((comes_reference rfl (comes_lower s)).choose (.choose_nil s))

theorem comes_char (s : Spot) : Comes Line.char s (one inWord s) s.offset := by
  have hp : inWord = fun c => c.isAlpha || (c.isDigit || (c == '_' || (c == '-' || false))) := by
    funext c
    simp [inWord, Char.isAlphanum, Bool.or_assoc]
  rw [hp]
  exact (comes_reference rfl (comes_letter s)).choose
    ((comes_reference rfl (comes_digit s)).choose
      ((Comes.literal_one '_' s).choose ((Comes.literal_one '-' s).choose (.choose_nil s))))

theorem comes_chars (s : Spot) :
    Comes Line.chars s (run inWord s) (s.offset + Text.byteCount (s.rest.takeWhile inWord)) :=
  comes_run rfl rfl rfl comes_char s

theorem comes_break (s : Spot) :
    Comes Line.pause s (run inPause s) (s.offset + Text.byteCount (s.rest.takeWhile inPause)) :=
  comes_run rfl rfl rfl comes_breakSymbol s

/-! ## Words -/

/-- The node of a mark and what stands behind it, if a word has one. -/
def marked (offset : Nat) : List Char → List Branch
  | '@' :: cs =>
    [⟨{ kind := "assignee", start := offset, stop := offset + Text.byteCount ('@' :: cs) }, []⟩]
  | '#' :: cs =>
    [⟨{ kind := "tag", start := offset, stop := offset + Text.byteCount ('#' :: cs) }, []⟩]
  | _ => []

/-- A mark, and the characters behind it. -/
theorem comes_marked {r : Fin 13} {mark : Char} {s : Spot} {cs : List Char}
    (hr : (rules.rule r).alternatives =
      [[.literal [mark], .reference Line.chars], [.literal [mark]]])
    (hs : s.rest = mark :: cs) :
    Comes r s (some ⟨s.past (mark :: cs.takeWhile inWord), []⟩)
      (s.offset + Text.byteCount (mark :: cs.takeWhile inWord)) := by
  have hmark : [mark] <+: s.rest := by simp [hs]
  have hpast : (s.past [mark]).rest = cs := by simp [Spot.past, hs]
  have hn : (s.past [mark]).offset + Text.byteCount (cs.takeWhile inWord) =
      s.offset + Text.byteCount (mark :: cs.takeWhile inWord) := by
    simp [Spot.past, Text.byteCount, Nat.add_assoc]
  have hchars := comes_chars (s.past [mark])
  rw [hpast, hn] at hchars
  unfold Comes Comes.Rule
  rw [hr, Spot.past_cons]
  by_cases hend : cs.takeWhile inWord = []
  · have hnone : run inWord (s.past [mark]) = none := by simp [run, hpast, hend]
    rw [hnone] at hchars
    rw [hend] at hchars ⊢
    exact (Comes.literal hmark hchars.refused).passed (Comes.literal hmark .complete).taken
  · have hsome : run inWord (s.past [mark]) =
        some ⟨(s.past [mark]).past (cs.takeWhile inWord), []⟩ := by
      simp [run, hpast, hend]
    rw [hsome] at hchars
    exact (Comes.literal hmark hchars.single).taken

theorem comes_marked_none {r : Fin 13} {mark : Char} {s : Spot}
    (hr : (rules.rule r).alternatives =
      [[.literal [mark], .reference Line.chars], [.literal [mark]]])
    (hs : ¬ [mark] <+: s.rest) {n : Nat} (hn : s.offset ≤ n) : Comes r s none n := by
  unfold Comes Comes.Rule
  rw [hr]
  exact (Comes.mismatch hs hn).passed ((Comes.mismatch hs hn).passed .exhausted)

/-- A word, as long as it can be. -/
theorem comes_word {s : Spot} {c : Char} {cs : List Char} (hs : s.rest = c :: cs)
    (hc : opens c = true) :
    Comes Line.word s (some ⟨s.past (c :: cs.takeWhile inWord),
        marked s.offset (c :: cs.takeWhile inWord)⟩)
      (s.offset + Text.byteCount (c :: cs.takeWhile inWord)) := by
  have hle := Nat.le_add_right s.offset (Text.byteCount (c :: cs.takeWhile inWord))
  have hchars := comes_chars s
  by_cases hword : inWord c = true
  · have hsome : run inWord s = some ⟨s.past (c :: cs.takeWhile inWord), []⟩ := by
      simp [run, hs, hword]
    have hmarked : marked s.offset (c :: cs.takeWhile inWord) = [] := by
      unfold marked
      split
      · rename_i heq
        cases heq
        cases hword
      · rename_i heq
        cases heq
        cases hword
      · rfl
    rw [hsome, hs, List.takeWhile_cons, if_pos hword] at hchars
    rw [hmarked]
    exact hchars.single.taken
  · have hnone : run inWord s = none := by simp [run, hs, hword]
    rw [hnone, hs, List.takeWhile_cons, if_neg hword] at hchars
    have hchars := hchars.mono hle
    have hmark : c = '@' ∨ c = '#' := by simpa [opens, hword] using hc
    rcases hmark with rfl | rfl
    · have h := comes_marked (r := Line.assignee) rfl hs
      exact hchars.refused.passed h.single.taken
    · have h := comes_marked (r := Line.tag) rfl hs
      have hother : ¬ ['@'] <+: s.rest := by simp [hs]
      have hnot := comes_marked_none (r := Line.assignee) rfl hother hle
      exact hchars.refused.passed (hnot.refused.passed h.single.taken)

theorem comes_word_none {s : Spot} (hs : ∀ c ∈ s.rest.head?, opens c = false) :
    Comes Line.word s none s.offset := by
  have hnone : s.rest.takeWhile inWord = [] := by
    cases hr : s.rest with
    | nil => rfl
    | cons c cs =>
      have := hs c (by simp [hr])
      simp_all [opens]
  have hchars := comes_chars s
  simp only [run, hnone, if_true] at hchars
  have hnot : ∀ mark, opens mark = true → ¬ [mark] <+: s.rest := by
    rintro mark hmark ⟨rest, hrest⟩
    have := hs mark (by simp [← hrest])
    rw [hmark] at this
    cases this
  have hassignee := comes_marked_none (r := Line.assignee) rfl (hnot '@' rfl) (Nat.le_refl _)
  have htag := comes_marked_none (r := Line.tag) rfl (hnot '#' rfl) (Nat.le_refl _)
  exact hchars.refused.passed (hassignee.refused.passed (htag.refused.passed .exhausted))

/-! ## Sentences -/

/-- The node of a word. -/
def leaf (offset : Nat) (word : List Char) : Branch :=
  ⟨{ kind := "word", start := offset, stop := offset + Text.byteCount word }, marked offset word⟩

/-- The node of phrases, in which the node of those behind the first one stands behind its word. -/
def nested (offset : Nat) : List Phrase → List Branch
  | [] => []
  | p :: ps =>
    [⟨{ kind := "composition", start := offset,
        stop := offset + Text.byteCount (spell (p :: ps)) },
      leaf offset p.word :: nested (offset + Text.byteCount p.chars) ps⟩]

/-- The match of phrases, of which there must be one. -/
def found (s : Spot) : List Phrase → Option Match
  | [] => none
  | p :: ps => some ⟨s.past (spell (p :: ps)),
      leaf s.offset p.word :: nested (s.offset + Text.byteCount p.chars) ps⟩

/-- A word without a pause behind it is all there is. -/
theorem comes_word_alone {s : Spot} {word : List Char} {n : Nat}
    (hword : Comes Line.word s (some ⟨s.past word, marked s.offset word⟩) n)
    (hpause : Comes Line.pause (s.past word) none n) :
    Comes Line.composition s (some ⟨s.past word, [leaf s.offset word]⟩) n :=
  (hword.reference hpause.refused).passed
    ((hword.reference hpause.refused).passed hword.single.taken)

/-- Behind a word and a pause stand more phrases, or nothing. -/
theorem comes_word_and_pause {s u : Spot} {word : List Char} {ps : List Phrase} {n : Nat}
    (hword : Comes Line.word s (some ⟨s.past word, marked s.offset word⟩) n)
    (hpause : Comes Line.pause (s.past word) (some ⟨u, []⟩) n)
    (hmore : Comes Line.composition u (found u ps) n) :
    Comes Line.composition s
      (some ⟨u.past (spell ps), leaf s.offset word :: nested u.offset ps⟩) n := by
  cases ps with
  | nil =>
    have hsecond := hword.reference hpause.single
    exact (hword.reference (hpause.reference hmore.refused)).passed hsecond.taken
  | cons p ps =>
    have hfirst := hword.reference (hpause.reference hmore.single)
    exact hfirst.taken

/-- Where no word begins there are no phrases. -/
theorem comes_composition_none {s : Spot} (hs : ∀ c ∈ s.rest.head?, opens c = false) :
    phrases s.rest = [] ∧ Comes Line.composition s none s.offset := by
  have hword := comes_word_none hs
  refine ⟨?_, hword.refused.passed (hword.refused.passed (hword.refused.passed .exhausted))⟩
  cases hr : s.rest with
  | nil => rw [phrases]
  | cons c cs => exact phrases_of_not_opens (hs c (by simp [hr])) cs

/-- The phrases that a text begins with are matched, and nothing fails behind them. -/
theorem comes_composition (s : Spot) : Comes Line.composition s (found s (phrases s.rest))
    (s.offset + Text.byteCount (spell (phrases s.rest))) := by
  induction hl : s.rest.length using Nat.strong_induction_on generalizing s with
  | _ n ih =>
    subst hl
    by_cases hopens : ∀ c ∈ s.rest.head?, opens c = false
    · obtain ⟨hnone, h⟩ := comes_composition_none hopens
      rw [hnone]
      exact h
    · obtain ⟨c, cs, hs, hc⟩ : ∃ c cs, s.rest = c :: cs ∧ opens c = true := by
        cases hr : s.rest with
        | nil => simp [hr] at hopens
        | cons c cs => exact ⟨c, cs, rfl, by simpa [hr] using hopens⟩
      have hword := comes_word hs hc
      have hpast : (s.past [c]).rest = cs := by simp [Spot.past, hs]
      have hbehind := Spot.rest_past_takeWhile (s.past [c]) inWord
      rw [hpast, ← Spot.past_cons] at hbehind
      have hpause := comes_break (s.past (c :: cs.takeWhile inWord))
      rw [hbehind] at hpause
      rw [hs, phrases, if_pos hc]
      dsimp only
      generalize c :: cs.takeWhile inWord = word at hword hbehind hpause ⊢
      by_cases hend : (cs.dropWhile inWord).takeWhile inPause = []
      · have hnone : run inPause (s.past word) = none := by simp [run, hbehind, hend]
        rw [hnone, hend] at hpause
        rw [if_pos hend]
        simpa [found, nested] using comes_word_alone hword hpause
      · rw [if_neg hend]
        have hrest := Spot.rest_past_takeWhile (s.past word) inPause
        rw [hbehind] at hrest
        have hsome : run inPause (s.past word) =
            some ⟨(s.past word).past ((cs.dropWhile inWord).takeWhile inPause), []⟩ := by
          simp [run, hbehind, hend]
        rw [hsome] at hpause
        generalize (cs.dropWhile inWord).takeWhile inPause = pause at hpause hrest ⊢
        have hlt : ((s.past word).past pause).rest.length < s.rest.length := by
          have h₁ := (List.dropWhile_sublist (l := cs.dropWhile inWord) inPause).length_le
          have h₂ := (List.dropWhile_sublist (l := cs) inWord).length_le
          rw [hrest, hs, List.length_cons]
          omega
        have hmore := ih _ hlt _ rfl
        rw [hrest] at hmore
        generalize phrases _ = ps at hmore ⊢
        -- What stands behind the pause ends where the whole match does.
        have hn : ((s.past word).past pause).offset + Text.byteCount (spell ps) =
            s.offset + Text.byteCount (spell (⟨word, pause⟩ :: ps)) := by
          simp [Spot.past, Text.byteCount_append, Nat.add_assoc]
        rw [hn] at hmore
        have h := comes_word_and_pause
          (hword.mono (by simp [Text.byteCount_append]))
          (hpause.mono (by simp [Spot.past, Text.byteCount_append]; omega)) hmore
        simpa [found, Phrase.chars, Spot.past_append, Spot.past, Text.byteCount_append,
          Nat.add_assoc] using h

/-! ## Texts -/

/-- The phrases that a text begins with are its match. -/
theorem comes_start (s : Spot) : Comes Line.start s
    (if phrases s.rest = [] then none
      else some ⟨s.past (spell (phrases s.rest)), nested s.offset (phrases s.rest)⟩)
    (s.offset + Text.byteCount (spell (phrases s.rest))) := by
  have h := (comes_composition s).single
  generalize phrases s.rest = ps at h ⊢
  cases ps with
  | nil => exact h.passed .exhausted
  | cons => exact h.taken

/-- The root is over the phrases that a text begins with. Where the text goes on, that is a fault,
and it is noticed there. -/
theorem read_rules (text : String) : ∃ message, rules.read text =
    ⟨⟨rules.rootLabel (Text.byteCount (spell (phrases text.toList))),
        nested 0 (phrases text.toList)⟩,
      if Text.byteCount (spell (phrases text.toList)) < text.utf8ByteSize then
        [⟨message, Text.byteCount (spell (phrases text.toList))⟩]
      else []⟩ := by
  by_cases ht : text = ""
  · subst ht
    have hnone : phrases "".toList = [] := by
      rw [String.toList_empty, phrases]
    rw [hnone]
    exact ⟨"", rfl⟩
  · obtain ⟨failures, houtcome, hfailures⟩ := comes_start (.ofText text)
    obtain ⟨s, -, hs, hread⟩ := read_of_outcome leftRecursion?_rules ht houtcome
    have hfar := farthest_le_iff.2 hfailures
    have hrest : (Spot.ofText text).rest = text.toList := rfl
    rw [hrest] at hs hread hfar
    generalize phrases text.toList = ps at hs hread hfar ⊢
    -- No failure lies behind the match.
    have hreach : reach (if ps = [] then none
        else some (⟨(Spot.ofText text).past (spell ps),
          nested (Spot.ofText text).offset ps⟩ : Match)) = Text.byteCount (spell ps) := by
      cases ps <;> simp [reach, Spot.past, Spot.ofText, Text.byteCount]
    rw [hreach] at hs hread
    have hspot : s.offset = Text.byteCount (spell ps) := by
      simp only [Spot.ofText, Nat.zero_add] at hfar
      omega
    refine ⟨(unexpected s (literalsAt failures s.offset)).message, hread.trans ?_⟩
    rw [← hspot]
    cases ps <;> rfl

/-! ## Trees -/

/-- The kind of the innermost node of a word. -/
def kindOf : List Char → String
  | '@' :: _ => "assignee"
  | '#' :: _ => "tag"
  | _ => "word"

theorem isBoundary_of_toList {s : String} {as bs : List Char} (h : s.toList = as ++ bs) :
    Text.isBoundary s (Text.byteCount as) = true := by
  refine Text.isBoundary_iff.2 ⟨String.ofList as, String.ofList bs, ?_, ?_⟩
  · apply String.toList_injective
    simp [h]
  · rw [Text.utf8ByteSize_ofList]

/-- The span of characters of a text. -/
theorem fits_of_toList {source : String} {as bs cs : List Char} (h : source.toList = as ++ bs ++ cs)
    {l : Label} (hstart : l.start = Text.byteCount as)
    (hstop : l.stop = Text.byteCount as + Text.byteCount bs) : l.Fits source where
  start := hstart ▸ isBoundary_of_toList (h.trans (List.append_assoc ..))
  stop := by
    rw [hstop, ← Text.byteCount_append]
    exact isBoundary_of_toList h
  le := by omega

/-- The nodes of phrases are in their places. -/
theorem settled_nested {source : String} {ps : List Phrase} {before after : List Char}
    (h : source.toList = before ++ spell ps ++ after) :
    Tree.Settled source (Text.byteCount before) (Text.byteCount before + Text.byteCount (spell ps))
      (nested (Text.byteCount before) ps) := by
  induction ps generalizing before with
  | nil => exact .nil
  | cons p ps ih =>
    have hword : source.toList = before ++ p.word ++ (p.pause ++ spell ps ++ after) := by simp [h]
    have hmarked : Tree.Settled source (Text.byteCount before)
        (Text.byteCount before + Text.byteCount p.word)
        (marked (Text.byteCount before) p.word) := by
      unfold marked
      split
      · rename_i cs hp
        exact .cons (fits_of_toList hword rfl (by rw [hp])) (Nat.le_refl _) (by rw [hp]) .nil .nil
      · rename_i cs hp
        exact .cons (fits_of_toList hword rfl (by rw [hp])) (Nat.le_refl _) (by rw [hp]) .nil .nil
      · exact .nil
    have hrest := @ih (before ++ p.chars) (by simp [h, Phrase.chars])
    simp only [Text.byteCount_append, Phrase.chars, ← Nat.add_assoc] at hrest
    have htotal : Text.byteCount (spell (p :: ps)) =
        Text.byteCount p.word + Text.byteCount p.pause + Text.byteCount (spell ps) := by
      simp [Text.byteCount_append, Nat.add_assoc]
    rw [nested, Phrase.chars, Text.byteCount_append, ← Nat.add_assoc]
    refine .cons (fits_of_toList h rfl rfl) (Nat.le_refl _) (Nat.le_refl _) ?_ .nil
    refine .cons (fits_of_toList hword rfl rfl) (Nat.le_refl _) ?_ hmarked ?_
    · change Text.byteCount before + Text.byteCount p.word ≤ _ + _
      omega
    · change Tree.Settled source (Text.byteCount before + Text.byteCount p.word) (_ + _) _
      rw [htotal]
      simpa only [← Nat.add_assoc] using hrest.mono (Nat.le_add_right _ _)

section

variable {t : Tree}

/-- Where the node of a word is looked at, its innermost node is found. -/
theorem nodeAt_leaf {w : t.Id} {js : List t.Id} {offset pos : Nat} {word : List Char}
    {rest : List Branch} (h : Tree.Depicts (w :: js) (leaf offset word :: rest))
    (hlo : offset ≤ pos) (hhi : pos ≤ offset + Text.byteCount word) : Tree.label (Tree.nodeAt w pos) =
      { kind := kindOf word, start := offset, stop := offset + Text.byteCount word } := by
  obtain ⟨w, js, heq, hw, hbelow, -⟩ := Tree.depicts_cons_iff.1 h
  cases heq
  have ends : ∀ c : t.Id, Tree.Depicts (Tree.children c) [] → Tree.nodeAt c pos = c := by
    intro c hc
    apply Tree.nodeAt_of_forall
    simp [Tree.depicts_nil_iff.1 hc]
  have mark : ∀ kind, Tree.Depicts (Tree.children w)
      [⟨{ kind, start := offset, stop := offset + Text.byteCount word }, []⟩] →
      Tree.label (Tree.nodeAt w pos) =
        { kind, start := offset, stop := offset + Text.byteCount word } := by
    intro kind hbelow
    obtain ⟨c, js, hchildren, hc, hleaf, -⟩ := Tree.depicts_cons_iff.1 hbelow
    have hcovers : Tree.covers c pos = true := by
      rw [Tree.covers_iff, hc]
      exact ⟨hlo, hhi⟩
    have hfirst : Tree.children w = [] ++ c :: js := hchildren
    rw [Tree.nodeAt_of_children hfirst (by simp) hcovers, ends c hleaf, hc]
  unfold marked at hbelow
  split at hbelow
  · exact mark _ hbelow
  · exact mark _ hbelow
  · rename_i hassignee htag
    have hkind : kindOf word = "word" := by
      unfold kindOf
      split
      · exact absurd rfl (hassignee _)
      · exact absurd rfl (htag _)
      · rfl
    rw [ends w hbelow, hw, hkind]

/-- The node of phrases is around every position of their words. -/
theorem covers_nested {cs : List t.Id} {offset pos : Nat} {before after : List Phrase} {p : Phrase}
    (h : Tree.Depicts cs (nested offset (before ++ p :: after)))
    (hlo : offset + Text.byteCount (spell before) ≤ pos)
    (hhi : pos ≤ offset + Text.byteCount (spell before) + Text.byteCount p.word) :
    ∃ c, cs = [c] ∧ Tree.covers c pos = true := by
  have hend : Text.byteCount (spell (before ++ p :: after)) = Text.byteCount (spell before) +
      (Text.byteCount p.word + Text.byteCount (p.pause ++ spell after)) := by
    simp [Text.byteCount_append]
  obtain ⟨q, qs, hq⟩ : ∃ q qs, before ++ p :: after = q :: qs := by
    cases before <;> exact ⟨_, _, rfl⟩
  rw [hq] at h hend
  obtain ⟨c, js, rfl, hc, -, hjs⟩ := Tree.depicts_cons_iff.1 h
  refine ⟨c, by rw [Tree.depicts_nil_iff.1 hjs], ?_⟩
  rw [Tree.covers_iff, hc]
  dsimp only
  omega

/-- The way down to a word goes by the nodes of the phrases before it. -/
theorem nodeAt_nested {c : t.Id} {offset pos : Nat} {before after : List Phrase} {p : Phrase}
    (h : Tree.Depicts [c] (nested offset (before ++ p :: after)))
    (hs : IsSentence (before ++ p :: after))
    (hlo : offset + Text.byteCount (spell before) ≤ pos)
    (hhi : pos ≤ offset + Text.byteCount (spell before) + Text.byteCount p.word) :
    Tree.label (Tree.nodeAt c pos) =
      { kind := kindOf p.word
        start := offset + Text.byteCount (spell before)
        stop := offset + Text.byteCount (spell before) + Text.byteCount p.word } := by
  induction before generalizing c offset with
  | nil =>
    obtain ⟨c, js, heq, -, hbelow, -⟩ := Tree.depicts_cons_iff.1 h
    cases heq
    have hdepicts := hbelow
    obtain ⟨w, ws, hchildren, hw, -, -⟩ := Tree.depicts_cons_iff.1 hbelow
    have hcovers : Tree.covers w pos = true := by
      rw [Tree.covers_iff, hw]
      exact ⟨hlo, hhi⟩
    have hfirst : Tree.children c = [] ++ w :: ws := hchildren
    rw [Tree.nodeAt_of_children hfirst (by simp) hcovers]
    rw [hchildren] at hdepicts
    exact nodeAt_leaf hdepicts hlo hhi
  | cons q before ih =>
    rw [List.cons_append] at h hs
    obtain ⟨c, js, heq, -, hbelow, -⟩ := Tree.depicts_cons_iff.1 h
    cases heq
    obtain ⟨w, ws, hchildren, hw, -, hrest⟩ := Tree.depicts_cons_iff.1 hbelow
    have hspell : Text.byteCount (spell (q :: before)) =
        Text.byteCount q.chars + Text.byteCount (spell before) := by
      rw [← Text.byteCount_append]
      rfl
    rw [hspell, ← Nat.add_assoc] at hlo hhi ⊢
    obtain ⟨hpause, hs⟩ := hs.tail (by simp)
    have hw : Tree.covers w pos = false := by
      -- There is a pause behind the word, so the phrase of the position does not touch it.
      have hpos : Text.byteCount q.pause ≠ 0 := mt Text.byteCount_eq_zero hpause
      rw [← Bool.not_eq_true, Tree.covers_iff, hw]
      simp only [Phrase.chars, Text.byteCount_append] at hlo ⊢
      omega
    obtain ⟨c', rfl, hcovers⟩ := covers_nested hrest hlo hhi
    have hsecond : Tree.children c = [w] ++ c' :: [] := hchildren
    rw [Tree.nodeAt_of_children hsecond (by simpa using hw) hcovers]
    exact ih hrest hs hlo hhi

end

/-! ## The sample -/

/-- What a tree says of a text that begins with a sentence, and perhaps goes on. -/
structure Parsed (text : String) (ps : List Phrase) (t : Tree) : Prop where
  /-- The root is over the sentence. -/
  root : (Tree.label t.root).start = 0 ∧ (Tree.label t.root).stop = Text.byteCount (spell ps)
  /-- There is no fault where the text ends with the sentence. -/
  sound : Text.byteCount (spell ps) = text.utf8ByteSize → t.faults = []
  /-- There is one where it goes on. -/
  fault : Text.byteCount (spell ps) ≠ text.utf8ByteSize →
    ∃ message, t.faults = [⟨message, Text.byteCount (spell ps)⟩]
  /-- At any position of a word, its ends included, the innermost node is over just the word, and of
  the kind that the word's first character tells. -/
  word : ∀ before p after, ps = before ++ p :: after → ∀ pos,
    Text.byteCount (spell before) ≤ pos → pos ≤ Text.byteCount (spell before ++ p.word) →
      Tree.label (Tree.nodeAt t.root pos) =
        { kind := kindOf p.word
          start := Text.byteCount (spell before)
          stop := Text.byteCount (spell before ++ p.word) }

theorem parsed_rules (text : String) :
    Parsed text (phrases text.toList) (Tree.ofReading text (rules.read text)) := by
  obtain ⟨message, hread⟩ := read_rules text
  obtain ⟨after, hafter⟩ := spell_phrases_isPrefix text.toList
  have hs := sentence_phrases text.toList
  generalize phrases text.toList = ps at hread hafter hs ⊢
  have hsize : text.utf8ByteSize = Text.byteCount (spell ps) + Text.byteCount after := by
    rw [← Text.byteCount_append, hafter, ← Text.utf8ByteSize_ofList, String.ofList_toList]
  have hfits : (rules.rootLabel (Text.byteCount (spell ps))).Fits text := by
    refine @fits_of_toList text [] (spell ps) after hafter.symm _ rfl ?_
    exact (Nat.zero_add _).symm
  have hinside : Tree.Settled text 0 (0 + Text.byteCount (spell ps)) (nested 0 ps) :=
    @settled_nested text ps [] after hafter.symm
  rw [Nat.zero_add] at hinside
  have hdepicts := Tree.depicts_root text (rules.read text)
  rw [hread] at hdepicts ⊢
  rw [(Tree.Settled.cons hfits (Nat.zero_le _) (by rw [hsize]; exact Nat.le_add_right _ _) hinside
    .nil).fitAll_eq] at hdepicts
  obtain ⟨root, js, heq, hroot, hbelow, -⟩ := Tree.depicts_cons_iff.1 hdepicts
  cases heq
  refine ⟨by rw [hroot]; exact ⟨rfl, rfl⟩, fun h => ?_, fun h => ⟨message, ?_⟩, ?_⟩
  · simp [Tree.ofReading, h]
  · have hlt : Text.byteCount (spell ps) < text.utf8ByteSize := by omega
    have hboundary : Text.clampBoundary text (Text.byteCount (spell ps)) =
        Text.byteCount (spell ps) := by
      rw [Text.clampBoundary, Nat.min_eq_left (Nat.le_of_lt hlt)]
      exact Text.floorBoundary_eq (isBoundary_of_toList hafter.symm)
    simp [Tree.ofReading, hlt, hboundary]
  · rintro before p after rfl pos hlo hhi
    rw [Text.byteCount_append] at hhi ⊢
    rw [← Nat.zero_add (Text.byteCount (spell before))] at hlo hhi ⊢
    obtain ⟨c, hchildren, hcovers⟩ := covers_nested hbelow hlo hhi
    have hfirst : Tree.children _ = [] ++ c :: [] := hchildren
    rw [hchildren] at hbelow
    rw [Tree.nodeAt_of_children hfirst (by simp) hcovers]
    exact nodeAt_nested hbelow hs hlo hhi

/-- **The sample reads its sentences.** The grammar of the sample is compiled, and of every text it
reads the longest sentence that the text begins with, which has its phrases in one way only. The
root is over the sentence; where the text goes on there is one fault; and at each position of a word
the innermost node is that of the word. -/
theorem read_sentence : ∃ g, compile grammar = .ok g ∧ ∀ text : String,
    ∃ ps, Longest text.toList ps ∧ (∀ qs, Longest text.toList qs → qs = ps) ∧
      Parsed text ps (Tree.ofReading text (g.read text)) := by
  refine ⟨rules, compile_grammar, fun text => ⟨phrases text.toList, longest_phrases _, ?_, ?_⟩⟩
  · exact fun qs hqs => hqs.eq_phrases
  · exact parsed_rules text

end Sample

end Typeahead
