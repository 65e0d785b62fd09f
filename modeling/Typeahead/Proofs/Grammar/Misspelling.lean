import Typeahead.Proofs.Grammar.Layout

/-!
# Texts that lay out no words

Reading a text from left to right, everything is a layout of words up to some character at which a
word should begin and does not. This character is the culprit, and its place is reported.

- **Culprits** (`Misspelled`): what is wrong with a text behind the longest layout that it begins
  with. A reference whose name is blank is reported one character behind its bracket, although the
  closing bracket that is reported as found comes later (`Misspelled.blankName`).
- **From a culprit to the report** (`Misspelled.tokenize_eq`): the lexer comes to it between words.
- **From a report to a culprit** (`tokenize_eq_error_iff`): wherever a lexer is stopped, what it has
  claimed so far shows a culprit (`Lexer.Reads.misspelled_step`, `Lexer.Reads.misspelled_finish`).
-/

namespace Typeahead.Grammar

/-- The characters that begin a word or a comment. -/
def openers : List Char := [';', '|', ':', '<', '\x22', '\x27']

/-- What of a text is on its first line. -/
def firstLine (cs : List Char) : List Char := cs.takeWhile (· ≠ '\n')

/-- What is wrong with the words of `text`, and where. -/
inductive Misspelled (text : List Char) : Error → Prop where
  /-- A character begins neither a word nor a comment. -/
  | stray {words : List Word} {before after : List Char} {found : Char} {p : Place}
      (h : Layout words before) (hp : p.Shows text before found after)
      (hblank : Text.isBlank found = false) (hfound : found ∉ openers) :
      Misspelled text (.unexpected found p)
  /-- A colon does not begin `::=`. -/
  | colon {words : List Word} {before after : List Char} {p : Place}
      (h : Layout words before) (hp : p.Shows text before ':' after)
      (hafter : ¬ [':', '='] <+: after) : Misspelled text (.unexpected ':' p)
  /-- There is nothing between two brackets. -/
  | nameless {words : List Word} {before after : List Char} {p : Place}
      (h : Layout words before) (hp : p.Shows text (before ++ ['<']) '>' after) :
      Misspelled text (.unexpected '>' p)
  /-- There are only blanks between two brackets; the place is that of the first blank. -/
  | blankName {words : List Word} {before blanks after : List Char} {first : Char} {p : Place}
      (h : Layout words before) (hblanks : ∀ c ∈ first :: blanks, Text.isBlank c = true ∧ c ≠ '\n')
      (hp : p.Shows text (before ++ ['<']) first (blanks ++ '>' :: after)) :
      Misspelled text (.unexpected '>' p)
  /-- A reference is not closed on its line. -/
  | reference {words : List Word} {before after : List Char} {p : Place}
      (h : Layout words before) (hp : p.Shows text before '<' after)
      (hopen : '>' ∉ firstLine after) : Misspelled text (.openReference p)
  /-- A literal is not closed on its line. -/
  | literal {words : List Word} {before after : List Char} {quote : Char} {p : Place}
      (h : Layout words before) (hquote : quote = '\x22' ∨ quote = '\x27')
      (hp : p.Shows text before quote after) (hopen : quote ∉ firstLine after) :
      Misspelled text (.openLiteral p)

/-! ## From a culprit to the report -/

theorem trim_eq_nil_iff {cs : List Char} :
    Text.trim cs = [] ↔ ∀ c ∈ cs, Text.isBlank c = true := by
  constructor
  · intro h
    obtain ⟨left, right, hcs, hleft, hright⟩ := exists_append_trim cs
    rw [h, List.append_nil] at hcs
    rw [hcs]
    exact List.forall_mem_append.2 ⟨hleft, hright⟩
  · intro h
    rw [Text.trim, List.dropWhile_eq_nil_iff.2 h]
    rfl

namespace Lexer

variable {s s' : Lexer} {c quote : Char} {start : Place} {name cs cs' before text : List Char}
  {e : Error}

/-- The tokens of a text of which `s` has read all but `cs`. -/
def complete (s : Lexer) (cs : List Char) : Except Error (List Token) :=
  match s.run cs with
  | .ok s => s.finish
  | .error e => .error e

theorem complete_append (h : s.run cs = .ok s') : s.complete (cs ++ cs') = s'.complete cs' := by
  rw [complete, run_append h, complete]

theorem complete_cons (h : s.step c = .ok s') : s.complete (c :: cs) = s'.complete cs := by
  rw [complete, run, h, complete]

theorem complete_cons_error (h : s.step c = .error e) : s.complete (c :: cs) = .error e := by
  rw [complete, run, h]

/-- A token that keeps everything on its line but the character that closes it, and is not closed
there. -/
theorem complete_open {mode : List Char → Mode} {close : Char}
    (hkeep : ∀ (s : Lexer) content c, s.mode = mode content → c ≠ close → c ≠ '\n' →
      s.step c = .ok { s with mode := mode (c :: content), place := s.place.next c })
    (hline : ∀ (s : Lexer) content, s.mode = mode content → s.step '\n' = .error e)
    (hend : ∀ (s : Lexer) content, s.mode = mode content → s.finish = .error e)
    {content : List Char} (hs : s.mode = mode content) (hopen : close ∉ firstLine cs) :
    s.complete cs = .error e := by
  induction cs generalizing s content with
  | nil => exact hend s content hs
  | cons c cs ih =>
    by_cases hc : c = '\n'
    · rw [hc]
      exact complete_cons_error (hline s content hs)
    · rw [firstLine, List.takeWhile_cons_of_pos (by simpa using hc), List.mem_cons, not_or] at hopen
      rw [complete_cons (hkeep s content c hs (Ne.symm hopen.1) hc)]
      exact ih rfl hopen.2

/-- A reference that is not closed on its line is reported where it began. -/
theorem complete_reference (hs : s.mode = .reference start name) (hopen : '>' ∉ firstLine cs) :
    s.complete cs = .error (.openReference start) := by
  apply complete_open ?_ ?_ ?_ hs hopen
  · intro s content c hs hclose hline
    simp [step, hs, hclose, hline]
  · intro s content hs
    simp [step, hs]
  · intro s content hs
    simp [finish, hs]

/-- So is a literal. -/
theorem complete_literal (hs : s.mode = .literal quote start name) (hquote : quote ≠ '\n')
    (hopen : quote ∉ firstLine cs) : s.complete cs = .error (.openLiteral start) := by
  apply complete_open ?_ ?_ ?_ hs hopen
  · intro s content c hs hclose hline
    simp [step, hs, hclose, hline]
  · intro s content hs
    simp [step, hs, Ne.symm hquote]
  · intro s content hs
    simp [finish, hs]

/-- Two colons and a sign of equality, or the first colon is reported. -/
theorem complete_colon (hs : s.mode = .define start false) (hcs : ¬ [':', '='] <+: cs) :
    s.complete cs = .error (.unexpected ':' start) := by
  cases cs with
  | nil => simp [complete, run, finish, hs]
  | cons c cs =>
    by_cases hc : c = ':'
    · subst hc
      have hstep : s.step ':' = .ok { s with
          mode := .define start true, place := s.place.next ':' } := by
        simp [step, hs]
      rw [complete_cons hstep]
      cases cs with
      | nil => rfl
      | cons c cs =>
        apply complete_cons_error
        have hc : c ≠ '=' := by
          rintro rfl
          exact hcs ⟨cs, rfl⟩
        simp [step, hc]
    · apply complete_cons_error
      simp [step, hs, hc]

/-- Only blanks are no name. -/
theorem complete_blanks (hs : s.mode = .reference start []) (name : List Char)
    (hname : ∀ c ∈ name, Text.isBlank c = true ∧ c ≠ '\n') :
    s.complete (name ++ '>' :: cs) = .error (.unexpected '>' ⟨start.line, start.column + 1⟩) := by
  have hbracket : '>' ∉ name := by
    intro h
    exact absurd (hname _ h).1 (by decide)
  have hline : '\n' ∉ name := fun h => (hname _ h).2 rfl
  have htrim : Text.trim name = [] := trim_eq_nil_iff.2 fun c hc => (hname c hc).1
  rw [complete_append (run_reference hs hbracket hline)]
  apply complete_cons_error
  simp [step, endReference, htrim]

/-- Behind a layout, a lexer is between words and stands behind what it has read. -/
theorem tokenize_append_of_layout {words : List Word} (h : Layout words before) (cs : List Char) :
    ∃ s : Lexer, s.mode = .between ∧ s.place = placeBehind before ∧
      tokenize (before ++ cs) = s.complete cs := by
  obtain ⟨s, hrun, hmode, -, -⟩ := run_layout h
  exact ⟨s, hmode, place_of_run_init hrun, complete_append hrun⟩

end Lexer

/-- A bracket is a character of its line. -/
theorem placeBehind_bracket (before : List Char) : placeBehind (before ++ ['<']) =
    ⟨(placeBehind before).line, (placeBehind before).column + 1⟩ := by
  rw [placeBehind_append_singleton]
  rfl

variable {text : List Char} {e : Error}

/-- Blanks between brackets are reported behind the first bracket. -/
theorem tokenize_blanks {words : List Word} {before : List Char} (h : Layout words before)
    (name : List Char) (hname : ∀ c ∈ name, Text.isBlank c = true ∧ c ≠ '\n') (after : List Char) :
    tokenize (before ++ ['<'] ++ (name ++ '>' :: after)) =
      .error (.unexpected '>' (placeBehind (before ++ ['<']))) := by
  obtain ⟨s, hmode, hplace, htokenize⟩ := Lexer.tokenize_append_of_layout h _
  rw [List.append_assoc, htokenize, placeBehind_bracket, ← hplace, List.singleton_append,
    Lexer.complete_cons (Lexer.step_bracket hmode)]
  exact Lexer.complete_blanks rfl name hname

theorem Misspelled.tokenize_eq (h : Misspelled text e) : tokenize text = .error e := by
  cases h with
  | stray h hp hblank hfound =>
    obtain ⟨rfl, rfl⟩ := hp
    obtain ⟨s, hmode, hplace, htokenize⟩ := Lexer.tokenize_append_of_layout h _
    rw [htokenize, ← hplace]
    apply Lexer.complete_cons_error
    simp only [openers, List.mem_cons, List.not_mem_nil, or_false, not_or] at hfound
    simp [Lexer.step, Lexer.begin, hmode, hblank, hfound]
  | colon h hp hafter =>
    obtain ⟨rfl, rfl⟩ := hp
    obtain ⟨s, hmode, hplace, htokenize⟩ := Lexer.tokenize_append_of_layout h _
    have hstep : s.step ':' = .ok { s with
        mode := .define s.place false, place := s.place.next ':' } := by
      rw [Lexer.step, hmode]
      rfl
    rw [htokenize, ← hplace, Lexer.complete_cons hstep]
    exact Lexer.complete_colon rfl hafter
  | nameless h hp =>
    obtain ⟨rfl, rfl⟩ := hp
    exact tokenize_blanks h [] (by simp) _
  | blankName h hblanks hp =>
    obtain ⟨rfl, rfl⟩ := hp
    exact tokenize_blanks h _ hblanks _
  | reference h hp hopen =>
    obtain ⟨rfl, rfl⟩ := hp
    obtain ⟨s, hmode, hplace, htokenize⟩ := Lexer.tokenize_append_of_layout h _
    rw [htokenize, ← hplace, Lexer.complete_cons (Lexer.step_bracket hmode)]
    exact Lexer.complete_reference rfl hopen
  | literal h hquote hp hopen =>
    obtain ⟨rfl, rfl⟩ := hp
    obtain ⟨s, hmode, hplace, htokenize⟩ := Lexer.tokenize_append_of_layout h _
    rw [htokenize, ← hplace, Lexer.complete_cons (Lexer.step_quote hmode hquote)]
    refine Lexer.complete_literal rfl ?_ hopen
    rcases hquote with rfl | rfl <;> decide

/-! ## From a report to a culprit -/

theorem firstLine_append {body rest : List Char} (hline : '\n' ∉ body)
    (hrest : ∀ c ∈ rest.head?, c = '\n') : firstLine (body ++ rest) = body := by
  rw [firstLine, List.takeWhile_append_of_pos (forall_ne_lineFeed hline)]
  cases rest with
  | nil => simp
  | cons c rest =>
    obtain rfl := hrest c rfl
    simp

section

variable {words : List Word} {before body : List Char} (h : Layout words before) (rest : List Char)
  (hline : '\n' ∉ body) (hrest : ∀ c ∈ rest.head?, c = '\n')

include h hline hrest

theorem misspelled_reference (hbracket : '>' ∉ body) :
    ∃ e, Misspelled (before ++ '<' :: (body ++ rest)) e := by
  refine ⟨_, .reference h ⟨rfl, rfl⟩ ?_⟩
  rwa [firstLine_append hline hrest]

theorem misspelled_literal {quote : Char} (hquote : quote = '\x22' ∨ quote = '\x27')
    (hbody : quote ∉ body) : ∃ e, Misspelled (before ++ quote :: (body ++ rest)) e := by
  refine ⟨_, .literal h hquote ⟨rfl, rfl⟩ ?_⟩
  rwa [firstLine_append hline hrest]

end

theorem misspelled_blanks {words : List Word} {before body : List Char} (h : Layout words before)
    (hbody : ∀ c ∈ body, Text.isBlank c = true) (hline : '\n' ∉ body) (after : List Char) :
    ∃ e, Misspelled (before ++ '<' :: (body ++ '>' :: after)) e := by
  rw [List.append_cons]
  cases body with
  | nil => exact ⟨_, .nameless h ⟨rfl, rfl⟩⟩
  | cons first blanks =>
    refine ⟨_, .blankName h (fun c hc => ⟨hbody c hc, ?_⟩) ⟨rfl, rfl⟩⟩
    rintro rfl
    exact hline hc

namespace Lexer

variable {s : Lexer} {cs read : List Char} {c : Char}

/-- A token that is open at the end of a text is a culprit. -/
theorem Reads.misspelled_finish (h : s.Reads text) (hfinish : s.finish = .error e) :
    ∃ e', Misspelled text e' := by
  obtain ⟨before, claimed, rfl, hlayout, hclaims⟩ := h
  obtain ⟨mode, place, tokens⟩ := s
  cases mode with
  | between | comment => cases hfinish
  | define start both =>
    cases both <;> cases hclaims
    · exact ⟨_, .colon hlayout ⟨rfl, rfl⟩ (by decide)⟩
    · exact ⟨_, .colon hlayout ⟨rfl, rfl⟩ (by decide)⟩
  | reference start name =>
    obtain ⟨rfl, hbracket, hline⟩ := hclaims
    simpa using misspelled_reference hlayout [] (by simpa using hline) (by simp)
      (by simpa using hbracket)
  | literal quote start content =>
    obtain ⟨hquote, rfl, hcontent, hline⟩ := hclaims
    simpa using misspelled_literal hlayout [] (by simpa using hline) (by simp) hquote
      (by simpa using hcontent)

theorem stray_of_begin {start : Place} (h : s.begin start c = .error e) :
    Text.isBlank c = false ∧ c ∉ openers := by
  unfold Lexer.begin at h
  repeat' split at h
  all_goals cases h
  simp_all [openers]

theorem blank_of_endReference {start : Place} {name : List Char}
    (h : s.endReference start name = .error e) : ∀ c ∈ name.reverse, Text.isBlank c = true := by
  simp only [endReference] at h
  split at h
  · rename_i hempty
    exact trim_eq_nil_iff.1 (List.isEmpty_iff.1 hempty)
  · cases h

/-- A character that a token cannot take shows a culprit, which is the token or the character. -/
theorem Reads.misspelled_step (h : s.Reads read) (hstep : s.step c = .error e) (cs : List Char) :
    ∃ e', Misspelled (read ++ c :: cs) e' := by
  obtain ⟨before, claimed, rfl, hlayout, hclaims⟩ := h
  rw [List.append_assoc]
  obtain ⟨mode, place, tokens⟩ := s
  cases mode with
  | comment => cases hstep
  | between =>
    cases hclaims
    obtain ⟨hblank, hstray⟩ := stray_of_begin hstep
    exact ⟨_, .stray hlayout ⟨rfl, rfl⟩ hblank hstray⟩
  | define start both =>
    cases both with
    | false =>
      simp only [Lexer.step] at hstep
      split at hstep
      · cases hstep
      rename_i hc
      cases hclaims
      refine ⟨_, .colon hlayout ⟨rfl, rfl⟩ fun hafter => ?_⟩
      exact hc (List.cons_prefix_cons.1 hafter).1.symm
    | true =>
      simp only [Lexer.step] at hstep
      split at hstep
      · cases hstep
      rename_i hc
      cases hclaims
      refine ⟨_, .colon hlayout ⟨rfl, rfl⟩ fun hafter => ?_⟩
      exact hc (List.cons_prefix_cons.1 (List.cons_prefix_cons.1 hafter).2).1.symm
  | reference start name =>
    obtain ⟨rfl, hbracket, hline⟩ := hclaims
    simp only [Lexer.step] at hstep
    split at hstep
    · rename_i hc
      rw [hc]
      exact misspelled_blanks hlayout (blank_of_endReference hstep) (by simpa using hline) cs
    split at hstep
    · rename_i hc
      rw [hc]
      exact misspelled_reference hlayout _ (by simpa using hline) (by simp)
        (by simpa using hbracket)
    · cases hstep
  | literal quote start content =>
    obtain ⟨hquote, rfl, hcontent, hline⟩ := hclaims
    simp only [Lexer.step] at hstep
    split at hstep
    · cases hstep
    split at hstep
    · rename_i hc
      rw [hc]
      exact misspelled_literal hlayout _ (by simpa using hline) (by simp) hquote
        (by simpa using hcontent)
    · cases hstep

/-- Wherever a lexer is stopped, the text shows why. -/
theorem Reads.misspelled (h : s.Reads read) (hcomplete : s.complete cs = .error e) :
    ∃ e', Misspelled (read ++ cs) e' := by
  induction cs generalizing s read with
  | nil =>
    rw [List.append_nil]
    exact h.misspelled_finish hcomplete
  | cons c cs ih =>
    cases hstep : s.step c with
    | error e' => exact h.misspelled_step hstep cs
    | ok s' =>
      rw [complete_cons hstep] at hcomplete
      rw [List.append_cons]
      exact ih (h.step hstep) hcomplete

end Lexer

/-- **Misspelled texts.** A text has no tokens just when something is wrong with its words, and this
is what is reported. -/
theorem tokenize_eq_error_iff : tokenize text = .error e ↔ Misspelled text e := by
  constructor
  · intro h
    -- Something is wrong with the text. It is reported, and only one thing is, so it is `e`.
    obtain ⟨e', he'⟩ := Lexer.reads_init.misspelled h
    obtain rfl : e' = e := Except.error.inj (he'.tokenize_eq.symm.trans h)
    exact he'
  · exact Misspelled.tokenize_eq

end Typeahead.Grammar
