import Typeahead.Proofs.Grammar.Place

/-!
# Words and their layouts

A word of a grammar can be spelled in several ways, and between two words there may be blanks and
comments, or nothing. A text is read as the words that it lays out, whichever layout it has, and a
text that lays out no words is refused.

- **Spellings** (`Spelled`): blanks around a name, and either quote around a literal that it does not
  contain. A word that has a spelling is `Sound`, and a sound word has one (`Spelled.sound`,
  `Word.Sound.spelled`).
- **Layouts** (`Layout`, `Written`): a text from left to right. A comment ends with its line, and the
  last one may end with the text.
- **Places** (`Placed`): each token is spelled in the text where its place says.
- **Reading** (`tokenize_iff`): from a layout to tokens by a run of the lexer over each part
  (`Lexer.run_layout`), and back by what the lexer has claimed so far (`Lexer.Reads`).
-/

namespace Typeahead.Grammar

/-! ## Spellings -/

/-- A name that can stand between angle brackets: it has no blank at either end. -/
structure Nameable (name : List Char) : Prop where
  ne_nil : name ≠ []
  head : ∀ c ∈ name.head?, Text.isBlank c = false
  last : ∀ c ∈ name.getLast?, Text.isBlank c = false
  bracket : '>' ∉ name
  line : '\n' ∉ name

/-- A text that one of the quotes can enclose. -/
def Quotable (text : List Char) : Prop := '\n' ∉ text ∧ ('\x22' ∉ text ∨ '\x27' ∉ text)

/-- A word that can be spelled. -/
def Word.Sound : Word → Prop
  | .reference name => Nameable name.toList
  | .literal text => Quotable text
  | .define | .pipe => True

/-- The ways to spell a word. -/
inductive Spelled : Word → List Char → Prop where
  | reference {name : String} {left right : List Char} (h : Nameable name.toList)
      (hleft : ∀ c ∈ left, Text.isBlank c = true ∧ c ≠ '\n')
      (hright : ∀ c ∈ right, Text.isBlank c = true ∧ c ≠ '\n') :
      Spelled (.reference name) ('<' :: (left ++ name.toList ++ right) ++ ['>'])
  | literal {quote : Char} {text : List Char} (hquote : quote = '\x22' ∨ quote = '\x27')
      (htext : quote ∉ text) (hline : '\n' ∉ text) :
      Spelled (.literal text) (quote :: text ++ [quote])
  | define : Spelled .define [':', ':', '=']
  | pipe : Spelled .pipe ['|']

theorem Spelled.sound {w : Word} {cs : List Char} (h : Spelled w cs) : w.Sound := by
  cases h with
  | reference h _ _ => exact h
  | literal hquote htext hline =>
    refine ⟨hline, ?_⟩
    rcases hquote with rfl | rfl
    · exact .inl htext
    · exact .inr htext
  | define => trivial
  | pipe => trivial

theorem Word.Sound.spelled {w : Word} (h : w.Sound) : ∃ cs, Spelled w cs := by
  cases w with
  | reference name =>
    have bare : ∀ c ∈ ([] : List Char), Text.isBlank c = true ∧ c ≠ '\n' := by simp
    exact ⟨_, .reference h bare bare⟩
  | literal text =>
    obtain ⟨hline, htext | htext⟩ := h
    · exact ⟨_, .literal (.inl rfl) htext hline⟩
    · exact ⟨_, .literal (.inr rfl) htext hline⟩
  | define => exact ⟨_, .define⟩
  | pipe => exact ⟨_, .pipe⟩

/-! ## Layouts -/

/-- A text that lays out words, with blanks and comments between them. -/
inductive Layout : List Word → List Char → Prop where
  | nil : Layout [] []
  | blank {words : List Word} {cs : List Char} {c : Char} (h : Layout words cs)
      (hc : Text.isBlank c = true) : Layout words (cs ++ [c])
  | comment {words : List Word} {cs body : List Char} (h : Layout words cs) (hbody : '\n' ∉ body) :
      Layout words (cs ++ (';' :: body ++ ['\n']))
  | word {words : List Word} {cs spelling : List Char} {w : Word} (h : Layout words cs)
      (hw : Spelled w spelling) : Layout (words ++ [w]) (cs ++ spelling)

/-- A whole text that lays out words. Its end ends its last line. -/
inductive Written : List Word → List Char → Prop where
  | closed {words : List Word} {cs : List Char} (h : Layout words cs) : Written words cs
  | comment {words : List Word} {cs body : List Char} (h : Layout words cs) (hbody : '\n' ∉ body) :
      Written words (cs ++ ';' :: body)

theorem Layout.sound {words : List Word} {cs : List Char} (h : Layout words cs) :
    ∀ w ∈ words, w.Sound := by
  induction h with
  | nil => simp
  | blank _ _ ih => exact ih
  | comment _ _ ih => exact ih
  | word _ hw ih =>
    intro w hmem
    rcases List.mem_append.1 hmem with hmem | hmem
    · exact ih w hmem
    · rw [List.mem_singleton.1 hmem]
      exact hw.sound

theorem Written.sound {words : List Word} {cs : List Char} (h : Written words cs) :
    ∀ w ∈ words, w.Sound := by
  cases h with
  | closed h => exact h.sound
  | comment h _ => exact h.sound

/-- Sound words can be laid out. -/
theorem exists_layout {words : List Word} (h : ∀ w ∈ words, w.Sound) : ∃ cs, Layout words cs := by
  induction words using List.reverseRecOn with
  | nil => exact ⟨[], .nil⟩
  | append_singleton words w ih =>
    obtain ⟨cs, hcs⟩ := ih fun w hw => h w (List.mem_append_left _ hw)
    obtain ⟨spelling, hw⟩ := (h w (by simp)).spelled
    exact ⟨_, hcs.word hw⟩

/-! ## Tokens where they stand -/

/-- Each token is spelled in the text where its place says, behind the tokens before it. -/
def Placed (tokens : List Token) (text : List Char) : Prop :=
  ∀ earlier token later, tokens = earlier ++ token :: later → ∃ before spelling after,
    text = before ++ spelling ++ after ∧ Layout (earlier.map (·.word)) before ∧
      Spelled token.word spelling ∧ token.place = placeBehind before

theorem placed_nil (text : List Char) : Placed [] text := by
  intro earlier token later h
  simp at h

variable {tokens : List Token} {text : List Char}

theorem Placed.append (h : Placed tokens text) (more : List Char) : Placed tokens (text ++ more) := by
  intro earlier token later heq
  obtain ⟨before, spelling, after, rfl, hplace⟩ := h earlier token later heq
  exact ⟨before, spelling, after ++ more, by simp, hplace⟩

/-- One more token. -/
theorem Placed.concat (h : Placed tokens text) (hlayout : Layout (tokens.map (·.word)) text)
    {w : Word} {spelling : List Char} (hw : Spelled w spelling) :
    Placed (tokens ++ [⟨w, placeBehind text⟩]) (text ++ spelling) := by
  intro earlier token later heq
  rcases List.eq_nil_or_concat later with rfl | ⟨later, last, rfl⟩
  · obtain ⟨rfl, hlast⟩ := List.append_inj' heq rfl
    obtain rfl : _ = token := List.singleton_inj.1 hlast
    exact ⟨text, spelling, [], by simp, hlayout, hw, rfl⟩
  · rw [List.concat_eq_append, ← List.cons_append, ← List.append_assoc] at heq
    obtain ⟨rfl, -⟩ := List.append_inj' heq rfl
    exact h.append spelling earlier token later rfl

/-! ## Trimmed names -/

theorem dropWhile_blanks {left cs : List Char} (hleft : ∀ c ∈ left, Text.isBlank c = true)
    (hhead : ∀ c ∈ cs.head?, Text.isBlank c = false) :
    (left ++ cs).dropWhile Text.isBlank = cs := by
  rw [List.dropWhile_append_of_pos hleft]
  cases cs with
  | nil => rfl
  | cons c cs => simp [hhead c rfl]

/-- Blanks around a name are trimmed. -/
theorem Nameable.trim_eq {name left right : List Char} (h : Nameable name)
    (hleft : ∀ c ∈ left, Text.isBlank c = true) (hright : ∀ c ∈ right, Text.isBlank c = true) :
    Text.trim (left ++ name ++ right) = name := by
  have hhead : ∀ c ∈ (name ++ right).head?, Text.isBlank c = false := by
    rw [List.head?_append_of_ne_nil _ h.ne_nil]
    exact h.head
  have hlast : ∀ c ∈ name.reverse.head?, Text.isBlank c = false := by
    rw [List.head?_reverse]
    exact h.last
  rw [Text.trim, List.append_assoc, dropWhile_blanks hleft hhead, List.reverse_append,
    dropWhile_blanks (by simpa using hright) hlast, List.reverse_reverse]

/-- Once the blanks before it are dropped, a text is its trimmed text with blanks after it. -/
theorem exists_trim_append (cs : List Char) :
    ∃ right, cs.dropWhile Text.isBlank = Text.trim cs ++ right ∧
      ∀ c ∈ right, Text.isBlank c = true := by
  refine ⟨((cs.dropWhile Text.isBlank).reverse.takeWhile Text.isBlank).reverse, ?_,
    fun c hc => List.mem_takeWhile_imp (List.mem_reverse.1 hc)⟩
  rw [Text.trim, ← List.reverse_append, List.takeWhile_append_dropWhile, List.reverse_reverse]

/-- A text is its trimmed text with blanks around it. -/
theorem exists_append_trim (cs : List Char) : ∃ left right, cs = left ++ Text.trim cs ++ right ∧
    (∀ c ∈ left, Text.isBlank c = true) ∧ ∀ c ∈ right, Text.isBlank c = true := by
  obtain ⟨right, hright, hblank⟩ := exists_trim_append cs
  refine ⟨cs.takeWhile Text.isBlank, right, ?_, fun c hc => List.mem_takeWhile_imp hc, hblank⟩
  rw [List.append_assoc, ← hright, List.takeWhile_append_dropWhile]

/-- What is left of a text between brackets is a name, when anything is left. -/
theorem nameable_trim {cs : List Char} (hne : Text.trim cs ≠ []) (hbracket : '>' ∉ cs)
    (hline : '\n' ∉ cs) : Nameable (Text.trim cs) := by
  have hmem : ∀ c, c ∉ cs → c ∉ Text.trim cs := by
    intro c hc hmem
    obtain ⟨left, right, hcs, -, -⟩ := exists_append_trim cs
    rw [hcs] at hc
    exact hc (List.mem_append_left _ (List.mem_append_right _ hmem))
  refine ⟨hne, fun c hc => ?_, fun c hc => ?_, hmem _ hbracket, hmem _ hline⟩
  · obtain ⟨right, hright, -⟩ := exists_trim_append cs
    have hfirst := List.head?_dropWhile_not Text.isBlank cs
    rw [hright, List.head?_append_of_ne_nil _ hne, hc] at hfirst
    exact hfirst
  · rw [Text.trim, List.getLast?_reverse] at hc
    have hfirst := List.head?_dropWhile_not Text.isBlank (cs.dropWhile Text.isBlank).reverse
    rw [hc] at hfirst
    exact hfirst

/-! ## From a layout to its tokens -/

namespace Lexer

/-- The words of the tokens read. -/
def words (s : Lexer) : List Word := s.tokens.toList.map (·.word)

@[simp] theorem words_emit (s : Lexer) (w : Word) (start : Place) :
    (s.emit w start).words = s.words ++ [w] := by
  simp [words, emit]

theorem run_append {s s' : Lexer} {cs : List Char} (h : s.run cs = .ok s') (cs' : List Char) :
    s.run (cs ++ cs') = s'.run cs' := by
  induction cs generalizing s with
  | nil =>
    cases h
    rfl
  | cons c cs ih =>
    rw [run] at h
    rw [List.cons_append, run]
    cases hstep : s.step c with
    | error e =>
      rw [hstep] at h
      cases h
    | ok s₁ =>
      rw [hstep] at h
      exact ih h

theorem run_comment_body {s : Lexer} (hs : s.mode = .comment) {body : List Char}
    (hbody : '\n' ∉ body) : s.run body = .ok { s with place := s.placeAfter body } := by
  induction body generalizing s with
  | nil => rfl
  | cons c body ih =>
    simp only [List.mem_cons, not_or] at hbody
    rw [run, step, hs]
    simp only [if_neg (Ne.symm hbody.1)]
    exact ih rfl hbody.2

theorem run_comment {s : Lexer} (hs : s.mode = .between) {body : List Char} (hbody : '\n' ∉ body) :
    s.run (';' :: body) =
      .ok { s with mode := .comment, place := s.placeAfter (';' :: body) } := by
  have hopen : s.step ';' = .ok { s with mode := .comment, place := s.place.next ';' } := by
    rw [step, hs]
    rfl
  rw [run, hopen]
  exact run_comment_body rfl hbody

theorem run_reference {s : Lexer} {start : Place} {text : List Char}
    (hs : s.mode = .reference start text) {body : List Char} (hbracket : '>' ∉ body)
    (hline : '\n' ∉ body) :
    s.run body = .ok { s with
      mode := .reference start (body.reverse ++ text), place := s.placeAfter body } := by
  induction body generalizing s text with
  | nil =>
    obtain ⟨_, _, _⟩ := s
    cases hs
    rfl
  | cons c body ih =>
    simp only [List.mem_cons, not_or] at hbracket hline
    rw [run, step, hs]
    simp only [if_neg (Ne.symm hbracket.1), if_neg (Ne.symm hline.1)]
    rw [ih rfl hbracket.2 hline.2]
    simp [placeAfter]

theorem run_literal {s : Lexer} {quote : Char} {start : Place} {text : List Char}
    (hs : s.mode = .literal quote start text) {body : List Char} (hquote : quote ∉ body)
    (hline : '\n' ∉ body) :
    s.run body = .ok { s with
      mode := .literal quote start (body.reverse ++ text), place := s.placeAfter body } := by
  induction body generalizing s text with
  | nil =>
    obtain ⟨_, _, _⟩ := s
    cases hs
    rfl
  | cons c body ih =>
    simp only [List.mem_cons, not_or] at hquote hline
    rw [run, step, hs]
    simp only [if_neg (Ne.symm hquote.1), if_neg (Ne.symm hline.1)]
    rw [ih rfl hquote.2 hline.2]
    simp [placeAfter]

/-- A bracket ends a reference, whose name is what it encloses without the blanks around it. -/
theorem run_close_reference {s : Lexer} {start : Place} (hs : s.mode = .reference start [])
    {name : String} {body : List Char} (hbracket : '>' ∉ body) (hline : '\n' ∉ body)
    (hname : Text.trim body = name.toList) (hne : name.toList ≠ []) :
    s.run (body ++ ['>']) = .ok { s.emit (.reference name) start with
      place := s.placeAfter (body ++ ['>']) } := by
  have hempty : name.toList.isEmpty = false := by simpa using hne
  rw [run_append (run_reference hs hbracket hline)]
  simp [run, step, endReference, hname, hempty, placeAfter, emit]

/-- The quote that began a literal ends it. -/
theorem run_close_literal {s : Lexer} {quote : Char} {start : Place}
    (hs : s.mode = .literal quote start []) {body : List Char} (hquote : quote ∉ body)
    (hline : '\n' ∉ body) :
    s.run (body ++ [quote]) = .ok { s.emit (.literal body) start with
      place := s.placeAfter (body ++ [quote]) } := by
  rw [run_append (run_literal hs hquote hline)]
  simp [run, step, placeAfter, emit]

theorem step_bracket {s : Lexer} (hs : s.mode = .between) :
    s.step '<' = .ok { s with mode := .reference s.place [], place := s.place.next '<' } := by
  rw [step, hs]
  rfl

theorem step_quote {s : Lexer} (hs : s.mode = .between) {quote : Char}
    (hquote : quote = '\x22' ∨ quote = '\x27') :
    s.step quote = .ok { s with mode := .literal quote s.place [], place := s.place.next quote } := by
  rw [step, hs]
  rcases hquote with rfl | rfl <;> rfl

/-- A spelling is read as its word, which begins where the lexer stood. -/
theorem run_spelled {s : Lexer} (hs : s.mode = .between) {w : Word} {cs : List Char}
    (h : Spelled w cs) :
    s.run cs = .ok { s.emit w s.place with place := s.placeAfter cs } := by
  cases h with
  | @reference name left right h hleft hright =>
    have hname : Text.trim (left ++ name.toList ++ right) = name.toList :=
      h.trim_eq (fun c hc => (hleft c hc).1) fun c hc => (hright c hc).1
    have hbracket : '>' ∉ left ++ name.toList ++ right := by
      have hblank : ¬ Text.isBlank '>' = true := by decide
      simp only [List.mem_append, not_or]
      exact ⟨⟨fun hc => hblank (hleft _ hc).1, h.bracket⟩, fun hc => hblank (hright _ hc).1⟩
    have hline : '\n' ∉ left ++ name.toList ++ right := by
      simp only [List.mem_append, not_or]
      exact ⟨⟨fun hc => (hleft _ hc).2 rfl, h.line⟩, fun hc => (hright _ hc).2 rfl⟩
    rw [List.cons_append, run, step_bracket hs]
    exact run_close_reference rfl hbracket hline hname h.ne_nil
  | @literal quote text hquote htext hline =>
    rw [List.cons_append, run, step_quote hs hquote]
    exact run_close_literal rfl htext hline
  | define =>
    rw [run, step, hs]
    rfl
  | pipe =>
    rw [run, step, hs]
    rfl

theorem run_blank {s : Lexer} (hs : s.mode = .between) {c : Char} (hc : Text.isBlank c = true) :
    s.run [c] = .ok { s with place := s.placeAfter [c] } := by
  rw [run, step, hs]
  simp [begin, hc, run, placeAfter]

/-- A comment ends with its line. -/
theorem run_comment_line {s : Lexer} (hs : s.mode = .between) {body : List Char}
    (hbody : '\n' ∉ body) : s.run (';' :: body ++ ['\n']) =
      .ok { s with place := s.placeAfter (';' :: body ++ ['\n']) } := by
  rw [run_append (run_comment hs hbody), run, step]
  simp [run, placeAfter, ← hs]

/-- A layout is read as its words, each where it stands, with no token left open. -/
theorem run_layout {words : List Word} {cs : List Char} (h : Layout words cs) :
    ∃ s, init.run cs = .ok s ∧ s.mode = .between ∧ s.words = words ∧
      Placed s.tokens.toList cs := by
  induction h with
  | nil => exact ⟨init, rfl, rfl, rfl, placed_nil _⟩
  | blank _ hc ih =>
    obtain ⟨s, hrun, hmode, hwords, hplaced⟩ := ih
    exact ⟨_, (run_append hrun _).trans (run_blank hmode hc), hmode, hwords, hplaced.append _⟩
  | comment _ hbody ih =>
    obtain ⟨s, hrun, hmode, hwords, hplaced⟩ := ih
    exact ⟨_, (run_append hrun _).trans (run_comment_line hmode hbody), hmode, hwords,
      hplaced.append _⟩
  | @word _ cs _ w h hw ih =>
    obtain ⟨s, hrun, hmode, rfl, hplaced⟩ := ih
    refine ⟨_, (run_append hrun _).trans (run_spelled hmode hw), rfl, words_emit s w s.place, ?_⟩
    have htokens : (s.emit w s.place).tokens.toList =
        s.tokens.toList ++ [⟨w, placeBehind cs⟩] := by
      simp [emit, place_of_run_init hrun]
    exact htokens ▸ hplaced.concat h hw

end Lexer

/-! ## From tokens back to a layout -/

/-- What a token or a comment that has begun claims. -/
def Mode.Claims : Mode → List Char → Prop
  | .between, cs => cs = []
  | .comment, cs => ∃ body, cs = ';' :: body ∧ '\n' ∉ body
  | .define _ false, cs => cs = [':']
  | .define _ true, cs => cs = [':', ':']
  | .reference _ text, cs => cs = '<' :: text.reverse ∧ '>' ∉ text ∧ '\n' ∉ text
  | .literal quote _ text, cs =>
    (quote = '\x22' ∨ quote = '\x27') ∧ cs = quote :: text.reverse ∧ quote ∉ text ∧ '\n' ∉ text

namespace Lexer

/-- The lexer has read `cs`: a layout of its words, and what its mode claims. -/
def Reads (s : Lexer) (cs : List Char) : Prop :=
  ∃ before claimed, cs = before ++ claimed ∧ Layout s.words before ∧ s.mode.Claims claimed

theorem reads_init : init.Reads [] := ⟨[], [], rfl, .nil, rfl⟩

/-- Between tokens, all that was read is laid out. -/
theorem reads_of_layout {s : Lexer} {cs : List Char} (h : Layout s.words cs)
    (hs : s.mode = .between) : s.Reads cs :=
  ⟨cs, [], (List.append_nil cs).symm, h, by rw [hs]; rfl⟩

theorem reads_emit {s : Lexer} {cs spelling : List Char} {w : Word} (h : Layout s.words cs)
    (hw : Spelled w spelling) (start : Place) : (s.emit w start).Reads (cs ++ spelling) := by
  refine reads_of_layout ?_ rfl
  rw [words_emit]
  exact h.word hw

/-- A character that no token has claimed begins one, unless it is blank. -/
theorem reads_begin {s s' : Lexer} {cs : List Char} {start : Place} {c : Char}
    (h : Layout s.words cs) (hs : s.mode = .between) (hbegin : s.begin start c = .ok s') :
    s'.Reads (cs ++ [c]) := by
  unfold Lexer.begin at hbegin
  split at hbegin
  · rename_i hblank
    cases hbegin
    exact reads_of_layout (h.blank hblank) hs
  split at hbegin
  · rename_i hc
    cases hbegin
    exact ⟨cs, [c], rfl, h, [], by rw [hc], List.not_mem_nil⟩
  split at hbegin
  · rename_i hc
    cases hbegin
    rw [hc]
    exact reads_emit h .pipe start
  split at hbegin
  · rename_i hc
    cases hbegin
    exact ⟨cs, [c], rfl, h, by rw [hc]; rfl⟩
  split at hbegin
  · rename_i hc
    cases hbegin
    exact ⟨cs, [c], rfl, h, by rw [hc]; rfl, List.not_mem_nil, List.not_mem_nil⟩
  split at hbegin
  · rename_i hc
    cases hbegin
    exact ⟨cs, [c], rfl, h, hc, rfl, List.not_mem_nil, List.not_mem_nil⟩
  · cases hbegin

/-- A reference that is ended has a name, with blanks around it. -/
theorem reads_endReference {s s' : Lexer} {cs body : List Char} {start : Place}
    (h : Layout s.words cs) (hbracket : '>' ∉ body) (hline : '\n' ∉ body)
    (hend : s.endReference start body.reverse = .ok s') :
    s'.Reads (cs ++ ('<' :: body ++ ['>'])) := by
  simp only [Lexer.endReference, List.reverse_reverse] at hend
  split at hend
  · cases hend
  rename_i hne
  cases hend
  have hname : Nameable (String.ofList (Text.trim body)).toList := by
    rw [String.toList_ofList]
    exact nameable_trim (by simpa using hne) hbracket hline
  obtain ⟨left, right, hbody, hleft, hright⟩ := exists_append_trim body
  have hlines : ∀ c ∈ body, c ≠ '\n' := by
    rintro c hc rfl
    exact hline hc
  have hspelled := Spelled.reference hname
    (fun c (hc : c ∈ left) => ⟨hleft c hc, hlines c (by rw [hbody]; simp [hc])⟩)
    (fun c (hc : c ∈ right) => ⟨hright c hc, hlines c (by rw [hbody]; simp [hc])⟩)
  rw [String.toList_ofList, ← hbody] at hspelled
  exact reads_emit h hspelled start

section

variable {s s' : Lexer} {before : List Char} {c : Char} {start : Place} {text : List Char}
  (h : Layout s.words before) (hstep : s.step c = .ok s')

include h hstep

/-- A comment ends with its line. -/
theorem reads_comment {body : List Char} (hbody : '\n' ∉ body) (hs : s.mode = .comment) :
    s'.Reads (before ++ (';' :: body ++ [c])) := by
  simp only [Lexer.step, hs] at hstep
  by_cases hc : c = '\n'
  · simp only [if_pos hc] at hstep
    cases hstep
    rw [hc]
    exact reads_of_layout (h.comment hbody) rfl
  · simp only [if_neg hc] at hstep
    cases hstep
    exact ⟨before, _, rfl, h, body ++ [c], rfl, by simp [hbody, Ne.symm hc]⟩

theorem reads_define {both : Bool} (hs : s.mode = .define start both) :
    s'.Reads (before ++ ((if both then [':', ':'] else [':']) ++ [c])) := by
  cases both with
  | false =>
    simp only [Lexer.step, hs] at hstep
    split at hstep
    · rename_i hc
      cases hstep
      rw [hc]
      exact ⟨before, _, rfl, h, rfl⟩
    · cases hstep
  | true =>
    simp only [Lexer.step, hs] at hstep
    split at hstep
    · rename_i hc
      cases hstep
      rw [hc]
      exact reads_emit h .define start
    · cases hstep

theorem reads_reference (hbracket : '>' ∉ text) (hline : '\n' ∉ text)
    (hs : s.mode = .reference start text) :
    s'.Reads (before ++ ('<' :: text.reverse ++ [c])) := by
  simp only [Lexer.step, hs] at hstep
  split at hstep
  · rename_i hc
    rw [← text.reverse_reverse] at hstep
    rw [hc]
    exact reads_endReference (s := { s with place := s.place.next c }) h (by simpa using hbracket)
      (by simpa using hline) hstep
  · rename_i hc
    split at hstep
    · cases hstep
    · rename_i hc'
      cases hstep
      exact ⟨before, _, rfl, h, by simp, by simp [hbracket, Ne.symm hc],
        by simp [hline, Ne.symm hc']⟩

theorem reads_literal {quote : Char} (hquote : quote = '\x22' ∨ quote = '\x27')
    (htext : quote ∉ text) (hline : '\n' ∉ text) (hs : s.mode = .literal quote start text) :
    s'.Reads (before ++ (quote :: text.reverse ++ [c])) := by
  simp only [Lexer.step, hs] at hstep
  split at hstep
  · rename_i hc
    cases hstep
    rw [hc]
    exact reads_emit h (.literal hquote (by simpa using htext) (by simpa using hline)) start
  · rename_i hc
    split at hstep
    · cases hstep
    · rename_i hc'
      cases hstep
      exact ⟨before, _, rfl, h, hquote, by simp, by simp [htext, Ne.symm hc],
        by simp [hline, Ne.symm hc']⟩

end

/-- One more character has been read. -/
theorem Reads.step {s s' : Lexer} {cs : List Char} {c : Char} (h : s.Reads cs)
    (hstep : s.step c = .ok s') : s'.Reads (cs ++ [c]) := by
  obtain ⟨before, claimed, rfl, hlayout, hclaims⟩ := h
  rw [List.append_assoc]
  cases hmode : s.mode with
  | between =>
    rw [hmode] at hclaims
    cases hclaims
    simp only [Lexer.step, hmode] at hstep
    exact reads_begin (s := { s with mode := .between, place := s.place.next c }) hlayout rfl hstep
  | comment =>
    rw [hmode] at hclaims
    obtain ⟨body, rfl, hbody⟩ := hclaims
    exact reads_comment hlayout hstep hbody hmode
  | define start both =>
    have hclaimed : claimed = if both then [':', ':'] else [':'] := by
      rw [hmode] at hclaims
      cases both <;> exact hclaims
    rw [hclaimed]
    exact reads_define hlayout hstep hmode
  | reference start text =>
    rw [hmode] at hclaims
    obtain ⟨rfl, hbracket, hline⟩ := hclaims
    exact reads_reference hlayout hstep hbracket hline hmode
  | literal quote start text =>
    rw [hmode] at hclaims
    obtain ⟨hquote, rfl, htext, hline⟩ := hclaims
    exact reads_literal hlayout hstep hquote htext hline hmode

theorem Reads.run {s s' : Lexer} {cs cs' : List Char} (h : s.Reads cs) (hrun : s.run cs' = .ok s') :
    s'.Reads (cs ++ cs') := by
  induction cs' generalizing s cs with
  | nil =>
    cases hrun
    rwa [List.append_nil]
  | cons c cs' ih =>
    rw [Lexer.run] at hrun
    cases hstep : s.step c with
    | error e =>
      rw [hstep] at hrun
      cases hrun
    | ok s₁ =>
      rw [hstep] at hrun
      rw [List.append_cons]
      exact ih (h.step hstep) hrun

/-- A lexer may finish between tokens and in a comment. -/
theorem Reads.finish {s : Lexer} {cs : List Char} (h : s.Reads cs) {tokens : List Token}
    (hfinish : s.finish = .ok tokens) : Written (tokens.map (·.word)) cs := by
  obtain ⟨before, claimed, rfl, hlayout, hclaims⟩ := h
  obtain ⟨mode, place, read⟩ := s
  cases mode with
  | between =>
    cases hfinish
    cases hclaims
    rw [List.append_nil]
    exact .closed hlayout
  | comment =>
    cases hfinish
    obtain ⟨body, rfl, hbody⟩ := hclaims
    exact .comment hlayout hbody
  | define | reference | literal => cases hfinish

end Lexer

/-- What is written has tokens, each where it stands. -/
theorem Written.tokenize {words : List Word} {cs : List Char} (h : Written words cs) :
    ∃ tokens, tokenize cs = .ok tokens ∧ tokens.map (·.word) = words ∧ Placed tokens cs := by
  unfold Grammar.tokenize
  cases h with
  | closed h =>
    obtain ⟨s, hrun, hmode, hwords, hplaced⟩ := Lexer.run_layout h
    refine ⟨s.tokens.toList, ?_, hwords, hplaced⟩
    rw [hrun]
    simp only [Lexer.finish, hmode]
  | comment h hbody =>
    obtain ⟨s, hrun, hmode, hwords, hplaced⟩ := Lexer.run_layout h
    refine ⟨s.tokens.toList, ?_, hwords, hplaced.append _⟩
    rw [Lexer.run_append hrun, Lexer.run_comment hmode hbody]
    rfl

/-- **Layouts.** A text is read as the words that it lays out, and one that lays out none is
refused. -/
theorem tokenize_iff {words : List Word} {cs : List Char} :
    (∃ tokens, tokenize cs = .ok tokens ∧ tokens.map (·.word) = words) ↔ Written words cs := by
  constructor
  · rintro ⟨tokens, htokens, rfl⟩
    unfold tokenize at htokens
    split at htokens
    · rename_i s hrun
      exact (Lexer.reads_init.run hrun).finish htokens
    · cases htokens
  · intro h
    obtain ⟨tokens, htokens, hwords, -⟩ := h.tokenize
    exact ⟨tokens, htokens, hwords⟩

end Typeahead.Grammar
