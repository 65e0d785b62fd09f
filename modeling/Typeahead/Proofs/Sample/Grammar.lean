import Typeahead.Proofs.Grammar.Written
import Typeahead.Sample

/-!
# The grammar of the sample

The text of the sample grammar is a table: a line for every rule, with the names in one column and
the bodies in another. Its words and the blanks behind each of them are its cells
(`Grammar.Draft.cells`), and cells lay out their words (`Grammar.Layout.cells`).

- **Rules** (`Sample.rules`, by their lines in `Sample.Line`): what the text is compiled to
  (`Sample.compile_grammar`).
- **No left recursion**: a rule begins with rules that stand further down (`Sample.lt_of_leadsTo`).
-/

namespace Typeahead

namespace Grammar

/-- A word as it is spelled with no blanks around a name and double quotes around a literal. -/
def Word.spelling : Word → List Char
  | .reference name => '<' :: name.toList ++ ['>']
  | .literal text => '\x22' :: text ++ ['\x22']
  | .define => [':', ':', '=']
  | .pipe => ['|']

/-- A word that can be spelled so. -/
def Word.Plain : Word → Prop
  | .reference name => Nameable name.toList
  | .literal text => '\x22' ∉ text ∧ '\n' ∉ text
  | .define | .pipe => True

instance (name : List Char) : Decidable (Nameable name) :=
  decidable_of_iff (name ≠ [] ∧ name.head?.all (!Text.isBlank ·) = true ∧
      name.getLast?.all (!Text.isBlank ·) = true ∧ '>' ∉ name ∧ '\n' ∉ name) <| by
    simp only [Option.all_eq_true, Bool.not_eq_true']
    exact ⟨fun ⟨h, hhead, hlast, hbracket, hline⟩ => ⟨h, hhead, hlast, hbracket, hline⟩,
      fun h => ⟨h.ne_nil, h.head, h.last, h.bracket, h.line⟩⟩

instance : DecidablePred Word.Plain
  | .reference _ => inferInstanceAs (Decidable (Nameable _))
  | .literal _ => inferInstanceAs (Decidable (_ ∧ _))
  | .define => inferInstanceAs (Decidable True)
  | .pipe => inferInstanceAs (Decidable True)

theorem Word.Plain.spelled {w : Word} (h : w.Plain) : Spelled w w.spelling := by
  cases w with
  | reference name =>
    have bare : ∀ c ∈ ([] : List Char), Text.isBlank c = true ∧ c ≠ '\n' := by simp
    simpa [spelling] using Spelled.reference h bare bare
  | literal text => exact .literal (.inl rfl) h.1 h.2
  | define => exact .define
  | pipe => exact .pipe

theorem Layout.blanks {words : List Word} {cs gap : List Char} (h : Layout words cs)
    (hgap : ∀ c ∈ gap, Text.isBlank c = true) : Layout words (cs ++ gap) := by
  induction gap generalizing cs with
  | nil => simpa using h
  | cons c gap ih =>
    rw [List.forall_mem_cons] at hgap
    simpa using ih (h.blank hgap.1) hgap.2

/-- Words, each with the blanks behind it, are laid out. -/
theorem Layout.cells {words : List Word} {cs : List Char} (h : Layout words cs)
    {cells : List (Word × List Char)}
    (hcells : ∀ cell ∈ cells, cell.1.Plain ∧ cell.2.all Text.isBlank = true) :
    Layout (words ++ cells.map (·.1))
      (cs ++ cells.flatMap fun cell => cell.1.spelling ++ cell.2) := by
  induction cells generalizing words cs with
  | nil => simpa using h
  | cons cell cells ih =>
    rw [List.forall_mem_cons] at hcells
    obtain ⟨⟨hplain, hgap⟩, hcells⟩ := hcells
    simpa using ih ((h.word hplain.spelled).blanks (List.all_eq_true.1 hgap)) hcells

/-- The words of a rule that stands on a line of its own. The body of the rule begins in one column
for all of them. -/
def Draft.cells (d : Draft) : List (Word × List Char) :=
  d.words.zip (List.replicate (17 - d.name.length) ' ' ::
    List.replicate (d.words.length - 2) [' '] ++ [['\n']])

end Grammar

namespace Sample

open Grammar

/-! The lines of the grammar, each with a rule. -/

namespace Line

abbrev start : Fin 13 := 0
abbrev composition : Fin 13 := 1
abbrev word : Fin 13 := 2
abbrev assignee : Fin 13 := 3
abbrev tag : Fin 13 := 4
abbrev chars : Fin 13 := 5
abbrev char : Fin 13 := 6
abbrev letter : Fin 13 := 7
abbrev upper : Fin 13 := 8
abbrev lower : Fin 13 := 9
abbrev digit : Fin 13 := 10
abbrev pause : Fin 13 := 11
abbrev pauseSymbol : Fin 13 := 12

end Line

/-- An alternative for each of some characters. -/
def oneOf (cs : List Char) : List (List (Item (Fin 13))) := cs.map fun c => [.literal [c]]

open Line in
/-- The rules of the sample. -/
def rules : Grammar where
  size := 13
  size_pos := by decide
  rules := #v[
    ⟨"SYNTAX", .silent, [[.reference composition]]⟩,
    ⟨"composition", .node, [[.reference word, .reference pause, .reference composition],
      [.reference word, .reference pause], [.reference word]]⟩,
    ⟨"word", .node, [[.reference chars], [.reference assignee], [.reference tag]]⟩,
    ⟨"assignee", .node, [[.literal ['@'], .reference chars], [.literal ['@']]]⟩,
    ⟨"tag", .node, [[.literal ['#'], .reference chars], [.literal ['#']]]⟩,
    ⟨"CHARS", .silent, [[.reference char, .reference chars], [.reference char]]⟩,
    ⟨"CHAR", .silent,
      [[.reference letter], [.reference digit], [.literal ['_']], [.literal ['-']]]⟩,
    ⟨"LETTER", .silent, [[.reference upper], [.reference lower]]⟩,
    ⟨"UPPER_LETTER", .silent, oneOf "ABCDEFGHIJKLMNOPQRSTUVWXYZ".toList⟩,
    ⟨"LOWER_LETTER", .silent, oneOf "abcdefghijklmnopqrstuvwxyz".toList⟩,
    ⟨"DIGIT", .silent, oneOf "0123456789".toList⟩,
    ⟨"BREAK", .silent, [[.reference pauseSymbol, .reference pause], [.reference pauseSymbol]]⟩,
    ⟨"BREAK_SYMBOL", .silent, oneOf [',', '.', ';', ' ']⟩]

/-- The words of the text, each with the blanks behind it. -/
def cells : List (Word × List Char) := rules.drafts.flatMap Draft.cells

/-- The text, as its cells make it. -/
def table : List Char := '\n' :: cells.flatMap fun cell => cell.1.spelling ++ cell.2

set_option maxRecDepth 20000 in
/-- The text is its table. It is written in pieces, which are compared one by one. -/
theorem toList_grammar : grammar.toList = table := by
  let piece (i j : Nat) : List Char := (table.take j).drop i
  have pieces : grammar = String.ofList (piece 0 406) ++ String.ofList (piece 406 477) ++
      String.ofList (piece 477 531) ++ String.ofList (piece 531 583) ++
      String.ofList (piece 583 654) ++ String.ofList (piece 654 708) ++
      String.ofList (piece 708 760) ++ String.ofList (piece 760 819) ++
      String.ofList (piece 819 949) := by
    rfl
  rw [pieces]
  simp only [← String.ofList_append, String.toList_ofList]
  decide +kernel

theorem words_cells : cells.map (·.1) = rules.words := by decide +kernel

theorem plain_cells : ∀ cell ∈ cells, cell.1.Plain ∧ cell.2.all Text.isBlank = true := by
  have plain : ∀ d ∈ rules.drafts, ∀ cell ∈ d.cells,
      cell.1.Plain ∧ cell.2.all Text.isBlank = true := by
    decide +kernel
  intro cell hcell
  obtain ⟨d, hd, hcell⟩ := List.mem_flatMap.1 hcell
  exact plain d hd cell hcell

theorem written_grammar : Written rules.words grammar.toList := by
  have first : Layout [] ['\n'] := Layout.nil.blank (by decide)
  rw [toList_grammar, ← words_cells]
  exact .closed (first.cells plain_cells)

/-- A rule begins with rules that stand further down. -/
theorem lt_of_leadsTo {r r' : rules.RuleId} (h : rules.LeadsTo r r') : r < r' := by
  have down : ∀ r, ∀ r' ∈ rules.leftmost.get r, r < r' := by decide +kernel
  exact down r r' (mem_leftmost.2 h)

theorem leftRecursion?_rules : rules.leftRecursion? = none := by
  rw [leftRecursion?_eq_none_iff, enters_eq_leadsTo]
  have down : ∀ r r', Relation.TransGen rules.LeadsTo r r' → r < r' := by
    intro r r' h
    induction h with
    | single h => exact lt_of_leadsTo h
    | tail _ h ih => exact lt_trans ih (lt_of_leadsTo h)
  exact fun r hr => lt_irrefl r (down r r hr)

theorem compile_grammar : compile grammar = .ok rules := by
  have nodup : (rules.drafts.map (·.name)).Nodup := by decide +kernel
  have formed : ∀ d ∈ rules.drafts, d.emission = Emission.ofName d.name ∧ d.alternatives ≠ [] ∧
      [] ∉ d.alternatives := by
    decide +kernel
  refine compile_iff.2 ⟨nodup, fun d hd => ?_, leftRecursion?_rules, written_grammar⟩
  obtain ⟨emission, ne_nil, nil_not_mem⟩ := formed d hd
  exact ⟨emission, ne_nil, nil_not_mem⟩

end Sample

end Typeahead
