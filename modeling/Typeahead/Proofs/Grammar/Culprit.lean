import Typeahead.Proofs.Grammar.Compile
import Typeahead.Proofs.Grammar.Draft
import Typeahead.Proofs.Grammar.Misspelling

/-!
# Where a refusal points

A refused grammar text is reported with a place when its words are misspelled or when one of them is
no part of a rule. The place is that of the character to look at.

- **Misplaced words** (`Misplaced`, `Draft.misplaced_of_ofTokens`): the first word must begin a rule,
  and from then on only a `::=` can be out of place.
- **Other refusals** (`compile_error_place`): what is checked once the rules are known is reported
  with names and without a place.
- **Culprits** (`Culprit`, `compile_culprit`): a misspelled text shows its culprit by itself; a
  misplaced word is found in the text by the place of its token (`Placed`).
-/

namespace Typeahead.Grammar

/-- The place that a refusal reports, if it reports one. -/
def Error.place? : Error → Option Place
  | .unexpected _ p | .openLiteral p | .openReference p | .expectedRule p => some p
  | .empty | .duplicate _ | .undefined _ _ | .emptyAlternative _ | .leftRecursive _ => none

/-! ## Words that are no part of a rule -/

/-- The last of the words is no name. -/
def Unnamed (words : List Word) : Prop := ∀ name, words.getLast? ≠ some (.reference name)

/-- Behind the words `earlier` and before the words `later`, `w` is no part of a rule: it begins none
where the first should begin, or it is a `::=` that no name stands before. -/
def Misplaced (earlier : List Word) (w : Word) (later : List Word) : Prop :=
  (earlier = [] ∧ ¬ ∃ name rest, w :: later = .reference name :: .define :: rest) ∨
    (w = .define ∧ Unnamed earlier)

theorem unnamed_append {earlier words : List Word} (h : Unnamed words)
    (hearlier : words = [] → Unnamed earlier) : Unnamed (earlier ++ words) := by
  rcases List.eq_nil_or_concat words with rfl | ⟨before, last, rfl⟩
  · rw [List.append_nil]
    exact hearlier rfl
  · intro name hlast
    apply h name
    simpa [← List.append_assoc] using hlast

namespace Draft

variable {drafts : List Draft} {body : Option Body} {b : Body} {tokens : List Token} {e : Error}

/-- The error is at a `::=` that no name stands before. -/
def StrayDefine (tokens : List Token) (e : Error) : Prop :=
  ∃ earlier p later, tokens = earlier ++ ⟨.define, p⟩ :: later ∧ e = .expectedRule p ∧
    Unnamed (earlier.map (·.word))

theorem StrayDefine.append (h : StrayDefine tokens e) (read : List Token)
    (hread : Unnamed (read.map (·.word)) ∨ InBody tokens) : StrayDefine (read ++ tokens) e := by
  obtain ⟨earlier, p, later, rfl, he, hearlier⟩ := h
  refine ⟨read ++ earlier, p, later, (List.append_assoc _ _ _).symm, he, ?_⟩
  rw [List.map_append]
  refine unnamed_append hearlier fun hnil => hread.resolve_right fun hbody => ?_
  rw [List.map_eq_nil_iff.1 hnil] at hbody
  exact hbody _ rfl rfl

theorem place?_of_close (h : close drafts body = .error e) : e.place? = none := by
  unfold close at h
  split at h
  · cases h
  split at h
  · cases h
  rename_i hclose
  cases h
  unfold Body.close at hclose
  split at hclose
  · cases hclose
    rfl
  · cases hclose

/-- A rule that has begun goes on up to a `::=` that no name stands before. -/
theorem strayDefine_of_collect (h : collect drafts (some b) tokens = .error e)
    (hp : e.place?.isSome) : StrayDefine tokens e := by
  generalize hbody : some b = body at h
  fun_induction collect drafts body tokens generalizing b with
  | case1 drafts body =>
    cases hclose : close drafts body with
    | error e' =>
      rw [hclose] at h
      cases h
      simp [place?_of_close hclose] at hp
    | ok drafts' =>
      rw [hclose] at h
      cases h
  | case2 drafts body name place place' rest drafts' hclose ih =>
    exact (ih rfl h).append [⟨.reference name, place⟩, ⟨.define, place'⟩] (.inl (by simp [Unnamed]))
  | case3 drafts body name place place' rest e' hclose =>
    cases h
    simp [place?_of_close hclose] at hp
  | case4 => cases hbody
  | case5 drafts place rest b _ =>
    cases h
    exact ⟨[], place, rest, rfl, rfl, by simp [Unnamed]⟩
  | case6 drafts place rest b _ ih =>
    exact (ih rfl h).append [⟨.pipe, place⟩] (.inl (by simp [Unnamed]))
  | case7 drafts place rest b name hrest ih =>
    -- A name that a `::=` follows would have begun a rule.
    refine (ih rfl h).append [⟨.reference name, place⟩] (.inr ?_)
    rintro ⟨word, place'⟩ hnext rfl
    exact hrest name place' rest.tail (List.eq_cons_of_mem_head? hnext) rfl
  | case8 drafts place rest b text _ ih =>
    exact (ih rfl h).append [⟨.literal text, place⟩] (.inl (by simp [Unnamed]))

/-- Where tokens cannot be cut into rules, the place reported is that of a misplaced word. -/
theorem misplaced_of_ofTokens (h : ofTokens tokens = .error e) (hp : e.place?.isSome) :
    ∃ earlier token later, tokens = earlier ++ token :: later ∧ e = .expectedRule token.place ∧
      Misplaced (earlier.map (·.word)) token.word (later.map (·.word)) := by
  unfold ofTokens collect at h
  split at h
  · cases h
  · rename_i name place place' rest
    obtain ⟨earlier, p, later, rfl, he, hearlier⟩ := strayDefine_of_collect h hp
    have hbegun : Unnamed [.reference name, .define] := by simp [Unnamed]
    exact ⟨⟨.reference name, place⟩ :: ⟨.define, place'⟩ :: earlier, ⟨.define, p⟩, later, rfl, he,
      .inr ⟨rfl, unnamed_append hearlier fun _ => hbegun⟩⟩
  · rename_i word place rest hnone
    cases h
    refine ⟨[], ⟨word, place⟩, rest, rfl, rfl, .inl ⟨rfl, ?_⟩⟩
    rintro ⟨name, later, heq⟩
    obtain ⟨rfl, hrest⟩ := List.cons_eq_cons.1 heq
    obtain ⟨⟨_, place'⟩, rest, rfl, rfl, -⟩ := List.map_eq_cons_iff.1 hrest
    exact hnone name place' rest rfl rfl

end Draft

/-! ## Refusals without a place -/

theorem exists_of_mapM_error {ε α β : Type} {f : α → Except ε β} {as : List α} {e : ε}
    (h : as.mapM f = .error e) : ∃ a ∈ as, f a = .error e := by
  induction as with
  | nil => cases h
  | cons a as ih =>
    rw [List.mapM_cons, bind_eq_error_iff] at h
    rcases h with h | ⟨b, -, h⟩
    · exact ⟨a, by simp, h⟩
    rcases bind_eq_error_iff.1 h with h | ⟨bs, -, h⟩
    · obtain ⟨a', hmem, ha'⟩ := ih h
      exact ⟨a', List.mem_cons_of_mem a hmem, ha'⟩
    · cases h

section

variable {n : Nat} {names : Std.HashMap String (Fin n)} {e : Error}

theorem place?_of_resolveItem {rule : String} {item : Item String}
    (h : resolveItem names rule item = .error e) : e.place? = none := by
  unfold resolveItem at h
  split at h
  · cases h
  · split at h <;> cases h
    rfl

theorem place?_of_resolveRule {d : Draft} (h : resolveRule names d = .error e) :
    e.place? = none := by
  rcases bind_eq_error_iff.1 h with h | ⟨_, -, h⟩
  · obtain ⟨alternative, -, h⟩ := exists_of_mapM_error h
    obtain ⟨item, -, h⟩ := exists_of_mapM_error h
    exact place?_of_resolveItem h
  · cases h

theorem place?_of_resolveRules {drafts : List Draft} (h : resolveRules names drafts = .error e) :
    e.place? = none := by
  induction drafts with
  | nil => cases h
  | cons d drafts ih =>
    rcases bind_eq_error_iff.1 h with h | ⟨_, -, h⟩
    · exact place?_of_resolveRule h
    rcases bind_eq_error_iff.1 h with h | ⟨_, -, h⟩
    · exact ih h
    · cases h

end

theorem place?_of_resolve {drafts : List Draft} {e : Error} (h : resolve drafts = .error e) :
    e.place? = none := by
  unfold resolve at h
  split at h
  · split at h
    · cases h
    · rename_i hrules
      cases h
      exact place?_of_resolveRules hrules
  · cases h
    rfl

/-- A place is reported by the lexer or when the words are cut into rules. -/
theorem compile_error_place {source : String} {e : Error} (h : compile source = .error e)
    (hp : e.place?.isSome) : tokenize source.toList = .error e ∨
      ∃ tokens, tokenize source.toList = .ok tokens ∧ Draft.ofTokens tokens = .error e := by
  unfold compile at h
  rcases bind_eq_error_iff.1 h with h | ⟨tokens, htokens, h⟩
  · exact .inl h
  rcases bind_eq_error_iff.1 h with h | ⟨drafts, -, h⟩
  · exact .inr ⟨tokens, htokens, h⟩
  have hnone : e.place? ≠ none := by
    intro hnone
    simp [hnone] at hp
  split at h
  · cases h
    exact absurd rfl hnone
  rcases bind_eq_error_iff.1 h with h | ⟨g, -, h⟩
  · exact absurd (place?_of_resolve h) hnone
  split at h
  · cases h
    exact absurd rfl hnone
  · cases h

/-! ## Culprits -/

/-- What a refusal of `text` points at. -/
inductive Culprit (text : List Char) : Error → Prop where
  /-- The words of the text are misspelled. -/
  | misspelled {e : Error} (h : Misspelled text e) : Culprit text e
  /-- The text has its words, and one is no part of a rule; the place is that of its first
  character. -/
  | misplaced {earlier later : List Word} {w : Word} {before spelling after : List Char} {c : Char}
      {p : Place} (h : Written (earlier ++ w :: later) text) (hmisplaced : Misplaced earlier w later)
      (hbefore : Layout earlier before) (hw : Spelled w (c :: spelling))
      (hp : p.Shows text before c (spelling ++ after)) : Culprit text (.expectedRule p)

theorem Spelled.ne_nil {w : Word} {spelling : List Char} (h : Spelled w spelling) :
    spelling ≠ [] := by
  cases h <;> simp

/-- **Culprits.** Whenever a refusal reports a place, it is that of a character of the text: of the
character that was found, of the quote or the bracket that is not closed on its line, or of the first
character of a word that is no part of a rule. Only where a name is blank does it show a blank and
not the closing bracket that is said to be found. -/
theorem compile_culprit {source : String} {e : Error} (h : compile source = .error e)
    (hp : e.place?.isSome) : Culprit source.toList e := by
  rcases compile_error_place h hp with h | ⟨tokens, htokens, h⟩
  · exact .misspelled (tokenize_eq_error_iff.1 h)
  have hwritten : Written (tokens.map (·.word)) source.toList :=
    tokenize_iff.1 ⟨tokens, htokens, rfl⟩
  obtain ⟨tokens', htokens', -, hplaced⟩ := hwritten.tokenize
  obtain rfl : tokens = tokens' := Except.ok.inj (htokens.symm.trans htokens')
  obtain ⟨earlier, token, later, rfl, rfl, hmisplaced⟩ := Draft.misplaced_of_ofTokens h hp
  obtain ⟨before, spelling, after, htext, hbefore, hw, hplace⟩ := hplaced earlier token later rfl
  obtain ⟨c, spelling, rfl⟩ := List.exists_cons_of_ne_nil hw.ne_nil
  rw [List.map_append, List.map_cons] at hwritten
  rw [List.append_assoc] at htext
  exact .misplaced hwritten hmisplaced hbefore hw ⟨htext, hplace⟩

/-- A quote in the second line, behind a blank. -/
theorem compile_culprit_openLiteral : compile "<a> ::=\n 'x" = .error (.openLiteral ⟨2, 2⟩) ∧
    Culprit "<a> ::=\n 'x".toList (.openLiteral ⟨2, 2⟩) := by
  have h : compile "<a> ::=\n 'x" = .error (.openLiteral ⟨2, 2⟩) := rfl
  exact ⟨h, compile_culprit h rfl⟩

/-- Between two brackets with a blank between them, the place shows the blank. -/
theorem compile_blankName : ¬ ∀ source found p, compile source = .error (.unexpected found p) →
    ∃ before after, p.Shows source.toList before found after := by
  intro h
  obtain ⟨before, after, hshows⟩ := h "< >" '>' ⟨1, 2⟩ rfl
  have hblank : Place.Shows ⟨1, 2⟩ "< >".toList ['<'] ' ' ['>'] := ⟨rfl, rfl⟩
  exact absurd (hshows.unique hblank).2.1 (by decide)

end Typeahead.Grammar
