import Mathlib
import Typeahead.Grammar.Draft

/-!
# Drafts and their words

The words of a rule are its name, `::=` and its alternatives with `|` between them. Tokens are cut
into rules just when they are the words of rules that have no empty alternative, and then into these
rules (`ofTokens_iff`).

- **Words** (`Draft.words`): no rule has a second `::=`, so a name that one follows begins a rule.
- **From words** (`collect_items`, `collect_alternatives`, `collect_rules`): items, alternatives and
  rules are read one after the other, up to what begins the next.
- **To words** (`collect_ok`): what was read and what is left are together the words of the result.
-/

namespace Typeahead.Grammar

/-- The word of an item. -/
def Item.word : Item String → Word
  | .reference name => .reference name
  | .literal text => .literal text

theorem Item.word_ne_define (item : Item String) : item.word ≠ .define := by
  cases item <;> simp [word]

namespace Draft

/-- The words of alternatives. -/
def bodyWords (alternatives : List (List (Item String))) : List Word :=
  [Word.pipe].intercalate (alternatives.map (·.map Item.word))

/-- The words of a rule. -/
def words (d : Draft) : List Word := .reference d.name :: .define :: bodyWords d.alternatives

/-- A rule that can be written. -/
structure Formed (d : Draft) : Prop where
  emission : d.emission = Emission.ofName d.name
  ne_nil : d.alternatives ≠ []
  nil_not_mem : [] ∉ d.alternatives

@[simp] theorem bodyWords_singleton (alternative : List (Item String)) :
    bodyWords [alternative] = alternative.map Item.word := by
  simp [bodyWords]

@[simp] theorem bodyWords_cons_cons (first second : List (Item String))
    (rest : List (List (Item String))) :
    bodyWords (first :: second :: rest) =
      first.map Item.word ++ .pipe :: bodyWords (second :: rest) := by
  simp [bodyWords]

/-- Before the last alternative, every alternative ends with a bar. -/
theorem bodyWords_append_singleton (before : List (List (Item String)))
    (last : List (Item String)) :
    bodyWords (before ++ [last]) =
      (before.flatMap fun alternative => alternative.map Item.word ++ [.pipe]) ++
        last.map Item.word := by
  induction before with
  | nil => simp
  | cons first before ih =>
    cases before with
    | nil => simp
    | cons second before =>
      rw [List.cons_append, List.cons_append, bodyWords_cons_cons, ← List.cons_append, ih]
      simp

/-- Whatever holds of a bar holds of the words of alternatives when it holds of the items. -/
theorem forall_bodyWords {p : Word → Prop} (hpipe : p .pipe)
    (alternatives : List (List (Item String))) :
    (∀ w ∈ bodyWords alternatives, p w) ↔
      ∀ alternative ∈ alternatives, ∀ item ∈ alternative, p item.word := by
  induction alternatives with
  | nil => simp [bodyWords]
  | cons first rest ih =>
    cases rest with
    | nil => simp
    | cons second rest =>
      rw [bodyWords_cons_cons, List.forall_mem_append, List.forall_mem_cons, ih,
        List.forall_mem_map, List.forall_mem_cons (a := first)]
      simp only [hpipe, true_and]

/-! ## To words -/

namespace Body

/-- The words of what has been read of a rule. -/
def words (b : Body) : List Word := .reference b.name :: .define :: bodyWords b.alternatives

theorem words_eq (b : Body) :
    b.words = .reference b.name :: .define ::
      ((b.finished.reverse.flatMap fun alternative => alternative.map Item.word ++ [.pipe]) ++
        b.current.reverse.map Item.word) := by
  rw [words, alternatives, List.reverse_cons, bodyWords_append_singleton]

theorem words_ofName (name : String) : (ofName name).words = [.reference name, .define] := by
  simp [words_eq, ofName]

theorem words_push (b : Body) (item : Item String) :
    (b.push item).words = b.words ++ [item.word] := by
  simp [words_eq, push]

theorem words_next (b : Body) : b.next.words = b.words ++ [.pipe] := by
  simp [words_eq, next]

/-- A rule is closed when it has no empty alternative. -/
theorem close_eq_ok_iff {b : Body} {d : Draft} :
    b.close = .ok d ↔ d.Formed ∧ d.name = b.name ∧ d.alternatives = b.alternatives := by
  have hne : b.alternatives ≠ [] := by simp [alternatives]
  unfold close
  split
  · rename_i hany
    simp only [List.any_eq_true, List.isEmpty_iff, exists_eq_right] at hany
    constructor
    · intro h
      cases h
    · rintro ⟨hd, -, halternatives⟩
      rw [← halternatives] at hany
      exact absurd hany hd.nil_not_mem
  · rename_i hany
    simp only [List.any_eq_true, List.isEmpty_iff, exists_eq_right] at hany
    constructor
    · intro h
      cases h
      exact ⟨⟨rfl, hne, hany⟩, rfl, rfl⟩
    · obtain ⟨name, emission, alternatives⟩ := d
      rintro ⟨hd, rfl, rfl⟩
      rw [← hd.emission]

end Body

/-- The words of what has been read. -/
def readWords (drafts : List Draft) (body : Option Body) : List Word :=
  drafts.reverse.flatMap words ++ body.elim [] Body.words

theorem close_ok {drafts drafts' : List Draft} {body : Option Body}
    (h : close drafts body = .ok drafts') (hformed : ∀ d ∈ drafts, d.Formed) :
    drafts'.reverse.flatMap words = readWords drafts body ∧ ∀ d ∈ drafts', d.Formed := by
  cases body with
  | none =>
    cases h
    exact ⟨by simp [readWords], hformed⟩
  | some b =>
    rw [close] at h
    split at h
    · rename_i d hd
      cases h
      obtain ⟨hd, hname, halternatives⟩ := Body.close_eq_ok_iff.1 hd
      have hwords : d.words = b.words := by
        rw [words, Body.words, hname, halternatives]
      refine ⟨by simp [readWords, hwords], fun d' hd' => ?_⟩
      rcases List.mem_cons.1 hd' with rfl | hd'
      · exact hd
      · exact hformed d' hd'
    · cases h

/-- What was read and what is left are together the words of the result. -/
theorem collect_ok {drafts result : List Draft} {body : Option Body} {tokens : List Token}
    (h : collect drafts body tokens = .ok result) (hformed : ∀ d ∈ drafts, d.Formed) :
    result.flatMap words = readWords drafts body ++ tokens.map (·.word) ∧
      ∀ d ∈ result, d.Formed := by
  fun_induction collect drafts body tokens with
  | case1 drafts body =>
    cases hclose : close drafts body with
    | error e =>
      rw [hclose] at h
      cases h
    | ok drafts' =>
      rw [hclose] at h
      cases h
      obtain ⟨hwords, hformed'⟩ := close_ok hclose hformed
      exact ⟨by simp [hwords], fun d hd => hformed' d (List.mem_reverse.1 hd)⟩
  | case2 drafts body name place place' rest drafts' hclose ih =>
    obtain ⟨hwords, hformed'⟩ := close_ok hclose hformed
    obtain ⟨hresult, hformed''⟩ := ih h hformed'
    refine ⟨?_, hformed''⟩
    rw [hresult, readWords, hwords]
    simp [Body.words_ofName]
  | case3 => cases h
  | case4 => cases h
  | case5 => cases h
  | case6 drafts place rest b _ ih =>
    obtain ⟨hresult, hformed'⟩ := ih h hformed
    exact ⟨by simp [hresult, readWords, Body.words_next], hformed'⟩
  | case7 drafts place rest b name _ ih =>
    obtain ⟨hresult, hformed'⟩ := ih h hformed
    exact ⟨by simp [hresult, readWords, Body.words_push, Item.word], hformed'⟩
  | case8 drafts place rest b text _ ih =>
    obtain ⟨hresult, hformed'⟩ := ih h hformed
    exact ⟨by simp [hresult, readWords, Body.words_push, Item.word], hformed'⟩

/-! ## From words -/

/-- No `::=` comes next, so a name that was just read is an item. -/
def InBody (tokens : List Token) : Prop := ∀ next ∈ tokens.head?, next.word ≠ .define

theorem inBody_append {tokens rest : List Token} {items : List (Item String)}
    (htokens : tokens.map (·.word) = items.map Item.word) (hrest : InBody rest) :
    InBody (tokens ++ rest) := by
  cases items with
  | nil =>
    rw [List.map_eq_nil_iff.1 htokens]
    exact hrest
  | cons item items =>
    cases tokens with
    | nil => cases htokens
    | cons token tokens =>
      rintro next ⟨⟩
      have hword : token.word = item.word := (List.cons_eq_cons.1 htokens).1
      rw [hword]
      exact item.word_ne_define

/-- A rule ends where the next one begins. -/
theorem inBody_rules {tokens : List Token} {rules : List Draft}
    (htokens : tokens.map (·.word) = rules.flatMap words) : InBody tokens := by
  cases rules with
  | nil =>
    rw [List.map_eq_nil_iff.1 htokens]
    rintro next ⟨⟩
  | cons d rules =>
    obtain ⟨token, rest, rfl, hword, -⟩ := List.map_eq_cons_iff.1 htokens
    rintro next ⟨⟩ hdefine
    cases hword.symm.trans hdefine

variable {drafts : List Draft} {b : Body} {token : Token} {tokens rest : List Token}

theorem collect_item {item : Item String} (hword : token.word = item.word) (hrest : InBody rest) :
    collect drafts (some b) (token :: rest) = collect drafts (some (b.push item)) rest := by
  obtain ⟨word, place⟩ := token
  cases hword
  cases item with
  | literal text => simp only [collect]
  | reference name =>
    cases rest with
    | nil => simp only [collect]
    | cons next rest =>
      obtain ⟨word, place'⟩ := next
      cases word with
      | define => exact absurd rfl (hrest _ rfl)
      | reference | literal | pipe => simp only [collect]

theorem collect_pipe (hword : token.word = .pipe) :
    collect drafts (some b) (token :: rest) = collect drafts (some b.next) rest := by
  obtain ⟨word, place⟩ := token
  cases hword
  simp only [collect]

/-- Items are added to the current alternative. -/
theorem collect_items {items : List (Item String)}
    (htokens : tokens.map (·.word) = items.map Item.word) (hrest : InBody rest) :
    collect drafts (some b) (tokens ++ rest) =
      collect drafts (some { b with current := items.reverse ++ b.current }) rest := by
  induction items generalizing tokens b with
  | nil => rw [List.map_eq_nil_iff.1 htokens, List.nil_append, List.reverse_nil, List.nil_append]
  | cons item items ih =>
    cases tokens with
    | nil => cases htokens
    | cons token tokens =>
      obtain ⟨hword, htokens⟩ := List.cons_eq_cons.1 htokens
      rw [List.cons_append, collect_item hword (inBody_append htokens hrest), ih htokens]
      simp [Body.push]

variable (drafts) in
/-- Alternatives are added to those before. -/
theorem collect_alternatives {first : List (Item String)}
    {others : List (List (Item String))}
    (htokens : tokens.map (·.word) = bodyWords (first :: others)) (hrest : InBody rest)
    (hb : b.current = []) :
    ∃ b' : Body, b'.name = b.name ∧
      b'.alternatives = b.finished.reverse ++ first :: others ∧
      collect drafts (some b) (tokens ++ rest) = collect drafts (some b') rest := by
  induction others generalizing first tokens b with
  | nil =>
    rw [bodyWords_singleton] at htokens
    refine ⟨_, ?_, ?_, collect_items htokens hrest⟩
    · rfl
    · simp [Body.alternatives, hb]
  | cons second others ih =>
    rw [bodyWords_cons_cons] at htokens
    obtain ⟨items, tokens, rfl, hitems, htokens⟩ := List.map_eq_append_iff.1 htokens
    cases tokens with
    | nil => cases htokens
    | cons token tokens =>
      obtain ⟨hword, htokens⟩ := List.cons_eq_cons.1 htokens
      have hbar : InBody (token :: (tokens ++ rest)) := by
        rintro next ⟨⟩ hdefine
        cases hword.symm.trans hdefine
      obtain ⟨b', hname, halternatives, hcollect⟩ :=
        ih (b := { b with current := first.reverse ++ b.current }.next) htokens rfl
      refine ⟨b', hname, ?_, ?_⟩
      · rw [halternatives]
        simp [Body.next, hb]
      · rw [List.append_assoc, List.cons_append, collect_items hitems hbar, collect_pipe hword,
          hcollect]

/-- Rules are read one after the other. -/
theorem collect_rules {rules drafts' : List Draft} {body : Option Body}
    (hformed : ∀ d ∈ rules, d.Formed) (htokens : tokens.map (·.word) = rules.flatMap words)
    (hclose : close drafts body = .ok drafts') :
    collect drafts body tokens = .ok (drafts'.reverse ++ rules) := by
  induction rules generalizing drafts drafts' body tokens with
  | nil =>
    rw [List.map_eq_nil_iff.1 htokens, collect, hclose]
    simp [Except.map]
  | cons d rules ih =>
    obtain ⟨hd, hrules⟩ := List.forall_mem_cons.1 hformed
    obtain ⟨first, others, halternatives⟩ := List.exists_cons_of_ne_nil hd.ne_nil
    rw [List.flatMap_cons] at htokens
    obtain ⟨own, rest, rfl, hown, hrest⟩ := List.map_eq_append_iff.1 htokens
    obtain ⟨name, own', rfl, hname, hown'⟩ := List.map_eq_cons_iff.1 hown
    obtain ⟨define, body', rfl, hdefine, hbody'⟩ := List.map_eq_cons_iff.1 hown'
    obtain ⟨word, place⟩ := name
    obtain ⟨word', place'⟩ := define
    cases hname
    cases hdefine
    rw [halternatives] at hbody'
    obtain ⟨b, hb, hbody, hcollect⟩ :=
      collect_alternatives drafts' (b := .ofName d.name) hbody' (inBody_rules hrest) rfl
    have hclosed : close drafts' (some b) = .ok (d :: drafts') := by
      have hd' : b.close = .ok d :=
        Body.close_eq_ok_iff.2 ⟨hd, hb.symm, halternatives.trans hbody.symm⟩
      rw [close, hd']
    rw [List.cons_append, List.cons_append, collect, hclose]
    simp only
    rw [hcollect, ih hrules hrest hclosed]
    simp

/-- **Drafts.** Tokens are cut into rules just when they are the words of these rules, and no rule
has an empty alternative. -/
theorem ofTokens_iff {tokens : List Token} {drafts : List Draft} :
    ofTokens tokens = .ok drafts ↔
      tokens.map (·.word) = drafts.flatMap words ∧ ∀ d ∈ drafts, d.Formed := by
  constructor
  · intro h
    obtain ⟨hwords, hformed⟩ := collect_ok h fun d hd => absurd hd List.not_mem_nil
    exact ⟨by simpa [readWords] using hwords.symm, hformed⟩
  · rintro ⟨htokens, hformed⟩
    exact collect_rules hformed htokens (show close [] none = .ok [] from rfl)

end Draft

end Typeahead.Grammar
