import Typeahead.Proofs.Grammar.Cycle
import Typeahead.Proofs.Grammar.Draft
import Typeahead.Proofs.Grammar.Layout

/-!
# Grammars as they are written

What a text is compiled to is the grammar that it writes, however it is laid out.

- **References** (`resolve_iff`): where the rules have different names, resolving them puts an index
  for each name, and taking names for indices again (`Grammar.drafts`) undoes it.
- **Grammars that can be written** (`Writable`): the names tell the rules apart, and every name and
  literal has a spelling.
- **Compiling** (`compile_written`): a text is compiled to a grammar just when the grammar can be
  written and the text is a way to write it; and every grammar that can be written has such a text.
-/

namespace Typeahead.Grammar

open Relation

/-! ## References -/

/-- The item with another reference. -/
def Item.map {ρ σ : Type} (f : ρ → σ) : Item ρ → Item σ
  | .reference target => .reference (f target)
  | .literal text => .literal text

/-- The rule with other references. -/
def Rule.map {ρ σ : Type} (f : ρ → σ) (r : Rule ρ) : Rule σ :=
  ⟨r.name, r.emission, r.alternatives.map (·.map (Item.map f))⟩

theorem Item.map_map {ρ σ τ : Type} (f : ρ → σ) (g : σ → τ) (i : Item ρ) :
    (i.map f).map g = i.map (g ∘ f) := by
  cases i <;> rfl

theorem Rule.map_map {ρ σ τ : Type} (f : ρ → σ) (g : σ → τ) (r : Rule ρ) :
    (r.map f).map g = r.map (g ∘ f) := by
  simp [Rule.map, Function.comp_def, Item.map_map]

theorem Item.map_id {ρ : Type} : Item.map (id : ρ → ρ) = id := by
  funext i
  cases i <;> rfl

theorem Rule.map_id {ρ : Type} (r : Rule ρ) : r.map id = r := by
  simp [Rule.map, Item.map_id]

theorem mapM_eq_ok_iff {α β : Type} {f : α → Except Error β} {g : β → α}
    (h : ∀ a b, f a = .ok b ↔ g b = a) (as : List α) (bs : List β) :
    as.mapM f = .ok bs ↔ bs.map g = as := by
  induction as generalizing bs with
  | nil =>
    rw [List.mapM_nil, List.map_eq_nil_iff]
    exact ⟨fun hbs => (Except.ok.inj hbs).symm, fun hbs => by rw [hbs]; rfl⟩
  | cons a as ih =>
    simp only [List.mapM_cons, bind_eq_ok_iff, h, ih]
    constructor
    · rintro ⟨b, rfl, bs, rfl, hbs⟩
      cases hbs
      rfl
    · intro hbs
      obtain ⟨b, bs, rfl, hb, hbs⟩ := List.map_eq_cons_iff.1 hbs
      exact ⟨b, hb, bs, hbs, rfl⟩

section Resolve

variable {n : Nat} {names : Std.HashMap String (Fin n)} {nameOf : Fin n → String}

theorem resolveItem_iff (h : ∀ name r, names[name]? = some r ↔ nameOf r = name) (rule : String)
    (item : Item String) (item' : Item (Fin n)) :
    resolveItem names rule item = .ok item' ↔ item'.map nameOf = item := by
  cases item with
  | literal text => cases item' <;> simp [resolveItem, Item.map, eq_comm]
  | reference name =>
    cases hname : names[name]? with
    | none =>
      have hne : ∀ r, nameOf r ≠ name := by
        intro r hr
        rw [(h name r).2 hr] at hname
        cases hname
      cases item' <;> simp [resolveItem, Item.map, hname, hne]
    | some r =>
      have heq : ∀ r', r = r' ↔ nameOf r' = name := by
        intro r'
        rw [← h, hname, Option.some_inj]
      cases item' <;> simp [resolveItem, Item.map, hname, heq]

theorem resolveRule_iff (h : ∀ name r, names[name]? = some r ↔ nameOf r = name) (d : Draft)
    (rule : Rule (Fin n)) : resolveRule names d = .ok rule ↔ rule.map nameOf = d := by
  have hbody (alternatives : List (List (Item (Fin n)))) :=
    mapM_eq_ok_iff (mapM_eq_ok_iff (resolveItem_iff h d.name)) d.alternatives alternatives
  simp only [resolveRule, bind_eq_ok_iff, hbody]
  constructor
  · rintro ⟨alternatives, halternatives, hrule⟩
    cases hrule
    rw [Rule.map, halternatives]
  · rintro rfl
    exact ⟨rule.alternatives, rfl, rfl⟩

theorem resolveRules_iff (h : ∀ name r, names[name]? = some r ↔ nameOf r = name)
    {drafts : List Draft}
    (rules : { rules : List (Rule (Fin n)) // rules.length = drafts.length }) :
    resolveRules names drafts = .ok rules ↔ rules.val.map (Rule.map nameOf) = drafts := by
  induction drafts with
  | nil =>
    obtain ⟨rules, hlength⟩ := rules
    cases List.length_eq_zero_iff.1 hlength
    exact ⟨fun _ => rfl, fun _ => rfl⟩
  | cons d drafts ih =>
    simp only [resolveRules, bind_eq_ok_iff, resolveRule_iff h]
    constructor
    · rintro ⟨rule, rfl, rest, hrest, hrules⟩
      cases hrules
      rw [List.map_cons, (ih rest).1 hrest]
    · intro hrules
      obtain ⟨rules, hlength⟩ := rules
      obtain ⟨rule, rest, rfl, hrule, hrest⟩ := List.map_eq_cons_iff.1 hrules
      exact ⟨rule, hrule, ⟨rest, by simpa using hlength⟩, (ih _).2 hrest, rfl⟩

end Resolve

/-- The name of a rule of `g`. -/
def nameOf (g : Grammar) (r : g.RuleId) : String := (g.rule r).name

/-- The rules of `g`, with names for indices. -/
def drafts (g : Grammar) : List Draft := g.rules.toList.map (Rule.map g.nameOf)

theorem toList_rules (g : Grammar) : g.rules.toList = List.ofFn g.rule := by
  refine List.ext_getElem (by simp) fun i _ _ => ?_
  simp [rule, Vector.get]

theorem map_name_rules (g : Grammar) : g.rules.toList.map (·.name) = List.ofFn g.nameOf := by
  rw [toList_rules, List.map_ofFn]
  rfl

theorem map_name_drafts (g : Grammar) : g.drafts.map (·.name) = List.ofFn g.nameOf := by
  rw [← map_name_rules, drafts, List.map_map]
  rfl

/-- Where the drafts have different names, each name has the index of its draft. -/
theorem getElem?_indexOf_iff {drafts : List Draft} (h : (drafts.map (·.name)).Nodup) (name : String)
    (r : Fin drafts.length) : (indexOf drafts)[name]? = some r ↔ drafts[r].name = name := by
  rw [getElem?_indexOf, List.findFinIdx?_eq_some_iff]
  simp only [beq_iff_eq]
  refine ⟨fun ⟨hname, _⟩ => hname, fun hname => ⟨hname, fun j hj hname' => ?_⟩⟩
  have hlength : drafts.length = (drafts.map (·.name)).length := by simp
  have heq : (drafts.map (·.name)).get (j.cast hlength) =
      (drafts.map (·.name)).get (r.cast hlength) := by
    simpa using hname'.trans hname.symm
  have hjr := congrArg Fin.val (h.get_inj_iff.1 heq)
  simp only [Fin.val_cast] at hjr
  omega

/-- A grammar can be given a size that is equal to its own. -/
theorem eq_of_cast {g : Grammar} {n : Nat} (h : g.size = n) (hpos : 0 < n)
    (hsize : (g.rules.toList.map (Rule.map (Fin.cast h))).toArray.size = n) :
    (⟨n, hpos, ⟨_, hsize⟩⟩ : Grammar) = g := by
  subst h
  have hid : (Rule.map id : Rule g.RuleId → Rule g.RuleId) = id := funext Rule.map_id
  simp only [Fin.cast_refl, hid, List.map_id]
  rfl

theorem nameOf_eq {drafts : List Draft} {g : Grammar}
    (h : g.rules.toList.map (·.name) = drafts.map (·.name)) (r : g.RuleId)
    (hr : r.val < drafts.length) : g.nameOf r = drafts[r.val].name := by
  have hget := congrArg (·[r.val]?) h
  simpa [map_name_rules, hr] using hget

/-- Resolving references and taking their names undo each other. -/
theorem resolve_iff {drafts : List Draft} {g : Grammar} (h : (drafts.map (·.name)).Nodup) :
    resolve drafts = .ok g ↔ g.drafts = drafts := by
  have hrules := @resolveRules_iff _ _ _ (getElem?_indexOf_iff h) drafts
  constructor
  · intro hg
    have hnames := map_name_resolve hg
    unfold resolve at hg
    split at hg
    · rename_i hpos
      split at hg
      · rename_i rules hlength hok
        cases hg
        have hname := funext fun r => nameOf_eq hnames r r.isLt
        rw [Grammar.drafts, hname]
        exact (hrules _).1 hok
      · cases hg
    · cases hg
  · intro hdrafts
    have hsize : g.size = drafts.length := by simp [← hdrafts, Grammar.drafts]
    have hpos : 0 < drafts.length := hsize ▸ g.size_pos
    have hnames : g.rules.toList.map (·.name) = drafts.map (·.name) := by
      rw [← hdrafts, map_name_drafts, map_name_rules]
    have hname : (fun r : Fin drafts.length => drafts[r].name) ∘ Fin.cast hsize = g.nameOf :=
      funext fun r => (nameOf_eq hnames r (hsize ▸ r.isLt)).symm
    have hcast : (g.rules.toList.map (Rule.map (Fin.cast hsize))).map
        (Rule.map fun r : Fin drafts.length => drafts[r].name) = drafts := by
      refine Eq.trans ?_ hdrafts
      simp only [Grammar.drafts, List.map_map, Function.comp_def, Rule.map_map]
      exact congrArg (fun f => g.rules.toList.map (Rule.map f)) hname
    have hok := (hrules ⟨g.rules.toList.map (Rule.map (Fin.cast hsize)), by simp [hsize]⟩).2 hcast
    unfold resolve
    rw [dif_pos hpos, hok]
    exact congrArg Except.ok (eq_of_cast hsize hpos _)

/-! ## Grammars that can be written -/

/-- The words of `g`, rule by rule. -/
def words (g : Grammar) : List Word := g.drafts.flatMap Draft.words

/-- A grammar that a text can write. -/
structure Writable (g : Grammar) : Prop where
  distinct : Function.Injective g.nameOf
  name : ∀ r, Nameable (g.nameOf r).toList
  emission : ∀ r, (g.rule r).emission = Emission.ofName (g.nameOf r)
  ne_nil : ∀ r, (g.rule r).alternatives ≠ []
  nil_not_mem : ∀ r, [] ∉ (g.rule r).alternatives
  literal : ∀ r, ∀ alternative ∈ (g.rule r).alternatives, ∀ text, .literal text ∈ alternative →
    Quotable text
  leftRecursion : ∀ r, ¬ TransGen g.Enters r r

theorem leftRecursion?_eq_none_iff (g : Grammar) :
    g.leftRecursion? = none ↔ ∀ r, ¬ TransGen g.Enters r r := by
  constructor
  · intro h
    rw [enters_eq_leadsTo]
    exact not_transGen_leadsTo h
  · intro h
    cases hfound : g.leftRecursion? with
    | none => rfl
    | some r => exact absurd (transGen_of_leftRecursion? hfound) (h r)

theorem nodup_drafts_iff (g : Grammar) :
    (g.drafts.map (·.name)).Nodup ↔ Function.Injective g.nameOf := by
  rw [map_name_drafts, List.nodup_ofFn]

theorem forall_drafts {g : Grammar} {p : Draft → Prop} :
    (∀ d ∈ g.drafts, p d) ↔ ∀ r, p ((g.rule r).map g.nameOf) := by
  rw [drafts, toList_rules, List.forall_mem_map, List.forall_mem_ofFn_iff]

theorem formed_map_iff {g : Grammar} (rule : Rule g.RuleId) :
    Draft.Formed (rule.map g.nameOf) ↔ rule.emission = Emission.ofName rule.name ∧
      rule.alternatives ≠ [] ∧ [] ∉ rule.alternatives := by
  constructor
  · rintro ⟨hemission, hne, hnil⟩
    exact ⟨hemission, by simpa [Rule.map] using hne, by simpa [Rule.map] using hnil⟩
  · rintro ⟨hemission, hne, hnil⟩
    exact ⟨hemission, by simpa [Rule.map] using hne, by simpa [Rule.map] using hnil⟩

/-- A name in an item is the name of some rule, so only the literals are left to look at. -/
theorem sound_words_iff (g : Grammar) : (∀ w ∈ g.words, w.Sound) ↔
    (∀ r, Nameable (g.nameOf r).toList) ∧ ∀ r, ∀ alternative ∈ (g.rule r).alternatives, ∀ text,
      .literal text ∈ alternative → Quotable text := by
  have hwords (r : g.RuleId) : (∀ w ∈ Draft.words ((g.rule r).map g.nameOf), w.Sound) ↔
      Nameable (g.nameOf r).toList ∧ ∀ alternative ∈ (g.rule r).alternatives,
        ∀ item ∈ alternative, (item.map g.nameOf).word.Sound := by
    rw [Draft.words, List.forall_mem_cons, List.forall_mem_cons, Draft.forall_bodyWords trivial]
    simp [Rule.map, Word.Sound, nameOf]
  rw [words, List.forall_mem_flatMap, forall_drafts]
  simp only [hwords, forall_and]
  refine and_congr_right fun hname => forall₃_congr fun r alternative _ => ?_
  constructor
  · intro hitems text htext
    exact hitems _ htext
  · intro hliterals item hitem
    cases item with
    | reference r' => exact hname r'
    | literal text => exact hliterals text hitem

/-- A grammar can be written when its drafts have different names and no empty alternative, each of
its words has a spelling, and no rule is left-recursive. -/
theorem writable_iff (g : Grammar) : g.Writable ↔ (g.drafts.map (·.name)).Nodup ∧
    (∀ d ∈ g.drafts, d.Formed) ∧ (∀ w ∈ g.words, w.Sound) ∧ g.leftRecursion? = none := by
  rw [nodup_drafts_iff, forall_drafts, sound_words_iff, leftRecursion?_eq_none_iff]
  simp only [formed_map_iff]
  constructor
  · intro h
    exact ⟨h.distinct, fun r => ⟨h.emission r, h.ne_nil r, h.nil_not_mem r⟩, ⟨h.name, h.literal⟩,
      h.leftRecursion⟩
  · rintro ⟨hdistinct, hformed, ⟨hname, hliteral⟩, hleft⟩
    exact ⟨hdistinct, hname, fun r => (hformed r).1, fun r => (hformed r).2.1,
      fun r => (hformed r).2.2, hliteral, hleft⟩

theorem compile_iff {source : String} {g : Grammar} :
    compile source = .ok g ↔ (g.drafts.map (·.name)).Nodup ∧ (∀ d ∈ g.drafts, d.Formed) ∧
      g.leftRecursion? = none ∧ Written g.words source.toList := by
  rw [compile_eq_ok_iff]
  constructor
  · rintro ⟨tokens, drafts, htokens, hdrafts, hnames, hg, hleft⟩
    obtain ⟨hwords, hformed⟩ := Draft.ofTokens_iff.1 hdrafts
    obtain rfl := (resolve_iff hnames).1 hg
    exact ⟨hnames, hformed, hleft, tokenize_iff.1 ⟨tokens, htokens, hwords⟩⟩
  · rintro ⟨hnames, hformed, hleft, hwritten⟩
    obtain ⟨tokens, htokens, hwords⟩ := tokenize_iff.2 hwritten
    exact ⟨tokens, g.drafts, htokens, Draft.ofTokens_iff.2 ⟨hwords, hformed⟩, hnames,
      (resolve_iff hnames).2 rfl, hleft⟩

/-- **Writing and compiling.** A text is compiled to a grammar just when the grammar can be written
and the text writes it, however it is laid out. Every grammar that can be written has such a text. -/
theorem compile_written :
    (∀ (source : String) (g : Grammar),
      compile source = .ok g ↔ g.Writable ∧ Written g.words source.toList) ∧
      ∀ g : Grammar, g.Writable → ∃ source, compile source = .ok g := by
  constructor
  · intro source g
    rw [compile_iff, writable_iff]
    constructor
    · rintro ⟨hnames, hformed, hleft, hwritten⟩
      exact ⟨⟨hnames, hformed, hwritten.sound, hleft⟩, hwritten⟩
    · rintro ⟨⟨hnames, hformed, -, hleft⟩, hwritten⟩
      exact ⟨hnames, hformed, hleft, hwritten⟩
  · intro g hg
    obtain ⟨hnames, hformed, hsound, hleft⟩ := (writable_iff g).1 hg
    obtain ⟨cs, hcs⟩ := exists_layout hsound
    refine ⟨String.ofList cs, compile_iff.2 ⟨hnames, hformed, hleft, ?_⟩⟩
    rw [String.toList_ofList]
    exact .closed hcs

/-- The two rules with a comment, blanks in brackets, both quotes, and no blanks elsewhere. -/
theorem compile_written_twoWays :
    twoWays.Writable ∧
      Written twoWays.words "; <c>\n< a >::=<b>\"y\"|<b>'x'<b\t>::=\n'z';".toList ∧
      compile "; <c>\n< a >::=<b>\"y\"|<b>'x'<b\t>::=\n'z';" = .ok twoWays := by
  have hwritable : twoWays.Writable := ((compile_written.1 _ _).1 compile_twoWays).1
  have ha : Nameable "a".toList := hwritable.name ⟨0, by decide⟩
  have hb : Nameable "b".toList := hwritable.name ⟨1, by decide⟩
  have blank : ∀ c : Char, c = ' ' ∨ c = '\t' → ∀ c' ∈ [c], Text.isBlank c' = true ∧ c' ≠ '\n' := by
    intro c hc c' hc'
    rw [List.mem_singleton.1 hc']
    rcases hc with rfl | rfl <;> exact ⟨by decide, by decide⟩
  have bare : ∀ c ∈ ([] : List Char), Text.isBlank c = true ∧ c ≠ '\n' := by simp
  have comment := Layout.nil.comment (show '\n' ∉ [' ', '<', 'c', '>'] by decide)
  have first := (comment.word
    (.reference ha (blank ' ' (.inl rfl)) (blank ' ' (.inl rfl)))).word .define
  have body := ((first.word (.reference hb bare bare)).word
    (.literal (.inl rfl) (show '\x22' ∉ ['y'] by decide) (by decide))).word .pipe
  have body' := (body.word (.reference hb bare bare)).word
    (.literal (.inr rfl) (show '\x27' ∉ ['x'] by decide) (by decide))
  have second := (body'.word (.reference hb bare (blank '\t' (.inr rfl)))).word .define
  have last := (second.blank (show Text.isBlank '\n' = true by decide)).word
    (.literal (.inr rfl) (show '\x27' ∉ ['z'] by decide) (by decide))
  have hwritten := Written.comment last (show '\n' ∉ [] by decide)
  exact ⟨hwritable, hwritten, (compile_written.1 _ _).2 ⟨hwritable, hwritten⟩⟩

end Typeahead.Grammar
