import Typeahead.Match.Report
import Typeahead.Proofs.Grammar.Compile
import Typeahead.Proofs.Match.Termination

/-!
# What is reported of a text

A machine notes each literal that it sees fail. It does not see those fail again that have failed
within a rule whose outcome it remembers, so its notes are fewer than the failures of the naive
evaluation. For the farthest failure this makes no difference.

- **Failures** (`farthest`, `literalsAt`): how far the naive evaluation has got, and what failed at an
  offset, each literal once, in the order in which they first failed.
- **Notes** (`Farthest.Sums`): they say the same. Failures that have been there before change
  nothing (`Sums.again`), and one that is noted changes both alike (`Sums.note`). So the notes of a
  machine sum up the failures at any time (`Machine.sums_run`).
- **Messages** (`unexpected_eq`): their wording, put together from what stands at a place, the place
  and the literals.
- **Faults** (`Grammar.Reported`): the one fault of a text that is not matched to its end stands at
  the farther of the match's end and the farthest failure, and names what failed there.
-/

namespace Typeahead

open Grammar

namespace Grammar

/-- The greatest offset at which a literal failed; zero when none did. -/
def farthest (failures : Failures) : Nat := (failures.map (·.1.offset)).foldr max 0

/-- The literals that failed at an offset, each once, in the order in which they first failed. -/
def literalsAt (failures : Failures) (offset : Nat) : List String :=
  ((failures.filter (·.1.offset = offset)).map fun f => String.ofList f.2).eraseDups

theorem farthest_le_iff {failures : Failures} {n : Nat} :
    farthest failures ≤ n ↔ ∀ f ∈ failures, f.1.offset ≤ n := by
  induction failures with
  | nil => simp [farthest]
  | cons f failures ih =>
    simp only [farthest, List.map_cons, List.foldr_cons, List.forall_mem_cons] at ih ⊢
    rw [← ih]
    omega

theorem le_farthest {failures : Failures} {s : Spot} {text : List Char}
    (h : (s, text) ∈ failures) : s.offset ≤ farthest failures :=
  farthest_le_iff.1 (Nat.le_refl _) _ h

/-- What is added to a list counts by the entries of the list, not by their repeats. -/
theorem eraseDups_append_congr {α : Type} [BEq α] [LawfulBEq α] {as as' : List α} (bs : List α)
    (h : as.eraseDups = as'.eraseDups) : (as ++ bs).eraseDups = (as' ++ bs).eraseDups := by
  have hmem : ∀ b, b ∈ as ↔ b ∈ as' := by
    intro b
    rw [← List.mem_eraseDups, h, List.mem_eraseDups]
  have hrest : bs.removeAll as = bs.removeAll as' := by
    unfold List.removeAll
    refine List.filter_congr fun b _ => ?_
    rw [Bool.eq_iff_iff]
    simp [hmem]
  rw [List.eraseDups_append, List.eraseDups_append, h, hrest]

/-- Entries that are there already add nothing. -/
theorem eraseDups_append_of_subset {α : Type} [BEq α] [LawfulBEq α] {as bs : List α}
    (h : bs ⊆ as) : (as ++ bs).eraseDups = as.eraseDups := by
  have hrest : bs.removeAll as = [] := by
    unfold List.removeAll
    refine List.filter_eq_nil_iff.2 fun b hb => ?_
    simp [h hb]
  rw [List.eraseDups_append, hrest, List.eraseDups_nil, List.append_nil]

/-- Failures that have been there before change nothing. -/
theorem literalsAt_append_of_subset {failures new : Failures} (h : new ⊆ failures) (offset : Nat) :
    literalsAt (failures ++ new) offset = literalsAt failures offset := by
  unfold literalsAt
  rw [List.filter_append, List.map_append]
  refine eraseDups_append_of_subset (List.map_subset _ fun f hf => ?_)
  have hf := List.mem_filter.1 hf
  exact List.mem_filter.2 ⟨h hf.1, hf.2⟩

/-- Nothing failed behind the farthest failure. -/
theorem literalsAt_eq_nil {failures : Failures} {offset : Nat} (h : farthest failures < offset) :
    literalsAt failures offset = [] := by
  have hnone : failures.filter (·.1.offset = offset) = [] := by
    refine List.filter_eq_nil_iff.2 fun f hf => ?_
    have := le_farthest hf
    simp
    omega
  rw [literalsAt, hnone]
  rfl

theorem literalsAt_append_singleton_of_ne {failures : Failures} {s : Spot} {text : List Char}
    {offset : Nat} (h : s.offset ≠ offset) :
    literalsAt (failures ++ [(s, text)]) offset = literalsAt failures offset := by
  unfold literalsAt
  rw [List.filter_append, List.filter_cons_of_neg (by simpa using h), List.filter_nil,
    List.append_nil]

/-- A literal that fails does so at a spot of the text where the text does not go on with it. -/
theorem Yields.failed {g : Grammar} {task : Task g} {s : Spot} {o : Option Match}
    {failures : Failures} (h : Yields g task s o failures) :
    ∀ f ∈ failures, s.Reaches f.1 ∧ ¬ f.2 <+: f.1.rest := by
  induction h with
  | exhausted => simp
  | taken _ ih => exact ih
  | passed _ _ ih₁ ih₂ =>
    intro f hf
    rcases List.mem_append.1 hf with hf | hf
    · exact ih₁ f hf
    · exact ih₂ f hf
  | complete => simp
  | literal hp _ ih =>
    intro f hf
    obtain ⟨hs, hn⟩ := ih f hf
    exact ⟨(Spot.Reaches.past hp).trans hs, hn⟩
  | mismatch hn =>
    intro f hf
    rw [List.mem_singleton.1 hf]
    exact ⟨.refl _, hn⟩
  | reference h₁ _ ih₁ ih₂ =>
    intro f hf
    rcases List.mem_append.1 hf with hf | hf
    · exact ih₁ f hf
    · obtain ⟨hs, hn⟩ := ih₂ f hf
      exact ⟨(h₁.reaches _ rfl).trans hs, hn⟩
  | refused _ ih => exact ih

end Grammar

/-- The notes of a machine that began at `first` say of the farthest failure what `failures` do. -/
structure Farthest.Sums (far : Farthest) (first : Spot) (failures : Failures) : Prop where
  le : ∀ f ∈ failures, f.1.offset ≤ far.spot.offset
  spot : far.spot = first ∨ ∃ f ∈ failures, f.1 = far.spot
  literals : far.literals = literalsAt failures far.spot.offset

namespace Farthest

variable {far : Farthest} {first : Spot} {failures : Failures}

theorem literals_eq (far : Farthest) :
    far.literals = (far.failed.reverse.map String.ofList).eraseDups := distinct_eq _

theorem sums_start (first : Spot) : (⟨first, []⟩ : Farthest).Sums first [] :=
  ⟨by simp, .inl rfl, rfl⟩

/-- Failures that have been there before need not be noted. -/
theorem Sums.again {new : Failures} (h : far.Sums first failures) (hsub : new ⊆ failures) :
    far.Sums first (failures ++ new) where
  le f hf := h.le f ((List.mem_append.1 hf).elim id fun hf => hsub hf)
  spot := h.spot.imp_right fun ⟨f, hf, heq⟩ => ⟨f, List.mem_append_left _ hf, heq⟩
  literals := by rw [literalsAt_append_of_subset hsub, h.literals]

theorem Sums.note (h : far.Sums first failures) (s : Spot) (text : List Char) :
    (far.note s text).Sums first (failures ++ [(s, text)]) := by
  have hnew : (s, text) ∈ failures ++ [(s, text)] := by simp
  have hspot : far.spot = first ∨ ∃ f ∈ failures ++ [(s, text)], f.1 = far.spot :=
    h.spot.imp_right fun ⟨f, hf, heq⟩ => ⟨f, List.mem_append_left _ hf, heq⟩
  have hall : ∀ f ∈ failures ++ [(s, text)],
      f.1.offset ≤ far.spot.offset ∨ f.1.offset = s.offset := by
    intro f hf
    rcases List.mem_append.1 hf with hf | hf
    · exact .inl (h.le f hf)
    · exact .inr (by rw [List.mem_singleton.1 hf])
  unfold Farthest.note
  by_cases hlt : far.spot.offset < s.offset
  · -- All earlier failures lie before the new one.
    rw [if_pos hlt]
    refine ⟨fun f hf => ?_, .inr ⟨_, hnew, rfl⟩, ?_⟩
    · change f.1.offset ≤ s.offset
      have := hall f hf
      omega
    · have hnone : failures.filter (·.1.offset = s.offset) = [] := by
        refine List.filter_eq_nil_iff.2 fun f hf => ?_
        have := h.le f hf
        simp
        omega
      rw [literals_eq, literalsAt, List.filter_append, hnone]
      simp
  · rw [if_neg hlt]
    by_cases heq : far.spot.offset = s.offset
    · rw [if_pos heq]
      refine ⟨fun f hf => ?_, hspot, ?_⟩
      · change f.1.offset ≤ far.spot.offset
        have := hall f hf
        omega
      · have hliterals := h.literals
        rw [literals_eq] at hliterals
        rw [literals_eq, literalsAt, List.filter_append, List.map_append]
        simpa [heq] using eraseDups_append_congr [String.ofList text] hliterals
    · rw [if_neg heq]
      refine ⟨fun f hf => ?_, hspot, ?_⟩
      · have := hall f hf
        omega
      · rw [literalsAt_append_singleton_of_ne (Ne.symm heq), h.literals]

/-- How far the notes go is how far the failures go, in a text from its beginning. -/
theorem Sums.farthest_eq (h : far.Sums first failures) (hfirst : first.offset = 0) :
    farthest failures = far.spot.offset := by
  refine Nat.le_antisymm (farthest_le_iff.2 h.le) ?_
  rcases h.spot with hs | ⟨f, hf, hs⟩
  · rw [hs, hfirst]
    exact Nat.zero_le _
  · rw [← hs]
    exact le_farthest hf

end Farthest

variable {g : Grammar}

/-- At any time the notes of a machine sum up the failures of the naive evaluation. -/
theorem Machine.sums_run (root : g.RuleId) (first : Spot) (n : Nat) :
    ∃ failures, ((start root first).run n).Follows first root failures ∧
      ((start root first).run n).farthest.Sums first failures := by
  refine run_induction
    (P := fun m => ∃ failures, m.Follows first root failures ∧ m.farthest.Sums first failures)
    ?_ ⟨[], follows_start root first, Farthest.sums_start first⟩ n
  rintro m m' hstep ⟨failures, hm, hsums⟩
  obtain ⟨new, hm', ⟨hfar, hsub⟩ | ⟨s, text, rfl, hfar⟩⟩ := hm.step hstep
  · exact ⟨_, hm', hfar ▸ hsums.again hsub⟩
  · exact ⟨_, hm', hfar ▸ hsums.note s text⟩

/-- The notes give the fault at the farther of the match's end and the farthest failure. -/
theorem Farthest.Sums.fault_eq {far : Farthest} {first : Spot} {failures : Failures}
    (h : far.Sums first failures) (hfirst : first.offset = 0) (stop : Spot) :
    ∃ s, (s = stop ∨ s = far.spot) ∧ s.offset = max (farthest failures) stop.offset ∧
      far.fault stop = unexpected s (literalsAt failures s.offset) := by
  have hfar := h.farthest_eq hfirst
  unfold Farthest.fault
  by_cases hlt : far.spot.offset < stop.offset
  · refine ⟨stop, .inl rfl, by omega, ?_⟩
    rw [if_pos hlt, literalsAt_eq_nil (by omega)]
  · refine ⟨far.spot, .inr rfl, by omega, ?_⟩
    rw [if_neg hlt, h.literals]

/-- The notes are about a spot of the text. -/
theorem Farthest.Sums.reaches {far : Farthest} {r : g.RuleId} {first : Spot} {o : Option Match}
    {failures : Failures} (h : far.Sums first failures) (ho : g.Outcome r first o failures) :
    first.Reaches far.spot := by
  rcases h.spot with hs | ⟨f, hf, hs⟩
  · rw [hs]
    exact .refl _
  · rw [← hs]
    exact (ho.failed f hf).1

/-- The text does not go on with a literal that failed. -/
theorem Grammar.Yields.not_prefix_of_mem {task : Task g} {first s : Spot} {o : Option Match}
    {failures : Failures} (h : Yields g task first o failures) (hs : first.Reaches s) :
    ∀ literal ∈ literalsAt failures s.offset, ¬ literal.toList <+: s.rest := by
  intro literal hliteral
  obtain ⟨f, hf, rfl⟩ := List.mem_map.1 (List.mem_eraseDups.1 hliteral)
  obtain ⟨hmem, heq⟩ := List.mem_filter.1 hf
  obtain ⟨hreaches, hnot⟩ := h.failed f hmem
  rw [hreaches.eq_of_offset hs (by simpa using heq)] at hnot
  simpa using hnot

/-- A spot of a text parts the text. -/
theorem Spot.Reaches.parts {text : String} {s : Spot} (h : (ofText text).Reaches s) :
    ∃ before after, text = before ++ after ∧ s = ⟨before.utf8ByteSize, after.toList⟩ := by
  obtain ⟨passed, hrest, hoff⟩ := h
  refine ⟨String.ofList passed, String.ofList s.rest, ?_, ?_⟩
  · rw [← String.ofList_append, ← hrest, ofText, String.ofList_toList]
  · obtain ⟨offset, rest⟩ := s
    simp only [ofText, Nat.zero_add] at hoff
    simp [Text.utf8ByteSize_ofList, hoff]

/-- The message is made of what stands at the place, the place, and the literals; the first six of
these are named, and those left are counted. -/
theorem unexpected_eq (position : Nat) (rest : List Char) (literals : List String) :
    unexpected ⟨position, rest⟩ literals = {
      message := "Unexpected " ++ rest.head?.elim "end of input" Text.quotedChar ++
        " at position " ++ toString position ++
        if literals = [] then ""
        else ", expected " ++ ", ".intercalate ((literals.take 6).map Text.quoted) ++
          if 6 < literals.length then " or " ++ toString (literals.length - 6) ++ " more" else ""
      position } := by
  have hfound : Spot.describe ⟨position, rest⟩ =
      rest.head?.elim "end of input" Text.quotedChar := by
    cases rest <;> rfl
  unfold unexpected listLiterals
  rw [hfound, maxNamedLiterals]
  by_cases hnone : literals = []
  · simp [hnone]
  · by_cases hmany : 6 < literals.length <;> simp [hnone, hmany, String.append_assoc]

namespace Grammar

/-- Where a match ends; a text without a match is not matched beyond its beginning. -/
def reach (o : Option Match) : Nat := o.elim 0 (·.stop.offset)

/-- What is reported of a text for which the start rule comes to `o`, with `failures` on the way. -/
structure Reported (g : Grammar) (text : String) (o : Option Match) (failures : Failures) : Prop where
  /-- There is no fault in an empty text, and none in a text that is matched to its end. -/
  sound : (g.read text).faults = [] ↔
    text = "" ∨ ∃ m, o = some m ∧ m.stop.offset = text.utf8ByteSize
  /-- Any other text has one fault, between two characters. It stands at the farther of the match's
  end and the farthest failure. The message tells what stands there, and the first six of the
  literals that failed there with the number of those left; it names none where the match ends behind
  the farthest failure. The text does not go on with any of the literals. -/
  fault : (g.read text).faults ≠ [] → ∃ before after literals, text = before ++ after ∧
    before.utf8ByteSize = max (farthest failures) (reach o) ∧
    literals = literalsAt failures before.utf8ByteSize ∧
    (g.read text).faults = [{
      message := "Unexpected " ++ after.toList.head?.elim "end of input" Text.quotedChar ++
        " at position " ++ toString before.utf8ByteSize ++
        if literals = [] then ""
        else ", expected " ++ ", ".intercalate ((literals.take 6).map Text.quoted) ++
          if 6 < literals.length then " or " ++ toString (literals.length - 6) ++ " more" else ""
      position := before.utf8ByteSize }] ∧
    (before.utf8ByteSize ≠ farthest failures → literals = []) ∧
    ∀ literal ∈ literals, ¬ literal.toList <+: after.toList
  /-- Without a match there is nothing but an empty root, which bears the name of the start rule. -/
  root : o = none → (g.read text).root =
    ⟨{ kind := (g.rule g.start).name
       start := 0
       stop := 0
       splice := (g.rule g.start).emission = .splice
       silent := (g.rule g.start).emission = .silent }, []⟩

section

variable {text : String} {o : Option Match} {failures : Failures} {stop : Spot}

/-- What a text comes to by a machine that has halted. -/
theorem read_of_halted (ht : text ≠ "") (hc : (g.finalMachine text).control = .halted o)
    (hstop : o.elim (.ofText text) (·.stop) = stop) : g.read text =
      ⟨⟨g.rootLabel stop.offset, o.elim [] (·.branches)⟩,
        if stop.offset < text.utf8ByteSize then [(g.finalMachine text).farthest.fault stop]
        else []⟩ := by
  have hempty : ¬ text.isEmpty = true := by simpa using ht
  unfold read
  rw [if_neg hempty]
  simp only [Machine.outcome, hc, ← hstop]
  cases o <;> rfl

variable (hc : (g.finalMachine text).control = .halted o)
  (ho : g.Outcome g.start (.ofText text) o failures)
  (hs : (g.finalMachine text).farthest.Sums (.ofText text) failures)

include ho in
theorem reaches_of_outcome (hstop : o.elim (.ofText text) (·.stop) = stop) :
    (Spot.ofText text).Reaches stop ∧ stop.offset = reach o := by
  subst hstop
  cases o with
  | none => exact ⟨.refl _, rfl⟩
  | some m => exact ⟨ho.reaches m rfl, rfl⟩

include hc ho

theorem faults_eq_nil_iff : (g.read text).faults = [] ↔
    text = "" ∨ ∃ m, o = some m ∧ m.stop.offset = text.utf8ByteSize := by
  by_cases ht : text = ""
  · subst ht
    simp [read]
  · obtain ⟨hreach, hoff⟩ := reaches_of_outcome ho rfl
    have hle : reach o ≤ text.utf8ByteSize := by
      obtain ⟨before, after, htext, hstop⟩ := hreach.parts
      rw [← hoff, hstop, htext, String.utf8ByteSize_append]
      exact Nat.le_add_right _ _
    have hpos : 0 < text.utf8ByteSize := by
      rw [Nat.pos_iff_ne_zero]
      simpa using ht
    rw [read_of_halted ht hc rfl, hoff]
    cases o with
    | none => simp [reach, ht, hpos]
    | some m =>
      have hm : reach (some m) = m.stop.offset := rfl
      simp [ht, hm] at hle ⊢
      omega

include hs

theorem fault_of_faults_ne_nil (hfaults : (g.read text).faults ≠ []) :
    ∃ before after, text = before ++ after ∧
      before.utf8ByteSize = max (farthest failures) (reach o) ∧
      (g.read text).faults = [unexpected ⟨before.utf8ByteSize, after.toList⟩
        (literalsAt failures before.utf8ByteSize)] ∧
      ∀ literal ∈ literalsAt failures before.utf8ByteSize, ¬ literal.toList <+: after.toList := by
  have ht : text ≠ "" := by
    rintro rfl
    exact hfaults rfl
  generalize hstop : o.elim (.ofText text) (·.stop) = stop
  obtain ⟨hreach, hoff⟩ := reaches_of_outcome ho hstop
  obtain ⟨s, hspot, hmax, hfault⟩ := hs.fault_eq rfl stop
  have hplace : (Spot.ofText text).Reaches s := by
    rcases hspot with rfl | rfl
    · exact hreach
    · exact hs.reaches ho
  have hnot := ho.not_prefix_of_mem hplace
  obtain ⟨before, after, htext, rfl⟩ := hplace.parts
  refine ⟨before, after, htext, hoff ▸ hmax, ?_, hnot⟩
  rw [read_of_halted ht hc hstop] at hfaults ⊢
  by_cases hlt : stop.offset < text.utf8ByteSize
  · rw [if_pos hlt, hfault]
  · rw [if_neg hlt] at hfaults
    exact absurd rfl hfaults

theorem reported_of_halted : g.Reported text o failures where
  sound := faults_eq_nil_iff hc ho
  fault hfaults := by
    obtain ⟨before, after, htext, hplace, hfault, hnot⟩ := fault_of_faults_ne_nil hc ho hs hfaults
    rw [unexpected_eq] at hfault
    refine ⟨before, after, _, htext, hplace, rfl, hfault, fun hne => ?_, hnot⟩
    exact literalsAt_eq_nil (by omega)
  root hn := by
    subst hn
    by_cases ht : text = ""
    · rw [ht]
      rfl
    · rw [read_of_halted ht hc rfl]
      rfl

end

/-- What is read of a text, by what the start rule comes to. -/
theorem read_of_outcome (hg : g.leftRecursion? = none) {text : String} (ht : text ≠ "")
    {o : Option Match} {failures : Failures} (ho : g.Outcome g.start (.ofText text) o failures) :
    ∃ s, (Spot.ofText text).Reaches s ∧ s.offset = max (farthest failures) (reach o) ∧
      g.read text = ⟨⟨g.rootLabel (reach o), o.elim [] (·.branches)⟩,
        if reach o < text.utf8ByteSize then [unexpected s (literalsAt failures s.offset)]
        else []⟩ := by
  obtain ⟨o', hc⟩ := Machine.halted_run_start hg g.start (.ofText text)
  obtain ⟨failures', hfollows, hsums⟩ := Machine.sums_run g.start (.ofText text)
    (Machine.limit g (Spot.ofText text).rest.length)
  change (g.finalMachine text).farthest.Sums _ _ at hsums
  obtain ⟨rfl, rfl⟩ := (hfollows.outcome hc).unique ho
  obtain ⟨hreach, hoff⟩ := reaches_of_outcome ho rfl
  obtain ⟨s, hspot, hmax, hfault⟩ := hsums.fault_eq rfl (o'.elim (.ofText text) (·.stop))
  have hplace : (Spot.ofText text).Reaches s := by
    rcases hspot with rfl | rfl
    · exact hreach
    · exact hsums.reaches ho
  refine ⟨s, hplace, hoff ▸ hmax, ?_⟩
  rw [read_of_halted ht hc rfl, hoff, hfault]

/-- **A fault says what is wrong.** The naive evaluation, which remembers nothing, comes to an end for
any text, and what a compiled grammar reports of the text is what the evaluation says. -/
theorem read_reported {source : String} {g : Grammar} (h : compile source = .ok g)
    (text : String) : (∃ o failures, g.Outcome g.start (.ofText text) o failures) ∧
      ∀ o failures, g.Outcome g.start (.ofText text) o failures → g.Reported text o failures := by
  obtain ⟨o, ho⟩ := Machine.halted_run_start (leftRecursion?_of_compile h) g.start (.ofText text)
  obtain ⟨failures, hfollows, hsums⟩ := Machine.sums_run g.start (.ofText text)
    (Machine.limit g (Spot.ofText text).rest.length)
  have houtcome := hfollows.outcome ho
  refine ⟨⟨o, failures, houtcome⟩, fun o' failures' houtcome' => ?_⟩
  obtain ⟨rfl, rfl⟩ := houtcome.unique houtcome'
  exact reported_of_halted ho houtcome hsums

/-- In this text both alternatives go on from the one outcome of `<b>`, and fail behind it. -/
theorem read_reported_twoWays : compile "<a> ::= <b> 'y' | <b> 'x' <b> ::= 'z'" = .ok twoWays ∧
    twoWays.Outcome twoWays.start (.ofText "zz") none
      [(⟨1, ['z']⟩, ['y']), (⟨1, ['z']⟩, ['x'])] ∧
    twoWays.Reported "zz" none [(⟨1, ['z']⟩, ['y']), (⟨1, ['z']⟩, ['x'])] := by
  have hb : twoWays.Outcome ⟨1, by decide⟩ (.ofText "zz") (some ⟨⟨1, ['z']⟩, []⟩) [] :=
    Yields.taken (Yields.literal (by decide : ['z'] <+: ['z', 'z']) Yields.complete)
  have hfails : ∀ c : Char, ¬ [c] <+: ['z'] → Yields twoWays
      (.all [.reference ⟨1, by decide⟩, .literal [c]]) (.ofText "zz") none [(⟨1, ['z']⟩, [c])] :=
    fun c hc => Yields.reference hb (Yields.mismatch hc)
  have houtcome : twoWays.Outcome twoWays.start (.ofText "zz") none
      [(⟨1, ['z']⟩, ['y']), (⟨1, ['z']⟩, ['x'])] :=
    Yields.passed (hfails 'y' (by decide))
      (Yields.passed (hfails 'x' (by decide)) Yields.exhausted)
  exact ⟨compile_twoWays, houtcome, (read_reported compile_twoWays "zz").2 _ _ houtcome⟩

end Grammar

end Typeahead
