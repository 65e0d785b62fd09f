import Typeahead.Proofs.Grammar.Compile
import Typeahead.Proofs.Match.Fault
import Typeahead.Proofs.Match.Packrat
import Typeahead.Proofs.Tree.Readback

/-!
# A grammar reads in place

A tree takes any report, and moves what does not fit. Of what a grammar reports it moves nothing.

- **Cuts** (`Text.cut?`): what a text goes on with at an offset, where there is an offset to cut at.
  Wherever a machine looks, it looks at such a cut (`Spot.Reaches.cut?_eq`), and so for every rule
  in progress (`Machine.frames`), however far it has run (`Machine.Follows.cut?_eq`).
- **Branches** (`Yields.settled`): what a match leaves lies between its start and its end, each
  branch behind the one before, and so at every depth. A match of nothing leaves branches without a
  byte; they are in place as well.
- **Reports** (`Grammar.inPlace_read`): the root spans what was matched, and the fault stands at a
  cut, so the tree of the report is the report (`Grammar.read_kept`).
-/

namespace Typeahead

open Grammar

/-! ## Cuts -/

/-- What `s` goes on with at `i`, when it can be cut there. -/
def Text.cut? (s : String) (i : Nat) : Option String :=
  if isBoundary s i then some (sliceFrom s i) else none

theorem Text.cut?_append (a b : String) : cut? (a ++ b) a.utf8ByteSize = some b := by
  have h := slice_append a b ""
  rw [String.append_empty] at h
  rw [cut?, if_pos (isBoundary_iff.2 ⟨a, b, rfl, rfl⟩), sliceFrom, String.utf8ByteSize_append, h]

namespace Spot.Reaches

variable {text : String} {s : Spot}

theorem isBoundary (h : (ofText text).Reaches s) : Text.isBoundary text s.offset = true := by
  obtain ⟨before, after, htext, rfl⟩ := h.parts
  exact Text.isBoundary_iff.2 ⟨before, after, htext, rfl⟩

/-- A spot knows what the text goes on with. -/
theorem cut?_eq (h : (ofText text).Reaches s) :
    Text.cut? text s.offset = some (String.ofList s.rest) := by
  obtain ⟨before, after, rfl, rfl⟩ := h.parts
  rw [Text.cut?_append, String.ofList_toList]

end Spot.Reaches

variable {g : Grammar}

/-- The rules in progress, the innermost one first. -/
def Machine.frames (m : Machine g) : List (Frame g) :=
  match m.control with
  | .items f | .alternative f => f :: m.callers
  | .halted _ => []

section

variable {first : Spot} {root : g.RuleId} {failures : Failures}

theorem Suspended.placed {callers : List (Frame g)} {r : g.RuleId} {s : Spot}
    (h : Suspended first root callers r s failures) : ∀ f ∈ callers, f.Placed first := by
  induction h with
  | root => simp
  | caller hf _ _ ih => exact List.forall_mem_cons.2 ⟨hf, ih⟩

/-- All rules in progress stand in the text. -/
theorem Machine.Follows.placed {m : Machine g} (h : m.Follows first root failures) :
    ∀ f ∈ m.frames, f.Placed first := by
  obtain ⟨hcontrol, -⟩ := h
  unfold frames
  generalize m.control = c at hcontrol
  cases hcontrol with
  | items hf _ hw => exact List.forall_mem_cons.2 ⟨hf, hw.placed⟩
  | alternative hf _ hw => exact List.forall_mem_cons.2 ⟨hf, hw.placed⟩
  | halted _ => simp

end

/-- Each rule in progress knows what the text goes on with, where it began and where it is. -/
structure Frame.OnCuts (f : Frame g) (text : String) : Prop where
  start : Text.cut? text f.start.offset = some (String.ofList f.start.rest)
  spot : Text.cut? text f.spot.offset = some (String.ofList f.spot.rest)

theorem Frame.Placed.onCuts {f : Frame g} {text : String} (h : f.Placed (.ofText text)) :
    f.OnCuts text :=
  ⟨h.start.cut?_eq, (h.start.trans h.spot).cut?_eq⟩

theorem Machine.onCuts_run (r : g.RuleId) (text : String) (n : Nat) :
    ∀ f ∈ ((start r (.ofText text)).run n).frames, f.OnCuts text := by
  obtain ⟨failures, h⟩ := (follows_start r (.ofText text)).run n
  intro f hf
  exact (h.placed f hf).onCuts

/-! ## Branches -/

namespace Tree

variable {source : String}

theorem Settled.append {lo mid hi : Nat} {as bs : List Branch} (ha : Settled source lo mid as)
    (hb : Settled source mid hi bs) (hlo : lo ≤ mid) (hhi : mid ≤ hi) :
    Settled source lo hi (as ++ bs) := by
  induction as generalizing lo with
  | nil => exact hb.mono hlo
  | cons a as ih =>
    cases ha with
    | cons fits start stop inside behind =>
      exact .cons fits start (Nat.le_trans stop hhi) inside (ih behind stop)

theorem Settled.singleton {lo hi : Nat} {label : Label} {children : List Branch}
    (fits : label.Fits source) (start : lo ≤ label.start) (stop : label.stop ≤ hi)
    (inside : Settled source label.start label.stop children) :
    Settled source lo hi [⟨label, children⟩] :=
  .cons fits start stop inside .nil

end Tree

namespace Grammar

variable {text : String}

/-- What a match leaves in the tree lies where the match does. -/
theorem settled_emit {s : Spot} {m : Match} (r : g.RuleId) (hs : (Spot.ofText text).Reaches s)
    (hm : s.Reaches m.stop) (h : Tree.Settled text s.offset m.stop.offset m.branches) :
    Tree.Settled text s.offset m.stop.offset (g.emit r s m) := by
  unfold emit
  cases (g.rule r).emission with
  | node =>
    have fits : Label.Fits text
        { kind := (g.rule r).name, start := s.offset, stop := m.stop.offset } :=
      ⟨hs.isBoundary, (hs.trans hm).isBoundary, hm.le⟩
    exact .singleton fits (Nat.le_refl _) (Nat.le_refl _) h
  | silent => exact .nil
  | splice => exact h

/-- What a match leaves lies between its start and its end, each branch behind the one before. -/
theorem Yields.settled {task : Task g} {s : Spot} {o : Option Match} {failures : Failures}
    (h : Yields g task s o failures) : (Spot.ofText text).Reaches s → ∀ m, o = some m →
      Tree.Settled text s.offset m.stop.offset m.branches := by
  induction h with
  | exhausted => intro _ m hm; cases hm
  | taken _ ih => exact ih
  | passed _ _ _ ih => exact ih
  | complete =>
    rintro - m ⟨⟩
    exact .nil
  | literal hp _ ih =>
    intro hs m hm
    have hpast := Spot.Reaches.past hp
    exact (ih (hs.trans hpast) m hm).mono hpast.le
  | mismatch _ => intro _ m hm; cases hm
  | @reference s r items m _ _ _ hr hrest ih₁ ih₂ =>
    intro hs _ hm
    obtain ⟨rest, rfl, rfl⟩ := Option.map_eq_some_iff.1 hm
    have hfirst := hr.reaches m rfl
    have hthen := hrest.reaches rest rfl
    -- What the rule leaves ends where the other items begin.
    have hemit := settled_emit r hs hfirst (ih₁ hs m rfl)
    exact hemit.append (ih₂ (hs.trans hfirst) rest rfl) hfirst.le hthen.le
  | refused _ _ => intro _ m hm; cases hm

/-! ## Reports -/

/-- What the outcome of the start rule leaves below the root lies inside the root. -/
theorem Outcome.settled_root {o : Option Match} {failures : Failures}
    (h : g.Outcome g.start (.ofText text) o failures) :
    Tree.Settled text 0 text.utf8ByteSize
      [⟨g.rootLabel (reach o), o.elim [] (·.branches)⟩] := by
  have hinside : Tree.Settled text 0 (reach o) (o.elim [] (·.branches)) := by
    cases o with
    | none => exact .nil
    | some m => exact Yields.settled h (.refl _) m rfl
  obtain ⟨hreach, hoff⟩ := reaches_of_outcome h rfl
  have hstop : Text.isBoundary text (reach o) = true := hoff ▸ hreach.isBoundary
  have fits : (g.rootLabel (reach o)).Fits text :=
    ⟨Text.isBoundary_zero text, hstop, Nat.zero_le _⟩
  exact .singleton fits (Nat.zero_le _) (Text.le_size_of_isBoundary hstop) hinside

/-- A fault stands where the text can be cut, and its words are about what the text goes on with. -/
def Cited (text : String) (f : Fault) : Prop :=
  ∃ rest literals, Text.cut? text f.position = some rest ∧
    f = unexpected ⟨f.position, rest.toList⟩ literals

theorem cited_unexpected {s : Spot} (hs : (Spot.ofText text).Reaches s) (literals : List String) :
    Cited text (unexpected s literals) :=
  ⟨_, literals, hs.cut?_eq, by rw [String.toList_ofList]; rfl⟩

theorem Cited.isBoundary {f : Fault} (h : Cited text f) :
    Text.isBoundary text f.position = true := by
  obtain ⟨rest, -, hcut, -⟩ := h
  unfold Text.cut? at hcut
  split at hcut
  · assumption
  · cases hcut

/-- A report of a text, in place, with faults that are about the text. -/
theorem settled_read (hg : g.leftRecursion? = none) (text : String) :
    Tree.Settled text 0 text.utf8ByteSize [(g.read text).root] ∧
      ∀ f ∈ (g.read text).faults, Cited text f := by
  by_cases ht : text = ""
  · subst ht
    have fits : (g.rootLabel 0).Fits "" :=
      ⟨Text.isBoundary_zero _, Text.isBoundary_zero _, Nat.le_refl _⟩
    have hread : g.read "" = ⟨⟨g.rootLabel 0, []⟩, []⟩ := rfl
    rw [hread]
    exact ⟨.singleton fits (Nat.zero_le _) (Nat.zero_le _) .nil, by simp⟩
  · obtain ⟨o, -, ho⟩ := Machine.run_start hg g.start (.ofText text)
    obtain ⟨failures, houtcome⟩ := (ho o).2 rfl
    obtain ⟨s, hs, -, hread⟩ := read_of_outcome hg ht houtcome
    rw [hread]
    refine ⟨houtcome.settled_root, fun f hf => ?_⟩
    dsimp only at hf
    split at hf
    · rw [List.mem_singleton.1 hf]
      exact cited_unexpected hs _
    · cases hf

/-- What a grammar reports is in place. -/
theorem inPlace_read (hg : g.leftRecursion? = none) (text : String) :
    (g.read text).InPlace text := by
  obtain ⟨hroot, hfaults⟩ := settled_read hg text
  exact ⟨hroot, fun f hf => (hfaults f hf).isBoundary⟩

/-- **What a grammar reports is kept.** However far a compiled grammar has read in a text, each rule
in progress began, and is now, where the text can be cut, and matches against what follows there;
and so the fault is about what follows at its position. The tree of the report has its nodes, with
their kinds and spans, in the order of the walk, and reads as the report: the same branches, in the
same order, and the same fault. -/
theorem read_kept {source : String} (h : compile source = .ok g) (text : String) :
    (∀ n, ∀ f ∈ ((Machine.start g.start (.ofText text)).run n).frames, f.OnCuts text) ∧
    (∀ f ∈ (g.read text).faults, Cited text f) ∧
    Tree.labelsOf (Tree.ofReading text (g.read text)).nodes = (g.read text).root.labels ∧
    (Tree.ofReading text (g.read text)).reading = g.read text := by
  have hg := leftRecursion?_of_compile h
  have hplace := inPlace_read hg text
  refine ⟨Machine.onCuts_run g.start text, (settled_read hg text).2, ?_, ?_⟩
  · exact hplace.labels_eq
  · exact hplace.reading_eq

/-- In this text `<b>` matches before a character of two bytes, and both alternatives fail there. -/
theorem read_kept_twoWays : compile "<a> ::= <b> 'y' | <b> 'x' <b> ::= 'z'" = .ok twoWays ∧
    (∀ n, ∀ f ∈ ((Machine.start twoWays.start (.ofText "zé")).run n).frames, f.OnCuts "zé") ∧
    (∀ f ∈ (twoWays.read "zé").faults, Cited "zé" f) ∧
    Tree.labelsOf (Tree.ofReading "zé" (twoWays.read "zé")).nodes =
      (twoWays.read "zé").root.labels ∧
    (Tree.ofReading "zé" (twoWays.read "zé")).reading = twoWays.read "zé" :=
  ⟨compile_twoWays, read_kept compile_twoWays "zé"⟩

end Grammar

end Typeahead
