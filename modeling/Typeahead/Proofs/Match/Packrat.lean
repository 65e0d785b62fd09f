import Typeahead.Match.Report
import Typeahead.Proofs.Grammar.Compile
import Typeahead.Proofs.Match.Termination

/-!
# Matching by a compiled grammar

A compiled grammar has no left recursion, so every match of a text by it halts, and with the one
outcome that the grammar means (`finalMachine_outcome`): the same success or failure, the same end
and the same branches as when nothing is remembered. On the way no rule is entered twice at one
offset (`finalMachine_entries`).
-/

namespace Typeahead

open Grammar

/-- Without left recursion, a machine halts with the one outcome of its rule. -/
theorem Machine.run_start {g : Grammar} (hg : g.leftRecursion? = none) (root : g.RuleId)
    (first : Spot) : ∃ o, ((start root first).run (limit g first.rest.length)).control = .halted o ∧
      ∀ o', (∃ failures, g.Outcome root first o' failures) ↔ o' = o := by
  obtain ⟨o, ho⟩ := halted_run_start hg root first
  obtain ⟨failures, hfollows⟩ := (follows_start root first).run (limit g first.rest.length)
  have houtcome := hfollows.outcome ho
  refine ⟨o, ho, fun o' => ⟨?_, ?_⟩⟩
  · rintro ⟨failures', h⟩
    exact (h.unique houtcome).1
  · rintro rfl
    exact ⟨failures, houtcome⟩

/-- **A text is matched as the grammar means.** The machine halts, with the one outcome that ordered
choice without a memory gives for the start rule. -/
theorem Grammar.finalMachine_outcome {source : String} {g : Grammar} (h : compile source = .ok g)
    (text : String) : ∃ o, (g.finalMachine text).control = .halted o ∧
      ∀ o', (∃ failures, g.Outcome g.start (.ofText text) o' failures) ↔ o' = o :=
  Machine.run_start (leftRecursion?_of_compile h) g.start (.ofText text)

/-- In this text the second alternative takes the outcome of `<b>` that the first has left. -/
theorem Grammar.finalMachine_outcome_twoWays :
    compile "<a> ::= <b> 'y' | <b> 'x' <b> ::= 'z'" = .ok twoWays ∧
      ∃ o, (twoWays.finalMachine "zx").control = .halted o ∧
        ∀ o', (∃ failures, twoWays.Outcome twoWays.start (.ofText "zx") o' failures) ↔ o' = o :=
  ⟨compile_twoWays, finalMachine_outcome compile_twoWays "zx"⟩

/-- **A match is packrat.** The machine halts, and however far it has run, no rule has been entered
twice at one offset, the start rule at the beginning included. So it enters no more rules than there
are at all offsets of the text. -/
theorem Grammar.finalMachine_entries {source : String} {g : Grammar} (h : compile source = .ok g)
    (text : String) : (g.finalMachine text).control.Halted ∧
      ∀ n, ((Machine.start g.start (.ofText text)).entries n).Nodup ∧
        ((Machine.start g.start (.ofText text)).entries n).length ≤
          g.size * (text.utf8ByteSize + 1) := by
  have hg := leftRecursion?_of_compile h
  refine ⟨Machine.halted_run_start hg g.start (.ofText text), fun n => ?_⟩
  obtain ⟨_, hn⟩ := Machine.counted_entries hg g.start (.ofText text) n
  refine ⟨hn.nodup, (Machine.length_entered_le hn.nodup hn.placed).trans ?_⟩
  have hsize : text.toList.length ≤ text.utf8ByteSize := by
    conv_rhs => rw [← String.ofList_toList (s := text), Text.utf8ByteSize_ofList]
    exact Text.length_le_byteCount _
  exact Nat.mul_le_mul_left _ (Nat.succ_le_succ hsize)

/-- In this text both alternatives refer to `<b>` at the beginning, and it is entered once. -/
theorem Grammar.finalMachine_entries_twoWays :
    compile "<a> ::= <b> 'y' | <b> 'x' <b> ::= 'z'" = .ok twoWays ∧
      (twoWays.finalMachine "zx").control.Halted ∧
      ∀ n, ((Machine.start twoWays.start (.ofText "zx")).entries n).Nodup ∧
        ((Machine.start twoWays.start (.ofText "zx")).entries n).length ≤
          twoWays.size * ("zx".utf8ByteSize + 1) :=
  ⟨compile_twoWays, finalMachine_entries compile_twoWays "zx"⟩

end Typeahead
