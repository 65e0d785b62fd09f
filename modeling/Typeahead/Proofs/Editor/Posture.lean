import Typeahead.Proofs.Editor.Effect
import Typeahead.Proofs.Reader

/-!
# What an editor does, and when

How an editor goes on in time depends on its field, its reader, the passes and questions, and the
action that is held back together with the time at which it is due.

- **Postures** (`Posture`, `Editor.posture`).
- **Parsing** (`posture_resolveNow`, `posture_pass`): at once, or in a pass of three stages, a text
  is read once. What is held back afterwards is a question, where there is one to ask
  (`Posture.resolve`).
- **Holding back and asking** (`Prompted.posture`, `posture_fetch`).
-/

namespace Typeahead

/-- The parts of an editor on which depends what comes next, and when. -/
structure Posture where
  settings : Settings
  input : Input
  reader : Option Reader
  waiting : Option (Waiting Action)
  passes : List Pass
  requests : List Request
  asked : List Request
  clock : Nat

namespace Posture

variable (p : Posture)

/-- A document of the present text is put in place. -/
def resolve (d : Document) (silent : Bool) : Posture :=
  { p with
    input := p.input.resolve d silent
    waiting :=
      if silent || !d.tree.faults.isEmpty then p.waiting
      else some ⟨Clock.after p.clock p.settings.delay, .fetch⟩ }

/-- The present text is read by `r`. -/
def read (r : Reader) (silent : Bool) : Posture :=
  { p with reader := some (r.read p.input.text).2.1 }.resolve (r.read p.input.text).1 silent

theorem read_eq {r r' : Reader} {d : Document} (hd : (r.read p.input.text).1 = d)
    (hr : (r.read p.input.text).2.1 = r') (silent : Bool) :
    p.read r silent = { p with reader := some r' }.resolve d silent := by
  rw [read, hd, hr]

theorem resolve_parsing (d : Document) (silent : Bool) :
    { p with input := p.input.parsing }.resolve d silent = p.resolve d silent := by
  unfold resolve
  rw [Input.resolve_parsing]

theorem read_parsing (r : Reader) (silent : Bool) :
    { p with input := p.input.parsing }.read r silent = p.read r silent :=
  resolve_parsing { p with reader := some (r.read p.input.text).2.1 } _ silent

end Posture

namespace Editor

variable (e : Editor)

/-- The posture of an editor. -/
def posture : Posture where
  settings := e.settings
  input := e.input
  reader := e.reader
  waiting := e.slot.waiting
  passes := e.passes
  requests := e.requests
  asked := e.asked
  clock := e.clock

theorem posture_finish (d : Document) (silent : Bool) :
    (e.finish e.input.text d silent).posture = e.posture.resolve d silent := by
  rw [finish_current, Posture.resolve]
  split
  · rfl
  · rfl

/-- A question is asked about the target, and nothing is held back any more. -/
theorem posture_fetch {t : Node} (hp : e.input.phase ≠ .error) (ht : e.input.target = some t) :
    e.fetch.posture = { e.posture with
      input := e.input.fetching
      requests := e.requests ++ [⟨e.input.generation + 1, t, e.clock⟩]
      asked := ⟨e.input.generation + 1, t, e.clock⟩ :: e.asked } := by
  rw [fetch_eq hp ht]
  rfl

variable {e} in
/-- A parse is held back. -/
theorem Prompted.posture {e' : Editor} (h : e.Prompted e') : e'.posture = { e.posture with
    input := e'.input
    waiting := some ⟨Clock.after e.clock e.settings.delay, .resolve false⟩ } := by
  cases h with
  | edit => rfl
  | recheck => rfl

/-- Where there are no passes, none goes on. -/
theorem advance_of_nil (hp : e.passes = []) (index : Nat) : e.advance index = e := by
  simp only [advance, hp, List.getElem?_nil]

variable {e} {r : Reader} (hr : e.reader = some r) (silent : Bool)

include hr

theorem posture_resolveNow : (e.resolveNow silent).posture = e.posture.read r silent := by
  rw [resolveNow_eq hr]
  exact (posture_finish _ _ _).trans
    (Posture.resolve_parsing { e.posture with reader := some (r.read e.input.text).2.1 } _ _)

/-! ### One pass -/

theorem posture_advance_found {d : Document}
    (hp : e.passes = [{ text := e.input.text, silent }])
    (hd : (r.lookUp e.input.text).1 = some d) :
    (e.advance 0).posture = { e.posture with
      reader := some (r.lookUp e.input.text).2
      passes := [{ text := e.input.text, silent, stage := .done d }] } := by
  simp only [advance, hp, List.getElem?_cons_zero, hr, hd]
  rfl

theorem posture_advance_missed (hp : e.passes = [{ text := e.input.text, silent }])
    (hd : (r.lookUp e.input.text).1 = none) :
    (e.advance 0).posture = { e.posture with
      reader := some (r.lookUp e.input.text).2
      passes := [{ text := e.input.text, silent, stage := .missed }] } := by
  simp only [advance, hp, List.getElem?_cons_zero, hr, hd]
  rfl

theorem posture_advance_parse
    (hp : e.passes = [{ text := e.input.text, silent, stage := .missed }]) :
    (e.advance 0).posture = { e.posture with
      reader := some (r.absorb e.input.text).2
      passes := [{
        text := e.input.text, silent, stage := .done (r.absorb e.input.text).1 }] } := by
  simp only [advance, hp, List.getElem?_cons_zero, hr]
  rfl

theorem posture_advance_done {d : Document}
    (hp : e.passes = [{ text := e.input.text, silent, stage := .done d }]) :
    (e.advance 0).posture = { e.posture with passes := [] }.resolve d silent := by
  have hget : e.passes[0]? = some { text := e.input.text, silent, stage := .done d } := by
    rw [hp]
    rfl
  rw [advance_of_done e hr hget rfl]
  refine (posture_finish { e with passes := e.passes.eraseIdx 0 } d silent).trans ?_
  rw [hp]
  rfl

/-- A long text is read in a pass of three stages, or of two where it is at hand. -/
theorem posture_pass (hp : e.passes = [{ text := e.input.text, silent }]) :
    (((e.advance 0).advance 0).advance 0).posture =
      { e.posture with passes := [] }.read r silent := by
  cases hfound : (r.lookUp e.input.text).1 with
  | some d =>
    obtain ⟨hd, hreader⟩ := r.read_of_found _ hfound
    have h₁ := posture_advance_found hr silent hp hfound
    generalize e.advance 0 = e₁ at h₁ ⊢
    have hi₁ : e.input = e₁.input := (congrArg Posture.input h₁).symm
    have hp₁ : e₁.passes = [{ text := e₁.input.text, silent, stage := .done d }] := by
      rw [← hi₁]
      exact congrArg Posture.passes h₁
    have h₂ := posture_advance_done (congrArg Posture.reader h₁) silent hp₁
    rw [advance_of_nil _ (congrArg Posture.passes h₂), h₂, h₁]
    exact (Posture.read_eq { e.posture with passes := [] } hd hreader silent).symm
  | none =>
    obtain ⟨hd, hreader⟩ := r.read_of_missed _ hfound
    have h₁ := posture_advance_missed hr silent hp hfound
    generalize e.advance 0 = e₁ at h₁ ⊢
    have hi₁ : e.input = e₁.input := (congrArg Posture.input h₁).symm
    have hp₁ : e₁.passes = [{ text := e₁.input.text, silent, stage := .missed }] := by
      rw [← hi₁]
      exact congrArg Posture.passes h₁
    have h₂ := posture_advance_parse (congrArg Posture.reader h₁) silent hp₁
    generalize e₁.advance 0 = e₂ at h₂ ⊢
    rw [← hi₁] at h₂
    have hi₂ : e.input = e₂.input := hi₁.trans (congrArg Posture.input h₂).symm
    have hp₂ : e₂.passes = [{
        text := e₂.input.text
        silent
        stage := .done ((r.lookUp e.input.text).2.absorb e.input.text).1 }] := by
      rw [← hi₂]
      exact congrArg Posture.passes h₂
    have h₃ := posture_advance_done (congrArg Posture.reader h₂) silent hp₂
    rw [h₃, h₂, h₁]
    exact (Posture.read_eq { e.posture with passes := [] } hd hreader silent).symm

end Editor

end Typeahead
