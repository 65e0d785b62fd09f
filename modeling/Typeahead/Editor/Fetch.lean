import Typeahead.Editor.Resolve

/-!
# Asking for suggestions

- **Questions** (`fetch`): nothing is asked about a faulty text, nor without a target. Each question
  has a generation of its own.
- **Answers** (`answer`): one that is not of the present generation, or not about the present
  target, is dropped. Any other fills the panel, or closes it when the source has failed.
- **Actions that are due** (`fire`).
-/

namespace Typeahead

/-- What a source says: candidates, or why there are none. -/
abbrev Answer := Except String (List String)

namespace Editor

variable (e : Editor)

/-- Asks the source about the target. -/
def fetch : Editor :=
  match e.input.phase, e.input.target with
  | .error, _ => e
  | _, none => e
  | _, some target =>
    let e := (e.publish e.input.fetching).observe [.asked]
    let request := ⟨e.input.generation, target, e.clock⟩
    { e with requests := e.requests ++ [request], asked := request :: e.asked }

/-- Performs the action that is held back. -/
def fire : Editor :=
  match e.slot.fire? with
  | none => e
  | some (.resolve silent, slot) => { e with slot }.resolve silent
  | some (.fetch, slot) => { e with slot }.fetch

/-- Whether an answer to a question is still wanted. -/
def wants (r : Request) : Bool :=
  e.input.generation == r.generation && e.input.target == some r.target

/-- Takes the answer to a question. -/
def take (r : Request) : Answer → Editor
  | .ok candidates =>
    (e.publish (e.input.offer (shortlist e.limit candidates r.target.text))).observe [.applied]
  | .error message => (e.publish (e.input.fail e.settings message)).observe [.failed]

/-- The first question of a generation among those without an answer. -/
def request? (generation : Nat) : Option Request :=
  e.requests.find? (·.generation == generation)

/-- The answer to the question of a generation has come. -/
def answer (generation : Nat) (a : Answer) : Editor :=
  match e.request? generation with
  | none => e
  | some r =>
    let took := microsOf 0 ((e.clock - r.asked) * 1000000)
    let e := { e with requests := e.requests.eraseP (·.generation == generation) }
    let e := e.observe [.took "fetch" took]
    if e.wants r then e.take r a else e.observe [.discarded]

end Editor

end Typeahead
