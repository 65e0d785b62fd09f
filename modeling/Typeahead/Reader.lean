import Typeahead.Reader.Backend
import Typeahead.Recall
import Typeahead.Tally
import Typeahead.Text.Quoted
import Typeahead.Tree.Layout

/-!
# Reading texts

A reader turns texts into documents and remembers the latest ones.

- **Documents** (`Document`): a tree and the number of the parse that made it. A document that is
  remembered keeps its number, so two documents of one reader are the same one exactly when their
  numbers agree.
- **Reading** (`Reader.read`): look the text up (`lookUp`), and where it is not at hand parse it and
  remember the tree (`absorb`). The two halves are apart because a long parse lets other things
  happen between them.
-/

namespace Typeahead

/-- A tree, and the number of the parse that made it. -/
structure Document where
  serial : Nat
  tree : Tree

/-- A parser that remembers what it parsed. -/
structure Reader where
  backend : Backend
  memory : Recall Document
  /-- The number of texts that were parsed. -/
  parses : Nat := 0

namespace Reader

/-- A fresh reader that remembers so many texts, filed under a hash. -/
def hashed (hash : String → UInt64) (capacity : Nat) (backend : Backend) : Reader :=
  { backend, memory := .empty hash capacity }

/-- A fresh reader that remembers so many texts. -/
def remembering (capacity : Nat) (backend : Backend) : Reader :=
  hashed Hashable.hash capacity backend

/-- A fresh reader that remembers the last text. -/
def ofBackend (backend : Backend) : Reader := remembering 1 backend

variable (r : Reader)

/-- The document of a text, when it is at hand. -/
def lookUp (text : String) : Option Document × Reader :=
  let (found, memory) := r.memory.get text
  (found, { r with memory })

/-- What is observed when a text is looked up. -/
def lookedUp (found : Option Document) : List Observation := [.recalled found.isSome]

/-- The tree that the backend's reading of a text gives. -/
def treeOf (text : String) : Tree := Tree.ofReading text (r.backend.read text)

/-- The document of a text that is not at hand; it is at hand afterwards. -/
def absorb (text : String) : Document × Reader :=
  let document := ⟨r.parses, r.treeOf text⟩
  (document, { r with memory := r.memory.put text document, parses := r.parses + 1 })

/-- What is observed when a document has been made in so many microseconds. -/
def absorbed (document : Document) (micros : UInt64) : List Observation :=
  .took "parse" micros :: if document.tree.faults.isEmpty then [] else [.faulty]

/-- The document of a text, and what was observed on the way; parsing takes no time. -/
def read (text : String) : Document × Reader × List Observation :=
  match r.lookUp text with
  | (some document, r) => (document, r, lookedUp (some document))
  | (none, r) =>
    let (document, r) := r.absorb text
    (document, r, lookedUp none ++ absorbed document 0)

/-- Backend, start rule and number of parses as a record. -/
def describe : String :=
  "GrammarSession \x7b backend: " ++ Text.quoted r.backend.name ++ ", start_rule: " ++
    Text.quoted r.backend.startRule ++ ", parses: " ++ toString r.parses ++ " \x7d"

end Reader

end Typeahead
