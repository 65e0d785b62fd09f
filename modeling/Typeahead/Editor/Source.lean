import Typeahead.Editor.Fetch
import Typeahead.Suggestions

/-!
# Where suggestions come from

- **Tables** answer at once, by the kind of the node; **failing** sources fail at once.
- **Pending** sources leave every question open until somebody answers it.
-/

namespace Typeahead

/-- What an editor asks for candidates. -/
inductive Source where
  | table (s : Suggestions)
  | failing (message : String)
  | pending

namespace Source

/-- What a source says at once about a node. -/
def answer? : Source → Node → Option Answer
  | table s, n => some (.ok (s.candidates n.label.kind))
  | failing message, _ => some (.error message)
  | pending, _ => none

/-- The words for a failure from its causes, the innermost of which comes first. -/
def failure (causes : List String) : String := ": ".intercalate causes.reverse

end Source

end Typeahead
