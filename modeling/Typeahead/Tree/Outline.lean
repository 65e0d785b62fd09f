import Typeahead.Text.Quoted
import Typeahead.Tree.Lookup

/-!
# Trees as text

- **Nodes** (`tag`, `describe`): kind and span, without or with the covered text.
- **Outlines** (`outline`): one line for each node, parents before children, indented by depth.
-/

namespace Typeahead.Tree

variable {t : Tree}

/-- The kind and span of a node, in a form that names it in lists. -/
def tag (i : t.Id) : String :=
  (label i).kind ++ "@" ++ toString (label i).start ++ ".." ++ toString (label i).stop

/-- Kind, span and text of a node as a record. -/
def describe (i : t.Id) : String :=
  "SyntaxNode \x7b kind: " ++ Text.quoted (label i).kind ++ ", span: " ++
    toString (label i).start ++ ".." ++ toString (label i).stop ++ ", text: " ++
    Text.quoted (text i) ++ " \x7d"

/-- Two spaces for each level of depth. -/
def indent (depth : Nat) : String := "".pushn ' ' (2 * depth)

/-- The line that shows a node at a depth. -/
def line (i : t.Id) (depth : Nat) : String :=
  indent depth ++ (label i).kind ++ " [" ++ toString (label i).start ++ ".." ++
    toString (label i).stop ++ "] " ++ Text.quoted (text i) ++ "\n"

variable (t)

/-- All nodes, one line each. -/
def outline : String := foldFrom (fun out i depth => out ++ line i depth) "" [(t.root, 0)]

end Typeahead.Tree
