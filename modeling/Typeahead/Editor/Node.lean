import Typeahead.Reader
import Typeahead.Tree.Lookup

/-!
# Nodes of documents

A node is named by its document and its index there. Two nodes are the same one (`==`) when their
documents are one document and their indices agree, whatever they cover.
-/

namespace Typeahead

/-- A node of a document. -/
structure Node where
  document : Document
  id : document.tree.Id

namespace Node

/-- The topmost node of a document. -/
def root (d : Document) : Node := ⟨d, d.tree.root⟩

/-- The deepest node around a byte offset. -/
def under (d : Document) (pos : Nat) : Node := ⟨d, Tree.nodeAt d.tree.root pos⟩

variable (n : Node)

/-- Kind, span and flags. -/
def label : Label := Tree.label n.id

/-- The part of the document that the node covers. -/
def text : String := Tree.text n.id

/-- The text of the node's document. -/
def source : String := n.document.tree.source

instance : BEq Node where
  beq a b := a.document.serial == b.document.serial && a.id.val == b.id.val

theorem beq_iff {a b : Node} :
    (a == b) = true ↔ a.document.serial = b.document.serial ∧ a.id.val = b.id.val := by
  change (_ && _) = true ↔ _
  rw [Bool.and_eq_true, beq_iff_eq, beq_iff_eq]

theorem beq_self (a : Node) : (a == a) = true := beq_iff.2 ⟨rfl, rfl⟩

end Node

end Typeahead
