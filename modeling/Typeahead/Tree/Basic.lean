import Typeahead.Text.Offset
import Typeahead.Tree.Branch

/-!
# Syntax trees

A tree keeps its nodes in one array and names them by their index. The root comes first.

- **Entries** (`Entry`): a label, the parent's index and the children's.
- **Trees** (`Tree`): a parent stands before its children, so walks up and walks down both end.
- **Reading a node** (`label`, `text`, `parent?`, `children`, `depth`).
-/

namespace Typeahead

/-- One node of a tree. -/
structure Entry where
  label : Label
  parent : Option Nat
  children : Array Nat
  deriving Repr, DecidableEq

/-- Parents stand before their children, and every child exists. -/
structure Linked (nodes : Array Entry) : Prop where
  parent_lt : ∀ (i : Nat) (h : i < nodes.size) (p : Nat), nodes[i].parent = some p → p < i
  lt_child : ∀ (i : Nat) (h : i < nodes.size) (c : Nat), c ∈ nodes[i].children →
    i < c ∧ c < nodes.size

/-- One parse of one text. -/
structure Tree where
  source : String
  nodes : Array Entry
  faults : List Fault
  nodes_pos : 0 < nodes.size
  linked : Linked nodes

namespace Tree

variable (t : Tree)

/-- The index of a node of `t`. -/
abbrev Id := Fin t.nodes.size

/-- The topmost node. -/
def root : t.Id := ⟨0, t.nodes_pos⟩

/-- The node with an index, when there is one. -/
def node? (i : Nat) : Option t.Id :=
  if h : i < t.nodes.size then some ⟨i, h⟩ else none

/-- The number of nodes. -/
def size : Nat := t.nodes.size

variable {t}

/-- Kind, span and flags of a node. -/
def label (i : t.Id) : Label := t.nodes[i].label

/-- The part of the text that a node covers. -/
def text (i : t.Id) : String := Text.slice t.source (label i).start (label i).stop

/-- The node above a node. -/
def parent? (i : t.Id) : Option t.Id :=
  match h : t.nodes[i].parent with
  | some p => some ⟨p, Nat.lt_trans (t.linked.parent_lt i i.isLt p h) i.isLt⟩
  | none => none

/-- The nodes directly below a node, in order. -/
def children (i : t.Id) : List t.Id :=
  t.nodes[i].children.toList.pmap (fun c h => ⟨c, (t.linked.lt_child i i.isLt c h).2⟩)
    (fun _ h => Array.mem_toList_iff.1 h)

theorem lt_of_mem_children {i c : t.Id} (h : c ∈ children i) : i < c := by
  obtain ⟨n, hn, rfl⟩ := List.mem_pmap.1 h
  exact (t.linked.lt_child i i.isLt n (Array.mem_toList_iff.1 hn)).1

theorem lt_of_parent? {i p : t.Id} (h : parent? i = some p) : p < i := by
  unfold parent? at h
  split at h
  · rename_i q hq
    cases h
    exact t.linked.parent_lt i i.isLt q hq
  · cases h

/-- `n` more than the number of nodes above a node. -/
def depthFrom (n : Nat) (i : t.Id) : Nat :=
  match _ : parent? i with
  | some p => depthFrom (n + 1) p
  | none => n
termination_by i.val
decreasing_by exact lt_of_parent? (by assumption)

/-- The number of nodes above a node. -/
def depth (i : t.Id) : Nat := depthFrom 0 i

/-- The number of nodes below a node, itself included. -/
def weight (i : t.Id) : Nat :=
  total (fun c => weight c.1) (children i).attach + 1
termination_by t.nodes.size - i.val
decreasing_by
  have : i < c.1 := lt_of_mem_children c.2
  have : i.val < c.1.val := this
  omega

theorem weight_eq (i : t.Id) : weight i = total weight (children i) + 1 := by
  rw [weight, total_attach]

variable (t)

/-- What follows the part of the text that the root covers. -/
def remainder : String := Text.sliceFrom t.source (label t.root).stop

end Tree

end Typeahead
