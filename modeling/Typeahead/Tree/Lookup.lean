import Typeahead.Tree.Basic

/-!
# Finding nodes

- **By position** (`nodeAt`): from a node down to the deepest node around a byte offset. Both ends
  of a span count, and of two children that touch at the offset the first wins.
- **By kind, downwards** (`descendant?`): a node's own children come before anything further down.
- **By kind, upwards** (`ancestor`): the nearest one above, or the root.
-/

namespace Typeahead.Tree

variable {t : Tree}

/-- Whether the span of a node, ends included, contains `pos`. -/
def covers (i : t.Id) (pos : Nat) : Bool :=
  decide ((label i).start ≤ pos) && decide (pos ≤ (label i).stop)

/-- The node that a walk from `i` ends in when each step takes the first child around `pos`. -/
def nodeAt (i : t.Id) (pos : Nat) : t.Id :=
  match _ : (children i).find? (covers · pos) with
  | some c => nodeAt c pos
  | none => i
termination_by t.nodes.size - i.val
decreasing_by
  have : i < c := lt_of_mem_children (List.mem_of_find?_eq_some (by assumption))
  have : i.val < c.val := this
  omega

/-- The first node of a kind when the children of each node of `pending` are searched before the
nodes below them. -/
def descendantOf? (kind : String) : List t.Id → Option t.Id
  | [] => none
  | i :: rest =>
    match (children i).find? fun c => (label c).kind == kind with
    | some c => some c
    | none => descendantOf? kind (children i ++ rest)
termination_by pending => total weight pending
decreasing_by
  rw [total_append, total_cons, weight_eq i]
  omega

/-- The first node below `i` of a kind. -/
def descendant? (i : t.Id) (kind : String) : Option t.Id := descendantOf? kind [i]

/-- The nearest node above `i` of a kind, or the root when there is none. -/
def ancestor (i : t.Id) (kind : String) : t.Id :=
  match _ : parent? i with
  | some p => if (label p).kind == kind then p else ancestor p kind
  | none => i
termination_by i.val
decreasing_by exact lt_of_parent? (by assumption)

/-- A walk over the nodes of `pending`, each with its depth, and over all below them: a node comes
before its children. -/
def foldFrom {β : Type} (f : β → t.Id → Nat → β) (b : β) : List (t.Id × Nat) → β
  | [] => b
  | (i, depth) :: rest =>
    foldFrom f (f b i depth) ((children i).map (fun c => (c, depth + 1)) ++ rest)
termination_by pending => total (fun p => weight p.1) pending
decreasing_by
  rw [total_append, total_cons, total_map, weight_eq i]
  change total weight (children i) + _ < _
  omega

end Typeahead.Tree
