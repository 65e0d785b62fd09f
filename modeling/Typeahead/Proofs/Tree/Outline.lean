import Typeahead.Proofs.Tree.Copy
import Typeahead.Tree.Outline

/-!
# The outline of a tree

Three walks agree on an outline. The array of a tree is filled in the order of a walk, the outline is
written by a walk that counts the levels on its way down, and the depth of a node is counted on the
way up from it.

- **Counting on the way down** (`Normal.foldFrom_eq`): a walk that carries the depth of each pending
  node comes to the nodes in the order of `walk`, each with the depth that the way up counts.
- **Indices** (`walk_root_eq`): from the root these are all nodes, by index.
- **Lines** (`outline_lines`): so an outline has one line for each node, in this order.
-/

namespace Typeahead.Tree

variable {t : Tree} {β : Type} {source : String} {reading : Reading}

/-- A walk that carries depths folds over the nodes in the order of `walk`, each at its own depth. -/
theorem Normal.foldFrom_eq (n : t.Normal) (f : β → t.Id → Nat → β) (b : β)
    (pending : List (t.Id × Nat)) (h : ∀ p ∈ pending, p.2 = depth p.1) :
    foldFrom f b pending =
      (pending.flatMap fun p => walk p.1).foldl (fun b i => f b i (depth i)) b := by
  fun_induction foldFrom f b pending with
  | case1 b => rfl
  | case2 b i d rest ih =>
    obtain ⟨hd, hrest⟩ := List.forall_mem_cons.1 h
    obtain rfl : d = depth i := hd
    rw [ih]
    · simp [walk_eq i, List.flatMap_map]
    · -- A child is one level below the node that its parent link names.
      intro p hp
      rcases List.mem_append.1 hp with hp | hp
      · obtain ⟨c, hc, rfl⟩ := List.mem_map.1 hp
        exact (depth_of_parent? ((n.mem_children_iff i c).1 hc)).symm
      · exact hrest p hp

theorem depth_root : depth (ofReading source reading).root = 0 :=
  depthFrom_of_none (parent?_eq_none_iff.2 rfl) 0

/-- The walk from the root is the list of all nodes by index. -/
theorem walk_root_eq : walk (ofReading source reading).root =
    List.finRange (ofReading source reading).nodes.size := by
  apply List.map_injective_iff.2 fun _ _ => Fin.ext
  rw [walk_root, List.map_coe_finRange_eq_range]
  rfl

theorem indent_eq (depth : Nat) : indent depth = String.ofList (List.replicate (2 * depth) ' ') := by
  unfold indent
  rw [String.pushn_eq_repeat_push]
  induction 2 * depth with
  | zero => rfl
  | succ k ih =>
    rw [Nat.repeat, ih, List.replicate_succ']
    exact String.toList_injective (by simp)

/-- **Outlines.** The outline of any tree that is made of a report is one line after another for the
nodes by index, from the first to the last: two spaces for each level that the way up from the node
counts, its kind, its span, and between quotes the part of the source that the span cuts out. -/
theorem outline_lines (source : String) (reading : Reading) :
    let t := ofReading source reading
    t.outline = String.join ((List.finRange t.nodes.size).map fun i =>
      String.ofList (List.replicate (2 * depth i) ' ') ++ (label i).kind ++ " [" ++
        toString (label i).start ++ ".." ++ toString (label i).stop ++ "] " ++
        Text.quoted (text i) ++ "\n") ∧
    t.nodes.size = reading.root.count ∧
    ∀ i : t.Id, ∃ before after, source = before ++ text i ++ after ∧
      (label i).start = before.utf8ByteSize ∧
      (label i).stop = (before ++ text i).utf8ByteSize := by
  intro t
  have n : t.Normal := normal_ofReading source reading
  have hpending : ∀ p ∈ [(t.root, 0)], p.2 = depth p.1 := by
    intro p hp
    rw [List.mem_singleton.1 hp]
    exact depth_root.symm
  have hlines : t.outline =
      (List.finRange t.nodes.size).foldl (fun out i => out ++ line i (depth i)) "" := by
    unfold outline
    rw [n.foldFrom_eq _ _ _ hpending, List.flatMap_singleton, walk_root_eq]
  refine ⟨?_, size_layOut source reading.root, n.exists_parts⟩
  rw [hlines, String.join, List.foldl_map]
  simp only [line, indent_eq]

end Typeahead.Tree
