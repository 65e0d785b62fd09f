import Typeahead.Proofs.Tree.Image

/-!
# A tree read back

A tree is a report that has been put right, and a report can be read back from it.

- **Walk order** (`Branch.labels`): the labels of a branch as a walk comes to them that visits a
  node, then its children. The nodes of a tree stand in that order (`Tree.labels_layOut`).
- **Reading back** (`Tree.branch`, `Tree.reading`): a node with all that is below it, as it would be
  reported. What nodes depict is what is read back from them (`Tree.Depicts.map_branch`).
- **Reports in place** (`Reading.InPlace`): spans and faults lie between characters, inside the
  parent and behind the sibling before. Of such a report the tree is an exact copy
  (`Reading.InPlace.reading_eq`, `Reading.InPlace.labels_eq`).
-/

namespace Typeahead

namespace Branch

mutual

/-- The labels of a branch, each before those below it. -/
def labels : Branch → List Label
  | mk label children => label :: labelsAll children

/-- The labels of several branches, one branch after the other. -/
def labelsAll : List Branch → List Label
  | [] => []
  | b :: bs => b.labels ++ labelsAll bs

end

theorem labelsAll_append (as bs : List Branch) :
    labelsAll (as ++ bs) = labelsAll as ++ labelsAll bs := by
  induction as with
  | nil => rfl
  | cons a as ih => simp only [List.cons_append, labelsAll, ih, List.append_assoc]

end Branch

namespace Tree

/-! ## Walk order -/

/-- The labels of nodes in the order of their indices. -/
def labelsOf (nodes : Array Entry) : List Label := nodes.toList.map (·.label)

theorem labelsOf_eq (nodes : Array Entry) : labelsOf nodes = (places nodes).map (·.label) := by
  rw [places, List.map_map]
  rfl

theorem labelsOf_push (nodes : Array Entry) (label : Label) (parent : Option Nat) :
    labelsOf (push nodes label parent) = labelsOf nodes ++ [label] := by
  rw [labelsOf_eq, labelsOf_eq, places_push, List.map_append, List.map_singleton]

/-- Pending nodes get their places in the order of the walk. -/
theorem labelsOf_grow (source : String) (ps : List Pending) (nodes : Array Entry) :
    labelsOf (grow source ps nodes) =
      labelsOf nodes ++ Branch.labelsAll (ps.map (Pending.branch source)) := by
  fun_induction grow source ps nodes with
  | case1 nodes => simp [Branch.labelsAll]
  | case2 p rest nodes ih =>
    rw [ih, labelsOf_push, List.map_append, map_branch_openAll, Branch.labelsAll_append,
      List.map_cons, Branch.labelsAll, Pending.branch, Branch.labels]
    simp

theorem labels_layOut (source : String) (root : Branch) :
    labelsOf (layOut source root) =
      Branch.labelsAll (fitAll source 0 source.utf8ByteSize [root]) := by
  rw [layOut, labelsOf_grow, map_branch_openAll]
  rfl

/-! ## Reading back -/

section

variable {t : Tree}

/-- A node and all that is below it, as it would be reported. -/
def branch (i : t.Id) : Branch :=
  ⟨label i, (children i).attach.map fun c => branch c.1⟩
termination_by t.nodes.size - i.val
decreasing_by
  have : i < c.1 := lt_of_mem_children c.2
  have : i.val < c.1.val := this
  omega

theorem branch_eq (i : t.Id) : branch i = ⟨label i, (children i).map branch⟩ := by
  rw [branch, List.attach_map_val]

/-- What nodes depict is what is read back from them. -/
theorem Depicts.map_branch {is : List t.Id} {branches : List Branch} (h : Depicts is branches) :
    is.map branch = branches := by
  unfold Depicts at h
  generalize hjs : is.map Fin.val = js at h
  induction h generalizing is with
  | nil =>
    rw [List.map_eq_nil_iff] at hjs
    rw [hjs, List.map_nil]
  | cons entry below others ih₁ ih₂ =>
    obtain ⟨i, is, rfl, rfl, htail⟩ := List.map_eq_cons_iff.1 hjs
    rw [List.map_cons, branch_eq, ih₁ (map_val_children entry), ih₂ htail]
    obtain ⟨_, rfl⟩ := Array.getElem?_eq_some_iff.1 entry
    rfl

end

/-- The report that a tree is the tree of. -/
def reading (t : Tree) : Reading := ⟨branch t.root, t.faults⟩

end Tree

/-! ## Reports in place -/

/-- A report that needs no putting right. -/
structure Reading.InPlace (source : String) (r : Reading) : Prop where
  root : Tree.Settled source 0 source.utf8ByteSize [r.root]
  faults : ∀ f ∈ r.faults, Text.isBoundary source f.position = true

theorem Text.clampBoundary_eq {s : String} {i : Nat} (h : isBoundary s i = true) :
    clampBoundary s i = i := by
  rw [clampBoundary, Nat.min_eq_left (le_size_of_isBoundary h), floorBoundary_eq h]

namespace Reading.InPlace

variable {source : String} {r : Reading}

theorem faults_eq (h : r.InPlace source) : (Tree.ofReading source r).faults = r.faults := by
  have hself : ∀ f ∈ r.faults,
      { f with position := Text.clampBoundary source f.position } = f := by
    intro f hf
    rw [Text.clampBoundary_eq (h.faults f hf)]
  exact (List.map_congr_left hself).trans (List.map_id _)

/-- Nothing is moved, dropped or added: the tree of a report in place reads as the report. -/
theorem reading_eq (h : r.InPlace source) : (Tree.ofReading source r).reading = r := by
  have hroot := (Tree.depicts_root source r).map_branch
  rw [h.root.fitAll_eq, List.map_singleton, List.singleton_inj] at hroot
  rw [Tree.reading, hroot, h.faults_eq]

/-- The nodes of the tree of a report in place are those of the report, in the order of the walk. -/
theorem labels_eq (h : r.InPlace source) :
    Tree.labelsOf (Tree.ofReading source r).nodes = r.root.labels := by
  change Tree.labelsOf (Tree.layOut source r.root) = _
  rw [Tree.labels_layOut, h.root.fitAll_eq, Branch.labelsAll, Branch.labelsAll, List.append_nil]

end Reading.InPlace

end Typeahead
