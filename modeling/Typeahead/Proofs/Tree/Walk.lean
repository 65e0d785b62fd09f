import Typeahead.Proofs.Tree.Image

/-!
# Walks over a tree

A walk comes to a node before it comes to the nodes below it, and to all below one child before it
comes to the next child.

- **Walks** (`Tree.walk`) and the nodes that one comes to (`mem_walk_iff`): the node that it begins
  at, and those below it (`Tree.Below`). The walk from one of them is a part of it (`infix_walk`).
- **Places in the order of the walk** (`Tree.Ranged`): pending nodes grow into the places behind
  those that are taken (`ranged_grow`). So the walk from the root comes to the nodes of a tree in the
  order of their indices (`walk_root`), and below a node are just the nodes that follow it
  (`below_iff_lt`).
- **Ways up** (`Below.exists_parent`, `depth_of_parent?`).
-/

namespace Typeahead.Tree

variable {t : Tree}

/-- What holds of a node once it holds of its children holds of every node. -/
theorem children_induction {P : t.Id → Prop} (h : ∀ i, (∀ c ∈ children i, P c) → P i)
    (i : t.Id) : P i :=
  h i fun c _ => children_induction h c
termination_by t.nodes.size - i.val
decreasing_by
  have : i.val < c.val := lt_of_mem_children ‹_›
  omega

/-! ## Nodes below a node -/

/-- The second node is below the first. -/
inductive Below : t.Id → t.Id → Prop
  | child {i c : t.Id} : c ∈ children i → Below i c
  | under {i c d : t.Id} : c ∈ children i → Below c d → Below i d

namespace Below

variable {i d e : t.Id}

/-- What leads from every node to its children, and on, leads to all nodes below it. -/
theorem of_children {R : t.Id → t.Id → Prop} (child : ∀ i, ∀ c ∈ children i, R i c)
    (trans : ∀ {i c d}, R i c → R c d → R i d) (h : Below i d) : R i d := by
  induction h with
  | child hc => exact child _ _ hc
  | under hc _ ih => exact trans (child _ _ hc) ih

theorem lt (h : Below i d) : i < d := h.of_children (fun _ _ => lt_of_mem_children) Nat.lt_trans

theorem trans (h : Below i d) (h' : Below d e) : Below i e := by
  induction h with
  | child hc => exact .under hc h'
  | under hc _ ih => exact .under hc (ih h')

/-- A node below another is a child of that one, or of a node below it. -/
theorem exists_parent (h : Below i d) : ∃ p, d ∈ children p ∧ (p = i ∨ Below i p) := by
  induction h with
  | @child i c hc => exact ⟨i, hc, .inl rfl⟩
  | under hc _ ih =>
    obtain ⟨p, hp, rfl | hb⟩ := ih
    · exact ⟨p, hp, .inr (.child hc)⟩
    · exact ⟨p, hp, .inr (.under hc hb)⟩

end Below

/-! ## Walks -/

/-- A node and all below it: a node comes before its children, and what is below a child before the
next child. -/
def walk (i : t.Id) : List t.Id := i :: (children i).attach.flatMap fun c => walk c.1
termination_by t.nodes.size - i.val
decreasing_by
  have : i < c.1 := lt_of_mem_children c.2
  have : i.val < c.1.val := this
  omega

theorem walk_eq (i : t.Id) : walk i = i :: (children i).flatMap walk := by
  rw [walk, List.flatMap_subtype (g := walk) fun _ _ => rfl, List.unattach_attach]

theorem mem_walk_iff {i d : t.Id} : d ∈ walk i ↔ d = i ∨ Below i d := by
  induction i using children_induction with
  | h i ih =>
    rw [walk_eq, List.mem_cons, List.mem_flatMap]
    refine or_congr_right ⟨fun ⟨c, hc, hd⟩ => ?_, fun hb => ?_⟩
    · rcases (ih c hc).1 hd with rfl | hb
      · exact .child hc
      · exact .under hc hb
    · cases hb with
      | child hc => exact ⟨d, hc, (ih d hc).2 (.inl rfl)⟩
      | under hc hb => exact ⟨_, hc, (ih _ hc).2 (.inr hb)⟩

theorem self_mem_walk (i : t.Id) : i ∈ walk i := mem_walk_iff.2 (.inl rfl)

/-- A walk from a child comes to nodes below the node. -/
theorem below_of_mem_walk {i c d : t.Id} (hc : c ∈ children i) (hd : d ∈ walk c) : Below i d := by
  rcases mem_walk_iff.1 hd with rfl | hb
  · exact .child hc
  · exact .under hc hb

theorem length_flatMap_walk {is : List t.Id} (h : ∀ i ∈ is, (walk i).length = weight i) :
    (is.flatMap walk).length = total weight is := by
  induction is with
  | nil => rfl
  | cons i is ih =>
    rw [List.forall_mem_cons] at h
    rw [List.flatMap_cons, List.length_append, h.1, ih h.2, total_cons]

/-- A walk comes to each node that counts. -/
theorem length_walk (i : t.Id) : (walk i).length = weight i := by
  induction i using children_induction with
  | h i ih => rw [walk_eq, weight_eq, List.length_cons, length_flatMap_walk ih]

/-- The walk from a node is a part of every walk that comes to the node. -/
theorem infix_walk {i d : t.Id} (h : Below i d) : walk d <:+: walk i := by
  refine h.of_children (R := fun i d => walk d <:+: walk i) (fun i c hc => ?_)
    fun hc hd => hd.trans hc
  obtain ⟨before, after, he⟩ := List.append_of_mem hc
  rw [walk_eq i, he, List.flatMap_append, List.flatMap_cons]
  exact ⟨i :: before.flatMap walk, after.flatMap walk, by simp⟩

/-! ## Places in the order of the walk -/

/-- Nodes with these indices, and all below them, have the places from `n` up to `m` in the order of
a walk. -/
inductive Ranged (nodes : Array Entry) : Nat → List Nat → Nat → Prop
  | nil {n : Nat} : Ranged nodes n [] n
  | cons {n k m : Nat} {is : List Nat} {e : Entry} (entry : nodes[n]? = some e)
      (below : Ranged nodes (n + 1) e.children.toList k) (others : Ranged nodes k is m) :
      Ranged nodes n (n :: is) m

theorem Ranged.of_append {nodes : Array Entry} {n m : Nat} {is js : List Nat}
    (h : Ranged nodes n (is ++ js) m) : ∃ k, Ranged nodes n is k ∧ Ranged nodes k js m := by
  induction is generalizing n with
  | nil => exact ⟨n, .nil, h⟩
  | cons i is ih =>
    cases h with
    | cons entry below others =>
      obtain ⟨k, h₁, h₂⟩ := ih others
      exact ⟨k, .cons entry below h₁, h₂⟩

/-- Pending nodes, and all below them, get the places behind those that are taken. -/
theorem ranged_grow (source : String) (ps : List Pending) (nodes : Array Entry)
    (hp : ∀ q ∈ ps, ∀ i, q.parent = some i → i < nodes.size) :
    Ranged (grow source ps nodes) nodes.size (indices nodes.size ps)
      (grow source ps nodes).size := by
  fun_induction grow source ps nodes with
  | case1 nodes => exact .nil
  | case2 p rest nodes ih =>
    have hentry := getElem?_grow_cons source p rest nodes hp
    rw [grow] at hentry
    have ih := ih (parent_lt_push source hp)
    rw [size_push, indices_append, pendingCount_openAll, countAll_byStart] at ih
    obtain ⟨k, below, others⟩ := ih.of_append
    rw [indices, Nat.add_comm _ 1, ← Nat.add_assoc]
    exact .cons hentry below others

theorem ranged_layOut (source : String) (root : Branch) :
    Ranged (layOut source root) 0 [0] (layOut source root).size := by
  obtain ⟨label, children⟩ := root
  refine ranged_grow source (openAll source none 0 source.utf8ByteSize [⟨label, children⟩]) #[]
    fun q hq i hi => ?_
  rw [parent_openAll source _ _ _ _ q hq] at hi
  cases hi

/-- A walk comes to its places one after the other. -/
theorem Ranged.range_append_walk {is : List t.Id} {n m : Nat}
    (h : Ranged t.nodes n (is.map Fin.val) m) :
    List.range n ++ (is.flatMap walk).map Fin.val = List.range m := by
  generalize hjs : is.map Fin.val = js at h
  induction h generalizing is with
  | nil =>
    rw [List.map_eq_nil_iff] at hjs
    rw [hjs, List.flatMap_nil, List.map_nil, List.append_nil]
  | cons entry below others ih₁ ih₂ =>
    obtain ⟨i, is, rfl, rfl, htail⟩ := List.map_eq_cons_iff.1 hjs
    have hbelow := ih₁ (map_val_children entry)
    rw [List.range_succ, List.append_assoc] at hbelow
    rw [List.flatMap_cons, walk_eq, List.map_append, List.map_cons, ← List.append_assoc]
    refine Eq.trans (congrArg (· ++ _) ?_) (ih₂ htail)
    exact hbelow

/-- What stands together among the first numbers are numbers that follow one another. -/
theorem eq_range'_of_infix {ns : List Nat} {n i : Nat} (h : ns <:+: List.range n)
    (hi : ns.head? = some i) : ns = List.range' i ns.length := by
  obtain ⟨k, hk, hget⟩ := List.infix_iff_getElem?.1 h
  have hval : ∀ j (hj : j < ns.length), ns[j] = k + j := by
    intro j hj
    rw [List.length_range] at hk
    have := hget j hj
    rw [List.getElem?_range (by omega)] at this
    rw [← Option.some.inj this, Nat.add_comm]
  have hfirst : i = k := by
    rw [List.head?_eq_getElem?] at hi
    obtain ⟨hlt, rfl⟩ := List.getElem?_eq_some_iff.1 hi
    exact hval 0 hlt
  refine List.ext_getElem (by rw [List.length_range']) fun j hj _ => ?_
  rw [hval j hj, List.getElem_range', hfirst, Nat.one_mul]

section

variable {source : String} {reading : Reading}

/-- The walk from the root comes to all nodes, in the order of their indices. -/
theorem walk_root : (walk (ofReading source reading).root).map Fin.val =
    List.range (ofReading source reading).size := by
  have h := @Ranged.range_append_walk (ofReading source reading)
    [(ofReading source reading).root] _ _ (ranged_layOut source reading.root)
  rw [List.range_zero, List.nil_append, List.flatMap_singleton] at h
  exact h

theorem mem_walk_root (i : (ofReading source reading).Id) :
    i ∈ walk (ofReading source reading).root := by
  have h : i.val ∈ (walk (ofReading source reading).root).map Fin.val := by
    rw [walk_root]
    exact List.mem_range.2 i.isLt
  obtain ⟨j, hj, he⟩ := List.mem_map.1 h
  rwa [← Fin.ext he]

/-- All nodes but the root are below it. -/
theorem below_root {i : (ofReading source reading).Id} (h : i ≠ (ofReading source reading).root) :
    Below (ofReading source reading).root i :=
  (mem_walk_iff.1 (mem_walk_root i)).resolve_left h

/-- A node and all below it have places that follow one another. -/
theorem map_val_walk (i : (ofReading source reading).Id) :
    (walk i).map Fin.val = List.range' i.val (weight i) := by
  have hin : walk i <:+: walk (ofReading source reading).root := by
    rcases mem_walk_iff.1 (mem_walk_root i) with rfl | hb
    · exact List.infix_refl _
    · exact infix_walk hb
  have hrange := hin.map Fin.val
  rw [walk_root] at hrange
  have := eq_range'_of_infix hrange (i := i.val) (by rw [walk_eq]; rfl)
  rwa [List.length_map, length_walk] at this

theorem below_iff_lt {i d : (ofReading source reading).Id} :
    Below i d ↔ i.val < d.val ∧ d.val < i.val + weight i := by
  have hmem : d ∈ walk i ↔ i.val ≤ d.val ∧ d.val < i.val + weight i := by
    rw [← List.mem_range'_1, ← map_val_walk i, List.mem_map]
    exact ⟨fun h => ⟨d, h, rfl⟩, fun ⟨e, he, hv⟩ => Fin.ext hv ▸ he⟩
  constructor
  · intro h
    exact ⟨h.lt, (hmem.1 (mem_walk_iff.2 (.inr h))).2⟩
  · rintro ⟨hlt, hle⟩
    rcases mem_walk_iff.1 (hmem.2 ⟨Nat.le_of_lt hlt, hle⟩) with rfl | hb
    · exact absurd hlt (Nat.lt_irrefl _)
    · exact hb

end

/-! ## Ways up -/

theorem depthFrom_of_parent? {i p : t.Id} (h : parent? i = some p) (n : Nat) :
    depthFrom n i = depthFrom (n + 1) p := by
  rw [depthFrom]
  split
  · rename_i q hq
    rw [h] at hq
    rw [Option.some.inj hq]
  · rename_i hq
    rw [h] at hq
    cases hq

theorem depthFrom_of_none {i : t.Id} (h : parent? i = none) (n : Nat) : depthFrom n i = n := by
  rw [depthFrom]
  split
  · rename_i q hq
    rw [h] at hq
    cases hq
  · rfl

theorem depthFrom_eq (n : Nat) (i : t.Id) : depthFrom n i = depth i + n := by
  cases h : parent? i with
  | none => rw [depth, depthFrom_of_none h, depthFrom_of_none h, Nat.zero_add]
  | some p =>
    rw [depth, depthFrom_of_parent? h, depthFrom_of_parent? h, depthFrom_eq (n + 1) p,
      depthFrom_eq (0 + 1) p]
    omega
termination_by i.val
decreasing_by all_goals exact lt_of_parent? h

/-- A node is one deeper than the node above it. -/
theorem depth_of_parent? {i p : t.Id} (h : parent? i = some p) : depth i = depth p + 1 := by
  rw [depth, depthFrom_of_parent? h, depthFrom_eq]

end Typeahead.Tree
