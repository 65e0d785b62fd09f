import Typeahead.Proofs.Tree.Normal
import Typeahead.Tree.Lookup

/-!
# What a tree shows

The array of a tree holds the branches that were reported, each brought into its place.

- **Branches in place** (`Tree.fitAll`): siblings by their starts, spans fitted. Branches that are
  in place already (`Tree.Settled`) stay as they are (`Settled.fitAll_eq`).
- **Indices** (`Tree.indices`): the next index is for the first pending node, and the ones behind it
  are for what is below that node.
- **Pictures** (`Tree.Shows`): nodes whose labels are those of branches, and whose children are
  pictures of what is below the branches. What pending nodes grow to is a picture of them
  (`Tree.shows_grow`), so a tree is one of its report (`Tree.depicts_root`).
- **Looking** (`Tree.nodeAt_of_children`): one step of the way down to a position.
-/

namespace Typeahead

theorem Text.floorBoundary_eq {s : String} {i : Nat} (h : isBoundary s i = true) :
    floorBoundary s i = i :=
  Nat.le_antisymm (floorBoundary_le s i) (le_floorBoundary h (Nat.le_refl i))

/-- A span that fits is left as it is. -/
theorem Label.Fits.fit_eq {source : String} {l : Label} (h : l.Fits source) {lo hi : Nat}
    (hlo : lo ≤ l.start) (hhi : l.stop ≤ hi) : l.fit source lo hi = l := by
  have hle := h.le
  have hstart : clamp l.start lo hi = l.start := by
    unfold clamp
    omega
  have hstop : clamp l.stop l.start hi = l.stop := by
    unfold clamp
    omega
  simp only [fit, hstart, Text.floorBoundary_eq h.start, hstop, Text.floorBoundary_eq h.stop]

namespace Tree

variable {source : String}

/-! ## Branches in place -/

/-- Siblings, of which the first may begin at `lo` and none may end after `hi`, as they come into a
tree. -/
def fitAll (source : String) (lo hi : Nat) : List Branch → List Branch
  | [] => []
  | ⟨label, children⟩ :: rest =>
    let label := label.fit source lo hi
    ⟨label, fitAll source label.start label.stop (byStart children)⟩ ::
      fitAll source label.stop hi rest
termination_by branches => Branch.countAll branches
decreasing_by
  · rw [countAll_byStart, Branch.countAll, Branch.count]
    omega
  · rw [Branch.countAll, Branch.count]
    omega

/-- Siblings that lie between two offsets, each behind the one before, and so at every depth. -/
inductive Settled (source : String) : Nat → Nat → List Branch → Prop
  | nil {lo hi : Nat} : Settled source lo hi []
  | cons {lo hi : Nat} {label : Label} {children rest : List Branch} (fits : label.Fits source)
      (start : lo ≤ label.start) (stop : label.stop ≤ hi)
      (inside : Settled source label.start label.stop children)
      (behind : Settled source label.stop hi rest) :
      Settled source lo hi (⟨label, children⟩ :: rest)

theorem Settled.mono {lo lo' hi : Nat} {branches : List Branch} (h : Settled source lo hi branches)
    (hlo : lo' ≤ lo) : Settled source lo' hi branches := by
  cases h with
  | nil => exact .nil
  | cons fits start stop inside behind =>
    exact .cons fits (Nat.le_trans hlo start) stop inside behind

theorem Settled.le_start {lo hi : Nat} {branches : List Branch}
    (h : Settled source lo hi branches) : ∀ b ∈ branches, lo ≤ b.label.start := by
  induction h with
  | nil => simp
  | cons fits start _ _ _ _ ih =>
    refine List.forall_mem_cons.2 ⟨start, fun b hb => ?_⟩
    exact Nat.le_trans start (Nat.le_trans fits.le (ih b hb))

theorem Settled.byStart_eq {lo hi : Nat} {branches : List Branch}
    (h : Settled source lo hi branches) : byStart branches = branches := by
  refine List.mergeSort_of_pairwise ?_
  induction h with
  | nil => exact .nil
  | cons fits _ _ _ behind _ ih =>
    refine List.pairwise_cons.2 ⟨fun b hb => decide_eq_true ?_, ih⟩
    exact Nat.le_trans fits.le (behind.le_start b hb)

/-- Branches that are in place stay as they are. -/
theorem Settled.fitAll_eq {lo hi : Nat} {branches : List Branch}
    (h : Settled source lo hi branches) : fitAll source lo hi branches = branches := by
  induction h with
  | nil => rw [fitAll]
  | cons fits start stop inside _ ih₁ ih₂ =>
    rw [fitAll]
    simp only [fits.fit_eq start stop, inside.byStart_eq, ih₁, ih₂]

/-- A pending node, and what will be below it. -/
def Pending.branch (source : String) (p : Pending) : Branch :=
  ⟨p.label, fitAll source p.label.start p.label.stop (byStart p.children)⟩

theorem map_branch_openAll (source : String) (parent : Option Nat) (lo hi : Nat)
    (branches : List Branch) :
    (openAll source parent lo hi branches).map (Pending.branch source) =
      fitAll source lo hi branches := by
  induction branches generalizing lo with
  | nil => rw [fitAll, openAll, List.map_nil]
  | cons b rest ih =>
    obtain ⟨label, children⟩ := b
    rw [fitAll, openAll, List.map_cons, ih]
    rfl

/-! ## Indices -/

/-- The indices of pending nodes, when the next index is `n`. -/
def indices (n : Nat) : List Pending → List Nat
  | [] => []
  | p :: ps => n :: indices (n + (Branch.countAll p.children + 1)) ps

/-- The indices of those pending nodes that are children of a node. -/
def indicesBelow (parent n : Nat) : List Pending → List Nat
  | [] => []
  | p :: ps =>
    let rest := indicesBelow parent (n + (Branch.countAll p.children + 1)) ps
    if p.parent = some parent then n :: rest else rest

theorem indices_append (n : Nat) (ps qs : List Pending) :
    indices n (ps ++ qs) = indices n ps ++ indices (n + pendingCount ps) qs := by
  induction ps generalizing n with
  | nil => rfl
  | cons p ps ih => simp only [List.cons_append, indices, ih, pendingCount, Nat.add_assoc]

theorem indicesBelow_append (parent n : Nat) (ps qs : List Pending) :
    indicesBelow parent n (ps ++ qs) =
      indicesBelow parent n ps ++ indicesBelow parent (n + pendingCount ps) qs := by
  induction ps generalizing n with
  | nil => rfl
  | cons p ps ih =>
    simp only [List.cons_append, indicesBelow, ih, pendingCount, Nat.add_assoc]
    split <;> rfl

theorem indicesBelow_of_forall {parent : Nat} {ps : List Pending}
    (h : ∀ p ∈ ps, p.parent = some parent) (n : Nat) : indicesBelow parent n ps = indices n ps := by
  induction ps generalizing n with
  | nil => rfl
  | cons p ps ih =>
    rw [List.forall_mem_cons] at h
    simp only [indicesBelow, indices, h.1, if_true, ih h.2]

theorem indicesBelow_eq_nil {parent : Nat} {ps : List Pending}
    (h : ∀ p ∈ ps, p.parent ≠ some parent) (n : Nat) : indicesBelow parent n ps = [] := by
  induction ps generalizing n with
  | nil => rfl
  | cons p ps ih =>
    rw [List.forall_mem_cons] at h
    simp only [indicesBelow, h.1, if_false, ih h.2]

/-- A node that has its index stays, but for the children that it gets. -/
theorem getElem?_grow (source : String) (ps : List Pending) (nodes : Array Entry)
    (hp : ∀ q ∈ ps, ∀ i, q.parent = some i → i < nodes.size) {i : Nat} (hi : i < nodes.size) :
    (grow source ps nodes)[i]? = nodes[i]?.map fun e =>
      { e with children := e.children ++ (indicesBelow i nodes.size ps).toArray } := by
  fun_induction grow source ps nodes with
  | case1 nodes => simp [indicesBelow]
  | case2 p rest nodes ih =>
    rw [ih (parent_lt_push source hp) (by rw [size_push]; omega), getElem?_push,
      if_neg (Nat.ne_of_lt hi), size_push, indicesBelow_append, Option.map_map,
      pendingCount_openAll, countAll_byStart, indicesBelow_eq_nil ?_, List.nil_append]
    · refine congrArg (Option.map · nodes[i]?) (funext fun e => ?_)
      simp only [Function.comp, indicesBelow, Nat.add_assoc, Nat.add_comm 1]
      split
      · simp [addChild]
      · rfl
    · intro q hq hpar
      rw [parent_openAll source _ _ _ _ q hq] at hpar
      cases hpar
      exact Nat.lt_irrefl _ hi

/-! ## Pictures -/

/-- The nodes with these indices have the labels of these branches, and what is below them is what
is below the branches. -/
inductive Shows (nodes : Array Entry) : List Nat → List Branch → Prop
  | nil : Shows nodes [] []
  | cons {i : Nat} {is : List Nat} {e : Entry} {children rest : List Branch}
      (entry : nodes[i]? = some e) (below : Shows nodes e.children.toList children)
      (others : Shows nodes is rest) : Shows nodes (i :: is) (⟨e.label, children⟩ :: rest)

theorem Shows.of_append {nodes : Array Entry} {is js : List Nat} {bs cs : List Branch}
    (h : Shows nodes (is ++ js) (bs ++ cs)) (hl : is.length = bs.length) :
    Shows nodes is bs ∧ Shows nodes js cs := by
  induction is generalizing bs with
  | nil =>
    obtain rfl := List.eq_nil_of_length_eq_zero hl.symm
    exact ⟨.nil, h⟩
  | cons i is ih =>
    cases bs with
    | nil => cases hl
    | cons b bs =>
      cases h with
      | cons entry below others =>
        obtain ⟨h₁, h₂⟩ := ih others (Nat.succ.inj hl)
        exact ⟨.cons entry below h₁, h₂⟩

theorem length_indices (n : Nat) (ps : List Pending) : (indices n ps).length = ps.length := by
  induction ps generalizing n with
  | nil => rfl
  | cons p ps ih => simp only [indices, List.length_cons, ih]

/-- The first pending node gets the next index, and those that are opened are its children. -/
theorem getElem?_grow_cons (source : String) (p : Pending) (rest : List Pending)
    (nodes : Array Entry) (hp : ∀ q ∈ p :: rest, ∀ i, q.parent = some i → i < nodes.size) :
    (grow source (p :: rest) nodes)[nodes.size]? = some
      ⟨p.label, p.parent, (indices (nodes.size + 1) (openAll source (some nodes.size)
        p.label.start p.label.stop (byStart p.children))).toArray⟩ := by
  have hpar := parent_openAll source (some nodes.size) p.label.start p.label.stop
    (byStart p.children)
  -- No node that waits behind it is below it.
  have hother : ∀ q ∈ rest, q.parent ≠ some nodes.size := by
    intro q hq hq'
    exact Nat.lt_irrefl _ (hp q (List.mem_cons_of_mem _ hq) _ hq')
  rw [grow, getElem?_grow source _ _ (parent_lt_push source hp)
    (by rw [size_push]; exact Nat.lt_succ_self _), getElem?_push, if_pos rfl, size_push,
    Option.map_some, indicesBelow_append, indicesBelow_of_forall hpar, indicesBelow_eq_nil hother,
    List.append_nil, Array.empty_append]

/-- What pending nodes grow to is a picture of them. -/
theorem shows_grow (source : String) (ps : List Pending) (nodes : Array Entry)
    (hp : ∀ q ∈ ps, ∀ i, q.parent = some i → i < nodes.size) :
    Shows (grow source ps nodes) (indices nodes.size ps) (ps.map (Pending.branch source)) := by
  fun_induction grow source ps nodes with
  | case1 nodes => exact .nil
  | case2 p rest nodes ih =>
    have hentry := getElem?_grow_cons source p rest nodes hp
    rw [grow] at hentry
    have ih := ih (parent_lt_push source hp)
    rw [size_push, indices_append, pendingCount_openAll, countAll_byStart, List.map_append,
      map_branch_openAll] at ih
    obtain ⟨below, others⟩ := ih.of_append (by
      rw [length_indices, ← map_branch_openAll source (some nodes.size), List.length_map])
    rw [indices, List.map_cons, Nat.add_comm _ 1, ← Nat.add_assoc]
    exact .cons hentry below others

theorem shows_layOut (source : String) (root : Branch) :
    Shows (layOut source root) [0] (fitAll source 0 source.utf8ByteSize [root]) := by
  have h := shows_grow source (openAll source none 0 source.utf8ByteSize [root]) #[]
    fun q hq i hi => by
      rw [parent_openAll source _ _ _ _ q hq] at hi
      cases hi
  rw [map_branch_openAll] at h
  obtain ⟨label, children⟩ := root
  exact h

section

variable {t : Tree}

theorem map_val_children {i : t.Id} {e : Entry} (he : t.nodes[i.val]? = some e) :
    (children i).map Fin.val = e.children.toList := by
  obtain ⟨_, rfl⟩ := Array.getElem?_eq_some_iff.1 he
  unfold children
  rw [List.map_pmap]
  simp

/-- These nodes and all below them are a picture of the branches. -/
def Depicts (is : List t.Id) (branches : List Branch) : Prop :=
  Shows t.nodes (is.map Fin.val) branches

theorem depicts_nil_iff {is : List t.Id} : Depicts is [] ↔ is = [] := by
  constructor
  · intro h
    cases is with
    | nil => rfl
    | cons => cases h
  · rintro rfl
    exact Shows.nil

theorem depicts_cons_iff {is : List t.Id} {label : Label} {children' rest : List Branch} :
    Depicts is (⟨label, children'⟩ :: rest) ↔ ∃ i js, is = i :: js ∧ Tree.label i = label ∧
      Depicts (children i) children' ∧ Depicts js rest := by
  constructor
  · intro h
    cases is with
    | nil => cases h
    | cons i js =>
      refine ⟨i, js, rfl, ?_⟩
      unfold Depicts at h ⊢
      rw [List.map_cons] at h
      cases h with
      | cons entry below others =>
        rw [← map_val_children entry] at below
        obtain ⟨_, rfl⟩ := Array.getElem?_eq_some_iff.1 entry
        exact ⟨rfl, below, others⟩
  · rintro ⟨i, js, rfl, rfl, below, others⟩
    unfold Depicts at below others ⊢
    have entry := Array.getElem?_eq_getElem i.isLt
    rw [map_val_children entry] at below
    exact .cons entry below others

/-- A tree is a picture of its report, brought into its place. -/
theorem depicts_root (source : String) (reading : Reading) :
    Depicts [(ofReading source reading).root]
      (fitAll source 0 source.utf8ByteSize [reading.root]) :=
  shows_layOut source reading.root

/-! ## Looking -/

/-- The way down to a position goes on with the first child around it. -/
theorem nodeAt_of_children {i c : t.Id} {before after : List t.Id} {pos : Nat}
    (h : children i = before ++ c :: after) (hbefore : ∀ d ∈ before, covers d pos = false)
    (hc : covers c pos = true) : nodeAt i pos = nodeAt c pos := by
  have hfirst : (children i).find? (covers · pos) = some c := by
    rw [h, List.find?_append, List.find?_eq_none.2 fun d hd => by simp [hbefore d hd]]
    simp [hc]
  rw [nodeAt]
  split
  · rename_i c' hc'
    rw [hfirst] at hc'
    cases hc'
    rfl
  · rename_i hc'
    rw [hfirst] at hc'
    cases hc'

/-- The way down ends where no child is around the position. -/
theorem nodeAt_of_forall {i : t.Id} {pos : Nat} (h : ∀ c ∈ children i, covers c pos = false) :
    nodeAt i pos = i := by
  rw [nodeAt]
  split
  · rename_i c hc
    have := List.find?_some hc
    rw [h c (List.mem_of_find?_eq_some hc)] at this
    cases this
  · rfl

theorem covers_iff {i : t.Id} {pos : Nat} :
    covers i pos = true ↔ (label i).start ≤ pos ∧ pos ≤ (label i).stop := by
  simp [covers]

end

end Tree

end Typeahead
