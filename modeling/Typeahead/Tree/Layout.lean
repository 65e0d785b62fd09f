import Typeahead.Tree.Basic

/-!
# From a report to a tree

A parser may report any spans. The tree that is made of them has every span on boundaries of the
text, inside the parent's span and after the previous sibling's.

- **Fitting** (`Label.fit`): a span is brought between a lower and an upper offset and rounded down
  to boundaries.
- **Opening** (`openAll`): children are taken by ascending reported start, equal starts in reported
  order. Each is fitted between the end of the one before it and the end of the parent.
- **Growing** (`grow`): nodes are numbered in the order of a walk that visits a node, then its
  children; every step keeps the array linked (`linked_grow`).
-/

namespace Typeahead

/-- `n` brought between `lo` and `hi`. -/
def clamp (n lo hi : Nat) : Nat := max lo (min n hi)

/-- The label with its span inside `lo` and `hi`, on boundaries of `source`. -/
def Label.fit (source : String) (lo hi : Nat) (l : Label) : Label :=
  let start := Text.floorBoundary source (clamp l.start lo hi)
  { l with start, stop := Text.floorBoundary source (clamp l.stop start hi) }

namespace Tree

/-- A node that has its span but no index yet. -/
structure Pending where
  label : Label
  children : List Branch
  parent : Option Nat

/-- The children of the node with index `parent`, of which the next may begin at `lo` and none may
end after `hi`. -/
def openAll (source : String) (parent : Option Nat) (lo hi : Nat) : List Branch → List Pending
  | [] => []
  | ⟨label, children⟩ :: rest =>
    let label := label.fit source lo hi
    ⟨label, children, parent⟩ :: openAll source parent label.stop hi rest

/-- Branches by ascending reported start; equal starts stay in order. -/
def byStart (branches : List Branch) : List Branch :=
  branches.mergeSort fun a b => decide (a.label.start ≤ b.label.start)

/-- The entry with one more child. -/
def addChild (child : Nat) (e : Entry) : Entry := { e with children := e.children.push child }

/-- Adds a node at the end, and its index to its parent's children. -/
def push (nodes : Array Entry) (label : Label) (parent : Option Nat) : Array Entry :=
  let nodes :=
    match parent with
    | some p => nodes.modify p (addChild nodes.size)
    | none => nodes
  nodes.push ⟨label, parent, #[]⟩

/-- The number of nodes that pending nodes come to. -/
def pendingCount : List Pending → Nat
  | [] => 0
  | p :: ps => Branch.countAll p.children + 1 + pendingCount ps

theorem pendingCount_append (ps qs : List Pending) :
    pendingCount (ps ++ qs) = pendingCount ps + pendingCount qs := by
  induction ps with
  | nil => simp [pendingCount]
  | cons p ps ih => simp only [List.cons_append, pendingCount, ih]; omega

theorem pendingCount_openAll (source : String) (parent : Option Nat) (lo hi : Nat)
    (branches : List Branch) :
    pendingCount (openAll source parent lo hi branches) = Branch.countAll branches := by
  induction branches generalizing lo with
  | nil => rfl
  | cons b bs ih =>
    obtain ⟨label, children⟩ := b
    simp only [openAll, pendingCount, Branch.countAll, Branch.count, ih]

theorem countAll_byStart (branches : List Branch) :
    Branch.countAll (byStart branches) = Branch.countAll branches :=
  Branch.countAll_perm (List.mergeSort_perm _ _)

/-- Gives the pending nodes, and all below them, their places in the array. -/
def grow (source : String) : List Pending → Array Entry → Array Entry
  | [], nodes => nodes
  | p :: rest, nodes =>
    grow source
      (openAll source (some nodes.size) p.label.start p.label.stop (byStart p.children) ++ rest)
      (push nodes p.label p.parent)
termination_by ps => pendingCount ps
decreasing_by
  rw [pendingCount_append, pendingCount_openAll, countAll_byStart]
  simp only [pendingCount]
  omega

theorem size_push (nodes : Array Entry) (label : Label) (parent : Option Nat) :
    (push nodes label parent).size = nodes.size + 1 := by
  unfold push
  cases parent <;> simp

theorem parent_openAll (source : String) (parent : Option Nat) (lo hi : Nat)
    (branches : List Branch) : ∀ p ∈ openAll source parent lo hi branches, p.parent = parent := by
  induction branches generalizing lo with
  | nil => intro p hp; cases hp
  | cons b bs ih =>
    obtain ⟨label, children⟩ := b
    intro p hp
    rcases List.mem_cons.1 hp with rfl | hp
    · rfl
    · exact ih _ p hp

theorem linked_empty : Linked #[] :=
  ⟨fun _ h => absurd h (Nat.not_lt_zero _), fun _ h => absurd h (Nat.not_lt_zero _)⟩

theorem linked_push {nodes : Array Entry} (label : Label) (parent : Option Nat)
    (hl : Linked nodes) (hp : ∀ p, parent = some p → p < nodes.size) :
    Linked (push nodes label parent) := by
  have hs := size_push nodes label parent
  constructor
  · intro i hi q hq
    by_cases hlast : i = nodes.size
    · subst hlast
      refine hp q ?_
      cases parent with
      | none => simp [push] at hq
      | some p => simpa [push, Array.getElem_push] using hq
    · have hi' : i < nodes.size := by omega
      refine hl.parent_lt i hi' q ?_
      cases parent with
      | none => simpa [push, Array.getElem_push, hi'] using hq
      | some p =>
        simp only [push, Array.getElem_push, Array.size_modify, hi', dite_true,
          Array.getElem_modify] at hq
        split at hq <;> simpa [addChild] using hq
  · intro i hi c hc
    rw [hs]
    by_cases hlast : i = nodes.size
    · subst hlast
      cases parent <;> simp [push, Array.getElem_push] at hc
    · have hi' : i < nodes.size := by omega
      have old := hl.lt_child i hi' c
      cases parent with
      | none =>
        have := old (by simpa [push, Array.getElem_push, hi'] using hc)
        omega
      | some p =>
        simp only [push, Array.getElem_push, Array.size_modify, hi', dite_true,
          Array.getElem_modify] at hc
        split at hc
        · simp only [addChild, Array.mem_push] at hc
          rcases hc with hc | rfl
          · have := old hc
            omega
          · omega
        · have := old hc
          omega

/-- Every parent has its index, also once a node has its own and its children are pending. -/
theorem parent_lt_push (source : String) {nodes : Array Entry} {p : Pending} {rest : List Pending}
    (hp : ∀ q ∈ p :: rest, ∀ i, q.parent = some i → i < nodes.size) :
    ∀ q ∈ openAll source (some nodes.size) p.label.start p.label.stop (byStart p.children) ++ rest,
      ∀ i, q.parent = some i → i < (push nodes p.label p.parent).size := by
  intro q hq i hi
  rw [size_push]
  rcases List.mem_append.1 hq with hq | hq
  · rw [parent_openAll source _ _ _ _ q hq] at hi
    cases hi
    exact Nat.lt_succ_self _
  · exact Nat.lt_succ_of_lt (hp q (List.mem_cons_of_mem _ hq) i hi)

theorem linked_grow (source : String) (nodes : Array Entry) (ps : List Pending)
    (hl : Linked nodes) (hp : ∀ q ∈ ps, ∀ p, q.parent = some p → p < nodes.size) :
    Linked (grow source ps nodes) := by
  fun_induction grow source ps nodes with
  | case1 nodes => exact hl
  | case2 p rest nodes ih =>
    exact ih (linked_push p.label p.parent hl (hp p List.mem_cons_self)) (parent_lt_push source hp)

/-- No node is left out. -/
theorem size_grow (source : String) (nodes : Array Entry) (ps : List Pending) :
    (grow source ps nodes).size = nodes.size + pendingCount ps := by
  fun_induction grow source ps nodes with
  | case1 nodes => rfl
  | case2 p rest nodes ih =>
    rw [ih, size_push, pendingCount_append, pendingCount_openAll, countAll_byStart]
    simp only [pendingCount]
    omega

/-- All nodes of the tree of `source` with a reported root. -/
def layOut (source : String) (root : Branch) : Array Entry :=
  grow source (openAll source none 0 source.utf8ByteSize [root]) #[]

theorem size_layOut (source : String) (root : Branch) :
    (layOut source root).size = root.count := by
  rw [layOut, size_grow, pendingCount_openAll, Branch.countAll, Branch.countAll]
  exact Nat.zero_add _

theorem layOut_pos (source : String) (root : Branch) : 0 < (layOut source root).size := by
  rw [size_layOut]
  cases root
  exact Nat.succ_pos _

theorem linked_layOut (source : String) (root : Branch) : Linked (layOut source root) := by
  refine linked_grow source #[] _ linked_empty ?_
  intro q hq p hp
  rw [parent_openAll source _ _ _ _ q hq] at hp
  cases hp

/-- The tree of a report about `source`. Faults are moved to the boundary at or below them. -/
def ofReading (source : String) (reading : Reading) : Tree where
  source
  nodes := layOut source reading.root
  faults := reading.faults.map fun f =>
    { f with position := Text.clampBoundary source f.position }
  nodes_pos := layOut_pos source reading.root
  linked := linked_layOut source reading.root

end Tree

end Typeahead
