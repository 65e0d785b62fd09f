import Mathlib.Algebra.Group.Nat.Defs
import Typeahead.Proofs.Tree.Normal

/-!
# Building a tree never fails

`Tree.ofReading` is made of operations that give a result for any argument. Here the same tree is
built by operations that need not: `clamp?` fails when its bounds cross, `Text.floor?` when it comes
down to the beginning and finds no boundary there, `Tree.addChild?` where there is no such node. The
walk keeps its open nodes on a stack, each with the end of the last child that was opened, and names
nodes by 32 bits.

- **Building** (`Tree.fill?`, `Tree.layOut?`, `Tree.assemble?`).
- **Open nodes** (`Tree.OpenNode.Sound`): what holds of each node on the stack, and is kept by every
  turn of the walk, so that no operation fails (`Tree.fill?_eq`).

With fewer nodes than 32 bits can name, the build comes to its end and gives the tree of
`Tree.ofReading` (`Tree.assemble?_eq`), which is normal (`Tree.assemble?_normal`).
-/

namespace Typeahead

/-- `n` brought between `lo` and `hi`, which may not cross. -/
def clamp? (n lo hi : Nat) : Option Nat := if lo ≤ hi then some (clamp n lo hi) else none

/-- The greatest boundary of `s` at or below an offset, found by going down. -/
def Text.floor? (s : String) : Nat → Option Nat
  | 0 => if isBoundary s 0 then some 0 else none
  | i + 1 => if isBoundary s (i + 1) then some (i + 1) else floor? s i

/-- The label with its span inside `lo` and `hi`, on boundaries of `source`. -/
def Label.fit? (source : String) (lo hi : Nat) (l : Label) : Option Label := do
  let start ← Text.floor? source (← clamp? l.start lo hi)
  let stop ← Text.floor? source (← clamp? l.stop start hi)
  return { l with start, stop }

/-- The fault at the boundary at or below its position. -/
def Fault.fit? (source : String) (f : Fault) : Option Fault := do
  let position ← Text.floor? source (min f.position source.utf8ByteSize)
  return { f with position }

theorem clamp?_eq {lo hi : Nat} (n : Nat) (h : lo ≤ hi) : clamp? n lo hi = some (clamp n lo hi) :=
  if_pos h

theorem Text.floor?_eq (s : String) (i : Nat) : floor? s i = some (floorBoundary s i) := by
  induction i with
  | zero => exact if_pos (isBoundary_zero s)
  | succ i ih =>
    simp only [floor?, floorBoundary]
    split
    · rfl
    · exact ih

/-- Between offsets that do not cross a span can be fitted. -/
theorem Label.fit?_eq (source : String) {lo hi : Nat} (l : Label) (h : lo ≤ hi) :
    l.fit? source lo hi = some (l.fit source lo hi) := by
  have hle : Text.floorBoundary source (clamp l.start lo hi) ≤ hi :=
    Nat.le_trans (Text.floorBoundary_le _ _) (clamp_le _ h)
  simp only [fit?, clamp?_eq _ h, Text.floor?_eq, Option.bind_eq_bind, Option.bind_some,
    clamp?_eq _ hle]
  rfl

namespace Tree

/-- A node of which children are still to be opened. -/
structure OpenNode where
  id : Nat
  stop : Nat
  /-- Where the next child may begin. -/
  cursor : Nat
  pending : List Branch

/-- The node that comes next into the array, with its children in order. -/
def OpenNode.next (nodes : Array Entry) (label : Label) (children : List Branch) : OpenNode where
  id := nodes.size % 2 ^ 32
  stop := label.stop
  cursor := label.start
  pending := byStart children

/-- The entries with one more child of the node with index `parent`, which has to be there. -/
def addChild? (nodes : Array Entry) (parent child : Nat) : Option (Array Entry) :=
  if parent < nodes.size then some (nodes.modify parent (addChild child)) else none

/-- The number of nodes that open nodes are still to get below them. -/
def openCount : List OpenNode → Nat
  | [] => 0
  | o :: stack => Branch.countAll o.pending + openCount stack

/-- Opens the next child of the node on top of the stack, or leaves a node that has no more. -/
def fill? (source : String) : List OpenNode → Array Entry → Option (Array Entry)
  | [], nodes => some nodes
  | ⟨_, _, _, []⟩ :: stack, nodes => fill? source stack nodes
  | ⟨id, stop, cursor, ⟨label, children⟩ :: pending⟩ :: stack, nodes =>
    match label.fit? source cursor stop with
    | none => none
    | some label =>
      let child := OpenNode.next nodes label children
      match addChild? (nodes.push ⟨label, some id, #[]⟩) id child.id with
      | none => none
      | some nodes => fill? source (child :: ⟨id, stop, child.stop, pending⟩ :: stack) nodes
termination_by stack => (openCount stack, stack.length)
decreasing_by
  · simp [openCount, Branch.countAll, Prod.lex_def]
  · left
    simp only [openCount, OpenNode.next, countAll_byStart, Branch.countAll, Branch.count]
    omega

/-- All nodes of the tree of `source` with a reported root. -/
def layOut? (source : String) (root : Branch) : Option (Array Entry) := do
  let label ← root.label.fit? source 0 source.utf8ByteSize
  fill? source [OpenNode.next #[] label root.children] #[⟨label, none, #[]⟩]

/-- The nodes and faults of the tree of a report. -/
def assemble? (source : String) (reading : Reading) : Option (Array Entry × List Fault) := do
  let nodes ← layOut? source reading.root
  let faults ← reading.faults.mapM (Fault.fit? source)
  return (nodes, faults)

/-! ## No operation fails -/

/-- The children of the open nodes, in the order in which they will be opened. -/
def pendingOf (source : String) : List OpenNode → List Pending
  | [] => []
  | o :: stack => openAll source (some o.id) o.cursor o.stop o.pending ++ pendingOf source stack

/-- The node is there, and there is room for the next child. -/
structure OpenNode.Sound (source : String) (size : Nat) (o : OpenNode) : Prop where
  lt : o.id < size
  le : o.cursor ≤ o.stop
  isBoundary : Text.isBoundary source o.cursor = true

/-- A parent is told of a child that is already there. -/
theorem addChild?_eq {nodes : Array Entry} {parent : Nat} (label : Label)
    (h : parent < nodes.size) :
    addChild? (nodes.push ⟨label, some parent, #[]⟩) parent nodes.size =
      some (push nodes label (some parent)) := by
  have hlt : parent < (nodes.push ⟨label, some parent, #[]⟩).size := by
    rw [Array.size_push]
    exact Nat.lt_succ_of_lt h
  rw [addChild?, if_pos hlt]
  refine congrArg some (Array.ext_getElem? fun i => ?_)
  rw [getElem?_push, Array.getElem?_modify, Array.getElem?_push]
  by_cases hi : i = nodes.size
  · subst hi
    rw [if_neg (Nat.ne_of_lt h), if_pos rfl, if_pos rfl]
  · rw [if_neg hi, if_neg hi]
    by_cases hp : parent = i
    · simp [hp]
    · simp [hp]

theorem OpenNode.Sound.mono {source : String} {size size' : Nat} {o : OpenNode}
    (h : o.Sound source size) (hs : size ≤ size') : o.Sound source size' :=
  { h with lt := Nat.lt_of_lt_of_le h.lt hs }

/-- A child is opened: it is sound, and so is its parent, which goes on behind it. -/
theorem OpenNode.Sound.next {source : String} {nodes : Array Entry}
    {id stop cursor : Nat} {pending : List Branch}
    (h : OpenNode.Sound source nodes.size ⟨id, stop, cursor, pending⟩) (label : Label)
    (children rest : List Branch) (hn : nodes.size < 2 ^ 32) :
    let child := OpenNode.next nodes (label.fit source cursor stop) children
    child.Sound source (nodes.size + 1) ∧
      OpenNode.Sound source (nodes.size + 1) ⟨id, stop, child.stop, rest⟩ := by
  obtain ⟨hf, -, hle⟩ := label.fit_spec h.isBoundary h.le
  refine ⟨⟨?_, hf.le, hf.start⟩, ⟨Nat.lt_succ_of_lt h.lt, hle, hf.stop⟩⟩
  change nodes.size % 2 ^ 32 < nodes.size + 1
  rw [Nat.mod_eq_of_lt hn]
  exact Nat.lt_succ_self _

/-- What the stack leads to is what its pending children grow to. -/
theorem fill?_eq (source : String) (stack : List OpenNode) (nodes : Array Entry)
    (hs : ∀ o ∈ stack, o.Sound source nodes.size)
    (hn : nodes.size + openCount stack < 2 ^ 32) :
    fill? source stack nodes = some (grow source (pendingOf source stack) nodes) := by
  have hlt : nodes.size < 2 ^ 32 := Nat.lt_of_le_of_lt (Nat.le_add_right _ _) hn
  fun_induction fill? source stack nodes with
  | case1 nodes => rw [pendingOf, grow]
  | case2 id stop cursor stack nodes ih =>
    refine ih (fun o ho => hs o (List.mem_cons_of_mem _ ho)) ?_ hlt
    rwa [openCount, Branch.countAll, Nat.zero_add] at hn
  | case3 id stop cursor label children pending stack nodes hf =>
    rw [label.fit?_eq source (hs _ List.mem_cons_self).le] at hf
    cases hf
  | case4 id stop cursor label children pending stack nodes label' hf child ha =>
    have hid : child.id = nodes.size := Nat.mod_eq_of_lt hlt
    rw [hid, addChild?_eq label' (hs _ List.mem_cons_self).lt] at ha
    cases ha
  | case5 id stop cursor label children pending stack nodes label' hf child nodes' ha ih =>
    have head := hs _ List.mem_cons_self
    have hid : child.id = nodes.size := Nat.mod_eq_of_lt hlt
    rw [label.fit?_eq source head.le] at hf
    obtain rfl := Option.some.inj hf
    rw [hid, addChild?_eq _ head.lt] at ha
    obtain rfl := Option.some.inj ha
    obtain ⟨hchild, hrest⟩ := head.next label children pending hlt
    have hcount : (push nodes (label.fit source cursor stop) (some id)).size +
        openCount (child :: ⟨id, stop, child.stop, pending⟩ :: stack) < 2 ^ 32 := by
      simp only [size_push, openCount, child, OpenNode.next, countAll_byStart, Branch.countAll,
        Branch.count] at hn ⊢
      omega
    rw [ih (fun o ho => ?_) hcount (Nat.lt_of_le_of_lt (Nat.le_add_right _ _) hcount)]
    · simp only [pendingOf, openAll, List.cons_append, hid]
      rw [grow]
      rfl
    · rw [size_push]
      rcases List.mem_cons.1 ho with rfl | ho
      · exact hchild
      rcases List.mem_cons.1 ho with rfl | ho
      · exact hrest
      · exact (hs o (List.mem_cons_of_mem _ ho)).mono (Nat.le_succ _)

theorem layOut?_eq (source : String) (root : Branch) (h : root.count < 2 ^ 32) :
    layOut? source root = some (layOut source root) := by
  obtain ⟨label, children⟩ := root
  have hle := Nat.zero_le source.utf8ByteSize
  obtain ⟨hf, -⟩ := label.fit_spec (Text.isBoundary_zero source) hle
  have hlay : layOut source (.mk label children) = grow source
      (pendingOf source [OpenNode.next #[] (label.fit source 0 source.utf8ByteSize) children])
      #[⟨label.fit source 0 source.utf8ByteSize, none, #[]⟩] := by
    rw [layOut, openAll, openAll, grow]
    rfl
  rw [layOut?, Branch.label, label.fit?_eq source hle, hlay]
  refine fill?_eq source _ _ (fun o ho => ?_) ?_
  · rw [List.mem_singleton.1 ho]
    exact ⟨Nat.zero_lt_one, hf.le, hf.start⟩
  · rw [Branch.count] at h
    rw [openCount, OpenNode.next, countAll_byStart, Branch.children, openCount]
    change 1 + Branch.countAll children < 2 ^ 32
    omega

/-- The build comes to its end, with the tree of the report. -/
theorem assemble?_eq (source : String) (reading : Reading) (h : reading.root.count < 2 ^ 32) :
    assemble? source reading =
      some ((ofReading source reading).nodes, (ofReading source reading).faults) := by
  have hfit : Fault.fit? source =
      fun f => pure { f with position := Text.clampBoundary source f.position } := by
    funext f
    rw [Fault.fit?, Text.floor?_eq]
    rfl
  rw [assemble?, layOut?_eq source reading.root h, hfit, List.mapM_pure]
  rfl

/-- **Normal trees.** Whatever spans are reported, in whatever order, no operation of the build
fails, no node is left out, and the tree is normal. -/
theorem assemble?_normal (source : String) (reading : Reading) (h : reading.root.count < 2 ^ 32) :
    assemble? source reading =
      some ((ofReading source reading).nodes, (ofReading source reading).faults) ∧
    (ofReading source reading).size = reading.root.count ∧ (ofReading source reading).Normal :=
  ⟨assemble?_eq source reading h, size_layOut source reading.root,
    normal_ofReading source reading⟩

/-- Spans that are inverted, out of range, out of order or inside a character of "éa". -/
def askew : Reading where
  root := .mk { kind := "line", start := 0, stop := 9 } [
    .mk { kind := "late", start := 2, stop := 1 } [],
    .mk { kind := "early", start := 1, stop := 9 } [
      .mk { kind := "out", start := 7, stop := 0 } []]]
  faults := [⟨"inside", 1⟩, ⟨"beyond", 99⟩]

theorem assemble?_normal_askew : askew.root.count < 2 ^ 32 ∧
    (ofReading "éa" askew).size = 4 ∧ (ofReading "éa" askew).Normal := by
  have h : askew.root.count < 2 ^ 32 := by decide
  obtain ⟨-, hs, hn⟩ := assemble?_normal "éa" askew h
  exact ⟨h, hs, hn⟩

end Tree

end Typeahead
