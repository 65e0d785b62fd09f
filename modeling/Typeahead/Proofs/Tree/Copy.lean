import Typeahead.Proofs.Tree.Assembly
import Typeahead.Proofs.Tree.Readback
import Typeahead.Proofs.Tree.Walk

/-!
# A tree is a copy of its report

Spans are put right when a tree is made of a report. All else is taken over.

- **Order** (`Tree.Ordered`): children are sorted by their reported starts, and those with one start
  keep their order (`ordered_byStart`).
- **Mirrors** (`Tree.Mirrors`): one node for each reported one, with its kind and flags, and below it
  the nodes for what was reported below, in order. What depicts branches in place mirrors the
  branches that were reported (`Depicts.mirrors`).
- **Copies** (`Tree.Copies`): a mirror whose nodes are numbered by the walk, and whose links agree.
- **Once is enough** (`ofReading_reading`): the tree of what is read back from a tree is that tree.
  Spans that were fitted fit (`settled_fitAll`), and what pending nodes grow to depends on nothing
  but the branches in place (`grow_congr`).

The build gives a copy of every report that it has room for (`assemble?_copies`).
-/

namespace Typeahead.Tree

variable {t : Tree} {source : String}

/-! ## Order -/

/-- The branches `bs` by ascending start. Branches with one start stand as they do in `bs`. -/
structure Ordered (bs cs : List Branch) : Prop where
  perm : cs.Perm bs
  ascending : cs.Pairwise fun a b => a.label.start ≤ b.label.start
  stable : ∀ start, (cs.filter fun b => b.label.start = start) =
    bs.filter fun b => b.label.start = start

theorem ordered_byStart (bs : List Branch) : Ordered bs (byStart bs) := by
  have total : ∀ a b : Branch, (decide (a.label.start ≤ b.label.start) ||
      decide (b.label.start ≤ a.label.start)) = true := by
    intro a b
    simpa using Nat.le_total _ _
  have trans : ∀ a b c : Branch, decide (a.label.start ≤ b.label.start) = true →
      decide (b.label.start ≤ c.label.start) = true →
      decide (a.label.start ≤ c.label.start) = true := by
    intro a b c hab hbc
    exact decide_eq_true (Nat.le_trans (of_decide_eq_true hab) (of_decide_eq_true hbc))
  have perm : (byStart bs).Perm bs := List.mergeSort_perm _ _
  refine ⟨perm, ?_, fun start => ?_⟩
  · refine (List.pairwise_mergeSort trans total bs).imp ?_
    intro a b hab
    exact of_decide_eq_true hab
  · -- Those with one start are in order already, so sorting does not change their order.
    have alike : (bs.filter fun b => b.label.start = start).Pairwise
        fun a b => decide (a.label.start ≤ b.label.start) = true := by
      refine List.pairwise_of_forall_mem_list fun a ha b hb => decide_eq_true ?_
      have ha := of_decide_eq_true (List.mem_filter.1 ha).2
      have hb := of_decide_eq_true (List.mem_filter.1 hb).2
      exact Nat.le_of_eq (ha.trans hb.symm)
    have kept := (List.sublist_mergeSort trans total alike List.filter_sublist).filter
      fun b => b.label.start = start
    rw [List.filter_filter, List.filter_congr fun _ _ => Bool.and_self _] at kept
    exact (kept.eq_of_length (perm.filter _).length_eq.symm).symm

/-! ## Mirrors -/

/-- One node for each branch, with its kind and flags, and below the node those for what is below
the branch, by ascending start. -/
inductive Mirrors : List t.Id → List Branch → Prop
  | nil : Mirrors [] []
  | cons {i : t.Id} {is : List t.Id} {l : Label} {below ordered rest : List Branch}
      (kind : (label i).kind = l.kind) (splice : (label i).splice = l.splice)
      (silent : (label i).silent = l.silent) (order : Ordered below ordered)
      (children : Mirrors (children i) ordered) (others : Mirrors is rest) :
      Mirrors (i :: is) (⟨l, below⟩ :: rest)

/-- What depicts branches in their places mirrors them as they were reported. -/
theorem Depicts.mirrors {is : List t.Id} {lo hi : Nat} {branches : List Branch}
    (h : Depicts is (fitAll source lo hi branches)) : Mirrors is branches := by
  fun_induction fitAll source lo hi branches generalizing is with
  | case1 =>
    rw [depicts_nil_iff.1 h]
    exact .nil
  | case2 lo hi l below rest fitted ihbelow =>
    rename_i ihothers
    obtain ⟨i, js, rfl, hl, hbelow, hothers⟩ := depicts_cons_iff.1 h
    exact .cons (by rw [hl]; rfl) (by rw [hl]; rfl) (by rw [hl]; rfl) (ordered_byStart below)
      (ihbelow hbelow) (ihothers hothers)

/-! ## Once is enough -/

/-- Spans that were fitted are in place. -/
theorem settled_fitAll {lo hi : Nat} (hlo : Text.isBoundary source lo = true) (h : lo ≤ hi)
    (branches : List Branch) : Settled source lo hi (fitAll source lo hi branches) := by
  fun_induction fitAll source lo hi branches with
  | case1 lo => exact .nil
  | case2 lo hi l below rest fitted ih₁ ih₂ =>
    obtain ⟨hf, hstart, hstop⟩ := l.fit_spec hlo h
    exact .cons hf hstart hstop (ih₁ hf.start hf.le) (ih₂ hf.stop hstop)

/-- A pending node, what will be below it, and its parent. -/
def Pending.outcome (source : String) (p : Pending) : Branch × Option Nat :=
  (p.branch source, p.parent)

theorem map_outcome_openAll (parent : Option Nat) (lo hi : Nat) (branches : List Branch) :
    (openAll source parent lo hi branches).map (Pending.outcome source) =
      (fitAll source lo hi branches).map (·, parent) := by
  rw [← map_branch_openAll source parent, List.map_map]
  refine List.map_congr_left fun p hp => ?_
  rw [Pending.outcome, parent_openAll source parent lo hi branches p hp]
  rfl

/-- What pending nodes grow to depends on nothing but what will be below them, and their parents. -/
theorem grow_congr {ps qs : List Pending}
    (h : ps.map (Pending.outcome source) = qs.map (Pending.outcome source)) (nodes : Array Entry) :
    grow source ps nodes = grow source qs nodes := by
  fun_induction grow source ps nodes generalizing qs with
  | case1 nodes => rw [List.map_eq_nil_iff.1 h.symm, grow]
  | case2 p rest nodes ih =>
    obtain ⟨q, rest', rfl, hq, hrest⟩ := List.map_eq_cons_iff.1 h.symm
    obtain ⟨hbranch, hparent⟩ := Prod.mk.inj hq
    obtain ⟨hlabel, hbelow⟩ := Branch.mk.inj hbranch
    rw [hlabel] at hbelow
    rw [grow, hlabel, hparent]
    refine ih ?_
    rw [List.map_append, List.map_append, map_outcome_openAll, map_outcome_openAll, hbelow, hrest]

/-- A tree is made of nothing but its report in place. -/
theorem layOut_congr {root root' : Branch}
    (h : fitAll source 0 source.utf8ByteSize [root] = fitAll source 0 source.utf8ByteSize [root']) :
    layOut source root = layOut source root' := by
  refine grow_congr ?_ #[]
  rw [map_outcome_openAll, map_outcome_openAll, h]

/-- What is read back from a tree is in place. -/
theorem inPlace_reading (source : String) (reading : Reading) :
    (ofReading source reading).reading.InPlace source where
  root := by
    have hroot := (depicts_root source reading).map_branch
    rw [List.map_singleton] at hroot
    rw [Tree.reading, hroot]
    exact settled_fitAll (Text.isBoundary_zero source) (Nat.zero_le _) _
  faults f hf := ((normal_ofReading source reading).faults f hf).2

/-- The tree of what is read back from a tree is that tree. -/
theorem ofReading_reading (source : String) (reading : Reading) :
    ofReading source (ofReading source reading).reading = ofReading source reading := by
  have hplace := inPlace_reading source reading
  have hroot := (depicts_root source reading).map_branch
  rw [List.map_singleton] at hroot
  have hnodes : layOut source (ofReading source reading).reading.root =
      layOut source reading.root :=
    layOut_congr (hplace.root.fitAll_eq.trans hroot)
  have hfaults : (ofReading source (ofReading source reading).reading).faults =
      (ofReading source reading).faults := hplace.faults_eq
  rw [ofReading, ofReading, mk.injEq]
  exact ⟨rfl, hnodes, hfaults⟩

/-! ## Copies -/

/-- A tree that has one node for each of a report's, in the order of the walk, with all that is said
of it but its span; its links agree, and lead from the root to every node. -/
structure Copies (t : Tree) (root : Branch) : Prop where
  size : t.size = root.count
  mirrors : Mirrors [t.root] [root]
  numbered : (walk t.root).map Fin.val = List.range t.size
  mem_children_iff : ∀ i c : t.Id, c ∈ children i ↔ parent? c = some i
  ascending : ∀ i : t.Id, (children i).Pairwise (· < ·)
  parent?_eq_none_iff : ∀ i : t.Id, parent? i = none ↔ i = t.root
  parent_lt : ∀ i p : t.Id, parent? i = some p → p < i
  below_iff : ∀ i d : t.Id, Below i d ↔ i.val < d.val ∧ d.val < i.val + (walk i).length

/-- The root alone has no parent. -/
theorem parent?_eq_none_iff {reading : Reading} {i : (ofReading source reading).Id} :
    parent? i = none ↔ i = (ofReading source reading).root := by
  constructor
  · intro h
    by_contra hi
    obtain ⟨p, hp, -⟩ := (below_root hi).exists_parent
    rw [((normal_ofReading source reading).mem_children_iff p i).1 hp] at h
    cases h
  · rintro rfl
    cases h : parent? (ofReading source reading).root with
    | none => rfl
    | some p => exact absurd (lt_of_parent? h) (Nat.not_lt_zero _)

theorem copies_ofReading (source : String) (reading : Reading) :
    (ofReading source reading).Copies reading.root where
  size := size_layOut source reading.root
  mirrors := (depicts_root source reading).mirrors
  numbered := walk_root
  mem_children_iff := (normal_ofReading source reading).mem_children_iff
  ascending := ascending_children (joined_layOut source reading.root)
  parent?_eq_none_iff _ := parent?_eq_none_iff
  parent_lt _ _ := lt_of_parent?
  below_iff i d := by rw [length_walk, below_iff_lt]

/-- **Copies.** The build of a tree comes to its end with a copy of what was reported, and to read
the tree back and build once more gives the same. -/
theorem assemble?_copies (source : String) (reading : Reading) (h : reading.root.count < 2 ^ 32) :
    let t := ofReading source reading
    assemble? source reading = some (t.nodes, t.faults) ∧ t.Copies reading.root ∧
      assemble? source t.reading = some (t.nodes, t.faults) ∧ ofReading source t.reading = t := by
  intro t
  have hself : ofReading source t.reading = t := ofReading_reading source reading
  have hcount : t.reading.root.count < 2 ^ 32 := by
    rw [← size_layOut source]
    change (ofReading source t.reading).size < 2 ^ 32
    rw [hself]
    rwa [show t.size = reading.root.count from size_layOut source reading.root]
  refine ⟨assemble?_eq source reading h, copies_ofReading source reading, ?_, hself⟩
  rw [assemble?_eq source t.reading hcount, hself]

/-- Children out of order, of which two start at one place and one has a child of its own. -/
def twins : Reading where
  root := .mk { kind := "line", start := 0, stop := 3 } [
    .mk { kind := "second", start := 1, stop := 3, silent := true } [
      .mk { kind := "inner", start := 2, stop := 9 } []],
    .mk { kind := "third", start := 1, stop := 1 } [],
    .mk { kind := "first", start := 0, stop := 1 } []]
  faults := [⟨"beyond", 9⟩]

theorem assemble?_copies_twins : twins.root.count < 2 ^ 32 ∧
    (ofReading "abc" twins).Copies twins.root ∧
    ofReading "abc" (ofReading "abc" twins).reading = ofReading "abc" twins := by
  have h : twins.root.count < 2 ^ 32 := by decide
  obtain ⟨-, hcopies, -, hself⟩ := assemble?_copies "abc" twins h
  exact ⟨h, hcopies, hself⟩

end Typeahead.Tree
