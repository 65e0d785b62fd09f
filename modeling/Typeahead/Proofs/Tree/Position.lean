import Mathlib.Data.List.Find
import Mathlib.Data.List.Pairwise
import Typeahead.Proofs.Tree.Walk

/-!
# Which node is at a position

The way down to a position takes the first child around it, again and again. Spans are nested, and
siblings do not overlap, so it misses nothing.

- **Around a position** (`Normal.covers_of_below`): so is every node above one that is.
- **Where a way down may end** (`Tree.endsAt`): in a node around the position, or where it began, when
  no child is around the position. It does end in the first such node that a walk comes to
  (`Normal.find?_walk`).
- **Depth** (`Normal.below_nodeAt`): where no node below begins or ends at the position, all that are
  around it are above the node that is found.

For the trees of reports this is `nodeAt_first`.
-/

namespace Typeahead.Tree

variable {t : Tree} {i d : t.Id} {pos : Nat}

/-! ## Around a position -/

/-- The span of a node is around all spans below it. -/
theorem Normal.covers_of_below (n : t.Normal) (h : Below i d) (hd : covers d pos = true) :
    covers i pos = true := by
  refine h.of_children (R := fun i d => covers d pos = true → covers i pos = true)
    (fun i c hc hp => ?_) (fun hi hc hp => hi (hc hp)) hd
  obtain ⟨hstart, hstop⟩ := n.inside i c hc
  rw [covers_iff] at hp ⊢
  exact ⟨Nat.le_trans hstart hp.1, Nat.le_trans hp.2 hstop⟩

theorem Normal.covers_eq_false (n : t.Normal) (hi : covers i pos = false) (hd : d ∈ walk i) :
    covers d pos = false := by
  rcases mem_walk_iff.1 hd with rfl | hb
  · exact hi
  · refine Bool.eq_false_iff.2 fun h => ?_
    rw [n.covers_of_below hb h] at hi
    cases hi

/-- Outside its span a node is all that is found from it. -/
theorem Normal.nodeAt_outside (n : t.Normal) (h : covers i pos = false) : nodeAt i pos = i :=
  nodeAt_of_forall fun _ hc => n.covers_eq_false h (mem_walk_iff.2 (.inr (.child hc)))

/-! ## Where a way down may end -/

/-- A way down ends where no child is around the position, and else goes on with the first that is. -/
theorem nodeAt_cases (i : t.Id) (pos : Nat) :
    (∀ c ∈ children i, covers c pos = false) ∧ nodeAt i pos = i ∨
      ∃ before c after, children i = before ++ c :: after ∧ (∀ b ∈ before, covers b pos = false) ∧
        covers c pos = true ∧ nodeAt i pos = nodeAt c pos := by
  cases hf : (children i).find? (covers · pos) with
  | none =>
    have hnone : ∀ c ∈ children i, covers c pos = false := by
      simpa using List.find?_eq_none.1 hf
    exact .inl ⟨hnone, nodeAt_of_forall hnone⟩
  | some c =>
    obtain ⟨hc, before, after, he, hbefore⟩ := List.find?_eq_some_iff_append.1 hf
    have hbefore : ∀ b ∈ before, covers b pos = false := by simpa using hbefore
    exact .inr ⟨before, c, after, he, hbefore, hc, nodeAt_of_children he hbefore hc⟩

/-- Whether a way down from `i` to a position may end in `d`: it is `i`, or around the position, and
none of its children is around the position. -/
def endsAt (i : t.Id) (pos : Nat) (d : t.Id) : Bool :=
  (decide (d = i) || covers d pos) && (children d).all fun c => !covers c pos

/-- Nothing below that is not around the position will do. -/
theorem endsAt_eq_false (hb : Below i d) (hp : covers d pos = false) : endsAt i pos d = false := by
  unfold endsAt
  rw [decide_eq_false (Fin.ne_of_gt hb.lt), hp, Bool.or_false, Bool.false_and]

/-- Below a child around the position it does not matter that the way began further up. -/
theorem endsAt_of_child {c : t.Id} (hc : c ∈ children i) (hp : covers c pos = true)
    (hd : d ∈ walk c) : endsAt i pos d = endsAt c pos d := by
  have hne : d ≠ i := Fin.ne_of_gt (below_of_mem_walk hc hd).lt
  unfold endsAt
  rw [decide_eq_false hne, Bool.false_or]
  by_cases he : d = c
  · rw [he, hp, Bool.or_true]
  · rw [decide_eq_false he, Bool.false_or]

/-- The way down ends in the first node of the walk that it may end in. -/
theorem Normal.find?_walk (n : t.Normal) (i : t.Id) (pos : Nat) :
    (walk i).find? (endsAt i pos) = some (nodeAt i pos) := by
  induction i using children_induction with
  | h i ih =>
    rcases nodeAt_cases i pos with ⟨hnone, hat⟩ | ⟨before, c, after, he, hbefore, hc, hat⟩
    · have hend : endsAt i pos i = true := by
        unfold endsAt
        rw [decide_eq_true rfl, Bool.true_or, Bool.true_and, List.all_eq_true]
        intro c hc
        rw [hnone c hc, Bool.not_false]
      rw [hat, walk_eq, List.find?_cons_of_pos hend]
    · have hmem : c ∈ children i := he ▸ List.mem_append_right _ List.mem_cons_self
      -- Neither the node itself nor anything below an earlier child will do.
      have hself : endsAt i pos i = false := by
        unfold endsAt
        refine Bool.and_eq_false_iff.2 (.inr (List.all_eq_false.2 ⟨c, hmem, ?_⟩))
        rw [hc]
        decide
      have hearlier : (before.flatMap walk).find? (endsAt i pos) = none := by
        refine List.find?_eq_none.2 fun d hd => ?_
        obtain ⟨b, hb, hd⟩ := List.mem_flatMap.1 hd
        have hbelow := below_of_mem_walk (he ▸ List.mem_append_left _ hb) hd
        rw [endsAt_eq_false hbelow (n.covers_eq_false (hbefore b hb) hd)]
        decide
      have hchild : (walk c).find? (endsAt i pos) = some (nodeAt c pos) := by
        rw [List.find?_congr fun d hd => endsAt_of_child hmem hc hd]
        exact ih c hmem
      rw [hat, walk_eq, List.find?_cons_of_neg (by rw [hself]; decide), he, List.flatMap_append,
        List.flatMap_cons, List.find?_append, List.find?_append, hearlier, hchild]
      rfl

/-- What is found from a node is that node or below it. -/
theorem Normal.nodeAt_mem_walk (n : t.Normal) (i : t.Id) (pos : Nat) : nodeAt i pos ∈ walk i :=
  List.mem_of_find?_eq_some (n.find?_walk i pos)

/-! ## Depth -/

/-- Two children around a position meet there: one ends where the other begins. -/
theorem Normal.eq_of_covers (n : t.Normal) {c c' : t.Id} (hc : c ∈ children i)
    (hc' : c' ∈ children i) (hp : covers c pos = true) (hp' : covers c' pos = true)
    (hs : (label c').start ≠ pos ∧ (label c').stop ≠ pos) : c = c' := by
  rw [covers_iff] at hp hp'
  by_contra hne
  have symm : Std.Symm fun a b : t.Id =>
      (label a).stop ≤ (label b).start ∨ (label b).stop ≤ (label a).start :=
    ⟨fun _ _ => Or.symm⟩
  have apart : (children i).Pairwise fun a b =>
      (label a).stop ≤ (label b).start ∨ (label b).stop ≤ (label a).start :=
    (n.apart i).imp Or.inl
  have := apart.forall hc hc' hne
  omega

/-- Where no node below begins or ends at the position, a node found from around it is around it too,
and every other one that is lies above. -/
theorem Normal.below_nodeAt (n : t.Normal) (hi : covers i pos = true)
    (hs : ∀ d, Below i d → (label d).start ≠ pos ∧ (label d).stop ≠ pos) :
    covers (nodeAt i pos) pos = true ∧
      ∀ d ∈ walk i, covers d pos = true → d ≠ nodeAt i pos → Below d (nodeAt i pos) := by
  induction i using children_induction with
  | h i ih =>
    rcases nodeAt_cases i pos with ⟨hnone, hat⟩ | ⟨before, c, after, he, -, hc, hat⟩
    · rw [hat]
      refine ⟨hi, fun d hd hp hne => ?_⟩
      rw [walk_eq, List.mem_cons, List.mem_flatMap] at hd
      obtain ⟨c, hc, hd⟩ := hd.resolve_left hne
      rw [n.covers_eq_false (hnone c hc) hd] at hp
      cases hp
    · have hmem : c ∈ children i := he ▸ List.mem_append_right _ List.mem_cons_self
      obtain ⟨hp, hall⟩ := ih c hmem hc fun d hd => hs d (.under hmem hd)
      rw [hat]
      refine ⟨hp, fun d hd hd' hne => ?_⟩
      rw [walk_eq, List.mem_cons, List.mem_flatMap] at hd
      rcases hd with rfl | ⟨c', hc', hd⟩
      · exact below_of_mem_walk hmem (n.nodeAt_mem_walk c pos)
      · have hp' : covers c' pos = true := by
          rcases mem_walk_iff.1 hd with rfl | hb
          · exact hd'
          · exact n.covers_of_below hb hd'
        obtain rfl := n.eq_of_covers hmem hc' hc hp' (hs c' (.child hc'))
        exact hall d hd hd' hne

/-- Further down is deeper. -/
theorem Normal.depth_lt (n : t.Normal) (h : Below i d) : depth i < depth d := by
  refine h.of_children (R := fun i d => depth i < depth d) (fun i c hc => ?_) Nat.lt_trans
  rw [depth_of_parent? ((n.mem_children_iff i c).1 hc)]
  exact Nat.lt_succ_self _

/-- **Positions.** From any node of any tree that is made of a report, and for any position: of the
nodes that a way down may end in, the first one in the walk is found. Outside the span of a node this
is the node itself. Inside, unless some node below begins or ends just there, it is the deepest of
all nodes around the position, and no other is as deep. -/
theorem nodeAt_first (source : String) (reading : Reading) (i : (ofReading source reading).Id)
    (pos : Nat) :
    (walk i).find? (endsAt i pos) = some (nodeAt i pos) ∧
    (covers i pos = false → nodeAt i pos = i) ∧
    (covers i pos = true →
      (∀ d, Below i d → (label d).start ≠ pos ∧ (label d).stop ≠ pos) →
      covers (nodeAt i pos) pos = true ∧
      ∀ d ∈ walk i, covers d pos = true → d ≠ nodeAt i pos → depth d < depth (nodeAt i pos)) := by
  have n := normal_ofReading source reading
  refine ⟨n.find?_walk i pos, n.nodeAt_outside, fun hi hs => ?_⟩
  obtain ⟨hp, hall⟩ := n.below_nodeAt hi hs
  exact ⟨hp, fun d hd hd' hne => n.depth_lt (hall d hd hd' hne)⟩

/-- A word that goes from the beginning of a line to its middle. -/
def lead : Reading where
  root := .mk { kind := "line", start := 0, stop := 3 } [
    .mk { kind := "word", start := 0, stop := 2 } []]
  faults := []

theorem depicts_lead : Depicts [(ofReading "abc" lead).root] [lead.root] := by
  have h := depicts_root "abc" lead
  have settled : Settled "abc" 0 "abc".utf8ByteSize [lead.root] := by
    refine .cons ⟨by decide, by decide, by decide⟩ (by decide) (by decide) ?_ .nil
    exact .cons ⟨by decide, by decide, by decide⟩ (by decide) (by decide) .nil .nil
  rwa [settled.fitAll_eq] at h

/-- The tree has a node for the line and one for the word, which alone is below it. -/
theorem nodes_lead : ∃ word : (ofReading "abc" lead).Id,
    children (ofReading "abc" lead).root = [word] ∧ children word = [] ∧
    label (ofReading "abc" lead).root = { kind := "line", start := 0, stop := 3 } ∧
    label word = { kind := "word", start := 0, stop := 2 } ∧
    ∀ d, Below (ofReading "abc" lead).root d → d = word := by
  obtain ⟨line, _, he, hline, hbelow, -⟩ := depicts_cons_iff.1 depicts_lead
  obtain ⟨rfl, -⟩ := List.cons.inj he
  obtain ⟨word, _, hchildren, hword, hnone, hrest⟩ := depicts_cons_iff.1 hbelow
  rw [depicts_nil_iff.1 hrest] at hchildren
  rw [depicts_nil_iff] at hnone
  refine ⟨word, hchildren, hnone, hline, hword, fun d hd => ?_⟩
  cases hd with
  | child hc => exact List.mem_singleton.1 (hchildren ▸ hc)
  | under hc hd =>
    obtain rfl := List.mem_singleton.1 (hchildren ▸ hc)
    cases hd with
    | child hc | under hc => rw [hnone] at hc; cases hc

theorem nodeAt_first_lead : ∃ i : (ofReading "abc" lead).Id, covers i 1 = true ∧
    (∀ d, Below i d → (label d).start ≠ 1 ∧ (label d).stop ≠ 1) ∧
    i ≠ nodeAt i 1 ∧ depth i < depth (nodeAt i 1) := by
  obtain ⟨word, hchildren, hnone, hline, hword, hbelow⟩ := nodes_lead
  have hcovers : covers (ofReading "abc" lead).root 1 = true := by
    rw [covers_iff, hline]
    decide
  have hinner : ∀ d, Below (ofReading "abc" lead).root d →
      (label d).start ≠ 1 ∧ (label d).stop ≠ 1 := by
    intro d hd
    rw [hbelow d hd, hword]
    decide
  have hfound : nodeAt (ofReading "abc" lead).root 1 ≠ (ofReading "abc" lead).root := by
    have hc : covers word 1 = true := by
      rw [covers_iff, hword]
      decide
    rw [nodeAt_of_children (hchildren.trans (List.nil_append _).symm) (fun _ h => by cases h) hc,
      nodeAt_of_forall fun c h => by rw [hnone] at h; cases h]
    exact Fin.ne_of_gt (lt_of_mem_children (hchildren ▸ List.mem_singleton_self word))
  obtain ⟨-, -, hdeepest⟩ := nodeAt_first "abc" lead (ofReading "abc" lead).root 1
  obtain ⟨-, hall⟩ := hdeepest hcovers hinner
  exact ⟨_, hcovers, hinner, hfound.symm, hall _ (self_mem_walk _) hcovers hfound.symm⟩

end Typeahead.Tree
