import Typeahead.Proofs.Tree.Position

/-!
# Nodes found by their kind

- **Downwards** (`Tree.seek?`): the first child of a kind, or else what is first found below the
  children. The search that keeps a list of nodes to go on from finds what this finds from the first
  of them that leads to anything (`descendantOf?_eq`). It finds nothing only where there is nothing
  (`seek?_eq_none_iff`).
- **Upwards** (`Normal.ancestor_nearest`): of the nodes of a kind above a node, the one found is below
  all others. So the way up from what was found below a node ends there, or below it.

For the trees of reports this is `descendant?_found`.
-/

namespace Typeahead.Tree

variable {t : Tree} {i d : t.Id} {kind : String}

/-! ## Downwards -/

/-- The first child of a kind, or else the first that is found below the children, in order. -/
def seek? (kind : String) (i : t.Id) : Option t.Id :=
  match (children i).find? fun c => (label c).kind == kind with
  | some c => some c
  | none => (children i).attach.findSome? fun c => seek? kind c.1
termination_by t.nodes.size - i.val
decreasing_by
  have : i < c.1 := lt_of_mem_children c.2
  have : i.val < c.1.val := this
  omega

theorem seek?_of_find? {c : t.Id}
    (h : ((children i).find? fun c => (label c).kind == kind) = some c) : seek? kind i = some c := by
  rw [seek?, h]

theorem seek?_of_none (h : ((children i).find? fun c => (label c).kind == kind) = none) :
    seek? kind i = (children i).findSome? (seek? kind) := by
  rw [seek?, h]
  exact (List.findSome?_subtype (g := seek? kind) fun _ _ => rfl).trans (by rw [List.unattach_attach])

/-- The search from several nodes finds what the first of them leads to that leads to anything. -/
theorem descendantOf?_eq (kind : String) (pending : List t.Id) :
    descendantOf? kind pending = pending.findSome? (seek? kind) := by
  fun_induction descendantOf? kind pending with
  | case1 => rfl
  | case2 i rest c h => rw [List.findSome?_cons, seek?_of_find? h]
  | case3 i rest h ih =>
    rw [ih, List.findSome?_append, List.findSome?_cons, seek?_of_none h]
    cases (children i).findSome? (seek? kind) <;> rfl

theorem descendant?_eq (i : t.Id) (kind : String) : descendant? i kind = seek? kind i := by
  rw [descendant?, descendantOf?_eq, List.findSome?_cons, List.findSome?_nil]
  cases seek? kind i <;> rfl

/-- What is found is below, and of the kind. -/
theorem below_of_seek? (h : seek? kind i = some d) : Below i d ∧ (label d).kind = kind := by
  induction i using children_induction with
  | h i ih =>
    cases hf : (children i).find? fun c => (label c).kind == kind with
    | some c =>
      rw [seek?_of_find? hf] at h
      obtain rfl := Option.some.inj h
      exact ⟨.child (List.mem_of_find?_eq_some hf), beq_iff_eq.1 (List.find?_some hf :)⟩
    | none =>
      rw [seek?_of_none hf] at h
      obtain ⟨c, hc, hd⟩ := List.exists_of_findSome?_eq_some h
      obtain ⟨hb, hk⟩ := ih c hc hd
      exact ⟨.under hc hb, hk⟩

/-- Nothing is found where no child is of the kind, nor leads to anything. -/
theorem seek?_eq_none_iff_children (i : t.Id) : seek? kind i = none ↔
    ∀ c ∈ children i, (label c).kind ≠ kind ∧ seek? kind c = none := by
  cases hf : (children i).find? fun c => (label c).kind == kind with
  | some c =>
    rw [seek?_of_find? hf]
    refine ⟨fun h => (by cases h), fun h => ?_⟩
    exact absurd (beq_iff_eq.1 (List.find?_some hf :)) (h c (List.mem_of_find?_eq_some hf)).1
  | none =>
    have hk : ∀ c ∈ children i, (label c).kind ≠ kind := by simpa using List.find?_eq_none.1 hf
    rw [seek?_of_none hf, List.findSome?_eq_none_iff]
    exact ⟨fun h c hc => ⟨hk c hc, h c hc⟩, fun h c hc => (h c hc).2⟩

/-- Nothing is found only where nothing below is of the kind. -/
theorem seek?_eq_none_iff : seek? kind i = none ↔ ∀ d, Below i d → (label d).kind ≠ kind := by
  refine ⟨fun h d hd => ?_, fun h => ?_⟩
  · induction hd with
    | child hc => exact ((seek?_eq_none_iff_children _).1 h _ hc).1
    | under hc _ ih => exact ih ((seek?_eq_none_iff_children _).1 h _ hc).2
  · cases hs : seek? kind i with
    | none => rfl
    | some d =>
      obtain ⟨hb, hk⟩ := below_of_seek? hs
      exact absurd hk (h d hb)

/-! ## Upwards -/

theorem ancestor_of_parent? {p : t.Id} (h : parent? i = some p) (kind : String) :
    ancestor i kind = if (label p).kind = kind then p else ancestor p kind := by
  rw [ancestor]
  split
  · rename_i q hq
    rw [h] at hq
    obtain rfl := Option.some.inj hq
    simp only [beq_iff_eq]
  · rename_i hq
    rw [h] at hq
    cases hq

/-- A node above is the parent, or above the parent. -/
theorem Normal.above_cases (n : t.Normal) (h : Below i d) {p : t.Id} (hp : parent? d = some p) :
    i = p ∨ Below i p := by
  obtain ⟨q, hq, hi⟩ := h.exists_parent
  rw [(n.mem_children_iff q d).1 hq] at hp
  obtain rfl := Option.some.inj hp
  exact hi.imp_left Eq.symm

/-- Where a node of a kind is above, the way up ends in one, and all others above are above that. -/
theorem Normal.ancestor_nearest {i d : t.Id} (n : t.Normal) (h : Below i d)
    (hk : (label i).kind = kind) :
    Below (ancestor d kind) d ∧ (label (ancestor d kind)).kind = kind ∧
      ∀ a, Below a d → (label a).kind = kind →
        a = ancestor d kind ∨ Below a (ancestor d kind) := by
  obtain ⟨p, hp, hi⟩ := h.exists_parent
  have hpar := (n.mem_children_iff p d).1 hp
  rw [ancestor_of_parent? hpar]
  split
  · rename_i hkind
    exact ⟨.child hp, hkind, fun a ha _ => n.above_cases ha hpar⟩
  · rename_i hkind
    have hbelow : Below i p := by
      rcases hi with rfl | hi
      · exact absurd hk hkind
      · exact hi
    obtain ⟨ha, hka, hall⟩ := n.ancestor_nearest hbelow hk
    refine ⟨ha.trans (.child hp), hka, fun a hab hkab => hall a ?_ hkab⟩
    rcases n.above_cases hab hpar with rfl | hab
    · exact absurd hkab hkind
    · exact hab
termination_by d.val
decreasing_by exact lt_of_mem_children hp

/-- **Kinds.** From any node of any tree that is made of a report, for any kind: the search that keeps
a list of nodes finds what the search by recursion finds. It finds nothing just where no node below
is of the kind. From what it finds, the way up to the kind of the first node ends in the nearest node
above of that kind, which is the first node or below it. -/
theorem descendant?_found (source : String) (reading : Reading)
    (i : (ofReading source reading).Id) (kind : String) :
    descendant? i kind = seek? kind i ∧
    (descendant? i kind = none ↔ ∀ d, Below i d → (label d).kind ≠ kind) ∧
    ∀ d, descendant? i kind = some d → Below i d ∧ (label d).kind = kind ∧
      let a := ancestor d (label i).kind
      Below a d ∧ (label a).kind = (label i).kind ∧
        (∀ b, Below b d → (label b).kind = (label i).kind → b = a ∨ Below b a) ∧
        (a = i ∨ Below i a) := by
  have n := normal_ofReading source reading
  rw [descendant?_eq]
  refine ⟨rfl, seek?_eq_none_iff, fun d hd => ?_⟩
  obtain ⟨hb, hk⟩ := below_of_seek? hd
  obtain ⟨ha, hka, hall⟩ := n.ancestor_nearest hb rfl
  exact ⟨hb, hk, ha, hka, hall, (hall i hb rfl).imp_left Eq.symm⟩

/-- Down from a line to the word in it, and up again. -/
theorem descendant?_found_lead : ∃ i d : (ofReading "abc" lead).Id,
    descendant? i "word" = some d ∧ ancestor d "line" = i ∧ descendant? i "line" = none := by
  obtain ⟨word, hchildren, -, hline, hword, hbelow⟩ := nodes_lead
  obtain ⟨-, hnone, hsome⟩ := descendant?_found "abc" lead (ofReading "abc" lead).root "word"
  have hb : Below (ofReading "abc" lead).root word := .child (hchildren ▸ List.mem_singleton_self _)
  obtain ⟨d, hd⟩ := Option.ne_none_iff_exists'.1 fun h => hnone.1 h word hb (by rw [hword])
  obtain ⟨-, -, -, hkind, -, hup⟩ := hsome d hd
  rw [hline] at hkind hup
  refine ⟨_, d, hd, hup.resolve_right fun h => ?_, ?_⟩
  · rw [hbelow _ h, hword] at hkind
    exact absurd hkind (by decide)
  · rw [(descendant?_found "abc" lead _ "line").2.1]
    intro e he
    rw [hbelow e he, hword]
    decide

end Typeahead.Tree
