import Mathlib.Data.List.Basic
import Typeahead.Tree.Layout

/-!
# Trees are normal

Whatever a parser reports, the spans of the tree that is made of it are on boundaries of the text,
inside the parent's span, and after the previous sibling's.

- **Fitting** (`Label.fit_spec`): between two offsets that do not cross, the lower of them on a
  boundary, a span comes to lie between them.
- **Places** (`Laid`): labels and parents of the nodes that have their index and of those still
  pending, in the order of the walk. To open a node puts its children right behind it
  (`Laid.insert_children`), and so `grow` keeps the law (`laid_grow`).
- **Children** (`Joined`): the children of a node are the nodes that have it for a parent, in the
  order of their indices (`joined_grow`).

Both together make a tree normal (`Tree.Normal`, `Tree.normal_ofReading`). Each node of a normal tree
cuts the source in three (`Tree.Normal.exists_parts`).
-/

namespace Typeahead

theorem le_clamp (n lo hi : Nat) : lo ≤ clamp n lo hi := Nat.le_max_left ..

theorem clamp_le {lo hi : Nat} (n : Nat) (h : lo ≤ hi) : clamp n lo hi ≤ hi :=
  Nat.max_le.2 ⟨h, Nat.min_le_right ..⟩

/-- The span is on boundaries of a text, and does not end before it starts. -/
structure Label.Fits (source : String) (l : Label) : Prop where
  start : Text.isBoundary source l.start = true
  stop : Text.isBoundary source l.stop = true
  le : l.start ≤ l.stop

/-- A span is fitted between two offsets. Rounding down does not leave it below the lower one,
which is on a boundary. -/
theorem Label.fit_spec {source : String} {lo hi : Nat} (hlo : Text.isBoundary source lo = true)
    (h : lo ≤ hi) (l : Label) : (l.fit source lo hi).Fits source ∧
      lo ≤ (l.fit source lo hi).start ∧ (l.fit source lo hi).stop ≤ hi := by
  have hstart := Text.isBoundary_floorBoundary source (clamp l.start lo hi)
  have hle : (l.fit source lo hi).start ≤ hi :=
    Nat.le_trans (Text.floorBoundary_le _ _) (clamp_le _ h)
  refine ⟨⟨hstart, Text.isBoundary_floorBoundary _ _, ?_⟩, ?_, ?_⟩
  · exact Text.le_floorBoundary hstart (le_clamp _ _ _)
  · exact Text.le_floorBoundary hlo (le_clamp _ _ _)
  · exact Nat.le_trans (Text.floorBoundary_le _ _) (clamp_le _ hle)

namespace Tree

variable {source : String} {nodes : Array Entry} {parent : Option Nat}

/-! ## Siblings -/

/-- Children that are opened lie inside, and each after the one before. -/
theorem openAll_spec (parent : Option Nat) {lo hi : Nat}
    (hlo : Text.isBoundary source lo = true) (h : lo ≤ hi) (branches : List Branch) :
    (∀ p ∈ openAll source parent lo hi branches,
      p.label.Fits source ∧ lo ≤ p.label.start ∧ p.label.stop ≤ hi) ∧
    (openAll source parent lo hi branches).Pairwise fun p q => p.label.stop ≤ q.label.start := by
  induction branches generalizing lo with
  | nil => exact ⟨fun _ h => (by cases h), .nil⟩
  | cons b rest ih =>
    obtain ⟨label, children⟩ := b
    obtain ⟨hf, hl, hh⟩ := label.fit_spec hlo h
    obtain ⟨hr, hp⟩ := ih hf.stop hh
    refine ⟨fun p hm => ?_, List.pairwise_cons.2 ⟨fun p hm => (hr p hm).2.1, hp⟩⟩
    rcases List.mem_cons.1 hm with rfl | hm
    · exact ⟨hf, hl, hh⟩
    · obtain ⟨hf', hl', hh'⟩ := hr p hm
      exact ⟨hf', Nat.le_trans hl (Nat.le_trans hf.le hl'), hh'⟩

/-! ## Places -/

/-- What is known of a node before its children are: its label and its parent's index. -/
structure Place where
  label : Label
  parent : Option Nat

def Pending.place (p : Pending) : Place := ⟨p.label, p.parent⟩

/-- The places of the nodes that have their index. -/
def places (nodes : Array Entry) : List Place := nodes.toList.map fun e => ⟨e.label, e.parent⟩

/-- Spans on boundaries, each inside the parent's, and those of siblings one after the other. -/
structure Laid (source : String) (ps : List Place) : Prop where
  fits : ∀ x ∈ ps, x.label.Fits source
  inside : ∀ x ∈ ps, ∀ i, x.parent = some i → ∃ y, ps[i]? = some y ∧
    y.label.start ≤ x.label.start ∧ x.label.stop ≤ y.label.stop
  apart : ps.Pairwise fun x y => x.parent = y.parent → x.label.stop ≤ y.label.start

/-- Children that lie inside their parent, one after the other, may be put right behind it, while
nothing else has it for a parent. -/
theorem Laid.insert_children {before after : List Place} {x : Place}
    (h : Laid source (before ++ x :: after)) (opened : List Place)
    (hp : ∀ y ∈ before ++ x :: after, ∀ i, y.parent = some i → i < before.length)
    (ho : ∀ y ∈ opened, y.parent = some before.length ∧ y.label.Fits source ∧
      x.label.start ≤ y.label.start ∧ y.label.stop ≤ x.label.stop)
    (ha : opened.Pairwise fun y z => y.label.stop ≤ z.label.start) :
    Laid source (before ++ x :: (opened ++ after)) := by
  have mem : ∀ {y}, y ∈ before ++ x :: (opened ++ after) →
      y ∈ opened ∨ y ∈ before ++ x :: after := by
    intro y hy
    simp only [List.mem_append, List.mem_cons] at hy ⊢
    tauto
  have other : ∀ y ∈ opened, ∀ z ∈ before ++ x :: after, y.parent ≠ z.parent := by
    intro y hy z hz he
    exact Nat.lt_irrefl _ (hp z hz _ (he ▸ (ho y hy).1))
  refine ⟨fun y hy => ?_, fun y hy i hi => ?_, ?_⟩
  · rcases mem hy with hy | hy
    · exact (ho y hy).2.1
    · exact h.fits y hy
  · rcases mem hy with hy | hy
    · obtain ⟨hpar, -, hs, ht⟩ := ho y hy
      obtain rfl := Option.some.inj (hpar.symm.trans hi)
      exact ⟨x, by simp, hs, ht⟩
    · have hlt := hp y hy i hi
      obtain ⟨z, hz, hle⟩ := h.inside y hy i hi
      rw [List.getElem?_append_left hlt] at hz
      exact ⟨z, by rw [List.getElem?_append_left hlt, hz], hle⟩
  · -- The new ones come after the old ones up to `x` and before the rest, and share no parent.
    have hold := h.apart
    rw [List.pairwise_append, List.pairwise_cons] at hold ⊢
    obtain ⟨hb, ⟨hx, hafter⟩, hcross⟩ := hold
    rw [List.pairwise_append]
    have hopened : opened.Pairwise fun y z =>
        y.parent = z.parent → y.label.stop ≤ z.label.start := by
      refine ha.imp ?_
      intro y z hle _
      exact hle
    refine ⟨hb, ⟨fun y hy => ?_, hopened, hafter, fun y hy z hz he => ?_⟩, ?_⟩
    · rcases List.mem_append.1 hy with hy | hy
      · exact fun he => absurd he.symm (other y hy x (by simp))
      · exact hx y hy
    · exact absurd he (other y hy z (by simp [hz]))
    · intro y hy z hz
      rcases List.mem_cons.1 hz with rfl | hz
      · exact hcross y hy z List.mem_cons_self
      · rcases List.mem_append.1 hz with hz | hz
        · exact fun he => absurd he.symm (other z hz y (by simp [hy]))
        · exact hcross y hy z (List.mem_cons_of_mem _ hz)

/-! ## Growing -/

/-- The new node comes last; any other stays, but for its parent, which has one more child. -/
theorem getElem?_push (nodes : Array Entry) (label : Label) (parent : Option Nat) (i : Nat) :
    (push nodes label parent)[i]? =
      if i = nodes.size then some ⟨label, parent, #[]⟩
      else nodes[i]?.map fun e => if parent = some i then addChild nodes.size e else e := by
  cases parent with
  | none => simp [push, Array.getElem?_push]
  | some p =>
    simp only [push, Array.getElem?_push, Array.size_modify, Array.getElem?_modify,
      Option.some.injEq]
    split
    · rfl
    · split <;> simp

theorem places_push (nodes : Array Entry) (label : Label) (parent : Option Nat) :
    places (push nodes label parent) = places nodes ++ [⟨label, parent⟩] := by
  refine List.ext_getElem? fun i => ?_
  simp only [places, List.getElem?_map, Array.getElem?_toList, getElem?_push,
    List.getElem?_append, List.length_map, Array.length_toList]
  rcases Nat.lt_trichotomy i nodes.size with hi | rfl | hi
  · rw [if_neg (Nat.ne_of_lt hi), if_pos hi, Option.map_map]
    refine congrArg (Option.map · _) (funext fun e => ?_)
    dsimp only [Function.comp]
    split <;> rfl
  · rw [if_pos rfl, if_neg (Nat.lt_irrefl _), Nat.sub_self]
    rfl
  · have hout : [(⟨label, parent⟩ : Place)].length ≤ i - nodes.size := Nat.sub_pos_of_lt hi
    rw [if_neg (Nat.ne_of_gt hi), if_neg (Nat.lt_asymm hi),
      Array.getElem?_eq_none (Nat.le_of_lt hi), List.getElem?_eq_none hout]
    rfl

theorem length_places (nodes : Array Entry) : (places nodes).length = nodes.size := by
  rw [places, List.length_map, Array.length_toList]

theorem parent_lt_places (hl : Linked nodes) {y : Place} (hy : y ∈ places nodes) {i : Nat}
    (hi : y.parent = some i) : i < nodes.size := by
  obtain ⟨e, he, rfl⟩ := List.mem_map.1 hy
  obtain ⟨k, hk, rfl⟩ := List.getElem_of_mem he
  exact Nat.lt_trans (hl.parent_lt k hk i hi) hk

/-- What is laid stays so when the pending nodes are given their places. -/
theorem laid_grow (ps : List Pending) (nodes : Array Entry) (hl : Linked nodes)
    (hp : ∀ q ∈ ps, ∀ i, q.parent = some i → i < nodes.size)
    (h : Laid source (places nodes ++ ps.map Pending.place)) :
    Laid source (places (grow source ps nodes)) := by
  fun_induction grow source ps nodes with
  | case1 nodes => simpa using h
  | case2 p rest nodes ih =>
    have hn := length_places nodes
    have hf : p.label.Fits source := h.fits p.place (by simp)
    obtain ⟨ho, ha⟩ := openAll_spec (some nodes.size) hf.start hf.le (byStart p.children)
    have hpar := parent_openAll source (some nodes.size) p.label.start p.label.stop
      (byStart p.children)
    refine ih (linked_push _ _ hl (hp p List.mem_cons_self)) (parent_lt_push source hp) ?_
    generalize openAll source _ _ _ _ = opened at ho ha hpar ⊢
    rw [places_push, List.append_assoc, List.map_append]
    refine Laid.insert_children (x := p.place) h (opened.map Pending.place)
      (fun y hy i hi => ?_) (fun y hy => ?_) (List.pairwise_map.2 ha)
    · rw [hn]
      rcases List.mem_append.1 hy with hy | hy
      · exact parent_lt_places hl hy hi
      · rw [← List.map_cons] at hy
        obtain ⟨q, hq, rfl⟩ := List.mem_map.1 hy
        exact hp q hq i hi
    · obtain ⟨q, hq, rfl⟩ := List.mem_map.1 hy
      rw [hn]
      exact ⟨hpar q hq, ho q hq⟩

theorem laid_layOut (source : String) (root : Branch) :
    Laid source (places (layOut source root)) := by
  obtain ⟨hf, ha⟩ := openAll_spec none (Text.isBoundary_zero source) (Nat.zero_le _)
    [root]
  have hpar := parent_openAll source none 0 source.utf8ByteSize [root]
  unfold layOut
  generalize openAll source none 0 source.utf8ByteSize [root] = opened at hf ha hpar ⊢
  refine laid_grow opened #[] linked_empty (fun q hq i hi => ?_) ⟨fun x hx => ?_, ?_, ?_⟩
  · rw [hpar q hq] at hi
    cases hi
  · obtain ⟨q, hq, rfl⟩ := List.mem_map.1 hx
    exact (hf q hq).1
  · intro x hx i hi
    obtain ⟨q, hq, rfl⟩ := List.mem_map.1 hx
    rw [show q.place.parent = none from hpar q hq] at hi
    cases hi
  · refine List.pairwise_map.2 (ha.imp ?_)
    intro q r hle _
    exact hle

/-! ## Children -/

/-- The children of a node are the nodes that have it for a parent, in the order of their
indices. -/
structure Joined (nodes : Array Entry) : Prop where
  mem_children_iff : ∀ (i : Nat) (e : Entry), nodes[i]? = some e → ∀ (c : Nat) (f : Entry),
    nodes[c]? = some f → (c ∈ e.children ↔ f.parent = some i)
  ascending : ∀ (i : Nat) (e : Entry), nodes[i]? = some e → e.children.toList.Pairwise (· < ·)

/-- A node of the longer array is the new one, or an old one with perhaps one more child. -/
theorem push_cases {label : Label} {i : Nat} {e : Entry}
    (h : (push nodes label parent)[i]? = some e) :
    i = nodes.size ∧ e = ⟨label, parent, #[]⟩ ∨ ∃ e', nodes[i]? = some e' ∧
      e.parent = e'.parent ∧
      (∀ c, c ∈ e.children ↔ c ∈ e'.children ∨ parent = some i ∧ c = nodes.size) ∧
      (e.children = e'.children ∨ e.children = e'.children.push nodes.size) := by
  rw [getElem?_push] at h
  split at h
  · rename_i hi
    exact .inl ⟨hi, (Option.some.inj h).symm⟩
  · obtain ⟨e', he', rfl⟩ := Option.map_eq_some_iff.1 h
    refine .inr ⟨e', he', ?_⟩
    split
    · rename_i hpar
      exact ⟨rfl, fun c => by simp [addChild, hpar], .inr rfl⟩
    · rename_i hpar
      exact ⟨rfl, fun c => by simp [hpar], .inl rfl⟩

theorem joined_push (label : Label) (hl : Linked nodes) (hp : ∀ p, parent = some p → p < nodes.size)
    (h : Joined nodes) : Joined (push nodes label parent) := by
  have children_lt : ∀ {i c : Nat} {e : Entry}, nodes[i]? = some e → c ∈ e.children →
      c < nodes.size := by
    intro i c e he hc
    obtain ⟨hi, rfl⟩ := Array.getElem?_eq_some_iff.1 he
    exact (hl.lt_child i hi c hc).2
  have parent_lt : ∀ {c i : Nat} {f : Entry}, nodes[c]? = some f → f.parent = some i →
      i < nodes.size := by
    intro c i f hf hi
    obtain ⟨hc, rfl⟩ := Array.getElem?_eq_some_iff.1 hf
    exact Nat.lt_trans (hl.parent_lt c hc i hi) hc
  constructor
  · intro i e he c f hf
    rcases push_cases he with ⟨rfl, rfl⟩ | ⟨e', he', -, hc, -⟩
    · -- Nothing is below the new node.
      refine ⟨fun hm => by simp at hm, fun hpar => absurd ?_ (Nat.lt_irrefl nodes.size)⟩
      rcases push_cases hf with ⟨-, rfl⟩ | ⟨f', hf', hf₁, -⟩
      · exact hp _ hpar
      · exact parent_lt hf' (hf₁ ▸ hpar)
    · rw [hc]
      rcases push_cases hf with ⟨rfl, rfl⟩ | ⟨f', hf', hf₁, -⟩
      · refine ⟨fun hm => ?_, fun hpar => .inr ⟨hpar, rfl⟩⟩
        rcases hm with hm | ⟨hpar, -⟩
        · exact absurd (children_lt he' hm) (Nat.lt_irrefl _)
        · exact hpar
      · rw [hf₁, ← h.mem_children_iff i e' he' c f' hf']
        refine ⟨fun hm => ?_, .inl⟩
        rcases hm with hm | ⟨-, rfl⟩
        · exact hm
        · exact absurd (Array.getElem?_eq_some_iff.1 hf').1 (Nat.lt_irrefl _)
  · intro i e he
    rcases push_cases he with ⟨-, rfl⟩ | ⟨e', he', -, -, hc | hc⟩
    · exact .nil
    · rw [hc]
      exact h.ascending i e' he'
    · rw [hc, Array.toList_push, List.pairwise_append]
      refine ⟨h.ascending i e' he', List.pairwise_singleton _ _, fun a ha b hb => ?_⟩
      rw [List.mem_singleton.1 hb]
      exact children_lt he' (Array.mem_toList_iff.1 ha)

theorem joined_grow (ps : List Pending) (nodes : Array Entry) (hl : Linked nodes)
    (hp : ∀ q ∈ ps, ∀ i, q.parent = some i → i < nodes.size) (h : Joined nodes) :
    Joined (grow source ps nodes) := by
  fun_induction grow source ps nodes with
  | case1 nodes => exact h
  | case2 p rest nodes ih =>
    have hpar := hp p List.mem_cons_self
    exact ih (linked_push _ _ hl hpar) (parent_lt_push source hp) (joined_push _ hl hpar h)

theorem joined_layOut (source : String) (root : Branch) : Joined (layOut source root) := by
  refine joined_grow _ #[] linked_empty (fun q hq i hi => ?_) ⟨fun _ _ h => ?_, fun _ _ h => ?_⟩
  · rw [parent_openAll source _ _ _ _ q hq] at hi
    cases hi
  · cases h
  · cases h

/-! ## Normal trees -/

/-- A tree as it is to be. -/
structure Normal (t : Tree) : Prop where
  start_le_stop : ∀ i : t.Id, (label i).start ≤ (label i).stop
  stop_le_size : ∀ i : t.Id, (label i).stop ≤ t.source.utf8ByteSize
  isBoundary_start : ∀ i : t.Id, Text.isBoundary t.source (label i).start = true
  isBoundary_stop : ∀ i : t.Id, Text.isBoundary t.source (label i).stop = true
  mem_children_iff : ∀ i c : t.Id, c ∈ children i ↔ parent? c = some i
  inside : ∀ i c : t.Id, c ∈ children i →
    (label i).start ≤ (label c).start ∧ (label c).stop ≤ (label i).stop
  apart : ∀ i : t.Id, (children i).Pairwise fun a b => (label a).stop ≤ (label b).start
  faults : ∀ f ∈ t.faults,
    f.position ≤ t.source.utf8ByteSize ∧ Text.isBoundary t.source f.position = true

section

variable {t : Tree}

theorem exists_entry (i : t.Id) : ∃ e, t.nodes[i.val]? = some e :=
  ⟨_, Array.getElem?_eq_getElem i.isLt⟩

theorem mem_children {i c : t.Id} {e : Entry} (he : t.nodes[i.val]? = some e) :
    c ∈ children i ↔ c.val ∈ e.children := by
  obtain ⟨_, rfl⟩ := Array.getElem?_eq_some_iff.1 he
  unfold children
  rw [List.mem_pmap]
  constructor
  · rintro ⟨n, hn, rfl⟩
    exact Array.mem_toList_iff.1 hn
  · intro h
    exact ⟨c.val, Array.mem_toList_iff.2 h, rfl⟩

theorem map_parent? {i : t.Id} {e : Entry} (he : t.nodes[i.val]? = some e) :
    (parent? i).map Fin.val = e.parent := by
  obtain ⟨_, rfl⟩ := Array.getElem?_eq_some_iff.1 he
  unfold parent?
  split <;> (rename_i hp; exact hp.symm)

/-- Children stand in the order of their indices. -/
theorem ascending_children (hj : Joined t.nodes) (i : t.Id) :
    (children i).Pairwise (· < ·) := by
  have := hj.ascending i t.nodes[i] (Array.getElem?_eq_getElem i.isLt)
  refine (List.pairwise_pmap _).2 (this.imp ?_)
  intro a b hab _ _
  exact hab

theorem getElem?_places (i : t.Id) :
    (places t.nodes)[i.val]? = some ⟨label i, (parent? i).map Fin.val⟩ := by
  rw [map_parent? (Array.getElem?_eq_getElem i.isLt), places, List.getElem?_map,
    Array.getElem?_toList, Array.getElem?_eq_getElem i.isLt]
  rfl

/-- A tree whose nodes are laid and joined is normal. -/
theorem normal_of_laid (hl : Laid t.source (places t.nodes)) (hj : Joined t.nodes)
    (hf : ∀ f ∈ t.faults,
      f.position ≤ t.source.utf8ByteSize ∧ Text.isBoundary t.source f.position = true) :
    t.Normal := by
  have fits : ∀ i : t.Id, (label i).Fits t.source :=
    fun i => hl.fits _ (List.mem_of_getElem? (getElem?_places i))
  have above_iff : ∀ i c : t.Id, c ∈ children i ↔ (parent? c).map Fin.val = some i.val := by
    intro i c
    obtain ⟨e, he⟩ := exists_entry i
    obtain ⟨f, hf⟩ := exists_entry c
    rw [mem_children he, map_parent? hf]
    exact hj.mem_children_iff i e he c f hf
  refine ⟨fun i => (fits i).le, fun i => Text.le_size_of_isBoundary (fits i).stop,
    fun i => (fits i).start, fun i => (fits i).stop, fun i c => ?_, fun i c hc => ?_,
    fun i => ?_, hf⟩
  · rw [above_iff, Option.map_eq_some_iff]
    constructor
    · rintro ⟨p, hp, heq⟩
      rw [hp, Fin.ext heq]
    · exact fun h => ⟨i, h, rfl⟩
  · obtain ⟨y, hy, hle⟩ := hl.inside _ (List.mem_of_getElem? (getElem?_places c)) i
      ((above_iff i c).1 hc)
    rw [getElem?_places i] at hy
    obtain rfl := Option.some.inj hy
    exact hle
  · refine (ascending_children hj i).imp_of_mem fun {a b} ha hb hab => ?_
    obtain ⟨ha', hpa⟩ := List.getElem?_eq_some_iff.1 (getElem?_places a)
    obtain ⟨hb', hpb⟩ := List.getElem?_eq_some_iff.1 (getElem?_places b)
    have := List.pairwise_iff_getElem.1 hl.apart a b ha' hb' hab
    rw [hpa, hpb] at this
    exact this (((above_iff i a).1 ha).trans ((above_iff i b).1 hb).symm)

/-- The span of a node cuts the source in three. -/
theorem Normal.exists_parts (n : t.Normal) (i : t.Id) : ∃ before after,
    t.source = before ++ text i ++ after ∧ (label i).start = before.utf8ByteSize ∧
      (label i).stop = (before ++ text i).utf8ByteSize := by
  obtain ⟨before, middle, after, hs, hi, hj⟩ := Text.exists_parts (n.isBoundary_start i)
    (n.isBoundary_stop i) (n.start_le_stop i)
  have ht : text i = middle := by
    unfold text
    rw [hs, hi, hj]
    exact Text.slice_append before middle after
  refine ⟨before, after, ?_, hi, ?_⟩
  · rw [ht]
    exact hs
  · rw [ht, String.utf8ByteSize_append]
    exact hj

end

/-- Whatever is reported, the tree is normal. -/
theorem normal_ofReading (source : String) (reading : Reading) :
    (ofReading source reading).Normal := by
  refine normal_of_laid (laid_layOut source reading.root) (joined_layOut source reading.root) ?_
  intro f hf
  obtain ⟨f', -, rfl⟩ := List.mem_map.1 hf
  have hb := Text.isBoundary_floorBoundary source (min f'.position source.utf8ByteSize)
  exact ⟨Text.le_size_of_isBoundary hb, hb⟩

end Tree

end Typeahead
