import Typeahead.Editor.Node

/-!
# Where documents come from

- **Made documents** (`Document.Made`). With the texts that a reader has parsed, in order, its
  documents are told by their numbers: each is the tree of the text of its number. So two that have
  one number are one (`Made.eq`), and nodes that compare equal are equal (`Made.node_eq`).
- **What a reader gives** is made from the text it was asked for (`Reader.Parsed.read`), out of its
  memory or not, whatever hash the memory files under.
- **What reading takes** (`Reader.counts_read`): one look-up, and one parse at most.
-/

namespace Typeahead

/-- The document has the number of a parse of the text, and its tree is the tree of the text. -/
def Document.Made (backend : Backend) (texts : List String) (text : String) (d : Document) : Prop :=
  texts[d.serial]? = some text ∧ d.tree = Tree.ofReading text (backend.read text)

namespace Document.Made

variable {backend : Backend} {texts texts' : List String} {text text' : String} {d d' : Document}

theorem mono (h : d.Made backend texts text) (hp : texts <+: texts') :
    d.Made backend texts' text := by
  obtain ⟨more, rfl⟩ := hp
  refine ⟨?_, h.2⟩
  rw [List.getElem?_append_left (List.getElem?_eq_some_iff.1 h.1).1, h.1]

/-- Documents of one number are one. -/
theorem eq (h : d.Made backend texts text) (h' : d'.Made backend texts text')
    (he : d.serial = d'.serial) : d = d' := by
  obtain ⟨hs, ht⟩ := h
  obtain ⟨hs', ht'⟩ := h'
  obtain rfl : text = text' := by
    rw [← he, hs] at hs'
    exact Option.some.inj hs'
  cases d
  cases d'
  simp only at he ht ht'
  rw [he, ht, ht']

/-- Nodes that compare equal are equal. -/
theorem node_eq {n n' : Node} (h : n.document.Made backend texts text)
    (h' : n'.document.Made backend texts text') (he : (n == n') = true) : n = n' := by
  obtain ⟨hs, hi⟩ := Node.beq_iff.1 he
  obtain ⟨d, i⟩ := n
  obtain ⟨d', i'⟩ := n'
  obtain rfl : d = d' := h.eq h' hs
  exact congrArg (Node.mk d) (Fin.ext hi)

end Document.Made

namespace Recall

variable {α : Type} {r : Recall α} {text : String} {f : Filed α}

/-- A look-up moves entries and adds none. -/
theorem mem_touch (h : f ∈ (r.touch text).entries) : f ∈ r.entries := by
  unfold touch at h
  split at h
  · rename_i e he
    rcases List.mem_cons.1 h with rfl | h
    · exact List.mem_of_find?_eq_some he
    · exact (List.mem_filter.1 h).1
  · exact h

/-- What is found was filed for this very text. -/
theorem filed_of_get {a : α} (h : (r.get text).1 = some a) :
    ∃ f ∈ r.entries, f.text = text ∧ f.value = a := by
  rw [get_fst, Option.map_eq_some_iff] at h
  obtain ⟨f, hf, rfl⟩ := h
  obtain ⟨hf, ht⟩ := Option.filter_eq_some_iff.1 hf
  exact ⟨f, List.mem_of_find?_eq_some hf, by simpa using ht, rfl⟩

theorem mem_put {a : α} (h : f ∈ (r.put text a).entries) :
    f = ⟨r.key text, text, a⟩ ∨ f ∈ r.entries := by
  rcases List.mem_cons.1 (List.mem_of_mem_take h) with h | h
  · exact .inl h
  · exact .inr (List.mem_filter.1 h).1

end Recall

namespace Reader

/-- The texts that a reader has parsed, in order: what it remembers was made from them. -/
structure Parsed (r : Reader) (texts : List String) : Prop where
  length_eq : texts.length = r.parses
  made : ∀ f ∈ r.memory.entries, f.value.Made r.backend texts f.text

theorem parsed_hashed (hash : String → UInt64) (capacity : Nat) (backend : Backend) :
    (hashed hash capacity backend).Parsed [] :=
  ⟨rfl, fun _ h => by cases h⟩

namespace Parsed

variable {r r' : Reader} {texts : List String} {text : String} {d : Document}

theorem lookUp {found : Option Document} (h : r.Parsed texts)
    (hl : r.lookUp text = (found, r')) : r'.backend = r.backend ∧ r'.Parsed texts ∧
      ∀ d, found = some d → d.Made r.backend texts text := by
  unfold Reader.lookUp at hl
  cases hl
  refine ⟨rfl, ⟨h.length_eq, fun f hf => h.made f (Recall.mem_touch hf)⟩, fun d hd => ?_⟩
  obtain ⟨f, hf, rfl, rfl⟩ := Recall.filed_of_get hd
  exact h.made f hf

theorem absorb (h : r.Parsed texts) (ha : r.absorb text = (d, r')) : r'.backend = r.backend ∧
    r'.Parsed (texts ++ [text]) ∧ d.Made r.backend (texts ++ [text]) text := by
  unfold Reader.absorb at ha
  cases ha
  have hd : Document.Made r.backend (texts ++ [text]) text ⟨r.parses, r.treeOf text⟩ := by
    refine ⟨?_, rfl⟩
    rw [← h.length_eq, List.getElem?_append_right (Nat.le_refl _), Nat.sub_self]
    rfl
  refine ⟨rfl, ⟨?_, fun f hf => ?_⟩, hd⟩
  · rw [List.length_append, h.length_eq, List.length_singleton]
  · rcases Recall.mem_put hf with rfl | hf
    · exact hd
    · exact (h.made f hf).mono (List.prefix_append _ _)

/-- A reader gives the document of the text that it is asked for. -/
theorem read {os : List Observation} (h : r.Parsed texts) (hr : r.read text = (d, r', os)) :
    ∃ texts', texts <+: texts' ∧ r'.backend = r.backend ∧ r'.Parsed texts' ∧
      d.Made r.backend texts' text := by
  unfold Reader.read at hr
  split at hr
  · rename_i d' r₁ hl
    cases hr
    obtain ⟨hb, hp, hd⟩ := h.lookUp hl
    exact ⟨texts, List.prefix_rfl, hb, hp, hd _ rfl⟩
  · rename_i r₁ hl
    obtain ⟨hb, hp, -⟩ := h.lookUp hl
    cases hr
    obtain ⟨hb', hp', hd⟩ := hp.absorb (rfl : r₁.absorb text = _)
    exact ⟨_, List.prefix_append _ _, hb'.trans hb, hp', hb ▸ hd⟩

end Parsed

section

variable (r : Reader) (text : String)

/-- A text that is at hand is not parsed again. -/
theorem read_of_found {d : Document} (h : (r.lookUp text).1 = some d) :
    (r.read text).1 = d ∧ (r.read text).2.1 = (r.lookUp text).2 := by
  unfold read
  generalize r.lookUp text = found at h ⊢
  obtain ⟨_, r'⟩ := found
  cases h
  exact ⟨rfl, rfl⟩

/-- A text that is not at hand is parsed once it was looked up. -/
theorem read_of_missed (h : (r.lookUp text).1 = none) :
    (r.read text).1 = ((r.lookUp text).2.absorb text).1 ∧
      (r.read text).2.1 = ((r.lookUp text).2.absorb text).2 := by
  unfold read
  generalize r.lookUp text = found at h ⊢
  obtain ⟨_, r'⟩ := found
  cases h
  exact ⟨rfl, rfl⟩

theorem total_lookUp :
    (r.lookUp text).2.memory.score.total = r.memory.score.total + 1 :=
  Score.total_add _ _

/-- A text is looked up once to be read, and parsed at most once. -/
theorem counts_read :
    (r.read text).2.1.memory.score.total = r.memory.score.total + 1 ∧
      (r.read text).2.1.parses ≤ r.parses + 1 := by
  cases h : (r.lookUp text).1 with
  | some d =>
    rw [(r.read_of_found text h).2]
    exact ⟨r.total_lookUp text, Nat.le_succ _⟩
  | none =>
    rw [(r.read_of_missed text h).2]
    exact ⟨r.total_lookUp text, Nat.le_refl _⟩

/-- Reading a text leaves a trace. -/
theorem read_ne : (r.read text).2.1 ≠ r := by
  intro h
  have hcount := (r.counts_read text).1
  rw [h] at hcount
  omega

end

end Reader

end Typeahead
