import Typeahead.Proofs.Reader

/-!
# What a store finds

A store files texts under a hash, so texts of one hash drive each other out, and a look-up of one
moves what is filed for the other. None of this shows: what is found for a text was filed for it
last.

- **Operations** (`Recall.Op`, `Recall.run`): any sequence of them, on an empty store of any hash and
  capacity.
- **Latest values** (`Recall.Latest`): the value of the last filing for a text, when the text has not
  been dropped since. It outlasts what is about other texts (`Latest.mono`).
- **Invariant** (`Recall.Sound`): each entry is filed under the hash of its text, with the latest
  value. Each operation keeps it (`Sound.perform`), so it holds after every run (`sound_run`).
- **Readers** (`Reader.readAll`): with such a store behind it, a reader gives the tree that the
  backend's reading of the text makes, whatever it has read before (`transparent`).
-/

namespace Typeahead

namespace Recall

variable {α : Type}

/-- What can be done to a store. -/
inductive Op (α : Type) where
  | put (text : String) (value : α)
  | get (text : String)
  | forget (text : String)
  | clear

/-- The store after an operation. -/
def perform (r : Recall α) : Op α → Recall α
  | .put text value => r.put text value
  | .get text => (r.get text).2
  | .forget text => r.forget text
  | .clear => r.clear

/-- The store after operations, one after the other. -/
def run (r : Recall α) (ops : List (Op α)) : Recall α := ops.foldl perform r

/-- Whether an operation settles anew what is filed for `text`. -/
def Op.Settles (text : String) : Op α → Prop
  | .put text' _ => text' = text
  | .get _ => False
  | .forget text' => text' = text
  | .clear => True

/-- `a` is the value of the last filing for `text`, and the text has not been dropped since. -/
def Latest (text : String) (a : α) (ops : List (Op α)) : Prop :=
  ∃ before after, ops = before ++ .put text a :: after ∧ ∀ op ∈ after, ¬ op.Settles text

theorem latest_put (text : String) (a : α) (ops : List (Op α)) :
    Latest text a (ops ++ [.put text a]) :=
  ⟨ops, [], rfl, by simp⟩

/-- What was filed stays the latest while the operations are about other texts. -/
theorem Latest.mono {text : String} {a : α} {ops : List (Op α)} {op : Op α}
    (h : Latest text a ops) (hop : ¬ op.Settles text) : Latest text a (ops ++ [op]) := by
  obtain ⟨before, after, rfl, hafter⟩ := h
  refine ⟨before, after ++ [op], by simp, fun op' hop' => ?_⟩
  rcases List.mem_append.1 hop' with hop' | hop'
  · exact hafter op' hop'
  · rw [List.mem_singleton.1 hop']
    exact hop

/-- An entry stands under the hash of its text, with the value that was filed last. -/
structure Sound (hash : String → UInt64) (ops : List (Op α)) (r : Recall α) : Prop where
  hash_eq : r.hash = hash
  key_eq : ∀ f ∈ r.entries, f.key = hash f.text
  latest : ∀ f ∈ r.entries, Latest f.text f.value ops

variable {hash : String → UInt64} {ops : List (Op α)} {r : Recall α} {text : String}

/-- Entries may move and be evicted. -/
theorem Sound.mono {r' : Recall α} {op : Op α} (h : r.Sound hash ops) (hh : r'.hash = r.hash)
    (he : ∀ f ∈ r'.entries, f ∈ r.entries ∧ ¬ op.Settles f.text) : r'.Sound hash (ops ++ [op]) where
  hash_eq := hh.trans h.hash_eq
  key_eq f hf := h.key_eq f (he f hf).1
  latest f hf := (h.latest f (he f hf).1).mono (he f hf).2

/-- An entry under another key is not for this text. -/
theorem Sound.ne_of_mem_others (h : r.Sound hash ops) {f : Filed α} (hf : f ∈ r.others text) :
    f ∈ r.entries ∧ text ≠ f.text := by
  obtain ⟨hmem, hkey⟩ := List.mem_filter.1 hf
  refine ⟨hmem, ?_⟩
  rintro rfl
  simp [key, h.hash_eq, h.key_eq f hmem] at hkey

theorem hash_touch (r : Recall α) (text : String) : (r.touch text).hash = r.hash := by
  unfold touch
  split <;> rfl

theorem Sound.perform (h : r.Sound hash ops) (op : Op α) :
    (r.perform op).Sound hash (ops ++ [op]) := by
  cases op with
  | put text a =>
    have old : ∀ f ∈ r.others text, f ∈ r.entries ∧ ¬ Op.Settles f.text (.put text a) :=
      fun f hf => h.ne_of_mem_others hf
    refine ⟨h.hash_eq, fun f hf => ?_, fun f hf => ?_⟩
    · rcases List.mem_cons.1 (List.mem_of_mem_take hf) with rfl | hf
      · exact congrFun h.hash_eq text
      · exact h.key_eq f (old f hf).1
    · rcases List.mem_cons.1 (List.mem_of_mem_take hf) with rfl | hf
      · exact latest_put text a ops
      · exact (h.latest f (old f hf).1).mono (old f hf).2
  | get text => exact h.mono (r.hash_touch text) fun f hf => ⟨mem_touch hf, id⟩
  | forget text => exact h.mono rfl fun f hf => h.ne_of_mem_others hf
  | clear => exact h.mono rfl fun f hf => absurd hf List.not_mem_nil

theorem sound_empty (hash : String → UInt64) (capacity : Nat) :
    (empty hash capacity : Recall α).Sound hash [] :=
  ⟨rfl, fun _ h => absurd h List.not_mem_nil, fun _ h => absurd h List.not_mem_nil⟩

theorem Sound.run {before : List (Op α)} (h : r.Sound hash before) (ops : List (Op α)) :
    (r.run ops).Sound hash (before ++ ops) := by
  induction ops generalizing r before with
  | nil => simpa [Recall.run] using h
  | cons op ops ih => simpa [Recall.run] using ih (h.perform op)

theorem sound_run (hash : String → UInt64) (capacity : Nat) (ops : List (Op α)) :
    ((empty hash capacity).run ops).Sound hash ops := by
  simpa using (sound_empty hash capacity).run ops

/-- What is found for a text is the latest value of the text. -/
theorem Sound.latest_of_get (h : r.Sound hash ops) {a : α} (hget : (r.get text).1 = some a) :
    Latest text a ops := by
  obtain ⟨f, hf, rfl, rfl⟩ := filed_of_get hget
  exact h.latest f hf

end Recall

namespace Reader

/-- The reader after it has read texts, one after the other. -/
def readAll (r : Reader) (texts : List String) : Reader :=
  texts.foldl (fun r text => (r.read text).2.1) r

theorem Parsed.readAll {r : Reader} {texts : List String} (h : r.Parsed texts)
    (more : List String) :
    (r.readAll more).backend = r.backend ∧ ∃ texts', (r.readAll more).Parsed texts' := by
  induction more generalizing r texts with
  | nil => exact ⟨rfl, texts, h⟩
  | cons text more ih =>
    obtain ⟨texts', -, hb, h', -⟩ := h.read (rfl : r.read text = _)
    obtain ⟨hb', htexts⟩ := ih h'
    exact ⟨hb'.trans hb, htexts⟩

/-- What is read for a text is its tree. -/
theorem Parsed.tree_read {r : Reader} {texts : List String} (h : r.Parsed texts) (text : String) :
    (r.read text).1.tree = r.treeOf text := by
  generalize hread : r.read text = x
  obtain ⟨-, -, -, -, -, htree⟩ := h.read hread
  exact htree

section

variable (hash : String → UInt64) (capacity : Nat) (backend : Backend) (texts : List String)
  (text : String)

/-- What a reader has read does not change what a text comes to. -/
theorem treeOf_readAll : ((hashed hash capacity backend).readAll texts).treeOf text =
    Tree.ofReading text (backend.read text) := by
  rw [treeOf, ((parsed_hashed hash capacity backend).readAll texts).1]
  rfl

theorem tree_read_readAll : (((hashed hash capacity backend).readAll texts).read text).1.tree =
    Tree.ofReading text (backend.read text) := by
  obtain ⟨-, _, h⟩ := (parsed_hashed hash capacity backend).readAll texts
  rw [h.tree_read text, treeOf_readAll]

end

end Reader

/-- **The memory does not show.** Whatever the hash and the capacity, what a store finds for a text
is the value that was filed last for this very text, and what was just filed is found. So a reader
gives for a text, whatever it has read before, the tree that the backend's reading of it makes. -/
theorem Recall.transparent {α : Type} (hash : String → UInt64) (capacity : Nat) :
    (∀ (ops : List (Op α)) (text : String) (a : α),
      ((((empty hash capacity).run ops).get text).1 = some a → Latest text a ops) ∧
        (((empty hash capacity).run (ops ++ [.put text a])).get text).1 = some a) ∧
      ∀ (backend : Backend) (texts : List String) (text : String),
        let d := (((Reader.hashed hash capacity backend).readAll texts).read text).1
        d.tree = Tree.ofReading text (backend.read text) ∧ d.tree.source = text := by
  refine ⟨fun ops text a => ⟨(sound_run hash capacity ops).latest_of_get, ?_⟩, ?_⟩
  · rw [run, List.foldl_append]
    exact get_put _ text a
  · intro backend texts text
    obtain ⟨hb, _, h⟩ := (Reader.parsed_hashed hash capacity backend).readAll texts
    have htree := h.tree_read text
    rw [Reader.treeOf, hb] at htree
    exact ⟨htree, congrArg Tree.source htree⟩

/-- Two texts of one hash are filed one after the other, and the latter is found. -/
theorem Recall.transparent_collision :
    (((empty (fun _ => 0) 2).run [.put "a" 1, .put "b" 2, .get "a"]).get "b").1 = some 2 ∧
      Latest "b" 2 [.put "a" 1, .put "b" 2, .get "a"] := by
  have found :
      (((empty (fun _ => 0) 2).run [.put "a" 1, .put "b" 2, .get "a"]).get "b").1 = some 2 := by
    decide
  exact ⟨found, ((transparent (fun _ => 0) 2).1 _ "b" 2).1 found⟩

end Typeahead
