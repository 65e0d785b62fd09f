import Typeahead.Recall.Score

/-!
# Remembering values by text

A bounded store keeps the values of the texts that were used latest.

- **Keys** (`Recall.key`): a text is filed under a 64-bit hash of it, and at most one text under
  each hash. The hash is a parameter, and nothing is assumed of it.
- **Reading** (`get`): what is filed under the hash becomes the latest; it is an answer only when
  it was filed for this very text. Each call counts as a hit or as a miss.
- **What a reader finds**: the value just written (`get_put`), and nothing after the text was
  dropped (`get_forget`) or the store was cleared (`get_clear`).
- **Writing** (`put`): what was filed under the hash before is gone, and so is the least recently
  used text when there are too many.
-/

namespace Typeahead

/-- A value, the text that it was filed for, and the key that it was filed under. -/
structure Filed (α : Type) where
  key : UInt64
  text : String
  value : α

/-- The values of at most `capacity` texts, the text that was used last first. -/
structure Recall (α : Type) where
  hash : String → UInt64
  capacity : Nat
  entries : List (Filed α) := []
  score : Score := {}
  capacity_pos : 0 < capacity
  length_le : entries.length ≤ capacity := by exact Nat.zero_le _

namespace Recall

variable {α : Type}

/-- The empty store for so many texts, and for one at least. -/
def empty (hash : String → UInt64) (capacity : Nat) : Recall α :=
  { hash, capacity := max 1 capacity, capacity_pos := Nat.le_max_left 1 capacity }

variable (r : Recall α)

/-- The key that a text is filed under. -/
def key (text : String) : UInt64 := r.hash text

/-- The entries under other keys than that of `text`. -/
def others (text : String) : List (Filed α) :=
  let key := r.key text
  r.entries.filter fun e => e.key != key

/-- What is filed under the key of `text`. -/
def filed? (text : String) : Option (Filed α) :=
  let key := r.key text
  r.entries.find? fun e => e.key == key

theorem length_others_le (text : String) : (r.others text).length ≤ r.capacity :=
  Nat.le_trans (List.length_filter_le _ _) r.length_le

theorem length_others_lt {text : String} {e : Filed α} (h : r.filed? text = some e) :
    (r.others text).length < r.entries.length := by
  refine List.length_filter_lt_length_iff_exists.2 ⟨e, List.mem_of_find?_eq_some h, ?_⟩
  have := List.find?_some h
  simp only [beq_iff_eq] at this
  simp [this]

/-- The store after a look at what is filed under the key of `text`. -/
def touch (text : String) : Recall α :=
  match h : r.filed? text with
  | some e =>
    { r with
      entries := e :: r.others text
      length_le := Nat.le_trans (r.length_others_lt h) r.length_le }
  | none => r

/-- The value that was filed for `text`. -/
def get (text : String) : Option α × Recall α :=
  let found := (r.filed? text).filter (·.text == text)
  (found.map (·.value), { r.touch text with score := r.score.add found.isSome })

/-- Files a value for `text`. -/
def put (text : String) (value : α) : Recall α :=
  { r with
    entries := (⟨r.key text, text, value⟩ :: r.others text).take r.capacity
    length_le := List.length_take_le _ _ }

/-- Drops what is filed under the key of `text`. -/
def forget (text : String) : Recall α :=
  { r with entries := r.others text, length_le := r.length_others_le text }

/-- Drops everything but the count of hits and misses. -/
def clear : Recall α := { r with entries := [], length_le := Nat.zero_le _ }

/-- The number of texts at hand. -/
def size : Nat := r.entries.length

/-- The value that a look-up gives, without its effect on the store. -/
theorem get_fst (text : String) :
    (r.get text).1 = ((r.filed? text).filter (·.text == text)).map (·.value) := rfl

theorem filed?_put (text : String) (value : α) :
    (r.put text value).filed? text = some ⟨r.key text, text, value⟩ := by
  obtain ⟨n, hn⟩ := Nat.exists_eq_succ_of_ne_zero (Nat.ne_of_gt r.capacity_pos)
  simp [filed?, put, hn, key]

/-- What was just filed for a text is found. -/
theorem get_put (text : String) (value : α) : ((r.put text value).get text).1 = some value := by
  rw [get_fst, filed?_put, Option.filter_some, if_pos (beq_self_eq_true text)]
  rfl

theorem filed?_forget (text : String) : (r.forget text).filed? text = none := by
  refine List.find?_eq_none.2 fun e he => ?_
  simpa [forget, key] using (List.mem_filter.1 he).2

/-- What was just dropped is not found. -/
theorem get_forget (text : String) : ((r.forget text).get text).1 = none := by
  rw [get_fst, filed?_forget]
  rfl

/-- Nothing is found in a cleared store. -/
theorem get_clear (text : String) : (r.clear.get text).1 = none := rfl

end Recall

end Typeahead
