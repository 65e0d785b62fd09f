import Typeahead.Total

/-!
# Byte offsets into a text

Spans and carets are UTF-8 byte offsets. An offset is usable only where two characters meet.

- **Boundaries** (`isBoundary`): the offsets at which a text can be cut.
- **Rounding down** (`floorBoundary`): the greatest boundary at or below an offset
  (`isBoundary_floorBoundary`, `floorBoundary_le`, `le_floorBoundary`); `clampBoundary` first brings
  the offset into the text.
- **Cutting** (`slice`): the text between two boundaries (`slice_append`), which cut it in three
  (`exists_parts`).
- **Counting** (`byteCount`): the bytes of characters that are not a text yet.
-/

namespace Typeahead.Text

/-- Whether `s` can be cut at byte offset `i`. -/
def isBoundary (s : String) (i : Nat) : Bool :=
  (String.Pos.Raw.mk i).isValid s

/-- The greatest boundary of `s` at or below `i`. -/
def floorBoundary (s : String) : Nat → Nat
  | 0 => 0
  | i + 1 => if isBoundary s (i + 1) then i + 1 else floorBoundary s i

/-- The greatest boundary of `s` at or below `i`, for an `i` that may lie past the end. -/
def clampBoundary (s : String) (i : Nat) : Nat :=
  floorBoundary s (min i s.utf8ByteSize)

/-- The part of `s` from boundary `i` to boundary `j`; empty when either is no boundary. -/
def slice (s : String) (i j : Nat) : String :=
  if h : (String.Pos.Raw.mk i).IsValid s ∧ (String.Pos.Raw.mk j).IsValid s then
    String.extract (s := s) ⟨⟨i⟩, h.1⟩ ⟨⟨j⟩, h.2⟩
  else ""

/-- The part of `s` from boundary `i` to the end. -/
def sliceFrom (s : String) (i : Nat) : String := slice s i s.utf8ByteSize

/-- The number of bytes of some characters. -/
def byteCount (cs : List Char) : Nat := total Char.utf8Size cs

theorem utf8ByteSize_ofList (cs : List Char) : (String.ofList cs).utf8ByteSize = byteCount cs := by
  induction cs with
  | nil => rfl
  | cons c cs ih =>
    rw [← List.singleton_append, String.ofList_append, String.utf8ByteSize_append, ih]
    simp [byteCount]

/-- A boundary is where a first part of the text ends. -/
theorem isBoundary_iff {s : String} {i : Nat} :
    isBoundary s i = true ↔ ∃ a b, s = a ++ b ∧ i = a.utf8ByteSize := by
  unfold isBoundary
  rw [String.Pos.Raw.isValid_eq_true_iff, String.Pos.Raw.isValid_iff_exists_append]
  constructor
  · rintro ⟨a, b, rfl, h⟩
    exact ⟨a, b, rfl, congrArg String.Pos.Raw.byteIdx h⟩
  · rintro ⟨a, b, rfl, rfl⟩
    exact ⟨a, b, rfl, rfl⟩

theorem isBoundary_zero (s : String) : isBoundary s 0 = true :=
  isBoundary_iff.2 ⟨"", s, by simp, by simp⟩

theorem isBoundary_size (s : String) : isBoundary s s.utf8ByteSize = true :=
  isBoundary_iff.2 ⟨s, "", by simp, rfl⟩

theorem le_size_of_isBoundary {s : String} {i : Nat} (h : isBoundary s i = true) :
    i ≤ s.utf8ByteSize := by
  obtain ⟨a, b, rfl, rfl⟩ := isBoundary_iff.1 h
  simp

theorem isBoundary_floorBoundary (s : String) (i : Nat) :
    isBoundary s (floorBoundary s i) = true := by
  induction i with
  | zero => exact isBoundary_zero s
  | succ i ih =>
    simp only [floorBoundary]
    split
    · assumption
    · exact ih

theorem floorBoundary_le (s : String) (i : Nat) : floorBoundary s i ≤ i := by
  induction i with
  | zero => exact Nat.le_refl 0
  | succ i ih =>
    simp only [floorBoundary]
    split
    · exact Nat.le_refl _
    · exact Nat.le_succ_of_le ih

/-- Rounding down passes over no boundary. -/
theorem le_floorBoundary {s : String} {i k : Nat} (hk : isBoundary s k = true) (h : k ≤ i) :
    k ≤ floorBoundary s i := by
  induction i with
  | zero => exact h
  | succ i ih =>
    simp only [floorBoundary]
    split
    · exact h
    · rename_i hn
      refine ih (Nat.le_of_lt_succ (Nat.lt_of_le_of_ne h ?_))
      rintro rfl
      exact hn hk

/-- Cutting the middle out of three parts gives the middle. -/
theorem slice_append (a b c : String) :
    slice (a ++ b ++ c) a.utf8ByteSize (a.utf8ByteSize + b.utf8ByteSize) = b := by
  have h : (String.Pos.Raw.mk a.utf8ByteSize).IsValid (a ++ b ++ c) ∧
      (String.Pos.Raw.mk (a.utf8ByteSize + b.utf8ByteSize)).IsValid (a ++ b ++ c) := by
    constructor <;> rw [String.Pos.Raw.isValid_iff_exists_append]
    · exact ⟨a, b ++ c, by rw [String.append_assoc], rfl⟩
    · exact ⟨a ++ b, c, rfl, by simp [String.rawEndPos]⟩
  rw [slice, dif_pos h, ← String.toByteArray_inj]
  simp only [String.extract, String.toByteArray_append]
  rw [ByteArray.append_assoc]
  have : a.utf8ByteSize = a.utf8ByteSize + 0 := rfl
  rw [this, Nat.add_assoc, ByteArray.extract_append_size_add' (by simp), Nat.zero_add]
  exact ByteArray.extract_append_eq_left (by simp)

/-- Two boundaries cut a text in three. -/
theorem exists_parts {s : String} {i j : Nat} (hi : isBoundary s i = true)
    (hj : isBoundary s j = true) (h : i ≤ j) : ∃ a b c, s = a ++ b ++ c ∧ i = a.utf8ByteSize ∧
      j = a.utf8ByteSize + b.utf8ByteSize := by
  obtain ⟨a, r, rfl, rfl⟩ := isBoundary_iff.1 hi
  obtain ⟨p, c, hs, rfl⟩ := isBoundary_iff.1 hj
  have hl := congrArg String.toList hs
  rw [String.toList_append, String.toList_append, List.append_eq_append_iff] at hl
  rcases hl with ⟨m, hp, hr⟩ | ⟨m, ha, hc⟩
  · refine ⟨a, String.ofList m, c, ?_, rfl, ?_⟩
    · apply String.toList_injective
      simp [hr]
    · rw [← String.utf8ByteSize_append]
      refine congrArg String.utf8ByteSize (String.toList_injective ?_)
      simp [hp]
  · -- The first part ends behind the second boundary, so both are one.
    have hm : a = p ++ String.ofList m := String.toList_injective (by simp [ha])
    have hz : (String.ofList m).utf8ByteSize = 0 := by
      have := congrArg String.utf8ByteSize hm
      rw [String.utf8ByteSize_append] at this
      omega
    refine ⟨a, "", r, by simp, rfl, ?_⟩
    rw [hm, String.utf8ByteSize_append, hz]
    rfl

end Typeahead.Text
