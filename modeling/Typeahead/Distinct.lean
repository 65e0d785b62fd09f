import Std.Data.HashSet.Lemmas

/-!
# Repeated entries of a list

- **Distinct entries** (`distinct`): the first of each, in order, which is what `List.eraseDups`
  leaves (`distinct_eq`).
- **First repeat** (`repeated?`): the first entry that stands earlier in the list too. There is none
  just when no entry comes twice (`repeated?_eq_none_iff`).

Both keep the entries that they have seen in a set, so a list is gone through once.
-/

namespace Typeahead

variable {α : Type} [BEq α] [Hashable α]

/-- The first of each entry that is not in `seen`. -/
def distinctFrom (seen : Std.HashSet α) : List α → List α
  | [] => []
  | a :: as =>
    if seen.contains a then distinctFrom seen as else a :: distinctFrom (seen.insert a) as

/-- The first of each entry. -/
def distinct (as : List α) : List α := distinctFrom ∅ as

/-- The first entry that is in `seen`, or stands earlier in the list too. -/
def repeatedFrom? (seen : Std.HashSet α) : List α → Option α
  | [] => none
  | a :: as => if seen.contains a then some a else repeatedFrom? (seen.insert a) as

/-- The first entry that stands earlier in the list too. -/
def repeated? (as : List α) : Option α := repeatedFrom? ∅ as

variable [LawfulBEq α] [LawfulHashable α]

theorem distinctFrom_eq (seen : Std.HashSet α) (as : List α) :
    distinctFrom seen as = (as.filter fun a => !seen.contains a).eraseDups := by
  induction as generalizing seen with
  | nil => rfl
  | cons a as ih =>
    rw [distinctFrom]
    split
    · rename_i h
      rw [ih, List.filter_cons_of_neg (by simp [h])]
    · rename_i h
      rw [ih, List.filter_cons_of_pos (by simp [h]), List.eraseDups_cons, List.filter_filter]
      congr 2
      refine List.filter_congr fun b _ => ?_
      rw [Std.HashSet.contains_insert, Bool.not_or, BEq.comm]

theorem distinct_eq (as : List α) : distinct as = as.eraseDups := by
  rw [distinct, distinctFrom_eq]
  congr 1
  exact List.filter_eq_self.2 fun a _ => by simp

theorem repeatedFrom?_eq_none_iff (seen : Std.HashSet α) (as : List α) :
    repeatedFrom? seen as = none ↔ as.Nodup ∧ ∀ a ∈ as, a ∉ seen := by
  induction as generalizing seen with
  | nil => simp [repeatedFrom?]
  | cons a as ih =>
    rw [repeatedFrom?]
    split
    · rename_i h
      exact iff_of_false (by simp) fun hn =>
        hn.2 a List.mem_cons_self (Std.HashSet.mem_iff_contains.2 h)
    · rename_i h
      have ha : a ∉ seen := fun hm => h (Std.HashSet.mem_iff_contains.1 hm)
      rw [ih, List.nodup_cons]
      simp only [Std.HashSet.mem_insert, beq_iff_eq, List.mem_cons]
      grind

theorem repeated?_eq_none_iff (as : List α) : repeated? as = none ↔ as.Nodup := by
  simp [repeated?, repeatedFrom?_eq_none_iff]

end Typeahead
