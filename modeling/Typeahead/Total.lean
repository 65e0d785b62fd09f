/-!
# Totals

What the entries of a list count for, added up: the bytes of characters, the nodes below several
nodes, the steps that several rules allow.
-/

namespace Typeahead

variable {α β : Type}

/-- What the entries of a list count for by `f`, added up. -/
def total (f : α → Nat) (as : List α) : Nat := as.foldr (fun a n => f a + n) 0

@[simp] theorem total_nil (f : α → Nat) : total f [] = 0 := rfl

@[simp] theorem total_cons (f : α → Nat) (a : α) (as : List α) :
    total f (a :: as) = f a + total f as := rfl

@[simp] theorem total_append (f : α → Nat) (as bs : List α) :
    total f (as ++ bs) = total f as + total f bs := by
  induction as with
  | nil => exact (Nat.zero_add _).symm
  | cons a as ih => rw [List.cons_append, total_cons, total_cons, ih, Nat.add_assoc]

@[simp] theorem total_map (f : β → Nat) (g : α → β) (as : List α) :
    total f (as.map g) = total (fun a => f (g a)) as := by
  unfold total
  rw [List.foldr_map]

@[simp] theorem total_replicate (f : α → Nat) (n : Nat) (a : α) :
    total f (List.replicate n a) = n * f a := by
  induction n with
  | zero => exact (Nat.zero_mul _).symm
  | succ n ih => rw [List.replicate_succ, total_cons, ih, Nat.succ_mul, Nat.add_comm]

/-- Entries that are taken with their membership count for what they do without. -/
theorem total_attach (f : α → Nat) (as : List α) :
    total (fun a => f a.1) as.attach = total f as := by
  have h := total_map f Subtype.val as.attach
  rw [List.attach_map_subtype_val] at h
  exact h.symm

end Typeahead
