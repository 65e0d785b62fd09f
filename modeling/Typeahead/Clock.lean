/-!
# Waiting

Time is a whole number of milliseconds since the beginning.

- **Ends** (`Clock.after`): a wait ends when its duration has passed, or after thirty years if that
  is earlier. It ends no earlier than it began (`le_after`), and later if it has a duration
  (`lt_after`); a longer one ends no earlier than a shorter one (`after_mono`). Up to thirty years it
  takes exactly its duration (`after_eq`).
-/

namespace Typeahead.Clock

/-- The longest wait: thirty years of 365 days. -/
def longestWait : Nat := 30 * 365 * 24 * 60 * 60 * 1000

/-- The time at which a wait of some duration ends that begins at `clock`. -/
def after (clock duration : Nat) : Nat := clock + min duration longestWait

theorem le_after (clock duration : Nat) : clock ≤ after clock duration := Nat.le_add_right _ _

theorem lt_after {duration : Nat} (h : 0 < duration) (clock : Nat) :
    clock < after clock duration :=
  Nat.lt_add_of_pos_right (Nat.lt_min.2 ⟨h, by decide⟩)

theorem after_eq {duration : Nat} (h : duration ≤ longestWait) (clock : Nat) :
    after clock duration = clock + duration := by
  rw [after, Nat.min_eq_left h]

theorem after_zero (clock : Nat) : after clock 0 = clock := after_eq (Nat.zero_le _) clock

theorem after_mono (clock : Nat) {short long : Nat} (h : short ≤ long) :
    after clock short ≤ after clock long := by
  unfold after
  omega

end Typeahead.Clock
