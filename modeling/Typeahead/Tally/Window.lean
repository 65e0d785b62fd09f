/-!
# Windows of durations

- **Windows** (`Window`): the latest durations of one operation, `Window.limit` at most.
- **Figures** (`Durations`): least, greatest, mean, median and 95th percentile of a window.
- **Sums** (`Window.sum`): the durations are added up as 64-bit words. A sum that does not fit ends
  in an `Overflow`, and there are no figures then.
-/

namespace Typeahead

/-- The number of microseconds in so many seconds and nanoseconds, in 64 bits. -/
def microsOf (seconds nanos : Nat) : UInt64 :=
  UInt64.ofNat ((seconds * 1000000000 + nanos) / 1000)

/-- An addition of 64-bit words whose sum does not fit in one. -/
inductive Overflow where
  | add
  deriving Repr, DecidableEq

/-- What is said of it. -/
def Overflow.message : Overflow → String
  | .add => "attempt to add with overflow"

/-- What a window tells about an operation; all but the count are in microseconds. -/
structure Durations where
  count : Nat
  least : UInt64
  greatest : UInt64
  mean : UInt64
  median : UInt64
  percentile95 : UInt64
  deriving Repr, DecidableEq

/-- The number of durations that a window keeps. -/
def Window.limit : Nat := 1024

/-- Durations in microseconds. They are kept in two runs, each with the latest first: `recent` holds
`count` of them, and `older` those before. When `recent` is full it becomes `older`, so that adding
one more is a single step. -/
structure Window where
  recent : List UInt64
  count : Nat
  older : List UInt64
  length_recent : recent.length = count
  count_le : count ≤ Window.limit

namespace Window

/-- No durations. -/
def empty : Window := ⟨[], 0, [], rfl, Nat.zero_le _⟩

/-- The latest durations, `limit` at most, the latest first. -/
def samples (w : Window) : List UInt64 := (w.recent ++ w.older).take limit

theorem length_samples_le (w : Window) : w.samples.length ≤ limit := List.length_take_le _ _

/-- The window after one more duration. -/
def add (w : Window) (micros : UInt64) : Window :=
  if h : w.count < limit then
    ⟨micros :: w.recent, w.count + 1, w.older, congrArg (· + 1) w.length_recent, h⟩
  else ⟨[micros], 1, w.recent, rfl, by decide⟩

@[simp] theorem samples_empty : empty.samples = [] := rfl

/-- A new duration comes first, and the oldest one goes when there are too many. -/
@[simp] theorem samples_add (w : Window) (micros : UInt64) :
    (w.add micros).samples = (micros :: w.samples).take limit := by
  have twice : (micros :: w.samples).take limit = (micros :: (w.recent ++ w.older)).take limit := by
    obtain ⟨n, hn⟩ : ∃ n, limit = n + 1 := ⟨1023, rfl⟩
    simp only [samples, hn, List.take_succ_cons, List.take_take, Nat.min_eq_left (Nat.le_succ n)]
  rw [twice]
  unfold add
  split
  · rfl
  · have full : (micros :: w.recent).length = limit + 1 :=
      congrArg (· + 1) (w.length_recent.trans (Nat.le_antisymm w.count_le (Nat.not_lt.1 ‹_›)))
    rw [← List.cons_append, List.take_append_of_le_length (full ▸ Nat.le_succ _)]
    rfl

/-- The durations in ascending order. -/
def sorted (w : Window) : List UInt64 := w.samples.mergeSort

theorem length_sorted (w : Window) : w.sorted.length = w.samples.length :=
  List.length_mergeSort _

/-- The sum of two words. One that does not fit comes round to less than either of them. -/
def plus (a b : UInt64) : Except Overflow UInt64 :=
  if a + b < a then .error .add else .ok (a + b)

/-- The sum of some words, added up from the first. -/
def sum (words : List UInt64) : Except Overflow UInt64 := words.foldlM plus 0

/-- The figures of durations in ascending order, at least one. -/
def figures (sorted : List UInt64) (h : 0 < sorted.length) : Except Overflow Durations :=
  let count := sorted.length
  (sum sorted).map fun micros =>
    { count
      least := sorted[0]
      greatest := sorted[count - 1]
      mean := micros / UInt64.ofNat count
      median := sorted[count / 2]
      percentile95 := sorted[min (count * 95 / 100) (count - 1)] }

/-- The figures of a window, if it has a duration. -/
def durations (w : Window) : Except Overflow (Option Durations) :=
  let sorted := w.sorted
  if h : 0 < sorted.length then (figures sorted h).map some else .ok none

end Window

end Typeahead
