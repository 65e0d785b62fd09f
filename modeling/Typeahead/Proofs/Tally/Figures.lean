import Mathlib
import Typeahead.Tally

/-!
# What the figures of an operation tell

The figures of an operation describe its latest durations since everything was forgotten, unless
these come to more than 64 bits hold. What else was observed has no part in them.

- **Acts** (`Tally.Act`): what is done to a tally. Of the durations of an operation since the last
  reset (`Tally.latest`) so many of the latest are kept as a window has room for (`Tally.kept`), and
  these are what its window holds (`Tally.samples_after`).
- **Ranks** (`Ranked`): the place of a duration among others, told by counting those below it and
  those not above it, so that nothing has to be sorted. Ranks are kept by a rearrangement
  (`Ranked.perm`) and are in the order of the durations (`Ranked.le`).
- **Sums** (`Window.sum_eq`): adding word by word fails just when the whole sum does not fit.
- **Figures** (`Durations.Describes`): what each figure is by rank, and the mean by the sum of all
  durations. The figures of a window describe its samples (`Window.exists_describes`).
-/

namespace Typeahead

/-! ## Ranks -/

/-- In ascending order `x` may stand at `i`, counted from zero: no more than `i` samples are below
it, and more than `i` are not above it. -/
def Ranked (samples : List UInt64) (i : Nat) (x : UInt64) : Prop :=
  samples.countP (· < x) ≤ i ∧ i < samples.countP (· ≤ x)

section Ranked

variable {samples others : List UInt64} {i j : Nat} {x y : UInt64}

theorem Ranked.perm (h : Ranked samples i x) (hp : samples.Perm others) : Ranked others i x := by
  unfold Ranked
  rw [← hp.countP_eq, ← hp.countP_eq]
  exact h

/-- What has a rank is one of the samples. -/
theorem Ranked.mem (h : Ranked samples i x) : x ∈ samples := by
  by_contra hx
  have hsame : samples.countP (· ≤ x) = samples.countP (· < x) := by
    refine List.countP_congr fun a ha => ?_
    have hne : a ≠ x := fun heq => hx (heq ▸ ha)
    simpa using ⟨fun hle => UInt64.lt_of_le_of_ne hle hne, UInt64.le_of_lt⟩
  have := h.1
  have := h.2
  omega

/-- A higher rank is of a sample that is no smaller. -/
theorem Ranked.le (hx : Ranked samples i x) (hy : Ranked samples j y) (hij : i ≤ j) : x ≤ y := by
  by_contra hlt
  have hcount : samples.countP (· ≤ y) ≤ samples.countP (· < x) := by
    refine List.countP_mono_left fun a _ ha => ?_
    simp only [decide_eq_true_eq] at ha ⊢
    exact UInt64.lt_of_le_of_lt ha (UInt64.not_le.1 hlt)
  have := hx.1
  have := hy.2
  omega

/-- No sample is below the one of the lowest rank. -/
theorem Ranked.le_of_mem (h : Ranked samples 0 x) (hy : y ∈ samples) : x ≤ y := by
  have hnone := List.countP_eq_zero.1 (Nat.le_zero.1 h.1) y hy
  simpa using hnone

/-- No sample is above the one of the highest rank. -/
theorem Ranked.ge_of_mem (h : Ranked samples (samples.length - 1) x) (hy : y ∈ samples) :
    y ≤ x := by
  have hlength : samples.countP (· ≤ x) = samples.length := by
    have := samples.countP_le_length (p := (· ≤ x))
    have := h.2
    omega
  simpa using List.countP_eq_length.1 hlength y hy

/-- In an ascending list each entry stands at its own rank. -/
theorem ranked_getElem (h : samples.Pairwise (· ≤ ·)) (hi : i < samples.length) :
    Ranked samples i samples[i] := by
  have hle (a b : Nat) (ha : a < samples.length) (hb : b < samples.length) (hab : a ≤ b) :
      samples[a] ≤ samples[b] := by
    rcases Nat.lt_or_eq_of_le hab with hlt | rfl
    · exact List.pairwise_iff_getElem.1 h a b ha hb hlt
    · exact UInt64.le_refl _
  constructor
  · have hbehind : (samples.drop i).countP (· < samples[i]) = 0 := by
      refine List.countP_eq_zero.2 fun a ha => ?_
      obtain ⟨k, hk, rfl⟩ := List.mem_iff_getElem.1 ha
      rw [List.getElem_drop]
      simpa using hle i (i + k) hi _ (Nat.le_add_right i k)
    calc
      samples.countP (· < samples[i])
        = (samples.take i).countP (· < samples[i]) + (samples.drop i).countP (· < samples[i]) := by
        rw [← List.countP_append, List.take_append_drop]
      _ = (samples.take i).countP (· < samples[i]) := by rw [hbehind, Nat.add_zero]
      _ ≤ i := List.countP_le_length.trans (List.length_take_le _ _)
  · have hbefore :
        (samples.take (i + 1)).countP (· ≤ samples[i]) = (samples.take (i + 1)).length := by
      refine List.countP_eq_length.2 fun a ha => ?_
      obtain ⟨k, hk, rfl⟩ := List.mem_iff_getElem.1 ha
      rw [List.length_take] at hk
      rw [List.getElem_take]
      simpa using hle k i _ hi (by omega)
    calc
      i < (samples.take (i + 1)).length := by rw [List.length_take]; omega
      _ = (samples.take (i + 1)).countP (· ≤ samples[i]) := hbefore.symm
      _ ≤ samples.countP (· ≤ samples[i]) := (List.take_sublist _ _).countP_le

end Ranked

/-! ## Figures -/

/-- The figures tell of these samples: each by its rank, and the mean by the sum of all. -/
structure Durations.Describes (d : Durations) (samples : List UInt64) : Prop where
  count : d.count = samples.length
  least : Ranked samples 0 d.least
  median : Ranked samples (samples.length / 2) d.median
  percentile95 :
    Ranked samples (min (samples.length * 95 / 100) (samples.length - 1)) d.percentile95
  greatest : Ranked samples (samples.length - 1) d.greatest
  mean : d.mean.toNat = (samples.map UInt64.toNat).sum / samples.length

namespace Window

theorem plus_eq (a b : UInt64) :
    plus a b = if a.toNat + b.toNat < 2 ^ 64 then .ok (a + b) else .error .add := by
  have hround : a + b < a ↔ ¬ a.toNat + b.toNat < 2 ^ 64 := by
    rw [UInt64.lt_iff_toNat_lt, UInt64.toNat_add]
    have := a.toNat_lt
    have := b.toNat_lt
    omega
  unfold plus
  simp only [hround, ite_not]

/-- Adding up from `first` comes to the whole sum, if that fits; none of the sums on the way is
greater. -/
theorem foldlM_plus (first : UInt64) (words : List UInt64) :
    words.foldlM plus first =
      if first.toNat + (words.map UInt64.toNat).sum < 2 ^ 64 then
        .ok (UInt64.ofNat (first.toNat + (words.map UInt64.toNat).sum))
      else .error .add := by
  induction words generalizing first with
  | nil =>
    have := first.toNat_lt
    simp [this, pure, Except.pure]
  | cons word words ih =>
    rw [List.foldlM_cons, plus_eq, List.map_cons, List.sum_cons, ← Nat.add_assoc]
    by_cases hfits : first.toNat + word.toNat < 2 ^ 64
    · have hnext : (first + word).toNat = first.toNat + word.toNat := by
        rw [UInt64.toNat_add, Nat.mod_eq_of_lt hfits]
      rw [if_pos hfits, ← hnext]
      exact ih (first + word)
    · -- What follows can only add to a sum that does not fit.
      rw [if_neg hfits, if_neg (by omega)]
      rfl

theorem sum_eq (words : List UInt64) :
    sum words = if (words.map UInt64.toNat).sum < 2 ^ 64 then
      .ok (UInt64.ofNat (words.map UInt64.toNat).sum) else .error .add := by
  unfold sum
  rw [foldlM_plus, UInt64.toNat_zero, Nat.zero_add]

theorem pairwise_sorted (w : Window) : w.sorted.Pairwise (· ≤ ·) := by
  refine (List.pairwise_mergeSort ?_ ?_ w.samples).imp ?_
  · simpa using fun a b c => UInt64.le_trans
  · simpa using UInt64.le_total
  · simp

theorem perm_sorted (w : Window) : w.sorted.Perm w.samples := List.mergeSort_perm _ _

theorem sum_sorted (w : Window) : sum w.sorted =
    if (w.samples.map UInt64.toNat).sum < 2 ^ 64 then
      .ok (UInt64.ofNat (w.samples.map UInt64.toNat).sum) else .error .add := by
  rw [sum_eq, (w.perm_sorted.map UInt64.toNat).sum_eq]

variable {w : Window}

theorem figures_of_overflow (h : 0 < w.sorted.length)
    (hover : 2 ^ 64 ≤ (w.samples.map UInt64.toNat).sum) :
    figures w.sorted h = .error .add := by
  unfold figures
  rw [sum_sorted, if_neg (Nat.not_lt.2 hover)]
  rfl

theorem describes_figures (h : 0 < w.sorted.length)
    (hfits : (w.samples.map UInt64.toNat).sum < 2 ^ 64) :
    ∃ d, figures w.sorted h = .ok d ∧ d.Describes w.samples := by
  have hrank (i : Nat) (hi : i < w.sorted.length) : Ranked w.samples i w.sorted[i] :=
    (ranked_getElem w.pairwise_sorted hi).perm w.perm_sorted
  have hmean : (UInt64.ofNat (w.samples.map UInt64.toNat).sum /
      UInt64.ofNat w.sorted.length).toNat =
        (w.samples.map UInt64.toNat).sum / w.samples.length := by
    have hcount : w.samples.length % 2 ^ 64 = w.samples.length :=
      Nat.mod_eq_of_lt (Nat.lt_of_le_of_lt w.length_samples_le (by decide))
    rw [UInt64.toNat_div, UInt64.toNat_ofNat', UInt64.toNat_ofNat', w.length_sorted, hcount,
      Nat.mod_eq_of_lt hfits]
  unfold figures
  rw [sum_sorted, if_pos hfits]
  refine ⟨_, rfl, w.length_sorted, hrank 0 h, ?_, ?_, ?_, hmean⟩ <;> rw [← w.length_sorted]
  · exact hrank _ _
  · exact hrank _ _
  · exact hrank _ _

theorem durations_of_nil (h : w.samples = []) : w.durations = .ok none := by
  have hlength : ¬ 0 < w.sorted.length := by
    rw [w.length_sorted, h]
    exact Nat.lt_irrefl 0
  exact dif_neg hlength

theorem durations_of_ne_nil (h : w.samples ≠ []) :
    ∃ hpos, w.durations = (figures w.sorted hpos).map some := by
  have hlength : 0 < w.sorted.length := by
    rw [w.length_sorted]
    exact List.length_pos_iff.2 h
  exact ⟨hlength, dif_pos hlength⟩

theorem durations_of_overflow (h : 2 ^ 64 ≤ (w.samples.map UInt64.toNat).sum) :
    w.durations = .error .add := by
  have hne : w.samples ≠ [] := by
    intro hnil
    simp [hnil] at h
  obtain ⟨hpos, heq⟩ := durations_of_ne_nil hne
  rw [heq, figures_of_overflow hpos h]
  rfl

/-- The figures of a window describe its samples. -/
theorem exists_describes (h : w.samples ≠ [])
    (hfits : (w.samples.map UInt64.toNat).sum < 2 ^ 64) :
    ∃ d, w.durations = .ok (some d) ∧ d.Describes w.samples := by
  obtain ⟨hpos, heq⟩ := durations_of_ne_nil h
  obtain ⟨d, hd, hdescribes⟩ := describes_figures hpos hfits
  refine ⟨d, ?_, hdescribes⟩
  rw [heq, hd]
  rfl

/-- Only the samples of a window make its figures. -/
theorem durations_congr {w w' : Window} (h : w.samples = w'.samples) :
    w.durations = w'.durations := by
  have hsorted : w.sorted = w'.sorted := by rw [sorted, h, sorted]
  unfold durations
  simp only [hsorted]

end Window

/-! ## Acts -/

namespace Tally

/-- What is done to a tally. -/
inductive Act where
  /-- An operation took so many seconds and nanoseconds. -/
  | timed (operation : String) (seconds nanos : Nat)
  /-- Something happened. -/
  | observed (o : Observation)
  /-- Everything is forgotten. -/
  | reset
  deriving Repr, DecidableEq

/-- What is observed by an act. -/
def Act.observation? : Act → Option Observation
  | .timed operation seconds nanos => some (.took operation (microsOf seconds nanos))
  | .observed o => some o
  | .reset => none

/-- The tally after one more act. -/
def perform (t : Tally) (a : Act) : Tally := a.observation?.elim {} t.add

/-- The tally after acts, which begins with nothing. -/
def after (acts : List Act) : Tally := acts.foldl perform {}

/-- What was observed since the last reset, the latest first. -/
def observations (acts : List Act) : List Observation :=
  (acts.reverse.takeWhile (·.observation?.isSome)).filterMap Act.observation?

end Tally

/-- How long `operation` took, by an observation of it. -/
def Observation.micros? (operation : String) : Observation → Option UInt64
  | .took name micros => if operation = name then some micros else none
  | _ => none

namespace Tally

/-- The durations of an operation since the last reset, the latest first. -/
def latest (operation : String) (acts : List Act) : List UInt64 :=
  (observations acts).filterMap (·.micros? operation)

/-- The durations of an operation that are kept, the latest first. -/
def kept (operation : String) (acts : List Act) : List UInt64 :=
  (latest operation acts).take Window.limit

variable {operation : String} {acts : List Act}

/-- A reset forgets all observations, and any other act adds one. -/
theorem observations_concat (acts : List Act) (a : Act) :
    observations (acts ++ [a]) = a.observation?.elim [] (· :: observations acts) := by
  unfold observations
  rw [List.reverse_concat, List.takeWhile_cons]
  cases h : a.observation? with
  | none => rfl
  | some o => simp [h]

theorem latest_concat (operation : String) (acts : List Act) (a : Act) :
    latest operation (acts ++ [a]) =
      a.observation?.elim [] fun o => (o.micros? operation).toList ++ latest operation acts := by
  unfold latest
  rw [observations_concat]
  cases a.observation? with
  | none => rfl
  | some o =>
    simp only [Option.elim_some, List.filterMap_cons]
    cases o.micros? operation <;> rfl

/-- One more observation changes the window of an operation when it is a duration of it. -/
theorem samples_add (t : Tally) (o : Observation) (operation : String) :
    ((t.add o).window operation).samples =
      ((o.micros? operation).toList ++ (t.window operation).samples).take Window.limit := by
  have hkept : (t.window operation).samples.take Window.limit = (t.window operation).samples :=
    List.take_of_length_le (t.window operation).length_samples_le
  cases o with
  | took name micros =>
    rw [window_took, Observation.micros?]
    split
    · exact Window.samples_add _ _
    · exact hkept.symm
  | _ => exact hkept.symm

theorem samples_after (operation : String) (acts : List Act) :
    ((after acts).window operation).samples = kept operation acts := by
  unfold kept
  -- The last act decides what comes first, so the acts are taken from their end.
  induction acts using List.reverseRecOn with
  | nil => rfl
  | append_singleton acts a ih =>
    have hafter : after (acts ++ [a]) = (after acts).perform a := by
      rw [after, List.foldl_concat]
      rfl
    rw [hafter, latest_concat, perform]
    cases a.observation? with
    | none => rfl
    | some o =>
      change (((after acts).add o).window operation).samples = _
      rw [samples_add, ih, List.take_append, List.take_take, Nat.min_eq_left (Nat.sub_le _ _),
        ← List.take_append]
      rfl

/-- What the kept durations of an operation come to, in microseconds. -/
def keptMicros (operation : String) (acts : List Act) : Nat :=
  ((kept operation acts).map UInt64.toNat).sum

theorem kept_eq_nil_iff : kept operation acts = [] ↔ latest operation acts = [] := by
  have hlimit : Window.limit ≠ 0 := by decide
  rw [kept, List.take_eq_nil_iff]
  exact or_iff_right hlimit

theorem durations_after_of_nil (h : latest operation acts = []) :
    (after acts).durations operation = .ok none := by
  refine Window.durations_of_nil ?_
  rw [samples_after]
  exact kept_eq_nil_iff.2 h

theorem durations_after_of_overflow (h : 2 ^ 64 ≤ keptMicros operation acts) :
    (after acts).durations operation = .error .add := by
  refine Window.durations_of_overflow ?_
  rw [samples_after]
  exact h

theorem exists_describes_after (h : latest operation acts ≠ [])
    (hfits : keptMicros operation acts < 2 ^ 64) :
    ∃ d, (after acts).durations operation = .ok (some d) ∧ d.Describes (kept operation acts) := by
  rw [← samples_after]
  refine Window.exists_describes ?_ ?_ <;> rw [samples_after]
  · exact mt kept_eq_nil_iff.1 h
  · exact hfits

theorem durations_after_eq_none_iff :
    (after acts).durations operation = .ok none ↔ latest operation acts = [] := by
  refine ⟨fun hnone => ?_, durations_after_of_nil⟩
  by_contra hne
  rcases Nat.lt_or_ge (keptMicros operation acts) (2 ^ 64) with hfits | hover
  · obtain ⟨d, hd, -⟩ := exists_describes_after hne hfits
    simp [hd] at hnone
  · simp [durations_after_of_overflow hover] at hnone

theorem durations_after_eq_error_iff :
    (after acts).durations operation = .error .add ↔ 2 ^ 64 ≤ keptMicros operation acts := by
  refine ⟨fun herror => ?_, durations_after_of_overflow⟩
  by_contra hfits
  by_cases hne : latest operation acts = []
  · simp [durations_after_of_nil hne] at herror
  · obtain ⟨d, hd, -⟩ := exists_describes_after hne (Nat.lt_of_not_le hfits)
    simp [hd] at herror

/-- **The figures describe the latest durations.** There are none just when the operation was not
timed since the last reset, and adding up fails just when the kept durations come to 2 ^ 64
microseconds or more. Else the figures count the latest durations, as many as a window keeps at most.
Each figure is one of these: the least, the greatest, and between them the median and the 95th
percentile at their ranks. Nothing else that was done makes a difference. -/
theorem durations_after (operation : String) (acts : List Act) :
    ((after acts).durations operation = .ok none ↔ latest operation acts = []) ∧
    ((after acts).durations operation = .error .add ↔ 2 ^ 64 ≤ keptMicros operation acts) ∧
    (latest operation acts ≠ [] → keptMicros operation acts < 2 ^ 64 →
      ∃ d, (after acts).durations operation = .ok (some d) ∧
        d.count = min (latest operation acts).length Window.limit ∧
        (∀ x ∈ [d.least, d.median, d.percentile95, d.greatest],
          x ∈ (latest operation acts).take d.count) ∧
        (∀ s ∈ (latest operation acts).take d.count, d.least ≤ s ∧ s ≤ d.greatest) ∧
        d.least ≤ d.median ∧ d.median ≤ d.percentile95 ∧ d.percentile95 ≤ d.greatest ∧
        Ranked ((latest operation acts).take d.count) (d.count / 2) d.median ∧
        Ranked ((latest operation acts).take d.count) (min (d.count * 95 / 100) (d.count - 1))
          d.percentile95) ∧
    ∀ others, latest operation others = latest operation acts →
      (after others).durations operation = (after acts).durations operation := by
  refine ⟨durations_after_eq_none_iff, durations_after_eq_error_iff, fun hne hfits => ?_,
    fun others hothers => ?_⟩
  · obtain ⟨d, hd, h⟩ := exists_describes_after hne hfits
    have hcount : d.count = min (latest operation acts).length Window.limit := by
      rw [h.count, kept, List.length_take, Nat.min_comm]
    have hkept : kept operation acts = (latest operation acts).take d.count := by
      rw [hcount, Nat.min_comm, kept, List.take_eq_take_min]
    rw [hkept] at h
    have hmedian := h.median
    have hpercentile := h.percentile95
    have hgreatest := h.greatest
    rw [← h.count] at hmedian hpercentile hgreatest
    refine ⟨d, hd, hcount, ?_, fun s hs => ⟨h.least.le_of_mem hs, h.greatest.ge_of_mem hs⟩,
      h.least.le hmedian (Nat.zero_le _), hmedian.le hpercentile (by omega),
      hpercentile.le hgreatest (Nat.min_le_right _ _), hmedian, hpercentile⟩
    simpa using ⟨h.least.mem, hmedian.mem, hpercentile.mem, hgreatest.mem⟩
  · refine Window.durations_congr ?_
    rw [samples_after, samples_after, kept, hothers, kept]

/-- Two durations since a reset, with one of another operation between. -/
def mixed : List Act :=
  [.timed "parse" 1 0, .reset, .timed "parse" 0 200000, .timed "fetch" 7 0, .timed "parse" 0 100000]

theorem durations_after_mixed :
    latest "parse" mixed ≠ [] ∧ keptMicros "parse" mixed < 2 ^ 64 ∧
    (∃ d, (after mixed).durations "parse" = .ok (some d) ∧ d.count = 2 ∧
      ∀ x ∈ [d.least, d.median, d.percentile95, d.greatest], x ∈ [100, 200].take d.count) ∧
    (after [.timed "parse" 0 200000, .timed "parse" 0 100000]).durations "parse" =
      (after mixed).durations "parse" := by
  have hlatest : latest "parse" mixed = [100, 200] := by decide
  have hne : latest "parse" mixed ≠ [] := by simp [hlatest]
  have hfits : keptMicros "parse" mixed < 2 ^ 64 := by
    rw [keptMicros, kept, hlatest]
    decide
  obtain ⟨-, -, hfigures, hothers⟩ := durations_after "parse" mixed
  obtain ⟨d, hd, hcount, hmem, -⟩ := hfigures hne hfits
  rw [hlatest] at hcount hmem
  exact ⟨hne, hfits, ⟨d, hd, hcount, hmem⟩, hothers _ (by decide)⟩

/-- Two durations of 2 ^ 63 microseconds, which come to one more than 64 bits hold. -/
def aeons : List Act :=
  [.timed "parse" 9223372036854 775808000, .timed "parse" 9223372036854 775808000]

theorem durations_after_aeons : (after aeons).durations "parse" = .error .add :=
  durations_after_of_overflow (by decide)

/-- Not every operation that was timed has figures. -/
theorem durations_after_overflow : ¬ ∀ operation acts, latest operation acts ≠ [] →
    ∃ d, (after acts).durations operation = .ok (some d) ∧
      d.count = min (latest operation acts).length Window.limit := by
  intro h
  obtain ⟨d, hd, -⟩ := h "parse" aeons (by decide)
  simp [durations_after_aeons] at hd

end Tally

end Typeahead
