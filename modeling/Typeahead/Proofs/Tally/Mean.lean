import Typeahead.Proofs.Tally.Figures

/-!
# When the mean is between the extremes

The durations of an operation are added up in 64 bits. Where their sum fits, the mean is what it
should be and lies between the least and the greatest. Where it does not, there is no mean.

- **Bounds** (`Durations.Describes.mean_le`, `Durations.Describes.le_mean`).
- **Enough room** (`sum_lt`): the durations that a window keeps fit when each is below 2 ^ 54
  microseconds, more than five hundred years.
-/

namespace Typeahead

section Describes

variable {samples : List UInt64} {d : Durations}

theorem sum_le {n : Nat} (h : ∀ s ∈ samples, s.toNat ≤ n) :
    (samples.map UInt64.toNat).sum ≤ samples.length * n := by
  have hsum := List.sum_le_card_nsmul (samples.map UInt64.toNat) n (by simpa using h)
  rwa [List.length_map, smul_eq_mul] at hsum

theorem le_sum {n : Nat} (h : ∀ s ∈ samples, n ≤ s.toNat) :
    samples.length * n ≤ (samples.map UInt64.toNat).sum := by
  have hsum := List.card_nsmul_le_sum (samples.map UInt64.toNat) n (by simpa using h)
  rwa [List.length_map, smul_eq_mul] at hsum

/-- Samples that a window keeps fit together in 64 bits when each is below 2 ^ 54. -/
theorem sum_lt (hlimit : samples.length ≤ Window.limit) (h : ∀ s ∈ samples, s.toNat < 2 ^ 54) :
    (samples.map UInt64.toNat).sum < 2 ^ 64 := by
  have hsum : (samples.map UInt64.toNat).sum ≤ samples.length * (2 ^ 54 - 1) :=
    sum_le fun s hs => Nat.le_pred_of_lt (h s hs)
  have hlength : samples.length * (2 ^ 54 - 1) ≤ Window.limit * (2 ^ 54 - 1) :=
    Nat.mul_le_mul_right _ hlimit
  rw [Window.limit] at hlength
  omega

namespace Durations.Describes

theorem length_pos (h : d.Describes samples) : 0 < samples.length :=
  List.length_pos_of_mem h.least.mem

/-- The mean is not above the greatest duration. -/
theorem mean_le (h : d.Describes samples) : d.mean ≤ d.greatest := by
  have hsum : (samples.map UInt64.toNat).sum ≤ samples.length * d.greatest.toNat :=
    sum_le fun s hs => UInt64.le_iff_toNat_le.1 (h.greatest.ge_of_mem hs)
  rw [UInt64.le_iff_toNat_le, h.mean]
  exact Nat.div_le_of_le_mul hsum

/-- The mean is not below the least duration. -/
theorem le_mean (h : d.Describes samples) : d.least ≤ d.mean := by
  have hsum : samples.length * d.least.toNat ≤ (samples.map UInt64.toNat).sum :=
    le_sum fun s hs => UInt64.le_iff_toNat_le.1 (h.least.le_of_mem hs)
  rw [UInt64.le_iff_toNat_le, h.mean, Nat.le_div_iff_mul_le h.length_pos, Nat.mul_comm]
  exact hsum

end Durations.Describes

end Describes

namespace Tally

/-- **The mean and the extremes.** Of an operation that was timed there is a mean just when its kept
durations come to less than 2 ^ 64 microseconds. It is their sum divided by their count, and lies
between the least and the greatest. Durations below 2 ^ 54 microseconds always fit. -/
theorem mean_after (operation : String) (acts : List Act) (h : latest operation acts ≠ []) :
    ((after acts).durations operation = .error .add ↔ 2 ^ 64 ≤ keptMicros operation acts) ∧
    (keptMicros operation acts < 2 ^ 64 → ∃ d, (after acts).durations operation = .ok (some d) ∧
      d.count = (kept operation acts).length ∧
      d.mean.toNat = keptMicros operation acts / d.count ∧
      d.least ≤ d.mean ∧ d.mean ≤ d.greatest) ∧
    ((∀ s ∈ kept operation acts, s.toNat < 2 ^ 54) → keptMicros operation acts < 2 ^ 64) := by
  have hlimit : (kept operation acts).length ≤ Window.limit := List.length_take_le _ _
  refine ⟨durations_after_eq_error_iff, fun hfits => ?_, sum_lt hlimit⟩
  obtain ⟨d, hd, hdescribes⟩ := exists_describes_after h hfits
  refine ⟨d, hd, hdescribes.count, ?_, hdescribes.le_mean, hdescribes.mean_le⟩
  rw [hdescribes.count]
  exact hdescribes.mean

/-- Durations of one and of two hundred years. -/
def years : List Act := [.timed "parse" 31536000 0, .timed "parse" 6307200000 999]

theorem mean_after_years : latest "parse" years ≠ [] ∧
    (∀ s ∈ kept "parse" years, s.toNat < 2 ^ 54) ∧ keptMicros "parse" years < 2 ^ 64 ∧
    ∃ d, (after years).durations "parse" = .ok (some d) ∧ d.least ≤ d.mean ∧
      d.mean ≤ d.greatest := by
  have hkept : kept "parse" years = [6307200000000000, 31536000000000] := by decide
  have hlatest : latest "parse" years ≠ [] := by decide
  have hshort : ∀ s ∈ kept "parse" years, s.toNat < 2 ^ 54 := by simp [hkept]
  obtain ⟨-, hfigures, hroom⟩ := mean_after "parse" years hlatest
  obtain ⟨d, hd, -, -, hbounds⟩ := hfigures (hroom hshort)
  exact ⟨hlatest, hshort, hroom hshort, d, hd, hbounds⟩

/-- Two durations of 2 ^ 63 microseconds have no mean. -/
theorem mean_after_aeons : ¬ ∀ operation acts, latest operation acts ≠ [] →
    ∃ d, (after acts).durations operation = .ok (some d) ∧
      d.mean.toNat = keptMicros operation acts / d.count ∧
      d.least ≤ d.mean ∧ d.mean ≤ d.greatest := by
  intro h
  obtain ⟨d, hd, -⟩ := h "parse" aeons (by decide)
  simp [durations_after_aeons] at hd

end Tally

end Typeahead
