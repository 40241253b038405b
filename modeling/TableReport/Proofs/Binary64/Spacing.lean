import Mathlib.Order.Monotone.Basic
import TableReport.Proofs.Binary64.Rounding

/-!
How magnitudes are spaced. A magnitude splits into a significand and a binade, and
its exact value is the significand times a power of two, so the next magnitude lies
one such power higher. Nothing here asks magnitudes to be finite: the ones from
infinity on continue the same pattern, as if exponents had no end.
-/

namespace TableReport

theorem le_roundHalfEven (num : Nat) {den : Nat} (positive : 0 < den) :
    num / den ≤ roundHalfEven num den := by
  have parts := Nat.div_add_mod num den
  have twice : 2 * den * (num / den) = 2 * (den * (num / den)) := Nat.mul_assoc 2 den _
  have up : num / den ≤ roundHalfUp num den := by
    refine (Nat.le_div_iff_mul_le (by omega)).mpr ?_
    rw [Nat.mul_comm, twice]
    omega
  unfold roundHalfEven
  dsimp only
  split
  case isFalse => exact up
  case isTrue tie =>
    -- The quotient itself lies half a step below the half that was rounded up.
    have whole := Nat.div_add_mod (2 * num + den) (2 * den)
    simp only [Bool.and_eq_true, decide_eq_true_eq] at tie
    have below : num / den < roundHalfUp num den := by
      refine (Nat.div_lt_iff_lt_mul positive).mpr ?_
      have raised : 2 * den * roundHalfUp num den = 2 * (roundHalfUp num den * den) := by
        rw [Nat.mul_assoc, Nat.mul_comm den]
      change 2 * den * roundHalfUp num den + _ = _ at whole
      omega
    omega

namespace Binary64

variable {magnitude binade significand other : Nat}

/-- A magnitude taken apart. Above the lowest binade significands have all of their
53 bits; one that has grown longer still is the first of the next binade. -/
structure Splits (magnitude binade significand : Nat) : Prop where
  parts : magnitude = binade * 2 ^ 52 + significand
  bound : significand ≤ 2 ^ 53
  full : binade = 0 ∨ 2 ^ 52 ≤ significand

theorem exists_splits (magnitude : Nat) :
    ∃ binade significand, Splits magnitude binade significand ∧ significand < 2 ^ 53 := by
  refine ⟨magnitude / 2 ^ 52 - 1, magnitude - (magnitude / 2 ^ 52 - 1) * 2 ^ 52, ?_, by omega⟩
  constructor <;> omega

theorem Splits.unitsOf_eq (splits : Splits magnitude binade significand) :
    unitsOf magnitude = significand * 2 ^ binade := by
  obtain ⟨rfl, bound, full⟩ := splits
  unfold unitsOf
  dsimp only
  -- The exponent field counts one more than the binade for a full significand, and
  -- two more once that has grown longer.
  by_cases short : significand < 2 ^ 52
  · obtain rfl : binade = 0 := by omega
    have field : (0 * 2 ^ 52 + significand) / 2 ^ 52 = 0 := by omega
    rw [if_pos field, Nat.pow_zero]
    omega
  · by_cases long : significand = 2 ^ 53
    · have field : (binade * 2 ^ 52 + significand) / 2 ^ 52 = binade + 2 := by omega
      have fraction : (binade * 2 ^ 52 + significand) % 2 ^ 52 = 0 := by omega
      rw [field, fraction, if_neg (by omega), long, Nat.add_succ_sub_one, Nat.pow_succ 2 binade]
      omega
    · have field : (binade * 2 ^ 52 + significand) / 2 ^ 52 = binade + 1 := by omega
      have fraction : 2 ^ 52 + (binade * 2 ^ 52 + significand) % 2 ^ 52 = significand := by omega
      rw [field, fraction, if_neg (Nat.succ_ne_zero binade), Nat.add_sub_cancel]

/-- The next magnitude lies one step of the binade higher. -/
theorem Splits.unitsOf_succ (splits : Splits magnitude binade significand)
    (inside : significand < 2 ^ 53) : unitsOf (magnitude + 1) = unitsOf magnitude + 2 ^ binade := by
  have next : Splits (magnitude + 1) binade (significand + 1) :=
    ⟨by rw [splits.parts, Nat.add_assoc], inside, splits.full.imp_right Nat.le_succ_of_le⟩
  rw [next.unitsOf_eq, splits.unitsOf_eq, Nat.add_mul, Nat.one_mul]

theorem strictMono_unitsOf : StrictMono unitsOf := by
  refine strictMono_nat_of_lt_succ fun magnitude => ?_
  obtain ⟨binade, significand, splits, inside⟩ := exists_splits magnitude
  rw [splits.unitsOf_succ inside]
  exact Nat.lt_add_of_pos_right (Nat.two_pow_pos binade)

theorem unitsOf_zero : unitsOf 0 = 0 := by decide

/-- Every number of units with a short enough significand is exact. -/
theorem exists_unitsOf_eq (bound : significand ≤ 2 ^ 53) (binade : Nat) :
    ∃ magnitude, unitsOf magnitude = significand * 2 ^ binade := by
  induction binade generalizing significand with
  | zero => exact ⟨0 * 2 ^ 52 + significand, Splits.unitsOf_eq ⟨rfl, bound, .inl rfl⟩⟩
  | succ binade inductionHypothesis =>
      by_cases full : 2 ^ 52 ≤ significand
      · exact ⟨(binade + 1) * 2 ^ 52 + significand, Splits.unitsOf_eq ⟨rfl, bound, .inr full⟩⟩
      · obtain ⟨magnitude, exact⟩ := @inductionHypothesis (2 * significand) (by omega)
        exact ⟨magnitude, by rw [exact, Nat.pow_succ, Nat.mul_comm 2, Nat.mul_assoc, Nat.mul_comm 2]⟩

/-- Beyond the lowest binade, raising the exponent scales the value. -/
theorem unitsOf_add_binades (normal : 2 ^ 52 ≤ magnitude) (count : Nat) :
    unitsOf (magnitude + count * 2 ^ 52) = unitsOf magnitude * 2 ^ count := by
  obtain ⟨binade, significand, splits, -⟩ := exists_splits magnitude
  have raised : Splits (magnitude + count * 2 ^ 52) (binade + count) significand :=
    ⟨by rw [splits.parts, Nat.add_mul, Nat.add_right_comm], splits.bound,
      .inr (by have := splits.parts; have := splits.full; omega)⟩
  rw [raised.unitsOf_eq, splits.unitsOf_eq, Nat.pow_add, Nat.mul_assoc]

/-- Below the first magnitude of a binade lie smaller steps, from there on larger ones. -/
theorem dvd_unitsOf_or_lt (magnitude shift : Nat) :
    2 ^ shift ∣ unitsOf magnitude ∨ unitsOf magnitude < 2 ^ 52 * 2 ^ shift := by
  obtain ⟨binade, significand, splits, inside⟩ := exists_splits magnitude
  rw [splits.unitsOf_eq]
  by_cases reached : shift ≤ binade
  · exact .inl (Nat.dvd_mul_left_of_dvd (Nat.pow_dvd_pow 2 reached) significand)
  · refine .inr (Nat.lt_of_lt_of_le (Nat.mul_lt_mul_of_pos_right inside (Nat.two_pow_pos binade)) ?_)
    rw [← Nat.pow_add, ← Nat.pow_add]
    exact Nat.pow_le_pow_right (by decide) (by omega)

theorem exists_unitsOf_mul_two_pow (magnitude count : Nat) :
    ∃ product, unitsOf product = unitsOf magnitude * 2 ^ count := by
  obtain ⟨binade, significand, splits, inside⟩ := exists_splits magnitude
  rw [splits.unitsOf_eq, Nat.mul_assoc, ← Nat.pow_add]
  exact exists_unitsOf_eq (Nat.le_of_lt inside) (binade + count)

theorem two_pow_mul_two_pow {a b c d : Nat} (same : a + b = c + d) : 2 ^ a * 2 ^ b = 2 ^ c * 2 ^ d := by
  rw [← Nat.pow_add, ← Nat.pow_add, same]

theorem unitsOf_infinityMagnitude : unitsOf infinityMagnitude = 2 ^ 1024 * unitsPerOne := by
  have splits : Splits infinityMagnitude 2045 (2 ^ 53) := ⟨by decide, Nat.le_refl _, .inr (by decide)⟩
  rw [splits.unitsOf_eq, unitsPerOne]
  exact two_pow_mul_two_pow rfl

/-- What `nearestMagnitude` would be if exponents had no end. -/
def unboundedMagnitude (num den : Nat) : Nat :=
  let shift := Nat.log2 (num / den) - 52
  shift * 2 ^ 52 + roundHalfEven num (den * 2 ^ shift)

theorem nearestMagnitude_eq_min (num den : Nat) :
    nearestMagnitude num den = min infinityMagnitude (unboundedMagnitude num den) := rfl

theorem two_pow_le_of_shift {n : Nat} (shifted : n.log2 - 52 ≠ 0) :
    2 ^ 52 * 2 ^ (n.log2 - 52) ≤ n := by
  have nonzero : n ≠ 0 := by
    rintro rfl
    exact shifted rfl
  rw [← Nat.pow_add, Nat.add_sub_cancel' (by omega)]
  exact Nat.log2_self_le nonzero

theorem splits_unboundedMagnitude (num : Nat) {den : Nat} (positive : 0 < den) :
    Splits (unboundedMagnitude num den) (Nat.log2 (num / den) - 52)
      (roundHalfEven num (den * 2 ^ (Nat.log2 (num / den) - 52))) := by
  have scaled : 0 < den * 2 ^ (Nat.log2 (num / den) - 52) := Nat.mul_pos positive (Nat.two_pow_pos _)
  refine ⟨rfl, ?_, ?_⟩
  · have short : num / (den * 2 ^ (Nat.log2 (num / den) - 52)) < 2 ^ 53 := by
      rw [← Nat.div_div_eq_div_mul, Nat.div_lt_iff_lt_mul (Nat.two_pow_pos _), ← Nat.pow_add]
      exact Nat.lt_of_lt_of_le Nat.lt_log2_self (Nat.pow_le_pow_right (by decide) (by omega))
    exact Nat.le_trans (roundHalfEven_le num scaled) short
  · by_cases low : Nat.log2 (num / den) - 52 = 0
    · exact .inl low
    · refine .inr (Nat.le_trans ?_ (le_roundHalfEven num scaled))
      rw [← Nat.div_div_eq_div_mul, Nat.le_div_iff_mul_le (Nat.two_pow_pos _)]
      exact two_pow_le_of_shift low

end Binary64

end TableReport
