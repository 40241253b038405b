import TableReport.Proofs.Binary64.Nearest
import TableReport.Proofs.Decimal.Nearest

/-!
The numbers that doubles stand for. `IsNearest` says which double stands for a
rational number, in terms of values alone; up to the sign of zero there is one at
most, and for a decimal number it is the double that the decimal is read as.
-/

namespace TableReport

namespace Binary64

variable {q : ℚ} {magnitude : ℕ} {x : Binary64}

/-- The number that a finite double stands for. -/
def value (x : Binary64) : ℚ := (if x.negative then -1 else 1) * ((x.units : ℚ) / unitsPerOne)

/-- No double is nearer to the number, and if another one is as near, the last bit
of this one is clear. -/
structure IsNearest (x : Binary64) (q : ℚ) : Prop where
  finite : x.isFinite
  nearest : ∀ y : Binary64, y.isFinite → |x.value - q| ≤ |y.value - q|
  even : ∀ y : Binary64, y.isFinite → y.value ≠ x.value → |y.value - q| = |x.value - q| →
    x.magnitude % 2 = 0

theorem zero_lt_unitsPerOne : 0 < unitsPerOne := by
  unfold unitsPerOne
  positivity

theorem unitsPerOne_pos : (0 : ℚ) < unitsPerOne := Nat.cast_pos.mpr zero_lt_unitsPerOne

theorem value_of_positive (positive : x.negative = false) :
    x.value = unitsOf x.magnitude / unitsPerOne := by
  rw [value, units, positive, if_neg Bool.false_ne_true, one_mul]

theorem value_of_negative (negative : x.negative = true) :
    x.value = -(unitsOf x.magnitude / unitsPerOne) := by
  rw [value, units, negative, if_pos rfl, neg_one_mul]

theorem magnitude_value_nonneg (magnitude : ℕ) : 0 ≤ (unitsOf magnitude : ℚ) / unitsPerOne :=
  div_nonneg (Nat.cast_nonneg _) unitsPerOne_pos.le

/-- A number that is not negative is at most as far from a magnitude as from the
double with either sign. -/
theorem abs_magnitude_sub_le (x : Binary64) (nonneg : 0 ≤ q) :
    |(unitsOf x.magnitude : ℚ) / unitsPerOne - q| ≤ |x.value - q| := by
  have size := magnitude_value_nonneg x.magnitude
  cases sign : x.negative with
  | false => rw [value_of_positive sign]
  | true =>
      rw [value_of_negative sign, abs_of_nonpos (show -(_ / _) - q ≤ (0 : ℚ) by linarith), abs_le]
      constructor <;> linarith

theorem abs_units_sub (magnitude : ℕ) (q : ℚ) :
    |(unitsOf magnitude : ℚ) - q * unitsPerOne| =
      |(unitsOf magnitude : ℚ) / unitsPerOne - q| * unitsPerOne := by
  rw [← abs_of_pos unitsPerOne_pos, ← abs_mul, abs_of_pos unitsPerOne_pos, sub_mul,
    div_mul_cancel₀ _ unitsPerOne_pos.ne']

theorem NearestUnits.closer (near : NearestUnits (q * unitsPerOne) magnitude) (other : ℕ) :
    |(unitsOf magnitude : ℚ) / unitsPerOne - q| ≤ |(unitsOf other : ℚ) / unitsPerOne - q| := by
  have closer := near.nearest other
  rw [abs_units_sub, abs_units_sub] at closer
  exact le_of_mul_le_mul_right closer unitsPerOne_pos

/-- Whatever comes at least as near as zero does is not on the other side of it. -/
theorem value_of_abs_sub_le (closer : |x.value - q| ≤ q) :
    x.value = unitsOf x.magnitude / unitsPerOne := by
  have size := magnitude_value_nonneg x.magnitude
  cases sign : x.negative with
  | false => exact value_of_positive sign
  | true =>
      rw [value_of_negative sign] at closer ⊢
      have low := (abs_le.mp closer).1
      linarith

theorem NearestUnits.abs_sub_le_self (near : NearestUnits (q * unitsPerOne) magnitude)
    (nonneg : 0 ≤ q) : |(unitsOf magnitude : ℚ) / unitsPerOne - q| ≤ q := by
  have closer := near.closer 0
  rwa [unitsOf_zero, Nat.cast_zero, zero_div, zero_sub, abs_neg,
    abs_of_nonneg nonneg] at closer

/-- The double that is nearest by its magnitude is the nearest of all. -/
theorem NearestUnits.isNearest (near : NearestUnits (q * unitsPerOne) x.magnitude)
    (positive : x.negative = false) (finite : x.isFinite) (nonneg : 0 ≤ q) : x.IsNearest q := by
  refine ⟨finite, fun y _ => ?_, fun y _ apart same => ?_⟩
  · rw [value_of_positive positive]
    exact (near.closer y.magnitude).trans (abs_magnitude_sub_le y nonneg)
  · rw [value_of_positive positive] at apart same
    have value := value_of_abs_sub_le (same.trans_le (near.abs_sub_le_self nonneg))
    rw [value] at apart same
    refine near.even y.magnitude (fun equal => apart (by rw [equal])) ?_
    rw [abs_units_sub, abs_units_sub, same]

/-- A nearest double has the nearest magnitude. -/
theorem IsNearest.nearestUnits (nearest : x.IsNearest q)
    (near : NearestUnits (q * unitsPerOne) magnitude) (inRange : magnitude < infinityMagnitude)
    (nonneg : 0 ≤ q) :
    x.magnitude = magnitude ∧ x.value = unitsOf magnitude / unitsPerOne := by
  let y : Binary64 := ⟨false, magnitude, inRange.trans (by decide)⟩
  have finite : y.isFinite := isFinite_iff.mpr inRange
  have valueY : y.value = unitsOf magnitude / unitsPerOne := value_of_positive rfl
  have closer : |x.value - q| ≤ |(unitsOf magnitude : ℚ) / unitsPerOne - q| :=
    valueY ▸ nearest.nearest y finite
  have valueX := value_of_abs_sub_le (closer.trans (near.abs_sub_le_self nonneg))
  rw [valueX] at closer
  have level := le_antisymm closer (near.closer x.magnitude)
  -- Equally near, both would have to be even, and then they are the same.
  have same : x.magnitude = magnitude := by
    by_contra apart
    have even : x.magnitude % 2 = 0 := by
      refine nearest.even y finite ?_ (by rw [valueX, valueY, level])
      rw [valueX, valueY, Ne, div_left_inj' unitsPerOne_pos.ne', Nat.cast_inj]
      exact fun equal => apart (strictMono_unitsOf.injective equal).symm
    refine apart (NearestUnits.unique ⟨fun other => ?_, fun _ _ _ => even⟩ near)
    rw [abs_units_sub, level, ← abs_units_sub]
    exact near.nearest other
  exact ⟨same, same ▸ valueX⟩

/-- A whole number of at most 53 bits is a double. -/
theorem ofInt_exact {n : ℕ} (bound : n ≤ 2 ^ 53) :
    (ofInt n).magnitude < infinityMagnitude ∧ unitsOf (ofInt n).magnitude = n * unitsPerOne := by
  obtain ⟨magnitude, exact⟩ := exists_unitsOf_eq bound 1074
  change unitsOf magnitude = n * unitsPerOne at exact
  have finite : magnitude < infinityMagnitude := by
    rw [← strictMono_unitsOf.lt_iff_lt, exact, unitsOf_infinityMagnitude]
    have room : 2 ^ 53 < 2 ^ 1024 := by gcongr <;> norm_num
    exact Nat.mul_lt_mul_of_pos_right (Nat.lt_of_le_of_lt bound room) zero_lt_unitsPerOne
  have rounded : (ofInt n).magnitude = magnitude := by
    show nearestMagnitude (n * unitsPerOne) 1 = magnitude
    rw [← exact, nearestMagnitude_unitsOf finite]
  rw [rounded]
  exact ⟨finite, exact⟩

end Binary64

namespace Decimal

/-- The number that a decimal stands for. -/
def value (d : Decimal) : ℚ := d.digits * 10 ^ d.exponent

theorem value_eq_div (d : Decimal) :
    d.value = d.digits * 10 ^ d.exponent.toNat / 10 ^ (-d.exponent).toNat := by
  unfold value
  rcases Int.le_total 0 d.exponent with whole | small
  · obtain ⟨up, exponent⟩ := Int.eq_ofNat_of_zero_le whole
    rw [exponent, Int.toNat_natCast, Int.toNat_neg_natCast, zpow_natCast, pow_zero, div_one]
  · obtain ⟨down, exponent⟩ := Int.exists_eq_neg_ofNat small
    rw [exponent, Int.toNat_neg_natCast, neg_neg, Int.toNat_natCast, zpow_neg, zpow_natCast,
      pow_zero, mul_one, div_eq_mul_inv]

/-- A decimal is read as the magnitude that is nearest to its value, or as infinity
if that one lies beyond it. -/
theorem exists_nearestUnits (d : Decimal) :
    ∃ magnitude, Binary64.NearestUnits (d.value * Binary64.unitsPerOne) magnitude ∧
      d.nearest = min Binary64.infinityMagnitude magnitude := by
  have positive : 0 < 10 ^ (-d.exponent).toNat := Nat.pow_pos (by decide)
  have near := Binary64.nearestUnits_unboundedMagnitude
    (d.digits * 10 ^ d.exponent.toNat * Binary64.unitsPerOne) positive
  refine ⟨_, ?_, (nearest_eq_nearestMagnitude d).trans (Binary64.nearestMagnitude_eq_min _ _)⟩
  rw [value_eq_div, div_mul_eq_mul_div]
  simpa only [Nat.cast_mul, Nat.cast_pow, Nat.cast_ofNat] using near

end Decimal

end TableReport
