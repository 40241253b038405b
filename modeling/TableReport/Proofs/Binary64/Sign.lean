import TableReport.Proofs.Binary64.Value

/-!
Signs. The size of a double is what its magnitude stands for, and turning the sign around
turns the number around. So what holds of rounding to magnitudes holds of rounding to
doubles, sign by sign.
-/

namespace TableReport.Binary64

variable {x : Binary64} {q : ℚ}

theorem abs_sign_mul (negative : Bool) (q : ℚ) : |(if negative then -1 else 1) * q| = |q| := by
  cases negative with
  | false => rw [if_neg Bool.false_ne_true, one_mul]
  | true => rw [if_pos rfl, neg_one_mul, abs_neg]

theorem abs_value (x : Binary64) : |x.value| = unitsOf x.magnitude / unitsPerOne := by
  rw [value, abs_sign_mul]
  exact abs_of_nonneg (magnitude_value_nonneg x.magnitude)

theorem value_eq_sign_mul (x : Binary64) :
    x.value = (if x.negative then -1 else 1) * |x.value| := by
  rw [abs_value]
  rfl

/-- Numbers of one sign lie as far apart as their sizes do. -/
theorem abs_value_sub_of_sign {x y : Binary64} (sameSign : x.negative = y.negative) :
    |x.value - y.value| = |(|x.value|) - (|y.value|)| := by
  have difference : x.value - y.value =
      (if x.negative then -1 else 1) * (|x.value| - |y.value|) := by
    rw [mul_sub, ← value_eq_sign_mul, sameSign, ← value_eq_sign_mul]
  rw [difference, abs_sign_mul]

theorem value_eq_zero_iff : x.value = 0 ↔ x.magnitude = 0 := by
  rw [← abs_eq_zero, abs_value, div_eq_zero_iff, or_iff_left unitsPerOne_pos.ne', Nat.cast_eq_zero]
  constructor
  · intro nothing
    exact strictMono_unitsOf.injective (nothing.trans unitsOf_zero.symm)
  · intro least
    rw [least, unitsOf_zero]

/-- The double with the other sign. -/
def opposite (x : Binary64) : Binary64 := { x with negative := !x.negative }

theorem opposite_opposite (x : Binary64) : x.opposite.opposite = x := by
  simp [opposite]

theorem value_opposite (x : Binary64) : x.opposite.value = -x.value := by
  have units_eq : x.opposite.units = x.units := rfl
  have negative_eq : x.opposite.negative = !x.negative := rfl
  rw [value, value, units_eq, negative_eq]
  cases x.negative with
  | false =>
      simp only [Bool.not_false, if_true, Bool.false_eq_true, if_false, neg_one_mul, one_mul]
  | true =>
      simp only [Bool.not_true, if_true, Bool.false_eq_true, if_false, neg_one_mul, one_mul,
        neg_neg]

theorem abs_value_sub_neg (x : Binary64) (q : ℚ) : |x.value - -q| = |x.opposite.value - q| := by
  rw [value_opposite, ← abs_neg]
  congr 1
  ring

theorem IsNearest.opposite (nearest : x.IsNearest q) : x.opposite.IsNearest (-q) := by
  refine ⟨nearest.finite, fun y finite => ?_, fun y finite apart level => ?_⟩
  · rw [abs_value_sub_neg, abs_value_sub_neg, opposite_opposite]
    exact nearest.nearest y.opposite finite
  · rw [abs_value_sub_neg, abs_value_sub_neg, opposite_opposite] at level
    refine nearest.even y.opposite finite (fun same => apart ?_) level
    rw [value_opposite, ← same, value_opposite, neg_neg]

/-- Rounding of magnitudes is rounding of doubles, sign by sign. -/
theorem isNearest_iff_of_sign {x y : Binary64}
    (near : NearestUnits (q * unitsPerOne) x.magnitude) (nonneg : 0 ≤ q) (finite : x.isFinite)
    (sameSign : y.negative = x.negative) :
    y.IsNearest ((if x.negative then -1 else 1) * q) ↔ y = x := by
  have same (level : y.magnitude = x.magnitude) : y = x := by
    obtain ⟨negativeX, magnitudeX, _⟩ := x
    obtain ⟨negativeY, magnitudeY, _⟩ := y
    cases sameSign
    cases level
    rfl
  cases sign : x.negative with
  | false =>
      rw [if_neg Bool.false_ne_true, one_mul]
      constructor
      · intro nearest
        exact same (nearest.nearestUnits near (isFinite_iff.mp finite) nonneg).1
      · rintro rfl
        exact near.isNearest sign finite nonneg
  | true =>
      rw [if_pos rfl, neg_one_mul]
      constructor
      · intro nearest
        have opposite := nearest.opposite
        rw [neg_neg] at opposite
        exact same (opposite.nearestUnits near (isFinite_iff.mp finite) nonneg).1
      · rintro rfl
        have positive : y.opposite.negative = false := by simp [Binary64.opposite, sign]
        have nearest : y.opposite.IsNearest q :=
          NearestUnits.isNearest (x := y.opposite) near positive finite nonneg
        simpa only [opposite_opposite] using nearest.opposite

end TableReport.Binary64
