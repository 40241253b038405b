import Mathlib.Data.EReal.Operations
import TableReport.Proofs.Binary64.Value

/-!
The total order of bit patterns and the order of numbers. Magnitudes rise with what
they stand for, infinity included, and a sign bit turns their order around. So up to
the two zeros, which stand for the same number, doubles that are no NaNs come in the
order of their numbers; the NaNs come beyond the infinity of their sign.
-/

namespace TableReport.Binary64

variable {x y : Binary64} {a b : ℕ}

/-- Zero with its sign bit set. -/
def negativeZero : Binary64 where
  negative := true
  magnitude := 0
  magnitude_lt := Nat.two_pow_pos 63

/-- The number that a double stands for, infinities included. A NaN stands for none. -/
noncomputable def toEReal (x : Binary64) : EReal :=
  if x.isInfinite then if x.negative then ⊥ else ⊤ else ((x.value : ℝ) : EReal)

/-- What a magnitude up to infinity stands for. -/
noncomputable def extent (magnitude : ℕ) : EReal :=
  if magnitude = infinityMagnitude then ⊤
  else (((unitsOf magnitude : ℚ) / unitsPerOne : ℚ) : ℝ)

theorem isNaN_eq_false_iff : x.isNaN = false ↔ x.magnitude ≤ infinityMagnitude := by
  simp [isNaN]

theorem toEReal_of_positive (positive : x.negative = false) : x.toEReal = extent x.magnitude := by
  unfold toEReal extent isInfinite
  rw [value_of_positive positive, positive]
  simp only [decide_eq_true_eq, Bool.false_eq_true, if_false]

theorem toEReal_of_negative (negative : x.negative = true) : x.toEReal = -extent x.magnitude := by
  unfold toEReal extent isInfinite
  rw [value_of_negative negative, negative]
  simp only [decide_eq_true_eq, if_true]
  split
  · exact EReal.neg_top.symm
  · rw [Rat.cast_neg, EReal.coe_neg]

theorem extent_lt_extent (lower : a < b) (bound : b ≤ infinityMagnitude) : extent a < extent b := by
  have rises : (unitsOf a : ℚ) / unitsPerOne < unitsOf b / unitsPerOne :=
    div_lt_div_of_pos_right (unitsOf_cast_lt lower) unitsPerOne_pos
  unfold extent
  rw [if_neg (Nat.ne_of_lt (Nat.lt_of_lt_of_le lower bound))]
  split
  · exact EReal.coe_lt_top _
  · exact EReal.coe_lt_coe_iff.mpr (Rat.cast_lt.mpr rises)

theorem extent_lt_extent_iff (boundA : a ≤ infinityMagnitude) (boundB : b ≤ infinityMagnitude) :
    extent a < extent b ↔ a < b := by
  constructor
  · intro rises
    rcases Nat.lt_trichotomy a b with lower | rfl | higher
    · exact lower
    · exact absurd rises (lt_irrefl _)
    · exact absurd (extent_lt_extent higher boundA) rises.asymm
  · exact fun lower => extent_lt_extent lower boundB

theorem extent_zero : extent 0 = 0 := by
  rw [extent, if_neg (by decide), unitsOf_zero, Nat.cast_zero, zero_div, Rat.cast_zero, EReal.coe_zero]

theorem extent_nonneg (bound : a ≤ infinityMagnitude) : 0 ≤ extent a := by
  rw [← extent_zero, ← not_lt, extent_lt_extent_iff bound (Nat.zero_le _)]
  exact Nat.not_lt_zero a

theorem extent_pos_iff (bound : a ≤ infinityMagnitude) : 0 < extent a ↔ a ≠ 0 := by
  rw [← extent_zero, extent_lt_extent_iff (Nat.zero_le _) bound, Nat.pos_iff_ne_zero]

theorem compareTotal_eq_lt : x.compareTotal y = .lt ↔ x.rank < y.rank := by
  rw [compareTotal, Int.compare_eq_lt]

theorem rank_injective : Function.Injective rank := by
  intro x y same
  obtain ⟨negativeX, magnitudeX, _⟩ := x
  obtain ⟨negativeY, magnitudeY, _⟩ := y
  cases negativeX <;> cases negativeY <;> simp [rank] at same ⊢ <;> omega

theorem compareTotal_eq_eq : x.compareTotal y = .eq ↔ x = y := by
  rw [compareTotal, Int.compare_eq_eq, rank_injective.eq_iff]

theorem compareTotal_eq_swap : x.compareTotal y = (y.compareTotal x).swap := by
  rw [compareTotal, compareTotal, Int.compare_swap]

theorem toBits_inj : x.toBits = y.toBits ↔ x = y := by
  refine ⟨fun same => ?_, congrArg toBits⟩
  obtain ⟨negativeX, magnitudeX, boundX⟩ := x
  obtain ⟨negativeY, magnitudeY, boundY⟩ := y
  have bits := congrArg UInt64.toNat same
  simp only [toBits, UInt64.toNat_ofNat'] at bits
  cases negativeX <;> cases negativeY <;> simp at bits ⊢ <;> omega

/-- Doubles that are no NaNs are in the order of the numbers they stand for, with
the zeros in the order of their signs. -/
theorem compareTotal_eq_lt_iff (numberX : x.isNaN = false) (numberY : y.isNaN = false) :
    x.compareTotal y = .lt ↔ x.toEReal < y.toEReal ∨ x = negativeZero ∧ y = zero := by
  rw [compareTotal_eq_lt]
  obtain ⟨negativeX, a, boundX⟩ := x
  obtain ⟨negativeY, b, boundY⟩ := y
  have boundA : a ≤ infinityMagnitude := isNaN_eq_false_iff.mp numberX
  have boundB : b ≤ infinityMagnitude := isNaN_eq_false_iff.mp numberY
  have sizeA := extent_nonneg boundA
  have sizeB := extent_nonneg boundB
  cases negativeX <;> cases negativeY
  case false.false =>
    rw [toEReal_of_positive rfl, toEReal_of_positive rfl, extent_lt_extent_iff boundA boundB]
    simp [rank, negativeZero]
  case true.true =>
    rw [toEReal_of_negative rfl, toEReal_of_negative rfl, EReal.neg_lt_neg_iff,
      extent_lt_extent_iff boundB boundA]
    simp [rank, zero]
  case false.true =>
    rw [toEReal_of_positive rfl, toEReal_of_negative rfl]
    have notBelow : ¬extent a < -extent b :=
      not_lt.mpr ((EReal.neg_le_zero.mpr sizeB).trans sizeA)
    simp [rank, negativeZero, notBelow]
    omega
  case true.false =>
    rw [toEReal_of_negative rfl, toEReal_of_positive rfl]
    have below : (-1 - (a : ℤ)) < b := by omega
    simp only [rank, if_true, Bool.false_eq_true, if_false, below, true_iff]
    -- Only if both are zero the negative one is not the lower number.
    by_cases zeroA : a = 0
    · by_cases zeroB : b = 0
      · exact .inr ⟨by simp [negativeZero, zeroA], by simp [zero, zeroB]⟩
      · have positive := (extent_pos_iff boundB).mpr zeroB
        exact .inl ((EReal.neg_le_zero.mpr sizeA).trans_lt positive)
    · have positive := (extent_pos_iff boundA).mpr zeroA
      exact .inl ((EReal.neg_lt_zero.mpr positive).trans_le sizeB)

theorem compareTotal_of_isNaN (isNaN : x.isNaN = true) (number : y.isNaN = false) :
    x.compareTotal y = if x.negative then .lt else .gt := by
  have beyond : infinityMagnitude < x.magnitude := by simpa [Binary64.isNaN] using isNaN
  have inside := isNaN_eq_false_iff.mp number
  rw [compareTotal]
  cases sign : x.negative with
  | true =>
      rw [if_pos rfl, Int.compare_eq_lt, rank, rank, sign, if_pos rfl]
      split <;> omega
  | false =>
      rw [if_neg Bool.false_ne_true, Int.compare_eq_gt, rank, rank, sign, if_neg Bool.false_ne_true]
      split <;> omega

end TableReport.Binary64
