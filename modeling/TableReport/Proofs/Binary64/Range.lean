import TableReport.Proofs.Binary64.Sign

/-!
Where the doubles end. If exponents had no end, a power of two would come behind the
largest double. A number that is at least as near to this power as to the largest double
is rounded to infinity, and no other number is; these are the numbers from halfway
between the two on.
-/

namespace TableReport.Binary64

variable {q : ℚ} {magnitude : ℕ}

/-- No finite double comes nearer to the size of the number than the power of two behind
the largest double, so that rounding takes the number for infinite. -/
def Overflows (q : ℚ) : Prop :=
  ∀ y : Binary64, y.isFinite → |(2 : ℚ) ^ 1024 - (|q|)| ≤ |y.value - (|q|)|

/-- The largest finite magnitude. -/
def lastMagnitude : ℕ := infinityMagnitude - 1

/-- The magnitudes of the highest binade, counted from its end. -/
theorem unitsOf_infinityMagnitude_sub {count : ℕ} (inside : count ≤ 2 ^ 52) :
    unitsOf (infinityMagnitude - count) = (2 ^ 53 - count) * 2 ^ 971 * unitsPerOne := by
  have splits : Splits (infinityMagnitude - count) 2045 (2 ^ 53 - count) := by
    have parts : infinityMagnitude = 2045 * 2 ^ 52 + 2 ^ 53 := by decide
    constructor <;> omega
  have powers : 2 ^ 2045 * 2 ^ 0 = 2 ^ 971 * 2 ^ 1074 := two_pow_mul_two_pow rfl
  rw [splits.unitsOf_eq, unitsPerOne, Nat.mul_assoc, ← powers, Nat.pow_zero, Nat.mul_one]

theorem add_two_pow (exponent : ℕ) :
    ((2 : ℚ) ^ 53 - 1) * 2 ^ (exponent + 1) + 2 ^ (exponent + 54) =
      2 * (2 ^ (exponent + 54) - 2 ^ exponent) := by
  ring

theorem value_infinityMagnitude_sub {count : ℕ} (inside : count ≤ 2 ^ 52) :
    (unitsOf (infinityMagnitude - count) : ℚ) / unitsPerOne = (2 ^ 53 - count) * 2 ^ 971 := by
  have significand : ((2 ^ 53 - count : ℕ) : ℚ) = 2 ^ 53 - count := by
    rw [Nat.cast_sub (by omega)]
    norm_num
  rw [unitsOf_infinityMagnitude_sub inside, Nat.cast_mul, mul_div_assoc,
    div_self unitsPerOne_pos.ne', mul_one, Nat.cast_mul, significand, Nat.cast_pow, Nat.cast_ofNat]

theorem value_lastMagnitude :
    (unitsOf lastMagnitude : ℚ) / unitsPerOne = (2 ^ 53 - 1) * 2 ^ 971 := by
  rw [lastMagnitude, value_infinityMagnitude_sub (by norm_num), Nat.cast_one]

theorem value_infinityMagnitude : (unitsOf infinityMagnitude : ℚ) / unitsPerOne = 2 ^ 1024 := by
  rw [unitsOf_infinityMagnitude, Nat.cast_mul, mul_div_assoc, div_self unitsPerOne_pos.ne', mul_one,
    Nat.cast_pow, Nat.cast_ofNat]

/-- The middle of the largest double and the power of two behind it. -/
theorem last_add_next :
    (unitsOf lastMagnitude : ℚ) / unitsPerOne + 2 ^ 1024 = 2 * (2 ^ 1024 - 2 ^ 970) := by
  rw [value_lastMagnitude]
  exact add_two_pow 970

theorem abs_value_le_last {y : Binary64} (finite : y.isFinite) :
    |y.value| ≤ unitsOf lastMagnitude / unitsPerOne := by
  have bound : y.magnitude ≤ lastMagnitude := Nat.le_sub_one_of_lt (isFinite_iff.mp finite)
  have rises : (unitsOf y.magnitude : ℚ) ≤ unitsOf lastMagnitude :=
    Nat.cast_le.mpr (strictMono_unitsOf.monotone bound)
  rw [abs_value]
  exact div_le_div_of_nonneg_right rises unitsPerOne_pos.le

theorem value_le_last {y : Binary64} (finite : y.isFinite) :
    y.value ≤ unitsOf lastMagnitude / unitsPerOne :=
  (le_abs_self _).trans (abs_value_le_last finite)

theorem value_lt_next {y : Binary64} (finite : y.isFinite) : y.value < 2 ^ 1024 := by
  have rises := unitsOf_cast_lt (show lastMagnitude < infinityMagnitude by decide)
  rw [← value_infinityMagnitude]
  exact (value_le_last finite).trans_lt (div_lt_div_of_pos_right rises unitsPerOne_pos)

theorem overflows_iff : Overflows q ↔ 2 ^ 1024 - 2 ^ 970 ≤ |q| := by
  constructor
  · intro farther
    let last : Binary64 := ⟨false, lastMagnitude, by decide⟩
    have finite : last.isFinite := isFinite_iff.mpr (by decide)
    have value : last.value = unitsOf lastMagnitude / unitsPerOne := value_of_positive rfl
    have closer := (abs_upper_le_iff (value_lt_next finite)).mp (farther last finite)
    rw [value, last_add_next] at closer
    exact le_of_mul_le_mul_left closer two_pos
  · intro reached y finite
    apply (abs_upper_le_iff (value_lt_next finite)).mpr
    have doubled := mul_le_mul_of_nonneg_left reached (zero_le_two (α := ℚ))
    rw [← last_add_next] at doubled
    exact (add_le_add_left (value_le_last finite) _).trans doubled

theorem Overflows.mono {r : ℚ} (overflows : Overflows q) (grows : |q| ≤ |r|) : Overflows r :=
  overflows_iff.mpr ((overflows_iff.mp overflows).trans grows)

/-- Rounding as if exponents had no end reaches the place of infinity just for the numbers
that overflow. -/
theorem NearestUnits.infinity_le_iff (near : NearestUnits (|q| * unitsPerOne) magnitude) :
    infinityMagnitude ≤ magnitude ↔ Overflows q := by
  have next : lastMagnitude + 1 = infinityMagnitude := by decide
  have inside := near.le_iff_of_odd (show lastMagnitude % 2 = 1 by decide)
  have middle : (unitsOf lastMagnitude : ℚ) + unitsOf infinityMagnitude =
      2 * ((2 ^ 1024 - 2 ^ 970) * unitsPerOne) := by
    rw [← mul_assoc, ← last_add_next, ← value_infinityMagnitude, add_mul,
      div_mul_cancel₀ _ unitsPerOne_pos.ne', div_mul_cancel₀ _ unitsPerOne_pos.ne']
  rw [next, middle, mul_lt_mul_iff_right₀ two_pos, mul_lt_mul_iff_left₀ unitsPerOne_pos] at inside
  rw [overflows_iff, ← next, Nat.succ_le_iff, ← not_le, inside, not_lt]

end TableReport.Binary64
