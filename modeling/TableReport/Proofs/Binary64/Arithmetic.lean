import TableReport.Proofs.Binary64.Range

/-!
Arithmetic on doubles. A finite product is the double nearest to the product of the
numbers, and a product that would be infinite overflows. Rounding to a whole number is
exact: doubles that are too large for their neighbours to be whole are whole themselves.
What rounding to a double changes is bounded by the size of the number.
-/

namespace TableReport

namespace Binary64

variable {x y : Binary64} {q : ℚ} {num den magnitude : ℕ} {negative : Bool}

theorem abs_value_eq_units (x : Binary64) : |x.value| = x.units / unitsPerOne := abs_value x

theorem isNumber_of_isFinite (finite : x.isFinite) : x.isNaN = false ∧ x.isInfinite = false := by
  have bound := isFinite_iff.mp finite
  simp [isNaN, isInfinite, Nat.le_of_lt bound, Nat.ne_of_lt bound]

section Quotients

theorem negative_ofUnits : (ofUnits negative num den).negative = negative := rfl

theorem nearestUnits_ofUnits (positive : 0 < den) (finite : (ofUnits negative num den).isFinite) :
    NearestUnits ((num : ℚ) / den) (ofUnits negative num den).magnitude := by
  have near := nearestUnits_unboundedMagnitude num positive
  have bounded : (ofUnits negative num den).magnitude =
      min infinityMagnitude (unboundedMagnitude num den) := nearestMagnitude_eq_min num den
  have inRange := isFinite_iff.mp finite
  have exact : (ofUnits negative num den).magnitude = unboundedMagnitude num den := by omega
  rwa [exact]

theorem isFinite_ofUnits_iff (positive : 0 < den) (size : (num : ℚ) / den = |q| * unitsPerOne) :
    (ofUnits negative num den).isFinite = true ↔ ¬Overflows q := by
  have near := nearestUnits_unboundedMagnitude num positive
  have bounded : (ofUnits negative num den).magnitude =
      min infinityMagnitude (unboundedMagnitude num den) := nearestMagnitude_eq_min num den
  rw [size] at near
  rw [← near.infinity_le_iff, isFinite_iff, bounded]
  omega

theorem ofUnits_eq_infinity (overflows : ¬(ofUnits negative num den).isFinite = true) :
    ofUnits negative num den = infinity negative := by
  have bound := nearestMagnitude_le num den
  rw [isFinite_iff] at overflows
  simp only [ofUnits, infinity, mk.injEq, true_and] at overflows ⊢
  omega

/-- A whole number of at most 53 bits is exact with either sign. -/
theorem ofUnits_exact (negative : Bool) {n : ℕ} (bound : n ≤ 2 ^ 53) :
    (ofUnits negative (n * unitsPerOne) 1).isFinite = true ∧
      (ofUnits negative (n * unitsPerOne) 1).units = n * unitsPerOne := by
  obtain ⟨inRange, exact⟩ := ofInt_exact bound
  exact ⟨isFinite_iff.mpr inRange, exact⟩

end Quotients

section Products

theorem mul_of_isFinite (finiteX : x.isFinite) (finiteY : y.isFinite) :
    x * y = ofUnits (x.negative != y.negative) (x.units * y.units) unitsPerOne := by
  have numberX := isNumber_of_isFinite finiteX
  have numberY := isNumber_of_isFinite finiteY
  show mul x y = _
  simp [mul, numberX, numberY]

theorem mul_of_isInfinite (infiniteX : x.isInfinite) (finiteY : y.isFinite)
    (nonzero : y.magnitude ≠ 0) : (x * y).isFinite = false := by
  have magnitudeX : x.magnitude = infinityMagnitude := by simpa [isInfinite] using infiniteX
  have numberX : x.isNaN = false := by simp [isNaN, magnitudeX]
  have numberY := isNumber_of_isFinite finiteY
  have positive : infinityMagnitude ≠ 0 := by decide
  show (mul x y).isFinite = false
  simp [mul, numberX, numberY, infiniteX, magnitudeX, positive, nonzero, infinity, isFinite]

theorem unboundedMagnitude_unitsOf (magnitude : ℕ) :
    unboundedMagnitude (unitsOf magnitude) 1 = magnitude := by
  have near := nearestUnits_unboundedMagnitude (unitsOf magnitude) Nat.one_pos
  rw [Nat.cast_one, div_one] at near
  exact near.unique (nearestUnits_unitsOf magnitude)

/-- A product that needs no more bits than a double has is only cut off at infinity. -/
theorem mul_magnitude_of_exact (finiteX : x.isFinite) (finiteY : y.isFinite)
    (exact : x.units * y.units = unitsOf magnitude * unitsPerOne) :
    (x * y).magnitude = min infinityMagnitude magnitude := by
  rw [mul_of_isFinite finiteX finiteY]
  show nearestMagnitude (x.units * y.units) unitsPerOne = _
  have scaled := @nearestMagnitude_mul_right (unitsOf magnitude) 1 unitsPerOne zero_lt_unitsPerOne
  rw [Nat.one_mul] at scaled
  rw [exact, scaled, nearestMagnitude_eq_min, unboundedMagnitude_unitsOf]

theorem negative_mul (finiteX : x.isFinite) (finiteY : y.isFinite) :
    (x * y).negative = (x.negative != y.negative) := by
  rw [mul_of_isFinite finiteX finiteY, negative_ofUnits]

theorem units_mul_units (x y : Binary64) :
    ((x.units * y.units : ℕ) : ℚ) / unitsPerOne = |x.value * y.value| * unitsPerOne := by
  have nonzero := unitsPerOne_pos.ne'
  rw [abs_mul, abs_value_eq_units, abs_value_eq_units, Nat.cast_mul]
  field_simp

theorem sign_mul (x y : Binary64) :
    (if x.negative != y.negative then -1 else 1) * |x.value * y.value| = x.value * y.value := by
  rw [abs_mul, value_eq_sign_mul x, value_eq_sign_mul y]
  cases x.negative <;> cases y.negative <;> simp

theorem isFinite_mul_iff (finiteX : x.isFinite) (finiteY : y.isFinite) :
    (x * y).isFinite = true ↔ ¬Overflows (x.value * y.value) := by
  rw [mul_of_isFinite finiteX finiteY]
  exact isFinite_ofUnits_iff zero_lt_unitsPerOne (units_mul_units x y)

theorem nearestUnits_mul (finiteX : x.isFinite) (finiteY : y.isFinite)
    (finite : (x * y).isFinite) :
    NearestUnits (|x.value * y.value| * unitsPerOne) (x * y).magnitude := by
  rw [mul_of_isFinite finiteX finiteY] at finite ⊢
  rw [← units_mul_units]
  exact nearestUnits_ofUnits zero_lt_unitsPerOne finite

theorem isNearest_mul (finiteX : x.isFinite) (finiteY : y.isFinite) (finite : (x * y).isFinite) :
    (x * y).IsNearest (x.value * y.value) := by
  have near := nearestUnits_mul finiteX finiteY finite
  rw [← sign_mul, ← negative_mul finiteX finiteY]
  exact (isNearest_iff_of_sign near (abs_nonneg _) finite rfl).mpr rfl

end Products

theorem div_of_isFinite (finiteX : x.isFinite) (finiteY : y.isFinite) (nonzero : y.magnitude ≠ 0) :
    x / y = ofUnits (x.negative != y.negative) (x.units * unitsPerOne) y.units := by
  have numberX := isNumber_of_isFinite finiteX
  have numberY := isNumber_of_isFinite finiteY
  show div x y = _
  simp [div, numberX, numberY, nonzero]

theorem units_pos (nonzero : x.magnitude ≠ 0) : 0 < x.units :=
  strictMono_unitsOf (Nat.pos_of_ne_zero nonzero)

theorem units_div_units (x : Binary64) (nonzero : y.magnitude ≠ 0) :
    ((x.units * unitsPerOne : ℕ) : ℚ) / y.units = |x.value / y.value| * unitsPerOne := by
  have nonzeroUnits : (y.units : ℚ) ≠ 0 := Nat.cast_ne_zero.mpr (units_pos nonzero).ne'
  have nonzeroOne := unitsPerOne_pos.ne'
  rw [abs_div, abs_value_eq_units, abs_value_eq_units, Nat.cast_mul]
  field_simp

theorem isFinite_div_iff (finiteX : x.isFinite) (finiteY : y.isFinite)
    (nonzero : y.magnitude ≠ 0) : (x / y).isFinite = true ↔ ¬Overflows (x.value / y.value) := by
  rw [div_of_isFinite finiteX finiteY nonzero]
  exact isFinite_ofUnits_iff (units_pos nonzero) (units_div_units x nonzero)

theorem nearestUnits_div (finiteX : x.isFinite) (finiteY : y.isFinite) (nonzero : y.magnitude ≠ 0)
    (finite : (x / y).isFinite) :
    NearestUnits (|x.value / y.value| * unitsPerOne) (x / y).magnitude := by
  rw [div_of_isFinite finiteX finiteY nonzero] at finite ⊢
  rw [← units_div_units x nonzero]
  exact nearestUnits_ofUnits (units_pos nonzero) finite

theorem not_isFinite_infinity (negative : Bool) : ¬(infinity negative).isFinite = true := by
  cases negative <;> decide

theorem infinity_div (negative : Bool) (finiteY : y.isFinite) :
    infinity negative / y = infinity (negative != y.negative) := by
  have numberX : (infinity negative).isNaN = false ∧ (infinity negative).isInfinite = true := by
    cases negative <;> decide
  have numberY := isNumber_of_isFinite finiteY
  have sign : (infinity negative).negative = negative := rfl
  show div (infinity negative) y = _
  simp [div, numberX, numberY, sign]

section Whole

/-- The whole number nearest to the size of a double; a half goes up. -/
def nearestWhole (x : Binary64) : ℕ := roundHalfUp x.units unitsPerOne

theorem nearestWhole_eq_floor (x : Binary64) : (x.nearestWhole : ℤ) = ⌊|x.value| + 1 / 2⌋ := by
  have nonzero := unitsPerOne_pos.ne'
  have middle : |x.value| + 1 / 2 = (2 * x.units + unitsPerOne : ℕ) / (2 * unitsPerOne : ℕ) := by
    rw [abs_value_eq_units]
    push_cast
    field_simp
  rw [middle, Rat.floor_natCast_div_natCast, nearestWhole, roundHalfUp, Int.natCast_ediv]

theorem nearestWhole_bounds (x : Binary64) :
    (x.nearestWhole : ℚ) ≤ |x.value| + 1 / 2 ∧ |x.value| + 1 / 2 < x.nearestWhole + 1 := by
  have lower := Int.floor_le (|x.value| + 1 / 2)
  have upper := Int.lt_floor_add_one (|x.value| + 1 / 2)
  rw [← x.nearestWhole_eq_floor, Int.cast_natCast] at lower upper
  exact ⟨lower, upper⟩

theorem nearestWhole_eq_of_abs_sub_lt {n : ℕ} (near : |(|x.value|) - n| < 1 / 2) :
    x.nearestWhole = n := by
  obtain ⟨lower, upper⟩ := abs_lt.mp near
  have floor_eq : ⌊|x.value| + 1 / 2⌋ = n := by
    apply Int.floor_eq_iff.mpr
    rw [Int.cast_natCast]
    constructor <;> linarith
  rw [← x.nearestWhole_eq_floor] at floor_eq
  exact_mod_cast floor_eq

theorem round_of_isFinite (finite : x.isFinite) :
    x.round = ofUnits x.negative (x.nearestWhole * unitsPerOne) 1 :=
  if_pos finite

theorem round_infinity (negative : Bool) : (infinity negative).round = infinity negative :=
  if_neg (not_isFinite_infinity negative)

theorem negative_round (finite : x.isFinite) : x.round.negative = x.negative := by
  rw [round_of_isFinite finite, negative_ofUnits]

theorem dvd_units_or_lt (x : Binary64) :
    unitsPerOne ∣ x.units ∨ x.units < 2 ^ 52 * unitsPerOne := by
  rw [units, unitsPerOne]
  exact dvd_unitsOf_or_lt x.magnitude 1074

theorem roundHalfUp_of_dvd {units count : ℕ} (whole : units = unitsPerOne * count) :
    roundHalfUp units unitsPerOne = count := by
  have scaled := @roundHalfUp_mul_right count 1 unitsPerOne zero_lt_unitsPerOne
  rw [Nat.one_mul, Nat.mul_comm, ← whole] at scaled
  rw [scaled, roundHalfUp]
  omega

/-- Rounding a finite double to a whole number gives just this number. -/
theorem units_round (finite : x.isFinite) :
    x.round.isFinite = true ∧ x.round.units = x.nearestWhole * unitsPerOne := by
  rw [round_of_isFinite finite, nearestWhole]
  rcases x.dvd_units_or_lt with ⟨count, whole⟩ | small
  · rw [roundHalfUp_of_dvd whole, Nat.mul_comm, ← whole]
    have same : nearestMagnitude x.units 1 = x.magnitude :=
      nearestMagnitude_unitsOf (isFinite_iff.mp finite)
    exact ⟨isFinite_iff.mpr (same.trans_lt (isFinite_iff.mp finite)), congrArg unitsOf same⟩
  · apply ofUnits_exact
    have below : x.units / unitsPerOne < 2 ^ 52 :=
      (Nat.div_lt_iff_lt_mul zero_lt_unitsPerOne).mpr small
    have upper := roundHalfUp_le x.units zero_lt_unitsPerOne
    exact upper.trans (by omega)

end Whole

section Errors

/-- Rounding to doubles does not pass a whole number of at most 53 bits. -/
theorem NearestUnits.value_le (near : NearestUnits (q * unitsPerOne) magnitude) {n : ℕ}
    (bound : n ≤ 2 ^ 53) (below : q ≤ n) :
    magnitude < infinityMagnitude ∧ (unitsOf magnitude : ℚ) / unitsPerOne ≤ n := by
  obtain ⟨inRange, exact⟩ := ofInt_exact bound
  have nearWhole := nearestUnits_unitsOf (ofInt n).magnitude
  rw [exact, Nat.cast_mul] at nearWhole
  have rises := near.mono nearWhole (mul_le_mul_of_nonneg_right below unitsPerOne_pos.le)
  refine ⟨rises.trans_lt inRange, ?_⟩
  have units_le : unitsOf magnitude ≤ n * unitsPerOne :=
    exact ▸ strictMono_unitsOf.monotone rises
  have units_le_cast : (unitsOf magnitude : ℚ) ≤ (n * unitsPerOne : ℕ) := Nat.cast_le.mpr units_le
  rw [Nat.cast_mul] at units_le_cast
  exact (div_le_iff₀ unitsPerOne_pos).mpr units_le_cast

theorem not_overflows_of_abs_le {n : ℕ} (bound : n ≤ 2 ^ 53) (below : |q| ≤ n) : ¬Overflows q := by
  obtain ⟨magnitude, near⟩ :=
    exists_nearestUnits (mul_nonneg (abs_nonneg q) unitsPerOne_pos.le)
  rw [← near.infinity_le_iff, Nat.not_le]
  exact (near.value_le bound below).1

/-- Rounding changes a number by at most `2 ^ (-53)` of itself, or of a thousandth if it is
smaller. -/
theorem NearestUnits.abs_sub_le_max (near : NearestUnits (q * unitsPerOne) magnitude)
    (nonneg : 0 ≤ q) : |(unitsOf magnitude : ℚ) / unitsPerOne - q| ≤ max q (1 / 1000) / 2 ^ 53 := by
  have error := near.abs_sub_le (mul_nonneg nonneg unitsPerOne_pos.le)
  have small : (1 : ℚ) / 2 ≤ 1 / 1000 / 2 ^ 53 * unitsPerOne := by
    have room : 500 * 2 ^ 53 ≤ unitsPerOne := by decide +kernel
    have roomRat : (500 * 2 ^ 53 : ℚ) ≤ unitsPerOne := by exact_mod_cast room
    linarith
  rw [abs_units_sub] at error
  refine le_of_mul_le_mul_right (error.trans (max_le ?_ ?_)) unitsPerOne_pos
  · exact small.trans (by gcongr; exact le_max_right _ _)
  · rw [mul_div_right_comm]
    gcongr
    exact le_max_left _ _

end Errors

end Binary64

end TableReport
