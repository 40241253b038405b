import TableReport.Proofs.Binary64.Error
import TableReport.Proofs.Json.Kept

/-!
The double that kept digits are taken for. It comes of them by a few roundings: one of
the digits, one of the power of ten, and one of the product or the quotient. Below the
least double that is as exact as others, something more is lost.
-/

namespace TableReport.Json.FloatReading

open Binary64

variable {x y : Binary64} {digits places count : ℕ} {loss q : ℚ}

/-- A finite double without a sign. -/
structure IsSize (x : Binary64) : Prop where
  finite : x.isFinite = true
  unsigned : x.negative = false

namespace IsSize

theorem value_eq (size : IsSize x) : x.value = unitsOf x.magnitude / unitsPerOne :=
  value_of_positive size.unsigned

theorem value_nonneg (size : IsSize x) : 0 ≤ x.value :=
  size.value_eq ▸ magnitude_value_nonneg x.magnitude

theorem not_overflows (size : IsSize x) : ¬Overflows x.value := by
  intro overflows
  have reached := overflows x size.finite
  rw [abs_of_nonneg size.value_nonneg, sub_self, abs_zero, abs_nonpos_iff, sub_eq_zero] at reached
  exact (value_lt_next size.finite).ne' reached

/-- Up to `10 ^ 308` there are doubles. -/
theorem ofDecimal_of_le {d : Decimal} (below : d.value ≤ 10 ^ 308) :
    IsSize (.ofDecimal false d) := by
  have last : (Decimal.nearest ⟨1, 308⟩) < infinityMagnitude := by decide +kernel
  have inRange : d.nearest < infinityMagnitude := by
    refine (Decimal.nearest_mono (e := ⟨1, 308⟩) ?_).trans_lt last
    rwa [Decimal.value_ten_pow]
  exact ⟨isFinite_iff.mpr inRange, rfl⟩

theorem within_ofDecimal {d : Decimal} (size : IsSize (.ofDecimal false d))
    (normal : d.value = 0 ∨ 1 / 1000 ≤ d.value) : Within 1 (ofDecimal false d).value d.value := by
  have near := Decimal.nearestUnits_of_nearest (d := d) rfl (isFinite_iff.mp size.finite)
  rw [size.value_eq]
  exact near.within normal

end IsSize

section Terms

theorem isSize_powerOfTen (inside : places ≤ 308) : IsSize (powerOfTen places) := by
  apply IsSize.ofDecimal_of_le
  rw [Decimal.value_ten_pow, zpow_natCast]
  exact pow_le_pow_right₀ (by norm_num) inside

theorem within_powerOfTen (inside : places ≤ 308) :
    Within 1 (powerOfTen places).value (10 ^ places) := by
  have value : Decimal.value ⟨1, places⟩ = 10 ^ places := by
    rw [Decimal.value_ten_pow, zpow_natCast]
  rw [← value]
  apply (isSize_powerOfTen inside).within_ofDecimal
  rw [value]
  right
  exact le_trans (by norm_num) (one_le_pow₀ (by norm_num : (1 : ℚ) ≤ 10))

theorem half_le_powerOfTen (inside : places ≤ 308) : 1 / 2 ≤ (powerOfTen places).value := by
  have one : (1 : ℚ) ≤ 10 ^ places := one_le_pow₀ (by norm_num)
  have room : (1 / 2 : ℚ) ≤ 1 * shrink ^ 1 := by norm_num [shrink]
  exact room.trans ((within_powerOfTen inside).mul_shrink_le one)

/-- A power of ten that is more than one is taken for a number above nine. -/
theorem nine_lt_powerOfTen (inside : places ≤ 308) (positive : places ≠ 0) :
    9 < (powerOfTen places).value := by
  have ten : (10 : ℚ) ^ 1 ≤ 10 ^ places :=
    pow_le_pow_right₀ (by norm_num) (Nat.one_le_iff_ne_zero.mpr positive)
  have room : (9 : ℚ) < 10 ^ 1 * shrink ^ 1 := by norm_num [shrink]
  exact room.trans_le ((within_powerOfTen inside).mul_shrink_le ten)

theorem ofInt_eq_ofDecimal (digits : ℕ) : ofInt digits = ofDecimal false ⟨digits, 0⟩ := by
  have unsigned : decide ((digits : ℤ) < 0) = false := decide_eq_false (by omega)
  simp only [ofInt, ofUnits, ofDecimal, unsigned, Int.natAbs_natCast, Decimal.nearest_whole]

theorem value_whole (digits : ℕ) : Decimal.value ⟨digits, 0⟩ = digits := by
  rw [Decimal.value, zpow_zero, mul_one]

theorem isSize_ofInt (fits : digits < 2 ^ 64) : IsSize (.ofInt digits) := by
  rw [ofInt_eq_ofDecimal]
  apply IsSize.ofDecimal_of_le
  rw [value_whole]
  have below : (digits : ℚ) < 2 ^ 64 := by exact_mod_cast fits
  calc (digits : ℚ) ≤ 2 ^ 64 := below.le
    _ ≤ 10 ^ 64 := by norm_num
    _ ≤ 10 ^ 308 := pow_le_pow_right₀ (by norm_num) (by norm_num)

theorem eq_zero_or_one_le_cast (digits : ℕ) : (digits : ℚ) = 0 ∨ 1 ≤ (digits : ℚ) := by
  rcases Nat.eq_zero_or_pos digits with rfl | positive
  · exact .inl Nat.cast_zero
  · exact .inr (by exact_mod_cast positive)

theorem within_ofInt (fits : digits < 2 ^ 64) : Within 1 (ofInt digits).value digits := by
  have size := isSize_ofInt fits
  rw [ofInt_eq_ofDecimal] at size ⊢
  have within := size.within_ofDecimal
  rw [value_whole] at within
  exact within ((eq_zero_or_one_le_cast digits).imp_right fun one => by linarith)

/-- A whole number is taken for nothing only if it is nothing. -/
theorem ofInt_cases (fits : digits < 2 ^ 64) :
    (digits : ℚ) = 0 ∧ (ofInt digits).value = 0 ∨
      1 ≤ (digits : ℚ) ∧ 1 / 2 ≤ (ofInt digits).value := by
  have within := within_ofInt fits
  rcases eq_zero_or_one_le_cast digits with zero | one
  · left
    rw [zero] at within
    refine ⟨zero, le_antisymm ?_ (isSize_ofInt fits).value_nonneg⟩
    exact nonpos_of_mul_nonpos_left within.upper (shrink_pow_pos 1)
  · right
    have room : (1 / 2 : ℚ) ≤ 1 * shrink ^ 1 := by norm_num [shrink]
    exact ⟨one, room.trans (within.mul_shrink_le one)⟩

end Terms

section Raising

namespace IsSize

theorem mul (sizeX : IsSize x) (sizeY : IsSize y) (finite : (x * y).isFinite) : IsSize (x * y) where
  finite := finite
  unsigned := by rw [negative_mul sizeX.finite sizeY.finite, sizeX.unsigned, sizeY.unsigned]; rfl

theorem nearestUnits_mul (sizeX : IsSize x) (sizeY : IsSize y) (finite : (x * y).isFinite) :
    NearestUnits (x.value * y.value * unitsPerOne) (x * y).magnitude := by
  have near := Binary64.nearestUnits_mul sizeX.finite sizeY.finite finite
  rwa [abs_of_nonneg (mul_nonneg sizeX.value_nonneg sizeY.value_nonneg)] at near

end IsSize

/-- The product of two terms that each are a rounding away from their own numbers. -/
theorem within_raised (fits : digits < 2 ^ 64) (inside : places ≤ 308) :
    Within 2 ((ofInt digits).value * (powerOfTen places).value) (digits * 10 ^ places) :=
  (within_ofInt fits).mul (within_powerOfTen inside) (isSize_ofInt fits).value_nonneg
    (Nat.cast_nonneg _) (isSize_powerOfTen inside).value_nonneg (by positivity)

/-- Raising rounds the digits, the power of ten and their product. -/
theorem within_raise (fits : digits < 2 ^ 64) (finite : (raise (ofInt digits) places).isFinite) :
    IsSize (raise (ofInt digits) places) ∧
      Within 3 (raise (ofInt digits) places).value (digits * 10 ^ places) := by
  have whole := isSize_ofInt fits
  unfold raise at finite ⊢
  split at finite
  next inside =>
    have power := isSize_powerOfTen inside
    have size := whole.mul power finite
    have normal : (ofInt digits).value * (powerOfTen places).value = 0 ∨
        1 / 1000 ≤ (ofInt digits).value * (powerOfTen places).value := by
      rcases ofInt_cases fits with ⟨-, none⟩ | ⟨-, half⟩
      · exact .inl (by rw [none, zero_mul])
      · have product := mul_le_mul half (half_le_powerOfTen inside) (by norm_num) whole.value_nonneg
        exact .inr (le_trans (by norm_num) product)
    rw [if_pos inside]
    refine ⟨size, ?_⟩
    rw [size.value_eq]
    exact ((whole.nearestUnits_mul power finite).within normal).trans (within_raised fits inside)
  next outside =>
    rw [if_neg outside]
    split at finite
    next zero =>
      have value := value_eq_zero_iff.mpr zero
      rw [if_pos zero, value]
      rcases ofInt_cases fits with ⟨none, -⟩ | ⟨-, half⟩
      · rw [none, zero_mul]
        exact ⟨whole, (Within.refl 0).mono le_rfl le_rfl (Nat.zero_le 3)⟩
      · linarith
    next => exact absurd finite (not_isFinite_infinity false)

theorem overflows_powerOfTen : Overflows ((10 : ℚ) ^ 309) := by
  have infinite : Decimal.nearest ⟨1, 309⟩ = infinityMagnitude := by decide +kernel
  obtain ⟨magnitude, near, nearest⟩ := Decimal.exists_nearestUnits ⟨1, 309⟩
  have value : Decimal.value ⟨1, 309⟩ = 10 ^ 309 := by
    rw [Decimal.value_ten_pow]
    exact zpow_natCast 10 309
  rw [value, ← abs_of_pos (show (0 : ℚ) < 10 ^ 309 by positivity)] at near
  exact near.infinity_le_iff.mp (by omega)

/-- What is raised too far overflows, if not by itself then by two of the roundings. -/
theorem overflows_of_raise (fits : digits < 2 ^ 64)
    (infinite : ¬(raise (ofInt digits) places).isFinite = true) :
    Overflows (digits * 10 ^ places / shrink ^ 2) := by
  have whole := isSize_ofInt fits
  unfold raise at infinite
  split at infinite
  next inside =>
    have power := isSize_powerOfTen inside
    rw [isFinite_mul_iff whole.finite power.finite, not_not] at infinite
    have product := mul_nonneg whole.value_nonneg power.value_nonneg
    have upper := (le_div_iff₀ (shrink_pow_pos 2)).mpr (within_raised fits inside).upper
    apply infinite.mono
    rw [abs_of_nonneg product]
    exact upper.trans (le_abs_self _)
  next outside =>
    split at infinite
    next => exact absurd whole.finite infinite
    next nonzero =>
      rcases ofInt_cases fits with ⟨-, none⟩ | ⟨one, -⟩
      · exact absurd (value_eq_zero_iff.mp none) nonzero
      · have powers : (10 : ℚ) ^ 309 ≤ 10 ^ places := pow_le_pow_right₀ (by norm_num) (by omega)
        have product : (10 : ℚ) ^ 309 ≤ digits * 10 ^ places :=
          powers.trans (le_mul_of_one_le_left (by positivity) one)
        have grows := le_div_self (le_trans (by positivity) product) (shrink_pow_pos 2)
          (shrink_pow_le_one 2)
        apply overflows_powerOfTen.mono
        rw [abs_of_pos (by positivity)]
        exact product.trans (grows.trans (le_abs_self _))

end Raising

section Lowering

theorem IsSize.eq_of_magnitude_eq (sizeX : IsSize x) (sizeY : IsSize y)
    (same : x.magnitude = y.magnitude) : x = y := by
  have unsignedX := sizeX.unsigned
  have unsignedY := sizeY.unsigned
  cases x
  cases y
  simp_all

/-- Dividing by a power of ten leaves the double nearest to the quotient. -/
theorem IsSize.div_powerOfTen (size : IsSize x) (inside : places ≤ 308) (positive : places ≠ 0) :
    IsSize (x / powerOfTen places) ∧
      NearestUnits (x.value / (powerOfTen places).value * unitsPerOne)
        (x / powerOfTen places).magnitude := by
  have power := isSize_powerOfTen inside
  have above := nine_lt_powerOfTen inside positive
  have nonzero : (powerOfTen places).magnitude ≠ 0 := fun zero => by
    rw [value_eq_zero_iff.mpr zero] at above
    linarith
  have quotient := div_nonneg size.value_nonneg power.value_nonneg
  have finite : (x / powerOfTen places).isFinite = true := by
    rw [isFinite_div_iff size.finite power.finite nonzero]
    refine fun overflows => size.not_overflows (overflows.mono ?_)
    rw [abs_of_nonneg quotient, abs_of_nonneg size.value_nonneg]
    exact div_le_self size.value_nonneg (by linarith)
  refine ⟨⟨finite, ?_⟩, ?_⟩
  · rw [div_of_isFinite size.finite power.finite nonzero, negative_ofUnits, size.unsigned,
      power.unsigned]
    rfl
  · have near := nearestUnits_div size.finite power.finite nonzero finite
    rwa [abs_of_nonneg quotient] at near

theorem IsSize.off_div (size : IsSize x) (off : Off count loss x.value q) (nonneg : 0 ≤ q)
    (lossNonneg : 0 ≤ loss) (inside : places ≤ 308) (positive : places ≠ 0) :
    Off (count + 2) (loss / 8 + 1 / 2) (x / powerOfTen places).value (q / 10 ^ places) := by
  have above := nine_lt_powerOfTen inside positive
  obtain ⟨sizeQuotient, near⟩ := size.div_powerOfTen inside positive
  have quotient := off.div (within_powerOfTen inside) nonneg (by linarith) (by positivity)
  have rounded := quotient.round (div_nonneg size.value_nonneg (by linarith)) near
  rw [sizeQuotient.value_eq]
  refine rounded.mono (by positivity) (by omega) ?_
  have room : 8 ≤ (powerOfTen places).value * shrink := by
    have scaled := mul_le_mul_of_nonneg_right above.le shrink_pos.le
    have nine : (8 : ℚ) ≤ 9 * shrink := by norm_num [shrink]
    exact nine.trans scaled
  rw [div_div]
  exact add_le_add_left (div_le_div_of_nonneg_left lossNonneg (by norm_num) room) _

theorem IsSize.div_of_zero (size : IsSize x) (zero : x.magnitude = 0) (inside : places ≤ 308)
    (positive : places ≠ 0) : x / powerOfTen places = x := by
  obtain ⟨sizeQuotient, near⟩ := size.div_powerOfTen inside positive
  rw [value_eq_zero_iff.mpr zero, zero_div, zero_mul] at near
  exact sizeQuotient.eq_of_magnitude_eq size (near.eq_zero.trans zero.symm)

theorem lowerSteps_of_zero (zero : x.magnitude = 0) (steps : ℕ) : lowerSteps x steps = x := by
  cases steps with
  | zero => rfl
  | succ steps => exact if_pos zero

theorem IsSize.lowerSteps_succ (size : IsSize x) (steps : ℕ) :
    lowerSteps x (steps + 1) = lowerSteps (x / powerOfTen 308) steps := by
  by_cases zero : x.magnitude = 0
  · rw [size.div_of_zero zero (Nat.le_refl _) (by decide), lowerSteps_of_zero zero,
      lowerSteps_of_zero zero]
  · exact if_neg zero

theorem lowered_nonneg (digits places : ℕ) : (0 : ℚ) ≤ digits / 10 ^ places := by positivity

/-- So far down not even an eighth of the least double is left. -/
theorem lowered_le (fits : digits < 2 ^ 64) (far : 616 ≤ places) :
    (digits : ℚ) / 10 ^ places ≤ 1 / 8 / unitsPerOne := by
  have powers (more : ℕ) (bound : 67 + more ≤ 3 * places) : 2 ^ 67 * 2 ^ more ≤ 10 ^ places := by
    rw [← Nat.pow_add]
    exact (Nat.pow_le_pow_right (by decide) bound).trans (Decimal.two_pow_le_ten_pow places)
  have room : 2 ^ 67 * unitsPerOne ≤ 10 ^ places := by
    unfold unitsPerOne
    exact powers 1074 (by omega)
  have roomRat : ((2 ^ 67 * unitsPerOne : ℕ) : ℚ) ≤ (10 ^ places : ℕ) := Nat.cast_le.mpr room
  rw [Nat.cast_mul, Nat.cast_pow, Nat.cast_pow, Nat.cast_ofNat, Nat.cast_ofNat] at roomRat
  have below : (digits : ℚ) * 8 ≤ 2 ^ 67 := by exact_mod_cast (by omega : digits * 8 ≤ 2 ^ 67)
  have scaled := mul_le_mul_of_nonneg_right below unitsPerOne_pos.le
  have positive : (0 : ℚ) < 8 * unitsPerOne := mul_pos (by norm_num) unitsPerOne_pos
  rw [div_div, div_le_div_iff₀ (by positivity) positive, one_mul, ← mul_assoc]
  exact scaled.trans roomRat

/-- Numbers that are lowered twice come to nothing. -/
theorem lowered_twice (fits : digits < 2 ^ 64) :
    IsSize (ofInt digits / powerOfTen 308 / powerOfTen 308) ∧
      (ofInt digits / powerOfTen 308 / powerOfTen 308).magnitude = 0 := by
  have whole := isSize_ofInt fits
  have once := (whole.div_powerOfTen (Nat.le_refl 308) (by decide)).1
  have twice := (once.div_powerOfTen (Nat.le_refl 308) (by decide)).1
  have first := Off.of_within (within_ofInt fits) whole.value_nonneg
  have second := whole.off_div first (Nat.cast_nonneg _) le_rfl (Nat.le_refl 308) (by decide)
  obtain ⟨rounded, nonneg, within, error⟩ :=
    once.off_div second (lowered_nonneg _ _) (by norm_num) (Nat.le_refl 308) (by decide)
  refine ⟨twice, ?_⟩
  by_contra nonzero
  -- One unit at least would be left of less than an eighth of one and what is lost.
  have least : 1 / unitsPerOne ≤ (ofInt digits / powerOfTen 308 / powerOfTen 308).value := by
    have one : (1 : ℚ) ≤ (unitsOf (ofInt digits / powerOfTen 308 / powerOfTen 308).magnitude : ℚ) :=
      Nat.one_le_cast.mpr (units_pos nonzero)
    rw [twice.value_eq]
    exact div_le_div_of_nonneg_right one unitsPerOne_pos.le
  have upper := within.upper
  rw [div_div, ← pow_add] at upper
  have shrunk := upper.trans (lowered_le fits (Nat.le_refl 616))
  have half : (1 / 2 : ℚ) ≤ shrink ^ (1 + 2 + 2) := by norm_num [shrink]
  have scaled := mul_le_mul_of_nonneg_left half nonneg
  have above := (abs_le.mp error).2
  have unit : (0 : ℚ) < 1 / unitsPerOne := one_div_pos.mpr unitsPerOne_pos
  rw [div_eq_mul_one_div _ (unitsPerOne : ℚ)] at above shrunk
  linarith

/-- The steps of 308 places that are made, and the places that remain. -/
theorem exists_steps (positive : places ≠ 0) :
    ∃ steps last, places = 308 * steps + last ∧ last ≠ 0 ∧ last ≤ 308 ∧
      ∀ x, lower x places = lowerSteps x steps / powerOfTen last := by
  refine ⟨(places - 1) / 308, places - 308 * ((places - 1) / 308), by omega, by omega, by omega, ?_⟩
  exact fun x => rfl

/-- Lowering rounds the digits, and the powers of ten and the quotients at most twice. -/
theorem off_lower (fits : digits < 2 ^ 64) (positive : places ≠ 0) :
    IsSize (lower (ofInt digits) places) ∧
      Off 5 1 (lower (ofInt digits) places).value (digits / 10 ^ places) := by
  obtain ⟨steps, last, parts, lastPositive, lastInside, lowered⟩ := exists_steps positive
  have whole := isSize_ofInt fits
  have once := (whole.div_powerOfTen (Nat.le_refl 308) (by decide)).1
  have nonneg : (0 : ℚ) ≤ digits := Nat.cast_nonneg digits
  have first := Off.of_within (within_ofInt fits) whole.value_nonneg
  rw [lowered]
  rcases steps with _ | _ | steps
  · have off := whole.off_div first nonneg le_rfl lastInside lastPositive
    rw [Nat.mul_zero, Nat.zero_add] at parts
    rw [parts]
    refine ⟨(whole.div_powerOfTen lastInside lastPositive).1, ?_⟩
    exact off.mono (lowered_nonneg _ _) (by norm_num) (by norm_num)
  · have second := whole.off_div first nonneg le_rfl (Nat.le_refl 308) (by decide)
    have off := once.off_div second (lowered_nonneg _ _) (by norm_num) lastInside lastPositive
    rw [div_div, ← pow_add] at off
    rw [whole.lowerSteps_succ, parts]
    refine ⟨(once.div_powerOfTen lastInside lastPositive).1, ?_⟩
    exact off.mono (lowered_nonneg _ _) (by norm_num) (by norm_num)
  · obtain ⟨twice, zero⟩ := lowered_twice fits
    have nothing := lowered_le fits (show 616 ≤ places by omega)
    rw [div_eq_mul_one_div _ (unitsPerOne : ℚ)] at nothing
    have unit : (0 : ℚ) < 1 / unitsPerOne := one_div_pos.mpr unitsPerOne_pos
    have small := lowered_nonneg digits places
    rw [whole.lowerSteps_succ, once.lowerSteps_succ, lowerSteps_of_zero zero,
      twice.div_of_zero zero lastInside lastPositive]
    refine ⟨twice, digits / 10 ^ places, small, (Within.refl _).mono small small (by norm_num), ?_⟩
    rw [value_eq_zero_iff.mpr zero, zero_sub, abs_neg, abs_of_nonneg small]
    linarith

end Lowering

end TableReport.Json.FloatReading
