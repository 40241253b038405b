import TableReport.Proofs.Json.FloatReading
import TableReport.Proofs.Json.Scaled

/-!
What the quick reading of decimals makes of a numeral: a double of its sign, near to its
number. It is the nearest one for numerals that are short, and it is infinite only where
the number comes close to the end of the doubles. A double that is written may so come
back as another one, but as a finite one, and near to what it was.
-/

namespace TableReport

open Json FloatReading Binary64

/-- A whole number of 64 bits, or a number of 53 bits that is not scaled by more than 22
powers of ten. -/
def Numeral.IsShort (n : Numeral) : Prop :=
  (n.isWhole = true ∧ digitsValue n.whole < 2 ^ 64) ∨
    (n.decimal.digits < 2 ^ 53 ∧ -22 ≤ n.decimal.exponent ∧ n.decimal.exponent ≤ 22)

instance (n : Numeral) : Decidable n.IsShort := inferInstanceAs (Decidable (_ ∨ _))

namespace Json.FloatReading

variable {n : Numeral} {d : Decimal} {x y : Binary64} {digits places : ℕ}

section Scaled

theorem value_raised (digits up : ℕ) : Decimal.value ⟨digits, up⟩ = digits * 10 ^ up := by
  rw [Decimal.value, zpow_natCast]

theorem value_lowered (digits down : ℕ) :
    Decimal.value ⟨digits, .negSucc down⟩ = digits / 10 ^ (down + 1) := by
  rw [Decimal.value, zpow_negSucc, div_eq_mul_inv]

theorem off_scaled (fits : d.digits < 2 ^ 64) (finite : (scaled d).isFinite) :
    IsSize (scaled d) ∧ Off 5 1 (scaled d).value d.value := by
  obtain ⟨digits, exponent⟩ := d
  cases exponent with
  | ofNat up =>
      obtain ⟨size, within⟩ := within_raise fits finite
      refine ⟨size, ?_⟩
      rw [Int.ofNat_eq_natCast, value_raised]
      exact (Off.of_within within size.value_nonneg).mono (by positivity) (by norm_num) zero_le_one
  | negSucc down =>
      rw [value_lowered]
      exact off_lower fits (Nat.succ_ne_zero down)

theorem overflows_of_scaled (fits : d.digits < 2 ^ 64) (infinite : ¬(scaled d).isFinite = true) :
    Overflows (d.value / shrink ^ 2) := by
  obtain ⟨digits, exponent⟩ := d
  cases exponent with
  | ofNat up =>
      rw [Int.ofNat_eq_natCast, value_raised]
      exact overflows_of_raise fits infinite
  | negSucc down => exact absurd (off_lower fits (Nat.succ_ne_zero down)).1.finite infinite

end Scaled

section Short

theorem units_ofInt (short : digits < 2 ^ 53) : (ofInt digits).units = digits * unitsPerOne :=
  (ofInt_exact short.le).2

/-- Small powers of ten are doubles themselves. -/
theorem units_powerOfTen (small : places ≤ 22) :
    (powerOfTen places).units = 10 ^ places * unitsPerOne := by
  have each : ∀ k : Fin 23, (powerOfTen k).units = 10 ^ k.val * unitsPerOne := by decide +kernel
  exact each ⟨places, by omega⟩

theorem scaled_up (inside : places ≤ 308) :
    scaled ⟨digits, places⟩ = ofInt digits * powerOfTen places :=
  if_pos inside

theorem scaled_down (inside : places + 1 ≤ 308) :
    scaled ⟨digits, .negSucc places⟩ = ofInt digits / powerOfTen (places + 1) := by
  have steps : (places + 1 - 1) / 308 = 0 := by omega
  show lower (ofInt digits) (places + 1) = _
  unfold lower
  dsimp only
  rw [steps, Nat.mul_zero, Nat.sub_zero]
  rfl

theorem magnitude_scaled_whole (fits : digits < 2 ^ 64) :
    (scaled ⟨digits, (0 : ℕ)⟩).magnitude = Decimal.nearest ⟨digits, 0⟩ := by
  have whole := isSize_ofInt fits
  have one := isSize_powerOfTen (Nat.zero_le 308)
  have exact : (ofInt digits).units * (powerOfTen 0).units =
      unitsOf (ofInt digits).magnitude * unitsPerOne := by
    rw [units_powerOfTen (Nat.zero_le 22), Nat.pow_zero, Nat.one_mul, units]
  rw [scaled_up (Nat.zero_le 308), mul_magnitude_of_exact whole.finite one.finite exact,
    Nat.min_eq_right (isFinite_iff.mp whole.finite).le, ofInt_eq_ofDecimal, ofDecimal]

theorem magnitude_raised_short (short : digits < 2 ^ 53) (small : places ≤ 22) :
    (ofInt digits * powerOfTen places).magnitude = Decimal.nearest ⟨digits, places⟩ := by
  have whole := isSize_ofInt (show digits < 2 ^ 64 by omega)
  have power := isSize_powerOfTen (show places ≤ 308 by omega)
  have product : digits * unitsPerOne * (10 ^ places * unitsPerOne) =
      digits * 10 ^ places * unitsPerOne * unitsPerOne := by
    generalize unitsPerOne = one
    ring
  have reduced := @nearestMagnitude_mul_right (digits * 10 ^ places * unitsPerOne) 1 unitsPerOne
    zero_lt_unitsPerOne
  rw [Nat.one_mul] at reduced
  rw [mul_of_isFinite whole.finite power.finite]
  show nearestMagnitude ((ofInt digits).units * (powerOfTen places).units) unitsPerOne = _
  rw [units_ofInt short, units_powerOfTen small, product, reduced,
    Decimal.nearest_eq_nearestMagnitude, Int.toNat_natCast, Int.toNat_neg_natCast, Nat.pow_zero]

theorem magnitude_lowered_short (short : digits < 2 ^ 53) (small : places ≤ 22) :
    (ofInt digits / powerOfTen places).magnitude = Decimal.nearest ⟨digits, -places⟩ := by
  have whole := isSize_ofInt (show digits < 2 ^ 64 by omega)
  have power := isSize_powerOfTen (show places ≤ 308 by omega)
  have nonzero : (powerOfTen places).magnitude ≠ 0 := fun zero => by
    have half := half_le_powerOfTen (show places ≤ 308 by omega)
    rw [value_eq_zero_iff.mpr zero] at half
    linarith
  have reduced := @nearestMagnitude_mul_right (digits * unitsPerOne) (10 ^ places) unitsPerOne
    zero_lt_unitsPerOne
  rw [div_of_isFinite whole.finite power.finite nonzero]
  show nearestMagnitude ((ofInt digits).units * unitsPerOne) (powerOfTen places).units = _
  rw [units_ofInt short, units_powerOfTen small, reduced, Decimal.nearest_eq_nearestMagnitude,
    Int.toNat_neg_natCast, neg_neg, Int.toNat_natCast, Nat.pow_zero, Nat.mul_one]

/-- Both terms are exact, and only their product or quotient is rounded. -/
theorem magnitude_scaled_short (short : d.digits < 2 ^ 53) (low : -22 ≤ d.exponent)
    (high : d.exponent ≤ 22) : (scaled d).magnitude = d.nearest := by
  obtain ⟨digits, exponent⟩ := d
  cases exponent with
  | ofNat up =>
      have small : up ≤ 22 := Int.ofNat_le.mp high
      rw [Int.ofNat_eq_natCast, scaled_up (by omega), magnitude_raised_short short small]
  | negSucc down =>
      have small : down + 1 ≤ 22 := by
        dsimp only at low
        omega
      rw [scaled_down (by omega), magnitude_lowered_short short small]
      rfl

end Short

section Numerals

/-- A short numeral is read as the double nearest to its number. -/
theorem double_eq_of_isShort (short : n.IsShort) : bestEffort.double n = n.toBinary64 := by
  have magnitude : (scaled (kept n)).magnitude = n.decimal.nearest := by
    rcases short with ⟨whole, fits⟩ | ⟨few, low, high⟩
    · have decimal := Numeral.decimal_of_isWhole whole
      rw [kept_eq_decimal (decimal ▸ fits), decimal]
      exact magnitude_scaled_whole fits
    · rw [kept_eq_decimal (by omega), magnitude_scaled_short few low high]
  simp only [bestEffort, Numeral.toBinary64, ofDecimal, magnitude]

theorem value_double (size : IsSize (scaled (kept n))) :
    (bestEffort.double n).value =
      (if n.negative then -1 else 1) * (scaled (kept n)).value := by
  rw [size.value_eq]
  rfl

/-- What a numeral is taken for: a double of its sign, near to its number, and the nearest
one if the numeral is short. -/
structure TakenFor (n : Numeral) (x : Binary64) : Prop where
  finite : x.isFinite = true
  sign : x.negative = n.negative
  near : |x.value - n.value| ≤ |n.value| / 2 ^ 50 + 1 / unitsPerOne
  nearest : n.IsShort → x.IsNearest n.value

theorem takenFor_double (digits : n.HasDigits) (finite : (bestEffort.double n).isFinite) :
    TakenFor n (bestEffort.double n) where
  finite := finite
  sign := rfl
  near := by
    obtain ⟨size, off⟩ := off_scaled (kept_digits_lt n) finite
    have error := off.error_le (kept n).value_nonneg
    have left := abs_kept_sub_le digits
    have triangle := abs_sub_le (scaled (kept n)).value (kept n).value n.decimal.value
    have more := (abs_le.mp left).2
    have nonneg := n.decimal.value_nonneg
    have size : |(bestEffort.double n).value - n.value| =
        |(scaled (kept n)).value - n.decimal.value| := by
      rw [value_double size, Numeral.value, ← mul_sub, abs_sign_mul]
    rw [size, n.abs_value]
    linarith
  nearest short := by
    have same := double_eq_of_isShort short
    rw [same] at finite ⊢
    exact (Numeral.isNearest_value_iff rfl finite rfl).mpr rfl

/-- A numeral is only taken for infinite if its number comes close to the end of the
doubles. -/
theorem overflows_of_double (digits : n.HasDigits)
    (infinite : ¬(bestEffort.double n).isFinite = true) :
    Overflows (n.value * (1 + 5 / 2 ^ 54)) := by
  have overflows := overflows_of_scaled (kept_digits_lt n) infinite
  have more := (abs_le.mp (abs_kept_sub_le digits)).2
  have nonneg := n.decimal.value_nonneg
  have room : 1 + 1 / 2 ^ 60 ≤ (1 + 5 / 2 ^ 54) * shrink ^ 2 := by norm_num [shrink]
  have scaled := mul_le_mul_of_nonneg_left room nonneg
  apply overflows.mono
  rw [abs_of_nonneg (div_nonneg (kept n).value_nonneg (shrink_pow_pos 2).le), abs_mul, n.abs_value,
    abs_of_pos (by norm_num : (0 : ℚ) < 1 + 5 / 2 ^ 54), div_le_iff₀ (shrink_pow_pos 2)]
  linarith

theorem overflows_near_of_double (digits : n.HasDigits)
    (infinite : ¬(bestEffort.double n).isFinite = true) :
    Overflows (n.value * (1 + 1 / 2 ^ 50)) := by
  apply (overflows_of_double digits infinite).mono
  rw [abs_mul, abs_mul]
  exact mul_le_mul_of_nonneg_left (by norm_num) (abs_nonneg _)

/-- Beyond the end of the doubles numerals are taken for infinite. -/
theorem not_isFinite_of_overflows (digits : n.HasDigits)
    (overflows : Overflows (n.value * (1 - 1 / 2 ^ 50))) :
    ¬(bestEffort.double n).isFinite = true := by
  intro finite
  have near := (takenFor_double digits finite).near
  have reached := overflows_iff.mp overflows
  have last := abs_value_le_last finite
  have middle := last_add_next
  have apart := (abs_sub_comm _ _).trans_le near
  have triangle := abs_sub_abs_le_abs_sub n.value (bestEffort.double n).value
  have unit : (1 : ℚ) / unitsPerOne ≤ 1 :=
    (div_le_one unitsPerOne_pos).mpr (Nat.one_le_cast.mpr zero_lt_unitsPerOne)
  have large : (1 : ℚ) < 2 ^ 970 := one_lt_pow₀ (by norm_num) (by norm_num)
  rw [abs_mul, abs_of_pos (by norm_num : (0 : ℚ) < 1 - 1 / 2 ^ 50)] at reached
  generalize (2 : ℚ) ^ 1024 = next at *
  generalize (2 : ℚ) ^ 970 = half at *
  linarith

end Numerals

section Rereading

/-- The text of a finite double is a numeral that the double is the nearest one to. -/
theorem exists_written (finite : x.isFinite = true) :
    ∃ n, Numeral.Spells (floatStyle.chars x) n ∧ n.toBinary64 = x ∧
      NearestUnits (n.decimal.value * unitsPerOne) x.magnitude := by
  obtain ⟨n, spells, value, -⟩ := floatStyle.spells_chars (Or.inl rfl) finite
  have magnitude : n.decimal.nearest = x.magnitude := congrArg Binary64.magnitude value
  exact ⟨n, spells, value, Decimal.nearestUnits_of_nearest magnitude (isFinite_iff.mp finite)⟩

theorem abs_units_sub_le {q : ℚ} (near : NearestUnits (q * unitsPerOne) x.magnitude)
    (nonneg : 0 ≤ q) : |x.units / unitsPerOne - q| ≤ q / 2 ^ 53 + 1 / 2 * (1 / unitsPerOne) := by
  have positive := unitsPerOne_pos
  have error := near.abs_sub_le (mul_nonneg nonneg positive.le)
  rw [abs_units_sub] at error
  refine le_of_mul_le_mul_right (error.trans ?_) positive
  have cancel : 1 / 2 * (1 / (unitsPerOne : ℚ)) * unitsPerOne = 1 / 2 := by field_simp
  rw [add_mul, cancel, add_comm, mul_div_right_comm]
  exact max_le_add_of_nonneg (by norm_num) (by positivity)

/-- Below the last few doubles there is room enough for all that is rounded. -/
theorem isFinite_reread_of_lt (below : x.magnitude < infinityMagnitude - 3) :
    (bestEffort.reread x).isFinite = true := by
  have finite : x.isFinite = true := isFinite_iff.mpr (by omega)
  obtain ⟨n, spells, -, near⟩ := exists_written finite
  rw [reread_eq_double spells]
  by_contra infinite
  have reached := overflows_iff.mp (overflows_of_double spells.hasDigits infinite)
  rw [abs_mul, n.abs_value, abs_of_pos (by norm_num : (0 : ℚ) < 1 + 5 / 2 ^ 54)] at reached
  have middle := near.two_mul_le below
  have rises : (unitsOf x.magnitude : ℚ) ≤ unitsOf (infinityMagnitude - 4) :=
    Nat.cast_le.mpr (strictMono_unitsOf.monotone (by omega))
  have third := value_infinityMagnitude_sub (show 3 ≤ 2 ^ 52 by norm_num)
  have fourth := value_infinityMagnitude_sub (show 4 ≤ 2 ^ 52 by norm_num)
  have doubled : (2 : ℚ) ^ 971 = 2 * 2 ^ 970 := pow_succ' 2 970
  have whole : (2 : ℚ) ^ 1024 = 2 ^ 54 * 2 ^ 970 := pow_add 2 54 970
  rw [div_eq_iff unitsPerOne_pos.ne', doubled, Nat.cast_ofNat] at third fourth
  rw [whole] at reached
  have positive : (0 : ℚ) < 2 ^ 970 := by positivity
  generalize (2 : ℚ) ^ 970 = half at *
  have upper : n.decimal.value ≤ (2 ^ 54 - 7) * half := by
    refine le_of_mul_le_mul_right ?_ unitsPerOne_pos
    linarith
  have scaled := mul_le_mul_of_nonneg_right upper (by norm_num : (0 : ℚ) ≤ 1 + 5 / 2 ^ 54)
  have room : ((2 : ℚ) ^ 54 - 7) * (1 + 5 / 2 ^ 54) < 2 ^ 54 - 1 := by norm_num
  have less := mul_lt_mul_of_pos_right room positive
  linarith only [reached, scaled, less]

/-- The sign has no part in it. -/
theorem isFinite_reread_congr (finite : x.isFinite = true) (same : x.magnitude = y.magnitude) :
    (bestEffort.reread x).isFinite = (bestEffort.reread y).isFinite := by
  have inRange := isFinite_iff.mp finite
  have finiteY : y.isFinite = true := isFinite_iff.mpr (same ▸ inRange)
  obtain ⟨n, spells, positive, -⟩ := floatStyle.spells_layout (Or.inl rfl) inRange
  rw [reread_eq_double (floatStyle.spells_chars_of_layout finite spells positive),
    reread_eq_double (floatStyle.spells_chars_of_layout finiteY (same ▸ spells) positive)]
  rfl

/-- The last few doubles come back as finite ones, too. -/
theorem isFinite_reread_last : ∀ count : Fin 3,
    (bestEffort.reread ⟨false, infinityMagnitude - 1 - count,
      ((Nat.sub_le _ _).trans (Nat.sub_le _ _)).trans_lt (by decide)⟩).isFinite = true := by
  decide +kernel

theorem keepsFinite_bestEffort : bestEffort.KeepsFinite := by
  intro x finite
  by_cases below : x.magnitude < infinityMagnitude - 3
  · exact isFinite_reread_of_lt below
  · have inRange := isFinite_iff.mp finite
    have place : infinityMagnitude - 1 - (infinityMagnitude - 1 - x.magnitude) = x.magnitude := by
      omega
    have last := isFinite_reread_last ⟨infinityMagnitude - 1 - x.magnitude, by omega⟩
    exact (isFinite_reread_congr finite (y := ⟨false, _, _⟩) place.symm).trans last

/-- What comes back of a double that was written: a double of its sign, near to it, and the
same one if what was written is short. -/
structure ComesBackAs (x y : Binary64) : Prop where
  finite : y.isFinite = true
  sign : y.negative = x.negative
  near : |y.value - x.value| ≤ |x.value| / 2 ^ 49 + 2 / unitsPerOne
  same : ∀ n, Numeral.Spells (floatStyle.chars x) n → n.IsShort → y = x

theorem comesBackAs_reread (finite : x.isFinite = true) : ComesBackAs x (bestEffort.reread x) := by
  obtain ⟨n, spells, value, near⟩ := exists_written finite
  have finiteBack := keepsFinite_bestEffort x finite
  rw [reread_eq_double spells] at finiteBack ⊢
  have taken := takenFor_double spells.hasDigits finiteBack
  have sign : n.negative = x.negative := congrArg Binary64.negative value
  refine ⟨finiteBack, taken.sign.trans sign, ?_, fun m spelled short => ?_⟩
  · have nonneg := n.decimal.value_nonneg
    have apart := abs_units_sub_le near nonneg
    have values : |n.value - x.value| = |x.units / unitsPerOne - n.decimal.value| := by
      rw [Numeral.value, Binary64.value, sign, ← mul_sub, abs_sign_mul, abs_sub_comm]
    have triangle := abs_sub_le (bestEffort.double n).value n.value x.value
    have less := (abs_le.mp apart).1
    have unit : (0 : ℚ) < 1 / unitsPerOne := one_div_pos.mpr unitsPerOne_pos
    have step := taken.near
    rw [n.abs_value] at step
    rw [abs_value_eq_units, div_eq_mul_one_div 2 (unitsPerOne : ℚ)]
    generalize (x.units : ℚ) / unitsPerOne = size at *
    generalize 1 / (unitsPerOne : ℚ) = least at *
    generalize n.decimal.value = number at *
    linarith only [values, apart, triangle, step, less, unit, nonneg]
  · have numeral : m = n := by
      have scanned := Numeral.scan?_eq_some spelled
      rw [Numeral.scan?_eq_some spells] at scanned
      cases scanned
      rfl
    rw [← value, ← numeral]
    exact double_eq_of_isShort short

end Rereading

end Json.FloatReading

end TableReport
