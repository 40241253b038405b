import TableReport.Proofs.Binary64.Value
import TableReport.Proofs.Decimal.Text

/-!
Where a layout changes from one notation to the other. The choice is made by the
exponent of the leading digit of the shortest decimal, and it comes out as a choice by
the double itself: rounding keeps the order of numbers, so the exponent reaches a
given power of ten exactly if the double reaches the one nearest to that power,
provided that the double nearest to the power is written as the power.
-/

namespace TableReport

open Numeral

section Lengths

theorem lt_ten_pow_length (n : ℕ) : n < 10 ^ (digitChars n).length :=
  (Nat.length_toDigits_le_iff (by decide) Nat.length_toDigits_pos).mp (Nat.le_refl _)

theorem ten_pow_length_le {n : ℕ} (positive : 0 < n) : 10 ^ ((digitChars n).length - 1) ≤ n := by
  by_contra above
  rcases Nat.eq_zero_or_pos ((digitChars n).length - 1) with single | more
  · rw [single] at above
    omega
  · have shorter := (Nat.length_toDigits_le_iff (by decide) more).mpr (Nat.not_le.mp above)
    have := (isDigitRow_digitChars n).nonempty
    change (digitChars n).length ≤ (digitChars n).length - 1 at shorter
    omega

end Lengths

namespace Decimal

variable {d e : Decimal} {tie : Tie} {magnitude power : ℕ} {exponent : ℤ}

/-- The exponent of the leading digit. -/
def lead (d : Decimal) : ℤ := (digitChars d.digits).length + d.exponent - 1

theorem value_nonneg (d : Decimal) : 0 ≤ d.value :=
  mul_nonneg (Nat.cast_nonneg _) (zpow_pos (by norm_num) _).le

theorem ten_zpow_lead_le (positive : 0 < d.digits) : (10 : ℚ) ^ d.lead ≤ d.value := by
  have length : 0 < (digitChars d.digits).length := Nat.length_toDigits_pos
  have split : d.lead = ((digitChars d.digits).length - 1 : ℕ) + d.exponent := by
    unfold lead
    omega
  have bound : ((10 ^ ((digitChars d.digits).length - 1) : ℕ) : ℚ) ≤ d.digits :=
    Nat.cast_le.mpr (ten_pow_length_le positive)
  rw [split, zpow_add₀ (by norm_num), zpow_natCast, value]
  push_cast at bound
  exact mul_le_mul_of_nonneg_right bound (zpow_pos (by norm_num) _).le

theorem value_lt_ten_zpow : d.value < (10 : ℚ) ^ (d.lead + 1) := by
  have split : d.lead + 1 = ((digitChars d.digits).length : ℕ) + d.exponent := by
    unfold lead
    omega
  have bound : (d.digits : ℚ) < ((10 ^ (digitChars d.digits).length : ℕ) : ℚ) :=
    Nat.cast_lt.mpr (lt_ten_pow_length d.digits)
  rw [split, zpow_add₀ (by norm_num), zpow_natCast, value]
  push_cast at bound
  exact mul_lt_mul_of_pos_right bound (zpow_pos (by norm_num) _)

/-- Rounding keeps the order of numbers. -/
theorem nearest_mono (rises : d.value ≤ e.value) : d.nearest ≤ e.nearest := by
  obtain ⟨low, nearLow, nearest_d⟩ := d.exists_nearestUnits
  obtain ⟨high, nearHigh, nearest_e⟩ := e.exists_nearestUnits
  have scaled : d.value * Binary64.unitsPerOne ≤ e.value * Binary64.unitsPerOne :=
    mul_le_mul_of_nonneg_right rises Binary64.unitsPerOne_pos.le
  rw [nearest_d, nearest_e]
  exact min_le_min_left _ (nearLow.mono nearHigh scaled)

theorem nearestUnits_of_nearest (nearest : d.nearest = magnitude)
    (finite : magnitude < Binary64.infinityMagnitude) :
    Binary64.NearestUnits (d.value * Binary64.unitsPerOne) magnitude := by
  obtain ⟨magnitude', near, nearest'⟩ := d.exists_nearestUnits
  obtain rfl : magnitude' = magnitude := by omega
  exact near

theorem value_ten_pow (exponent : ℤ) : value ⟨1, exponent⟩ = 10 ^ exponent := by
  simp [value]

/-- A power of ten that the double nearest to it is written as divides the doubles as it
divides their leading digits. -/
theorem le_lead_shortest_iff (finite : magnitude < Binary64.infinityMagnitude)
    (nonzero : magnitude ≠ 0) (nearest : nearest ⟨1, exponent⟩ = power)
    (written : (shortest tie power).lead = exponent) :
    exponent ≤ (shortest tie magnitude).lead ↔ power ≤ magnitude := by
  have reads : (shortest tie magnitude).nearest = magnitude := nearest_shortest finite
  constructor
  · intro above
    have positive := Nat.pos_of_ne_zero (digits_ne_zero_of_nearest (reads ▸ nonzero))
    have rises : value ⟨1, exponent⟩ ≤ (shortest tie magnitude).value :=
      calc value ⟨1, exponent⟩ = 10 ^ exponent := value_ten_pow exponent
        _ ≤ 10 ^ (shortest tie magnitude).lead := zpow_le_zpow_right₀ (by norm_num) above
        _ ≤ (shortest tie magnitude).value := ten_zpow_lead_le positive
    rw [← nearest, ← reads]
    exact nearest_mono rises
  · intro reached
    by_contra below
    have falls : (shortest tie magnitude).value ≤ value ⟨1, exponent⟩ :=
      calc (shortest tie magnitude).value ≤ 10 ^ ((shortest tie magnitude).lead + 1) :=
            value_lt_ten_zpow.le
        _ ≤ 10 ^ exponent := zpow_le_zpow_right₀ (by norm_num) (by omega)
        _ = value ⟨1, exponent⟩ := (value_ten_pow exponent).symm
    have same : magnitude = power := by
      apply Nat.le_antisymm _ reached
      rw [← nearest, ← reads]
      exact nearest_mono falls
    rw [same, written] at below
    exact below (le_refl _)

/-- A layout that always has a point has a row of digits on either side of it. -/
theorem positional_pointed {digits : List Char} (row : IsDigitRow digits) (place : ℤ)
    (noLeadingZero : digits.head? = some '0' → digits = ['0'] ∧ place = 1) :
    ∃ fraction, IsDigitRow (positionalNumeral true digits place).whole ∧ IsDigitRow fraction ∧
      positional true digits place =
        (positionalNumeral true digits place).whole ++ '.' :: fraction := by
  have spells := spells_positional row true place noLeadingZero
  obtain ⟨exponentText, exponentSpells, text_eq⟩ := spells.parts
  have bare : exponentText = [] := by
    cases exponentSpells
    rfl
  cases present : (positionalNumeral true digits place).fraction with
  | none =>
      have notWhole := isWhole_positionalNumeral digits place
      rw [Numeral.isWhole, present] at notWhole
      exact absurd notWhole (by simp [positionalNumeral])
  | some fraction =>
      refine ⟨fraction, spells.wholeRow, spells.fractionRow fraction present, ?_⟩
      rw [present, bare] at text_eq
      simpa [positionalNumeral, fractionChars] using text_eq

end Decimal

namespace FloatStyle

variable (style : FloatStyle) {magnitude : ℕ}

theorem layout_plain (nonzero : magnitude ≠ 0)
    (reached : style.plainFrom ≤ (Decimal.shortest style.tie magnitude).lead)
    (below : (Decimal.shortest style.tie magnitude).lead < style.plainBelow) :
    style.layout magnitude =
      Decimal.positional style.pointZero (digitChars (Decimal.shortest style.tie magnitude).digits)
        ((Decimal.shortest style.tie magnitude).lead + 1) := by
  unfold Decimal.lead at reached below ⊢
  unfold layout
  rw [if_neg nonzero]
  dsimp only
  rw [if_pos (by simp only [reached, below, decide_true, Bool.and_true])]

theorem layout_scientific (nonzero : magnitude ≠ 0)
    (outside : ¬(style.plainFrom ≤ (Decimal.shortest style.tie magnitude).lead ∧
      (Decimal.shortest style.tie magnitude).lead < style.plainBelow)) :
    style.layout magnitude =
      Decimal.positional style.mantissaPointZero
          (digitChars (Decimal.shortest style.tie magnitude).digits) 1 ++
        style.exponentMark ::
          ((if (Decimal.shortest style.tie magnitude).lead < 0 then ['-']
            else if style.exponentPlus then ['+'] else []) ++
            digitChars (Decimal.shortest style.tie magnitude).lead.natAbs) := by
  have row := isDigitRow_digitChars (Decimal.shortest style.tie magnitude).digits
  unfold Decimal.lead at outside ⊢
  unfold layout
  rw [if_neg nonzero]
  dsimp only
  rw [if_neg (by simpa using outside)]
  exact congrArg (· ++ _) (mantissa_eq_positional row.nonempty _)

end FloatStyle

end TableReport
