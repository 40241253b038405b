import TableReport.Proofs.Binary64.Arithmetic
import TableReport.Proofs.Decimal.Layout

/-!
The numbers that numerals and decimals stand for, and the doubles that they are read as.
-/

namespace TableReport

/-- Reading a decimal as a double is off by a rounding error. -/
theorem Binary64.abs_ofDecimal_sub {negative : Bool} {d : Decimal}
    (finite : (ofDecimal negative d).isFinite) :
    |(|(ofDecimal negative d).value|) - d.value| ≤ max d.value (1 / 1000) / 2 ^ 53 := by
  have near := Decimal.nearestUnits_of_nearest (d := d) rfl (isFinite_iff.mp finite)
  rw [abs_value]
  exact near.abs_sub_le_max d.value_nonneg

namespace Numeral

/-- The number that a numeral stands for. -/
def value (n : Numeral) : ℚ := (if n.negative then -1 else 1) * n.decimal.value

theorem abs_value (n : Numeral) : |n.value| = n.decimal.value := by
  rw [value, Binary64.abs_sign_mul, abs_of_nonneg n.decimal.value_nonneg]

theorem decimal_of_isWhole {n : Numeral} (whole : n.isWhole = true) :
    n.decimal = ⟨digitsValue n.whole, 0⟩ := by
  obtain ⟨negative, digits, fraction, exponent⟩ := n
  simp only [isWhole, Bool.and_eq_true, Option.isNone_iff_eq_none] at whole
  simp [decimal, whole.1, whole.2]

/-- A numeral is read as the one double of its sign that is nearest to its value. -/
theorem isNearest_value_iff {n : Numeral} {x y : Binary64} (reads : n.toBinary64 = x)
    (finite : x.isFinite) (sameSign : y.negative = n.negative) : y.IsNearest n.value ↔ y = x := by
  subst reads
  have near :=
    Decimal.nearestUnits_of_nearest (d := n.decimal) rfl (Binary64.isFinite_iff.mp finite)
  exact Binary64.isNearest_iff_of_sign (x := n.toBinary64) near n.decimal.value_nonneg finite
    sameSign

/-- A numeral is read as an infinity just if its value overflows. -/
theorem isFinite_toBinary64_iff {n : Numeral} :
    n.toBinary64.isFinite = true ↔ ¬Binary64.Overflows n.value := by
  obtain ⟨magnitude, near, nearest⟩ := n.decimal.exists_nearestUnits
  have magnitude_eq : n.toBinary64.magnitude = n.decimal.nearest := rfl
  rw [← n.abs_value] at near
  rw [← near.infinity_le_iff, Binary64.isFinite_iff, magnitude_eq, nearest]
  omega

end Numeral

end TableReport
