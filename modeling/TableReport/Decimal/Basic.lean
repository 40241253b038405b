import TableReport.Binary64.Rounding

/-!
Decimal numbers `digits * 10 ^ exponent`, and the double nearest to one.
-/

namespace TableReport

/-- A non-negative decimal number, `digits * 10 ^ exponent`. -/
structure Decimal where
  /-- The significant digits, read as one number. -/
  digits : Nat
  /-- The power of ten of the last digit. -/
  exponent : Int
deriving DecidableEq, Repr

namespace Decimal

/-- The same number with no zero at the end of its digits. -/
def trim (d : Decimal) : Decimal :=
  if _ : d.digits ≠ 0 ∧ d.digits % 10 = 0 then
    trim { digits := d.digits / 10, exponent := d.exponent + 1 }
  else
    d
termination_by d.digits
decreasing_by
  rename_i ends
  exact Nat.div_lt_self (Nat.pos_of_ne_zero ends.1) (by decide)

/-- The magnitude of the double nearest to a decimal number. An exponent that
alone decides for infinity or for zero is not multiplied out. -/
def nearest (d : Decimal) : Nat :=
  if d.digits = 0 then 0
  else
    match d.exponent with
    | .ofNat up =>
      if 400 < up then Binary64.infinityMagnitude
      else Binary64.nearestMagnitude (d.digits * 10 ^ up * Binary64.unitsPerOne) 1
    | .negSucc down =>
      if 400 + d.digits.log2 < down then 0
      else Binary64.nearestMagnitude (d.digits * Binary64.unitsPerOne) (10 ^ (down + 1))

theorem nearest_le (d : Decimal) : d.nearest ≤ Binary64.infinityMagnitude := by
  unfold nearest
  split
  · exact Nat.zero_le _
  · split <;> split
    · exact Nat.le_refl _
    · exact Binary64.nearestMagnitude_le _ _
    · exact Nat.zero_le _
    · exact Binary64.nearestMagnitude_le _ _

end Decimal

/-- The double of the given sign that is nearest to a decimal number. -/
def Binary64.ofDecimal (negative : Bool) (d : Decimal) : Binary64 where
  negative
  magnitude := d.nearest
  magnitude_lt := Nat.lt_of_le_of_lt d.nearest_le (by decide)

end TableReport
