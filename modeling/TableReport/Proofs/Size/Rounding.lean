import TableReport.Proofs.Binary64.Arithmetic
import TableReport.Proofs.Size.Text
import TableReport.TableOrder

/-!
How the amounts of size texts are rounded. A whole amount is multiplied exactly. An
amount with a point goes through the double nearest to it; the factor of a unit is a
power of two, so the product of doubles is exact, and its whole part is that of the
double nearest to the exact size.
-/

namespace TableReport

open Binary64

namespace Size

theorem factor_eq_two_pow (unit : SizeUnit) : ∃ count ≤ 40, unit.factor = 2 ^ count := by
  cases unit
  · exact ⟨0, by decide⟩
  · exact ⟨10, by decide⟩
  · exact ⟨20, by decide⟩
  · exact ⟨30, by decide⟩
  · exact ⟨40, by decide⟩

/-- A size that fits lies far below infinity. -/
theorem inRange_of_small {magnitude size : ℕ} (small : size / unitsPerOne < limit)
    (below : unitsOf magnitude ≤ size) : magnitude < infinityMagnitude := by
  have room : limit ≤ 2 ^ 1024 := by
    rw [limit]
    gcongr <;> norm_num
  rw [Nat.div_lt_iff_lt_mul zero_lt_unitsPerOne] at small
  rw [← strictMono_unitsOf.lt_iff_lt, unitsOf_infinityMagnitude]
  exact (below.trans_lt small).trans_le (Nat.mul_le_mul_right _ room)

theorem count?_of_infinite {magnitude size : ℕ} (infinite : infinityMagnitude ≤ magnitude)
    (below : unitsOf magnitude ≤ size) : count? (size / unitsPerOne) = none :=
  if_neg fun small => Nat.not_lt.mpr infinite (inRange_of_small small below)

theorem count?_of_exact {x y : Binary64} {product : ℕ} (finiteX : x.isFinite)
    (finiteY : y.isFinite) (exact : x.units * y.units = unitsOf product * unitsPerOne) :
    (if (x * y).isFinite then count? (x * y).floorAbs else none) =
      count? (unitsOf product / unitsPerOne) := by
  have magnitude := mul_magnitude_of_exact finiteX finiteY exact
  by_cases inRange : product < infinityMagnitude
  · rw [Nat.min_eq_right inRange.le] at magnitude
    rw [if_pos (isFinite_iff.mpr (magnitude ▸ inRange)), Binary64.floorAbs, Binary64.units, magnitude]
  · rw [Nat.min_eq_left (Nat.not_lt.mp inRange)] at magnitude
    rw [count?_of_infinite (Nat.not_lt.mp inRange) le_rfl, if_neg]
    rw [isFinite_iff, magnitude]
    exact lt_irrefl _

/-- The product of doubles is exact, since the factor only moves the exponent. -/
theorem scaled?_eq {amount : Decimal} {magnitude : ℕ} (unit : SizeUnit)
    (near : NearestUnits (amount.value * unitsPerOne) magnitude) :
    scaled? amount unit = count? (unitsOf magnitude * unit.factor / unitsPerOne) := by
  obtain ⟨count, bound, factor⟩ := factor_eq_two_pow unit
  have positive : 0 < unit.factor := factor ▸ Nat.two_pow_pos count
  have factorBound : unit.factor ≤ 2 ^ 53 := by
    rw [factor]
    exact Nat.pow_le_pow_right (by decide) (by omega)
  obtain ⟨finiteFactor, unitsFactor⟩ := ofInt_exact factorBound
  rw [← isFinite_iff] at finiteFactor
  obtain ⟨magnitude', near', rounded⟩ := amount.exists_nearestUnits
  obtain rfl := near.unique near'
  unfold scaled?
  dsimp only
  by_cases finite : magnitude < infinityMagnitude
  · have read : (Binary64.ofDecimal false amount).magnitude = magnitude :=
      rounded.trans (Nat.min_eq_right finite.le)
    obtain ⟨product, exact⟩ := exists_unitsOf_mul_two_pow magnitude count
    rw [← factor] at exact
    rw [← exact]
    refine count?_of_exact (isFinite_iff.mpr (read ▸ finite)) finiteFactor ?_
    rw [Binary64.units, Binary64.units, read, unitsFactor, exact, Nat.mul_assoc]
  · have infinite : (Binary64.ofDecimal false amount).isInfinite :=
      decide_eq_true (rounded.trans (Nat.min_eq_left (Nat.not_lt.mp finite)))
    have nonzero : (Binary64.ofInt unit.factor).magnitude ≠ 0 := by
      intro zero
      rw [zero, unitsOf_zero] at unitsFactor
      exact absurd unitsFactor.symm (Nat.mul_pos positive zero_lt_unitsPerOne).ne'
    rw [count?_of_infinite (Nat.not_lt.mp finite) (Nat.le_mul_of_pos_right _ positive), if_neg]
    rw [mul_of_isInfinite infinite finiteFactor nonzero]
    decide

end Size

namespace Binary64.NearestUnits

variable {q : ℚ} {a b count : ℕ}

/-- Scaling by a power of two leaves the whole part to rounding once. The two ways
differ only for numbers that are far below one. -/
theorem floor_scale (near : NearestUnits q a) (scaled : NearestUnits (q * 2 ^ count) b)
    (small : count ≤ 1000) : unitsOf a * 2 ^ count / unitsPerOne = unitsOf b / unitsPerOne := by
  have first : unitsOf (2 ^ 52) = 2 ^ 52 := by decide
  have firstNear := nearestUnits_unitsOf (2 ^ 52)
  rw [first] at firstNear
  by_cases normal : ((2 ^ 52 : ℕ) : ℚ) ≤ q
  · rw [scaled.unique (near.scale normal count), unitsOf_add_binades (firstNear.mono near normal)]
  · have low := (not_le.mp normal).le
    have lowScaled := mul_le_mul_of_nonneg_right low (show (0 : ℚ) ≤ 2 ^ count by positivity)
    have lowA := strictMono_unitsOf.monotone (near.mono firstNear low)
    have lowB := strictMono_unitsOf.monotone (scaled.mono (firstNear.scale le_rfl count) lowScaled)
    rw [unitsOf_add_binades le_rfl, first] at lowB
    rw [first] at lowA
    have room : 2 ^ 52 * 2 ^ count < unitsPerOne := by
      rw [← Nat.pow_add, unitsPerOne, Nat.pow_lt_pow_iff_right (by decide)]
      omega
    rw [Nat.div_eq_of_lt ((Nat.mul_le_mul_right _ lowA).trans_lt room),
      Nat.div_eq_of_lt (lowB.trans_lt room)]

/-- The whole part fits 64 bits unless the number is rounded to `2 ^ 64` or beyond. -/
theorem floor_lt_iff (near : NearestUnits (q * unitsPerOne) a) :
    unitsOf a / unitsPerOne < Size.limit ↔ q < 2 ^ 64 - 1024 := by
  have last : Splits (1085 * 2 ^ 52 + (2 ^ 53 - 1)) 1085 (2 ^ 53 - 1) :=
    ⟨rfl, by decide, .inr (by decide)⟩
  have step : 2 ^ 1085 = 2048 * unitsPerOne := by
    rw [unitsPerOne, show 2048 = 2 ^ 11 by rfl, ← Nat.pow_add]
  have value := last.unitsOf_eq
  have next := last.unitsOf_succ (by decide)
  rw [value, step] at next
  rw [step] at value
  have closes : unitsOf (1085 * 2 ^ 52 + (2 ^ 53 - 1) + 1) = Size.limit * unitsPerOne := by
    rw [next, Size.limit]
    ring
  have middle : ((2 ^ 53 - 1 : ℕ) * (2048 * unitsPerOne : ℕ) : ℚ) + (Size.limit * unitsPerOne : ℕ) =
      2 * ((2 ^ 64 - 1024) * unitsPerOne) := by
    rw [Size.limit]
    push_cast
    ring
  rw [Nat.div_lt_iff_lt_mul zero_lt_unitsPerOne, ← closes, strictMono_unitsOf.lt_iff_lt,
    Nat.lt_succ_iff, near.le_iff_of_odd (by decide), closes, value, Nat.cast_mul, middle,
    mul_lt_mul_iff_right₀ two_pos, mul_lt_mul_iff_left₀ unitsPerOne_pos]

theorem floor_mono {q' : ℚ} (first : NearestUnits (q * unitsPerOne) a)
    (second : NearestUnits (q' * unitsPerOne) b) (rises : q ≤ q') :
    unitsOf a / unitsPerOne ≤ unitsOf b / unitsPerOne := by
  have scaled := mul_le_mul_of_nonneg_right rises unitsPerOne_pos.le
  exact Nat.div_le_div_right (strictMono_unitsOf.monotone (first.mono second scaled))

/-- A whole number of at most 53 bits is not moved by rounding. -/
theorem exists_whole {n : ℕ} (bound : n ≤ 2 ^ 53) :
    ∃ magnitude, NearestUnits (n * unitsPerOne) magnitude ∧
      unitsOf magnitude / unitsPerOne = n := by
  obtain ⟨magnitude, exact⟩ := exists_unitsOf_eq bound 1074
  change unitsOf magnitude = n * unitsPerOne at exact
  have near := nearestUnits_unitsOf magnitude
  rw [exact, Nat.cast_mul] at near
  exact ⟨magnitude, near, by rw [exact, Nat.mul_div_cancel n zero_lt_unitsPerOne]⟩

end Binary64.NearestUnits

namespace ReadableSize

variable {size : ReadableSize} {magnitude : ℕ} {d : Binary64}

/-- The amount as it is read when it is written with a point. -/
def decimal (size : ReadableSize) : Decimal :=
  { digits := size.digits, exponent := -size.places }

theorem decimal_value (size : ReadableSize) : size.decimal.value = size.amount := by
  unfold decimal Decimal.value amount
  rw [zpow_neg, zpow_natCast, div_eq_mul_inv]

theorem amount_nonneg (size : ReadableSize) : 0 ≤ size.amount := by
  unfold amount
  positivity

theorem amount_le_exact (size : ReadableSize) : size.amount ≤ size.exact := by
  obtain ⟨count, -, factor⟩ := Size.factor_eq_two_pow size.unit
  unfold exact
  rw [factor]
  exact le_mul_of_one_le_right size.amount_nonneg (by exact_mod_cast Nat.one_le_two_pow)

theorem exact_nonneg (size : ReadableSize) : 0 ≤ size.exact :=
  size.amount_nonneg.trans size.amount_le_exact

theorem exists_nearestUnits (size : ReadableSize) :
    ∃ magnitude, NearestUnits (size.exact * unitsPerOne) magnitude :=
  Binary64.exists_nearestUnits (mul_nonneg size.exact_nonneg unitsPerOne_pos.le)

theorem readable?_bare (bare : size.isPointed = false) :
    Size.readable? size.chars = Size.count? (size.digits * size.unit.factor) := by
  have written : size.fraction = none := by simpa [isPointed] using bare
  rw [readable?_chars, amountChars, digits, written, Numeral.fractionChars, Option.getD_none,
    List.append_nil, Size.ofAmount?_whole size.wholeRow]

/-- The amount is rounded before it is scaled, but what counts is the double nearest
to the scaled amount. -/
theorem floor_amount_scaled (near : NearestUnits (size.amount * unitsPerOne) magnitude) {scaled : ℕ}
    (nearScaled : NearestUnits (size.exact * unitsPerOne) scaled) :
    unitsOf magnitude * size.unit.factor / unitsPerOne = unitsOf scaled / unitsPerOne := by
  obtain ⟨count, bound, factor⟩ := Size.factor_eq_two_pow size.unit
  rw [exact, mul_right_comm, factor, Nat.cast_pow, Nat.cast_ofNat] at nearScaled
  rw [factor]
  exact near.floor_scale nearScaled (by omega)

theorem readable?_pointed (pointed : size.isPointed)
    (near : NearestUnits (size.exact * unitsPerOne) magnitude) :
    Size.readable? size.chars = Size.count? (unitsOf magnitude / unitsPerOne) := by
  obtain ⟨fraction, written⟩ := Option.isSome_iff_exists.mp pointed
  obtain ⟨read, nearRead, -⟩ := size.decimal.exists_nearestUnits
  have scaled := Size.scaled?_eq size.unit nearRead
  rw [decimal_value] at nearRead
  rw [size.floor_amount_scaled nearRead near] at scaled
  rw [← scaled, readable?_chars, amountChars, written, Numeral.fractionChars,
    Size.ofAmount?_pointed size.wholeRow (size.fractionRow fraction written), decimal, digits,
    places, written, Option.getD_some]

end ReadableSize

end TableReport
