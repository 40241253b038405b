import TableReport.Proofs.Size.Count

/-!
How far truncation goes. The count of a size with a point is the whole part of a
double, the one nearest to the exact size. It is the whole part of the size itself as
long as its digits, scaled by the unit, are a number of less than 53 bits. Beyond that
a size just below a whole number may count as that number, and from `2 ^ 53` bytes on
the last digits of a size may be lost.
-/

namespace TableReport

open Binary64

/-- A quotient of a short number lies farther below the next whole number than a
double is off. -/
theorem add_error_lt_next {n m : ℕ} (positive : 0 < m) (short : n < 2 ^ 53) :
    (n : ℚ) / m + (n : ℚ) / m / 2 ^ 53 < (n / m + 1 : ℕ) := by
  have part : (n : ℚ) / 2 ^ 53 < 1 := (div_lt_one (by positivity)).mpr (by exact_mod_cast short)
  have next : (n : ℚ) + 1 ≤ (n / m + 1 : ℕ) * m := by
    exact_mod_cast Nat.succ_le_of_lt ((Nat.div_lt_iff_lt_mul positive).mp (Nat.lt_succ_self _))
  have positiveRat : (0 : ℚ) < m := Nat.cast_pos.mpr positive
  calc (n : ℚ) / m + (n : ℚ) / m / 2 ^ 53 = ((n : ℚ) + n / 2 ^ 53) / m := by ring
    _ < ((n : ℚ) + 1) / m := by gcongr
    _ ≤ (n / m + 1 : ℕ) := (div_le_iff₀ positiveRat).mpr next

namespace Binary64.NearestUnits

variable {q : ℚ} {magnitude n : ℕ}

/-- Rounding does not reach a whole number that is farther off than its error. -/
theorem floor_lt_of_gap (near : NearestUnits (q * unitsPerOne) magnitude) (nonneg : 0 ≤ q)
    (gap : q + q / 2 ^ 53 < n) : unitsOf magnitude / unitsPerOne < n := by
  have positive : 0 < n := by
    have below : (0 : ℚ) < n := (add_nonneg nonneg (by positivity)).trans_lt gap
    exact_mod_cast below
  have one := unitsPerOne_pos
  have error := (abs_le.mp (near.abs_sub_le (mul_nonneg nonneg one.le))).2
  have scaled : q * unitsPerOne + q * unitsPerOne / 2 ^ 53 < n * unitsPerOne := by
    have below := mul_lt_mul_of_pos_right gap one
    rwa [add_mul, div_mul_eq_mul_div] at below
  rw [Nat.div_lt_iff_lt_mul zero_lt_unitsPerOne, ← Nat.cast_lt (α := ℚ), Nat.cast_mul]
  rcases le_max_iff.mp error with small | relative
  · -- An error of half a unit is less than the relative one for all that comes near one.
    have large : (2 : ℚ) ^ 53 ≤ n * unitsPerOne := by
      have room : 2 ^ 53 ≤ unitsPerOne := by
        rw [unitsPerOne, Nat.pow_le_pow_iff_right (by decide)]
        decide
      exact_mod_cast room.trans (Nat.le_mul_of_pos_left unitsPerOne positive)
    by_contra reached
    linarith
  · linarith

end Binary64.NearestUnits

namespace ReadableSize

variable {size : ReadableSize} {magnitude : ℕ}

theorem floor_le_count (near : NearestUnits (size.exact * unitsPerOne) magnitude)
    (small : size.exact ≤ 2 ^ 53) : ⌊size.exact⌋₊ ≤ unitsOf magnitude / unitsPerOne := by
  have below := Nat.floor_le size.exact_nonneg
  have bound : ⌊size.exact⌋₊ ≤ 2 ^ 53 := by exact_mod_cast below.trans small
  obtain ⟨whole, nearWhole, floor⟩ := NearestUnits.exists_whole bound
  exact floor ▸ nearWhole.floor_mono near below

theorem count_le_ceil (near : NearestUnits (size.exact * unitsPerOne) magnitude)
    (small : size.exact ≤ 2 ^ 53) : unitsOf magnitude / unitsPerOne ≤ ⌈size.exact⌉₊ := by
  have bound : ⌈size.exact⌉₊ ≤ 2 ^ 53 := Nat.ceil_le.mpr (by exact_mod_cast small)
  obtain ⟨whole, nearWhole, floor⟩ := NearestUnits.exists_whole bound
  exact floor ▸ near.floor_mono nearWhole (Nat.le_ceil _)

theorem exact_eq_div (size : ReadableSize) :
    size.exact = (size.digits * size.unit.factor : ℕ) / (10 ^ size.places : ℕ) := by
  rw [exact, amount, div_mul_eq_mul_div, Nat.cast_mul, Nat.cast_pow, Nat.cast_ofNat]

theorem count_of_short (near : NearestUnits (size.exact * unitsPerOne) magnitude)
    (short : size.digits * size.unit.factor < 2 ^ 53) :
    unitsOf magnitude / unitsPerOne = ⌊size.exact⌋₊ := by
  have positive : 0 < 10 ^ size.places := Nat.pow_pos (by decide)
  have gap := add_error_lt_next positive short
  rw [← Nat.floor_div_eq_div (K := ℚ), ← exact_eq_div] at gap
  have small : size.exact ≤ 2 ^ 53 := by
    rw [exact_eq_div]
    exact (div_le_self (Nat.cast_nonneg _) (Nat.one_le_cast.mpr positive)).trans
      (by exact_mod_cast short.le)
  exact Nat.le_antisymm (Nat.le_of_lt_succ (near.floor_lt_of_gap size.exact_nonneg gap))
    (size.floor_le_count near small)

end ReadableSize

namespace Size

variable {size : ReadableSize} {n : ℕ}

/-- The count of a size with a point is the whole part of the double nearest to it. Up
to `2 ^ 53` that is the size rounded down or up, and with few enough digits it is the
size rounded down. -/
theorem count_is_floor_of_nearest (pointed : size.isPointed)
    (counted : bytes .readable size.text = .ok n) :
    (∃ d : Binary64, d.IsNearest size.exact ∧ n = ⌊d.value⌋₊) ∧
      (size.exact ≤ 2 ^ 53 → ⌊size.exact⌋₊ ≤ n ∧ n ≤ ⌈size.exact⌉₊) ∧
      (size.digits * size.unit.factor < 2 ^ 53 → n = ⌊size.exact⌋₊) := by
  obtain ⟨magnitude, near⟩ := size.exists_nearestUnits
  obtain ⟨fits, rfl⟩ := (bytes?_pointed_iff pointed near).mp (bytes?_of_bytes counted)
  have inRange := inRange_of_small (near.floor_lt_iff.mpr fits) le_rfl
  refine ⟨⟨⟨false, magnitude, inRange.trans (by decide)⟩, ?_, ?_⟩, fun small => ?_, fun short => ?_⟩
  · exact near.isNearest rfl (isFinite_iff.mpr inRange) size.exact_nonneg
  · rw [value_of_positive rfl, Nat.floor_div_eq_div]
  · exact ⟨size.floor_le_count near small, size.count_le_ceil near small⟩
  · exact size.count_of_short near short

def tib121 : ReadableSize where
  whole := ['1']
  fraction := some ['2', '1']
  unit := .tib
  wholeRow := by decide
  fractionRow := IsDigitRow.forall_mem_some (by decide)

theorem count_is_floor_of_nearest_tib121 :
    bytes .readable tib121.text = .ok 1330409069608 ∧ 1330409069608 = ⌊tib121.exact⌋₊ := by
  have counted : bytes .readable tib121.text = .ok 1330409069608 := by decide +kernel
  have short : tib121.digits * tib121.unit.factor < 2 ^ 53 := by decide
  exact ⟨counted, (count_is_floor_of_nearest rfl counted).2.2 short⟩

/-- Twenty nines behind the point. -/
def belowOneByte : ReadableSize where
  whole := ['0']
  fraction := some (List.replicate 20 '9')
  unit := .bytes
  wholeRow := by decide
  fractionRow := IsDigitRow.forall_mem_some (by decide)

/-- What lies below one byte is counted as one. -/
theorem not_every_count_is_floor :
    ¬∀ (size : ReadableSize) (n : ℕ), size.isPointed →
      bytes .readable size.text = .ok n → n = ⌊size.exact⌋₊ := by
  intro truncates
  have counted : bytes .readable belowOneByte.text = .ok 1 := by decide +kernel
  have digits : belowOneByte.digits * belowOneByte.unit.factor = 10 ^ 20 - 1 := by decide
  have places : belowOneByte.places = 20 := by decide
  have floor : ⌊belowOneByte.exact⌋₊ = 0 := by
    rw [Nat.floor_eq_zero, belowOneByte.exact_eq_div, digits, places]
    norm_num
  exact absurd (truncates belowOneByte 1 rfl counted) (by rw [floor]; decide)

end Size

end TableReport
