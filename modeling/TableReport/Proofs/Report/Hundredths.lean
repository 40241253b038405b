import TableReport.Proofs.Decimal.Shortest
import TableReport.Report.Text

/-!
The texts of doubles rounded to hundredths. Up to `10 ^ 13` such a text shows the number of
hundredths exactly: a number of at most fifteen digits is the shortest that is read as its
double. Rounding what was read from the text again makes no difference.
-/

namespace TableReport

open Numeral

/-- The whole number nearest to a number; a half goes away from zero. -/
def halfAway (q : ℚ) : ℤ := if q < 0 then -round (-q) else round q

namespace Binary64

variable {x : Binary64}

/-- The double whose text stands for the one rounded to hundredths. -/
def hundredths (x : Binary64) : Binary64 := (x * .ofInt 100).round / .ofInt 100

theorem hundred : (ofInt 100).isFinite = true ∧ (ofInt 100).units = 100 * unitsPerOne := by
  decide +kernel

theorem negative_hundred : (ofInt 100).negative = false := by
  unfold ofInt
  rfl

theorem value_hundred : (ofInt 100).value = 100 := by
  have size := abs_value_eq_units (ofInt 100)
  rw [hundred.2, Nat.cast_mul, mul_div_assoc, div_self unitsPerOne_pos.ne', mul_one,
    Nat.cast_ofNat] at size
  rw [value_eq_sign_mul, size, negative_hundred, if_neg Bool.false_ne_true, one_mul]

theorem negative_mul_hundred (finite : x.isFinite) : (x * .ofInt 100).negative = x.negative := by
  rw [negative_mul finite hundred.1, negative_hundred, Bool.bne_false]

theorem nearestUnits_mul_hundred (finite : x.isFinite) (inRange : (x * .ofInt 100).isFinite) :
    NearestUnits (100 * |x.value| * unitsPerOne) (x * .ofInt 100).magnitude := by
  have near := nearestUnits_mul finite hundred.1 inRange
  rwa [value_hundred, abs_mul, abs_of_pos (show (0 : ℚ) < 100 by norm_num), mul_comm |x.value|]
    at near

/-- A hundredth of a whole number of hundredths is what their number is read as. -/
theorem nearestMagnitude_hundredths (count : ℕ) :
    nearestMagnitude (count * unitsPerOne * unitsPerOne) (100 * unitsPerOne) =
      Decimal.nearest ⟨count, -2⟩ := by
  have exponents : (-2 : ℤ).toNat = 0 ∧ (-(-2) : ℤ).toNat = 2 := by decide
  have square : 10 ^ 2 = 100 := by decide
  rw [nearestMagnitude_mul_right zero_lt_unitsPerOne, Decimal.nearest_eq_nearestMagnitude,
    exponents.1, exponents.2, Nat.pow_zero, Nat.mul_one, square]

theorem hundredths_eq (finite : x.isFinite) (inRange : (x * .ofInt 100).isFinite) :
    x.hundredths = .ofDecimal x.negative ⟨(x * .ofInt 100).nearestWhole, -2⟩ := by
  obtain ⟨finiteRound, unitsRound⟩ := units_round inRange
  have sign := (negative_round inRange).trans (negative_mul_hundred finite)
  have nonzero : (ofInt 100).magnitude ≠ 0 := by decide +kernel
  rw [hundredths, div_of_isFinite finiteRound hundred.1 nonzero, sign, unitsRound, hundred.2,
    negative_hundred, Bool.bne_false]
  generalize (x * .ofInt 100).nearestWhole = count
  simp only [ofUnits, ofDecimal, mk.injEq, true_and]
  exact nearestMagnitude_hundredths count

theorem isFinite_hundredths (finite : x.isFinite) (inRange : (x * .ofInt 100).isFinite) :
    x.hundredths.isFinite = true := by
  have whole := (units_round inRange).1
  rw [round_of_isFinite inRange] at whole
  rw [hundredths_eq finite inRange, isFinite_iff]
  generalize (x * .ofInt 100).nearestWhole = count at whole
  have below : Decimal.nearest ⟨count, -2⟩ ≤ Decimal.nearest ⟨count, 0⟩ := by
    apply Decimal.nearest_mono
    apply mul_le_mul_of_nonneg_left _ (Nat.cast_nonneg count)
    norm_num
  rw [Decimal.nearest_whole] at below
  exact below.trans_lt (isFinite_iff.mp whole)

/-- A product beyond the range of doubles is not brought back by the division. -/
theorem hundredths_of_overflow (finite : x.isFinite)
    (overflows : ¬(x * .ofInt 100).isFinite = true) : x.hundredths = infinity x.negative := by
  have infinite : x * .ofInt 100 = infinity x.negative := by
    rw [mul_of_isFinite finite hundred.1] at overflows ⊢
    rw [ofUnits_eq_infinity overflows, negative_hundred, Bool.bne_false]
  rw [hundredths, infinite, round_infinity, infinity_div _ hundred.1, negative_hundred,
    Bool.bne_false]

theorem negative_hundredths (finite : x.isFinite) (inRange : (x * .ofInt 100).isFinite) :
    x.hundredths.negative = x.negative := by
  rw [hundredths_eq finite inRange, ofDecimal]

section Errors

theorem abs_mul_hundred_sub (finite : x.isFinite) (inRange : (x * .ofInt 100).isFinite) :
    |(|(x * .ofInt 100).value|) - 100 * (|x.value|)| ≤
      max (100 * |x.value|) (1 / 1000) / 2 ^ 53 := by
  have nonneg := mul_nonneg (show (0 : ℚ) ≤ 100 by norm_num) (abs_nonneg x.value)
  rw [abs_value (x * .ofInt 100)]
  exact (nearestUnits_mul_hundred finite inRange).abs_sub_le_max nonneg

theorem abs_mul_hundred_le {bound : ℕ} (small : 100 * bound ≤ 2 ^ 53) (finite : x.isFinite)
    (inside : |x.value| ≤ bound) :
    (x * .ofInt 100).isFinite = true ∧ |(x * .ofInt 100).value| ≤ 100 * bound := by
  have below : 100 * |x.value| ≤ (100 * bound : ℕ) := by
    push_cast
    linarith
  have inRange : (x * .ofInt 100).isFinite = true := by
    rw [isFinite_mul_iff finite hundred.1, value_hundred]
    apply not_overflows_of_abs_le small
    rwa [mul_comm, abs_mul, abs_of_pos (show (0 : ℚ) < 100 by norm_num)]
  refine ⟨inRange, ?_⟩
  have bounded := ((nearestUnits_mul_hundred finite inRange).value_le small below).2
  rw [← abs_value] at bounded
  exact_mod_cast bounded

/-- Half of a hundredth, which is what rounding to hundredths is meant to change, and the
errors of a product and of a quotient. -/
theorem abs_sub_le_of_errors {size scaled result : ℚ} {count : ℕ} (nonneg : 0 ≤ size)
    (product : |scaled - 100 * size| ≤ max (100 * size) (1 / 1000) / 2 ^ 53)
    (lower : (count : ℚ) ≤ scaled + 1 / 2) (upper : scaled + 1 / 2 < count + 1)
    (quotient : |result - count / 100| ≤ max (count / 100 : ℚ) (1 / 1000) / 2 ^ 53) :
    |result - size| ≤ 1 / 200 + size / 2 ^ 51 := by
  have countNonneg : (0 : ℚ) ≤ count := Nat.cast_nonneg count
  have sum : max (count / 100 : ℚ) (1 / 1000) ≤ count / 100 + 1 / 1000 :=
    max_le (by linarith) (by linarith)
  obtain ⟨productLow, productHigh⟩ := abs_le.mp product
  obtain ⟨quotientLow, quotientHigh⟩ := abs_le.mp quotient
  rw [abs_le]
  by_cases small : size < 1 / 250
  · -- Nothing is left of a number that is clearly below half of a hundredth.
    have most : max (100 * size) (1 / 1000) ≤ 2 / 5 := max_le (by linarith) (by norm_num)
    have none : count = 0 := by
      have below : (count : ℚ) < (1 : ℕ) := by
        push_cast
        linarith
      exact Nat.lt_one_iff.mp (Nat.cast_lt.mp below)
    rw [none, Nat.cast_zero] at quotientLow quotientHigh sum
    constructor <;> linarith
  · have most : max (100 * size) (1 / 1000) = 100 * size := max_eq_left (by linarith)
    rw [most] at productLow productHigh
    constructor <;> linarith

theorem abs_hundredths_sub (finite : x.isFinite) (inRange : (x * .ofInt 100).isFinite) :
    |x.hundredths.value - x.value| ≤ 1 / 200 + |x.value| / 2 ^ 51 := by
  have finiteResult := isFinite_hundredths finite inRange
  have quotient : |(|x.hundredths.value|) - ((x * .ofInt 100).nearestWhole : ℚ) / 100| ≤
      max (((x * .ofInt 100).nearestWhole : ℚ) / 100) (1 / 1000) / 2 ^ 53 := by
    rw [hundredths_eq finite inRange] at finiteResult ⊢
    rw [← Decimal.value_hundredths]
    exact abs_ofDecimal_sub finiteResult
  obtain ⟨lower, upper⟩ := (x * .ofInt 100).nearestWhole_bounds
  rw [abs_value_sub_of_sign (negative_hundredths finite inRange)]
  exact abs_sub_le_of_errors (abs_nonneg _) (abs_mul_hundred_sub finite inRange) lower upper
    quotient

end Errors

section Small

theorem nearestWhole_mul_hundred_le (inside : |(x * .ofInt 100).value| ≤ 10 ^ 15) :
    (x * .ofInt 100).nearestWhole ≤ 10 ^ 15 := by
  have lower := (x * .ofInt 100).nearestWhole_bounds.1
  have below : ((x * .ofInt 100).nearestWhole : ℚ) < (10 ^ 15 + 1 : ℕ) := by
    push_cast
    linarith
  exact Nat.lt_succ_iff.mp (Nat.cast_lt.mp below)

/-- The number of hundredths is found again: both roundings are off by far less than half of
a hundredth. -/
theorem nearestWhole_of_near {count : ℕ} (bound : count ≤ 10 ^ 15) (finite : x.isFinite)
    (near : |(|x.value|) - count / 100| ≤ max (count / 100 : ℚ) (1 / 1000) / 2 ^ 53) :
    (x * .ofInt 100).isFinite = true ∧ (x * .ofInt 100).nearestWhole = count := by
  have countBound : (count : ℚ) ≤ 10 ^ 15 := by exact_mod_cast bound
  have most : max (count / 100 : ℚ) (1 / 1000) ≤ 10 ^ 13 := max_le (by linarith) (by norm_num)
  obtain ⟨nearLow, nearHigh⟩ := abs_le.mp near
  have inside : |x.value| ≤ (10 ^ 13 + 1 : ℕ) := by
    push_cast
    linarith
  obtain ⟨inRange, -⟩ := abs_mul_hundred_le (by norm_num) finite inside
  have productMost : max (100 * |x.value|) (1 / 1000) ≤ 2 * 10 ^ 15 := by
    push_cast at inside
    exact max_le (by linarith) (by norm_num)
  obtain ⟨productLow, productHigh⟩ := abs_le.mp (abs_mul_hundred_sub finite inRange)
  refine ⟨inRange, nearestWhole_eq_of_abs_sub_lt ?_⟩
  rw [abs_lt]
  constructor <;> linarith

/-- A double that stands for a number of hundredths is not moved any further. -/
theorem hundredths_of_eq {negative : Bool} {count : ℕ} (bound : count ≤ 10 ^ 15)
    (finite : x.isFinite) (counts : x = ofDecimal negative ⟨count, -2⟩) : x.hundredths = x := by
  have sign : x.negative = negative := by rw [counts, ofDecimal]
  have near : |(|x.value|) - count / 100| ≤ max (count / 100 : ℚ) (1 / 1000) / 2 ^ 53 := by
    rw [counts] at finite ⊢
    rw [← Decimal.value_hundredths]
    exact abs_ofDecimal_sub finite
  obtain ⟨inRange, same⟩ := nearestWhole_of_near bound finite near
  rw [hundredths_eq finite inRange, same, sign, counts]

end Small

end Binary64

variable {x : Binary64}

theorem halfAway_value (x : Binary64) :
    halfAway x.value = (if x.negative then -1 else 1) * (x.nearestWhole : ℤ) := by
  have nonneg := abs_nonneg x.value
  have value := x.value_eq_sign_mul
  rw [halfAway, round_eq, round_eq, x.nearestWhole_eq_floor]
  generalize |x.value| = size at *
  rw [value]
  cases x.negative with
  | false =>
      rw [if_neg Bool.false_ne_true, if_neg Bool.false_ne_true, one_mul, one_mul,
        if_neg (not_lt.mpr nonneg)]
  | true =>
      rw [if_pos rfl, if_pos rfl, neg_one_mul, neg_one_mul, neg_neg]
      split
      next => rfl
      next notNegative =>
        obtain rfl : size = 0 := by linarith
        norm_num

theorem written_hundredths {count : ℕ} (bound : count ≤ 10 ^ 15) :
    (reportStyle.written (Decimal.nearest ⟨count, -2⟩)).value = count / 100 ∧
      -2 ≤ (reportStyle.written (Decimal.nearest ⟨count, -2⟩)).exponent := by
  unfold FloatStyle.written
  by_cases zero : count = 0
  · rw [zero, Decimal.nearest, if_pos rfl, if_pos rfl]
    simp [Decimal.value]
  · have nonzero : Decimal.nearest ⟨count, -2⟩ ≠ 0 := by
      intro least
      have low := (Decimal.inHundredths_nearest zero bound).low
      rw [least] at low
      exact absurd low (by decide +kernel)
    rw [if_neg nonzero]
    exact Decimal.shortest_nearest_hundredths _ zero bound

/-- A double that stands for a number of hundredths is written as that number. -/
theorem spells_hundredths {negative : Bool} {count : ℕ} (bound : count ≤ 10 ^ 15)
    (finite : (Binary64.ofDecimal negative ⟨count, -2⟩).isFinite) :
    ∃ n, Spells (reportStyle.chars (.ofDecimal negative ⟨count, -2⟩)) n ∧ n.negative = negative ∧
      n.value = (if negative then -1 else 1) * (count / 100) ∧ -2 ≤ n.decimal.exponent ∧
      n.toBinary64 = .ofDecimal negative ⟨count, -2⟩ := by
  obtain ⟨value, place⟩ := written_hundredths bound
  obtain ⟨n, spells, sign, shown⟩ := reportStyle.exists_shows (Or.inr rfl) finite
  have read := shown.toBinary64_eq sign finite
  change n.negative = negative at sign
  change reportStyle.Shows n (reportStyle.written (Decimal.nearest ⟨count, -2⟩)) at shown
  refine ⟨n, spells, sign, ?_, ?_, read⟩
  · rw [Numeral.value, sign, shown.pads.value, value]
  · apply shown.pads.le_exponent _ place
    cases exponent_eq : n.exponent with
    | none => decide
    | some lead =>
        -- Exponents from `-2` up to the first one of the style would be written out.
        obtain ⟨above, outside⟩ := shown.scientific lead exponent_eq
        change lead < -3 ∨ 7 ≤ lead at outside
        rw [Option.getD_some]
        omega

/-- What is written for a double of at most `10 ^ 13`. -/
theorem exists_count (finite : x.isFinite) (bound : |x.value| ≤ 10 ^ 13) :
    ∃ count ≤ 10 ^ 15, (x * .ofInt 100).isFinite = true ∧ x.hundredths.isFinite = true ∧
      x.hundredths = .ofDecimal x.negative ⟨count, -2⟩ ∧
      halfAway (x * .ofInt 100).value = (if x.negative then -1 else 1) * (count : ℤ) := by
  have inside : |x.value| ≤ (10 ^ 13 : ℕ) := by exact_mod_cast bound
  obtain ⟨inRange, small⟩ := Binary64.abs_mul_hundred_le (by norm_num) finite inside
  refine ⟨_, ?_, inRange, Binary64.isFinite_hundredths finite inRange,
    Binary64.hundredths_eq finite inRange, ?_⟩
  · apply Binary64.nearestWhole_mul_hundred_le
    push_cast at small
    linarith
  · rw [halfAway_value, Binary64.negative_mul_hundred finite]

/-- Up to `10 ^ 13` the text of a double rounded to hundredths is exact: the double nearest to
a hundred times the number is rounded to the nearest integer, a half away from zero, and the
text is a numeral of the double's sign that stands for so many hundredths, with no digit
behind the second decimal place. Zero is written as `0.0` behind its sign. The double that
is read from the text has the same text. -/
theorem hundredthsText_exact (finite : x.isFinite) (bound : |x.value| ≤ 10 ^ 13) :
    (x * .ofInt 100).IsNearest (x.value * 100) ∧
    (∃ n, Spells (hundredthsText x).toList n ∧ n.negative = x.negative ∧
      n.value = halfAway (x * .ofInt 100).value / 100 ∧ -2 ≤ n.decimal.exponent ∧
      hundredthsText n.toBinary64 = hundredthsText x) ∧
    (halfAway (x * .ofInt 100).value = 0 →
      hundredthsText x = if x.negative then "-0.0" else "0.0") := by
  obtain ⟨count, count_le, inRange, finiteRounded, rounded, scaled⟩ := exists_count finite bound
  have text_eq : hundredthsText x = reportStyle.text x.hundredths := rfl
  refine ⟨?nearest, ?text, ?zero⟩
  case nearest =>
    have nearest := Binary64.isNearest_mul finite Binary64.hundred.1 inRange
    rwa [Binary64.value_hundred] at nearest
  case text =>
    rw [rounded] at finiteRounded text_eq
    obtain ⟨n, spells, sign, value, place, read⟩ := spells_hundredths count_le finiteRounded
    refine ⟨n, ?_, sign, ?_, place, ?_⟩
    · rw [text_eq, FloatStyle.text, String.toList_ofList]
      exact spells
    · rw [value, scaled]
      push_cast
      ring
    · have again : hundredthsText n.toBinary64 = reportStyle.text n.toBinary64.hundredths := rfl
      rw [← read] at finiteRounded
      rw [again, text_eq, Binary64.hundredths_of_eq count_le finiteRounded read, read]
  case zero =>
    intro nothing
    have none : count = 0 := by
      rw [nothing] at scaled
      generalize x.negative = negative at scaled
      cases negative <;> simpa using scaled.symm
    rw [text_eq, rounded, none]
    cases x.negative <;> decide +kernel

/-- What counts is the double, which lies below `1.005`, and not the decimal. -/
theorem hundredthsText_exact_belowHalf :
    ∃ n, Spells "1.0".toList n ∧
      n.value = halfAway (.ofDecimal false ⟨1005, -3⟩ * .ofInt 100 : Binary64).value / 100 ∧
      hundredthsText n.toBinary64 = "1.0" := by
  have text_eq : hundredthsText (.ofDecimal false ⟨1005, -3⟩) = "1.0" := by decide +kernel
  have finite : (Binary64.ofDecimal false ⟨1005, -3⟩).isFinite = true := by decide +kernel
  have small : |(Binary64.ofDecimal false ⟨1005, -3⟩).value| ≤ 10 ^ 13 := by
    have below : Decimal.value ⟨1005, -3⟩ ≤ 2 := by
      rw [Decimal.value]
      norm_num
    have error := Binary64.abs_ofDecimal_sub finite
    have most : max (Decimal.value ⟨1005, -3⟩) (1 / 1000) ≤ 2 := max_le below (by norm_num)
    have high := (abs_le.mp error).2
    linarith
  obtain ⟨-, ⟨n, spells, -, value, -, again⟩, -⟩ := hundredthsText_exact finite small
  rw [text_eq] at spells again
  exact ⟨n, spells, value, again⟩

end TableReport
