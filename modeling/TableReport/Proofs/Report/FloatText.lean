import TableReport.Proofs.Decimal.Value
import TableReport.Proofs.Report.Number

/-!
The texts of floats in reports, as what they stand for. Zero and the numbers from a
thousandth up to ten million are written with a point only, all others with an
exponent as well; either way the double is the one nearest to the written number, and
has its sign. So texts tell doubles apart, and quantities of either kind.
-/

namespace TableReport

open Numeral

/-- Digits, a point, digits. -/
inductive IsPlain : List Char → Prop
  | intro {whole fraction : List Char} (wholeRow : IsDigitRow whole)
      (fractionRow : IsDigitRow fraction) : IsPlain (whole ++ '.' :: fraction)

/-- One digit that is not zero, a point, digits, and an exponent. -/
inductive IsScientific : List Char → Prop
  | intro {first : Char} {fraction sign exponent : List Char} (isDigit : first.isDigit = true)
      (nonzero : first ≠ '0') (fractionRow : IsDigitRow fraction)
      (isSign : sign = [] ∨ sign = ['-']) (exponentRow : IsDigitRow exponent) :
      IsScientific (first :: '.' :: (fraction ++ 'E' :: (sign ++ exponent)))

namespace Binary64

variable {x : Binary64} {q : ℚ} {magnitude : ℕ}

/-- Zero, or a number from a thousandth up to ten million. The double that is nearest to a
thousandth lies above it. -/
def IsModerate (x : Binary64) : Prop := x.value = 0 ∨ 1 / 1000 ≤ |x.value| ∧ |x.value| < 10 ^ 7

/-- A double reaches a number if it reaches the least double that does. -/
theorem le_abs_value_iff {num den : ℕ} (positive : 0 < den)
    (missed : unitsOf magnitude * den < num * unitsPerOne)
    (reached : num * unitsPerOne ≤ unitsOf (magnitude + 1) * den) :
    (num : ℚ) / den ≤ |x.value| ↔ magnitude + 1 ≤ x.magnitude := by
  rw [abs_value, div_le_div_iff₀ (Nat.cast_pos.mpr positive) unitsPerOne_pos, ← Nat.cast_mul,
    ← Nat.cast_mul, Nat.cast_le]
  constructor
  · intro above
    by_contra below
    have lower : unitsOf x.magnitude ≤ unitsOf magnitude :=
      strictMono_unitsOf.monotone (by omega)
    exact absurd (above.trans (Nat.mul_le_mul_right den lower)) (Nat.not_le.mpr missed)
  · intro above
    exact reached.trans (Nat.mul_le_mul_right den (strictMono_unitsOf.monotone above))

/-- The magnitude of the double nearest to a thousandth. -/
def thousandth : ℕ := 0x3F50624DD2F1A9FC

/-- The magnitude of ten million. -/
def tenMillion : ℕ := 0x416312D000000000

theorem isModerate_iff :
    x.IsModerate ↔
      x.magnitude = 0 ∨ thousandth ≤ x.magnitude ∧ x.magnitude < tenMillion := by
  have low : 1 / 1000 ≤ |x.value| ↔ thousandth ≤ x.magnitude :=
    mod_cast @le_abs_value_iff x (thousandth - 1) 1 1000 (by decide) (by decide +kernel)
      (by decide +kernel)
  have high : 10 ^ 7 / 1 ≤ |x.value| ↔ tenMillion ≤ x.magnitude :=
    mod_cast @le_abs_value_iff x (tenMillion - 1) (10 ^ 7) 1 (by decide) (by decide +kernel)
      (by decide +kernel)
  rw [div_one] at high
  rw [IsModerate, value_eq_zero_iff, low, ← not_le, high, not_le]

end Binary64

section Shape

variable {magnitude : ℕ}

/-- The notation goes by the leading digit, and so by the number. -/
theorem lead_in_range_iff (finite : magnitude < Binary64.infinityMagnitude)
    (nonzero : magnitude ≠ 0) :
    (reportStyle.plainFrom ≤ (Decimal.shortest reportStyle.tie magnitude).lead ∧
      (Decimal.shortest reportStyle.tie magnitude).lead < reportStyle.plainBelow) ↔
      Binary64.thousandth ≤ magnitude ∧ magnitude < Binary64.tenMillion := by
  have low : reportStyle.plainFrom ≤ (Decimal.shortest reportStyle.tie magnitude).lead ↔
      Binary64.thousandth ≤ magnitude :=
    Decimal.le_lead_shortest_iff finite nonzero (by decide +kernel) (by decide +kernel)
  have high : reportStyle.plainBelow ≤ (Decimal.shortest reportStyle.tie magnitude).lead ↔
      Binary64.tenMillion ≤ magnitude :=
    Decimal.le_lead_shortest_iff finite nonzero (by decide +kernel) (by decide +kernel)
  rw [low, ← not_le, high, not_le]

theorem isPlain_positional {digits : List Char} (row : IsDigitRow digits) (place : ℤ)
    (noLeadingZero : digits.head? = some '0' → digits = ['0'] ∧ place = 1) :
    IsPlain (Decimal.positional true digits place) := by
  obtain ⟨fraction, wholeRow, fractionRow, text_eq⟩ :=
    Decimal.positional_pointed row place noLeadingZero
  rw [text_eq]
  exact .intro wholeRow fractionRow

theorem noLeadingZero_shortest (finite : magnitude < Binary64.infinityMagnitude)
    (nonzero : magnitude ≠ 0) :
    (digitChars (Decimal.shortest reportStyle.tie magnitude).digits).head? ≠ some '0' := by
  apply head?_digitChars
  apply Nat.pos_of_ne_zero
  apply Decimal.digits_ne_zero_of_nearest
  rwa [Decimal.nearest_shortest finite]

theorem isPlain_layout (finite : magnitude < Binary64.infinityMagnitude)
    (moderate : magnitude = 0 ∨ Binary64.thousandth ≤ magnitude ∧ magnitude < Binary64.tenMillion) :
    IsPlain (reportStyle.layout magnitude) := by
  by_cases zero : magnitude = 0
  · rw [zero]
    exact isPlain_positional isDigitRow_zero 1 fun _ => ⟨rfl, rfl⟩
  · have inside := moderate.resolve_left zero
    obtain ⟨reached, below⟩ := (lead_in_range_iff finite zero).mpr inside
    rw [reportStyle.layout_plain zero reached below]
    exact isPlain_positional (isDigitRow_digitChars _) _
      fun leadingZero => absurd leadingZero (noLeadingZero_shortest finite zero)

theorem isScientific_layout (finite : magnitude < Binary64.infinityMagnitude)
    (extreme : ¬(magnitude = 0 ∨
      Binary64.thousandth ≤ magnitude ∧ magnitude < Binary64.tenMillion)) :
    IsScientific (reportStyle.layout magnitude) := by
  obtain ⟨nonzero, outside⟩ := not_or.mp extreme
  have noLeadingZero := noLeadingZero_shortest finite nonzero
  rw [reportStyle.layout_scientific nonzero (mt (lead_in_range_iff finite nonzero).mp outside)]
  generalize Decimal.shortest reportStyle.tie magnitude = d at noLeadingZero
  have row := isDigitRow_digitChars d.digits
  obtain ⟨fraction, -, fractionRow, text_eq⟩ :=
    Decimal.positional_pointed row 1 fun leadingZero => absurd leadingZero noLeadingZero
  obtain ⟨first, more, digits_eq, isDigit⟩ := row.exists_cons
  have single : (Decimal.positionalNumeral true (digitChars d.digits) 1).whole = [first] := by
    simp [Decimal.positionalNumeral, digits_eq]
  have nonzeroDigit : first ≠ '0' := by
    rintro rfl
    exact noLeadingZero (by rw [digits_eq]; rfl)
  change IsScientific (Decimal.positional true _ 1 ++ _)
  rw [text_eq, single]
  have isSign : (if d.lead < 0 then ['-'] else []) = [] ∨
      (if d.lead < 0 then ['-'] else []) = ['-'] := by
    split
    · exact .inr rfl
    · exact .inl rfl
  have shape := IsScientific.intro isDigit nonzeroDigit fractionRow isSign
    (isDigitRow_digitChars d.lead.natAbs)
  simpa [reportStyle] using shape

end Shape

section Faithful

variable {x y : Binary64}

theorem text_of_not_isFinite (notFinite : x.isFinite = false) :
    reportStyle.text x =
      if x.isNaN then "NaN" else if x.negative then "-Infinity" else "Infinity" := by
  rw [FloatStyle.text, FloatStyle.chars]
  split
  · rfl
  next number =>
    have infinite : x.isInfinite = true := by
      simp only [Binary64.isFinite, Binary64.isInfinite, Binary64.isNaN, decide_eq_true_eq,
        decide_eq_false_iff_not] at notFinite number ⊢
      omega
    rw [if_pos infinite]
    cases x.negative <;> rfl

theorem text_canonical (x : Binary64) : reportStyle.text x.canonical = reportStyle.text x := by
  unfold Binary64.canonical
  split
  next isNaN =>
    rw [FloatStyle.text, FloatStyle.chars, if_pos (by decide), FloatStyle.text, FloatStyle.chars,
      if_pos isNaN]
  next => rfl

namespace Quantity

theorem text_canonical (q : Quantity) : q.canonical.text = q.text := by
  cases q with
  | integer n => rfl
  | float x => exact TableReport.text_canonical x

/-- The text of a quantity shows its kind and its value, up to which NaN it is. -/
theorem text_eq_iff {q r : Quantity} : q.text = r.text ↔ q.canonical = r.canonical := by
  constructor
  · intro same
    have read := congrArg ofText? same
    rw [ofText?_text, ofText?_text] at read
    exact Option.some.inj read
  · intro same
    rw [← q.text_canonical, same, r.text_canonical]

end Quantity

/-- The text of a float shows which double it is. For a finite one it is a numeral, with
a point and digits behind it, whose value no other double of its sign is nearest to; it
has an exponent unless the number is zero or lies from a thousandth up to ten million.
Texts of doubles that are no NaNs differ if the doubles do, and so do texts of quantities,
of which an integer is never written like a float. -/
theorem floatText_faithful :
    (∀ x : Binary64, x.isFinite →
      (∃ size, reportStyle.chars x = (if x.negative then ['-'] else []) ++ size ∧
        (x.IsModerate → IsPlain size) ∧ (¬x.IsModerate → IsScientific size)) ∧
      ∃ n, Spells (reportStyle.chars x) n ∧ n.negative = x.negative ∧ n.toBinary64 = x ∧
        ∀ y : Binary64, y.negative = n.negative → (y.IsNearest n.value ↔ y = x)) ∧
    (∀ x : Binary64, x.isFinite = false →
      reportStyle.text x =
        if x.isNaN then "NaN" else if x.negative then "-Infinity" else "Infinity") ∧
    (∀ x y : Binary64, x.isNaN = false → y.isNaN = false →
      reportStyle.text x = reportStyle.text y → x = y) ∧
    (∀ q r : Quantity, q.text = r.text ↔ q.canonical = r.canonical) ∧
    ∀ (n : Int64) (x : Binary64), (Quantity.integer n).text ≠ (Quantity.float x).text := by
  refine ⟨fun x finite => ⟨⟨reportStyle.layout x.magnitude, reportStyle.chars_of_isFinite finite,
    ?_, ?_⟩, ?_⟩, fun x => text_of_not_isFinite, fun x y numberX numberY same => ?_,
    fun q r => Quantity.text_eq_iff, fun n x same => ?_⟩
  · rw [Binary64.isModerate_iff]
    exact isPlain_layout (Binary64.isFinite_iff.mp finite)
  · rw [Binary64.isModerate_iff]
    exact isScientific_layout (Binary64.isFinite_iff.mp finite)
  · obtain ⟨n, spells, reads, -⟩ := reportStyle.spells_chars (Or.inr rfl) finite
    refine ⟨n, spells, congrArg Binary64.negative reads, reads, fun y sameSign => ?_⟩
    exact Numeral.isNearest_value_iff reads finite sameSign
  · have canonical := canonical_eq_of_floatText_eq same
    simpa only [Binary64.canonical, numberX, numberY, Bool.false_eq_true, if_false] using canonical
  · cases Quantity.text_eq_iff.mp same

/-- Ten million is the first whole number that is written with an exponent. -/
theorem floatText_faithful_tenMillion :
    IsPlain (reportStyle.chars (.ofInt 9999999)) ∧
      IsScientific (reportStyle.chars (.ofInt 10000000)) := by
  constructor
  · obtain ⟨⟨size, text_eq, plain, -⟩, -⟩ :=
      floatText_faithful.1 (.ofInt 9999999) (by decide +kernel)
    rw [text_eq]
    exact plain (Binary64.isModerate_iff.mpr (by decide +kernel))
  · obtain ⟨⟨size, text_eq, -, scientific⟩, -⟩ :=
      floatText_faithful.1 (.ofInt 10000000) (by decide +kernel)
    rw [text_eq]
    exact scientific (mt Binary64.isModerate_iff.mp (by decide +kernel))

end Faithful

end TableReport
