import TableReport.Proofs.Json.BestEffort
import TableReport.Proofs.Json.Document
import TableReport.Proofs.Table.RoundTrip

/-!
Which quantity a number of a text is. The spelling and the value decide: a numeral with
neither point nor exponent that fits 64 signed bits is an integer, unless it is the
negative zero, and every other numeral is the double that it is read as. On the way
there integers of 64 bits are kept apart from longer ones, but that makes no difference.
-/

namespace TableReport

open Json Json.FloatReading Numeral

namespace Numeral

variable {n : Numeral} {text : String}

/-- The text holds the numeral, with nothing but blanks around it. -/
inductive SpelledBy (n : Numeral) : String → Prop
  | intro {front chars back : List Char} (blankFront : ∀ c ∈ front, Token.isBlank c = true)
      (spells : Spells chars n) (blankBack : ∀ c ∈ back, Token.isBlank c = true) :
      n.SpelledBy (.ofList (front ++ (chars ++ back)))

/-- The numeral is spelled like an integer and stands for one of 64 signed bits. -/
structure IsInt64 (n : Numeral) : Prop where
  whole : n.isWhole = true
  notNegativeZero : ¬(n.negative = true ∧ n.value = 0)
  low : -2 ^ 63 ≤ n.value
  high : n.value < 2 ^ 63

theorem spells_blanks {reading : FloatReading} {blanks : List Char} {chars : List Char}
    {tokens : List Token} (blank : ∀ c ∈ blanks, Token.isBlank c = true)
    (spells : Token.Spells reading chars tokens) :
    Token.Spells reading (blanks ++ chars) tokens := by
  induction blanks with
  | nil => exact spells
  | cons c rest inductionHypothesis =>
      have ⟨first, others⟩ := List.forall_mem_cons.mp blank
      exact .blank first (inductionHypothesis others)

/-- The numeral of an integer. -/
def ofInt (k : ℤ) : Numeral := ⟨decide (k < 0), digitChars k.natAbs, none, none⟩

theorem spelledBy_integerText (k : ℤ) : (ofInt k).SpelledBy (integerText k) := by
  have nothing : ∀ c ∈ ([] : List Char), Token.isBlank c = true := List.forall_mem_nil _
  have spelled := SpelledBy.intro nothing (spells_integerChars k) nothing
  rwa [List.append_nil, List.nil_append] at spelled

theorem spelledBy_of_scan? (scanned : scan? text.toList = some (n, [])) : n.SpelledBy text := by
  have nothing : ∀ c ∈ ([] : List Char), Token.isBlank c = true := List.forall_mem_nil _
  obtain ⟨⟨chars, spells, text_eq⟩, -⟩ := scan?_sound scanned
  have spelled := SpelledBy.intro nothing spells nothing
  rwa [List.nil_append, ← text_eq, String.ofList_toList] at spelled

theorem SpelledBy.hasDigits (spelled : n.SpelledBy text) : n.HasDigits := by
  cases spelled with
  | intro _ spells _ => exact spells.hasDigits

theorem SpelledBy.draft (reading : FloatReading) (spelled : n.SpelledBy text) :
    (Draft.number (.ofNumeral reading n)).SpelledBy reading text := by
  cases spelled with
  | intro blankFront spells blankBack =>
      refine ⟨rfl, ?_⟩
      rw [String.toList_ofList]
      apply spells_blanks blankFront
      apply Token.Spells.token (.number spells)
      have behind := spells_blanks blankBack (@Token.Spells.nil reading)
      rwa [List.append_nil] at behind

theorem value_of_isWhole (whole : n.isWhole = true) :
    n.value =
      ((if n.negative then -(digitsValue n.whole : ℤ) else digitsValue n.whole : ℤ) : ℚ) := by
  rw [value, decimal_of_isWhole whole, Decimal.value, zpow_zero, mul_one]
  cases n.negative <;> simp

theorem value_ofInt (k : ℤ) : (ofInt k).value = k := by
  have size : ((if decide (k < 0) then -(k.natAbs : ℤ) else k.natAbs : ℤ)) = k := by
    by_cases negative : k < 0
    · rw [decide_eq_true negative, if_pos rfl]
      omega
    · rw [decide_eq_false negative, if_neg Bool.false_ne_true]
      omega
  rw [value_of_isWhole rfl, ofInt, digitsValue_digitChars, size]

theorem toBinary64_of_isWhole (whole : n.isWhole = true) :
    n.toBinary64 = .ofUnits n.negative (digitsValue n.whole * Binary64.unitsPerOne) 1 := by
  simp only [toBinary64, Binary64.ofDecimal, Binary64.ofUnits, decimal_of_isWhole whole,
    Decimal.nearest_whole]

end Numeral

namespace Json.Number

variable {reading : FloatReading} {n : Numeral} {k : ℤ}

theorem ofNumeral_eq_integer (isInteger : ofNumeral reading n = .integer k) :
    n.isWhole = true ∧ ¬(n.negative = true ∧ n.value = 0) ∧ n.value = k := by
  unfold ofNumeral at isInteger
  dsimp only at isInteger
  split at isInteger
  next small =>
    simp only [Bool.and_eq_true, Bool.not_eq_true', decide_eq_true_eq] at small
    obtain ⟨⟨whole, positive⟩, -⟩ := small
    cases isInteger
    refine ⟨whole, by simp [positive], ?_⟩
    rw [value_of_isWhole whole, positive, if_neg Bool.false_ne_true]
  split at isInteger
  next small =>
    simp only [Bool.and_eq_true, decide_eq_true_eq] at small
    obtain ⟨⟨⟨whole, negative⟩, nonzero⟩, -⟩ := small
    cases isInteger
    have value : n.value = ((-(digitsValue n.whole : ℤ) : ℤ) : ℚ) := by
      rw [value_of_isWhole whole, negative, if_pos rfl]
    refine ⟨whole, fun zero => nonzero ?_, value⟩
    have nothing : -(digitsValue n.whole : ℤ) = 0 := by
      rw [zero.2] at value
      exact_mod_cast value.symm
    omega
  next => cases isInteger

theorem exists_of_isInt64 (fits : n.IsInt64) :
    ∃ k, ofNumeral reading n = .integer k ∧ -2 ^ 63 ≤ k ∧ k < 2 ^ 63 := by
  obtain ⟨whole, notNegativeZero, low, high⟩ := fits
  have value := value_of_isWhole whole
  unfold ofNumeral
  dsimp only
  cases sign : n.negative with
  | false =>
      rw [sign, if_neg Bool.false_ne_true] at value
      rw [value] at high
      have small : (digitsValue n.whole : ℤ) < 2 ^ 63 := by exact_mod_cast high
      refine ⟨digitsValue n.whole, if_pos ?_, by omega, small⟩
      simp only [whole, Bool.not_false, Bool.and_self, Bool.true_and, decide_eq_true_eq]
      omega
  | true =>
      rw [sign, if_pos rfl] at value
      have nonzero : digitsValue n.whole ≠ 0 := by
        intro zero
        apply notNegativeZero
        rw [value, zero]
        simp [sign]
      rw [value] at low
      have small : -2 ^ 63 ≤ -(digitsValue n.whole : ℤ) := by exact_mod_cast low
      refine ⟨-digitsValue n.whole, ?_, small, by omega⟩
      rw [if_neg (by simp), if_pos]
      simp only [whole, nonzero, Bool.and_self, Bool.true_and, ne_eq, not_false_eq_true,
        decide_true, decide_eq_true_eq]
      omega

theorem isShort_of_integer (isInteger : ofNumeral reading n = .integer k) : n.IsShort := by
  left
  unfold ofNumeral at isInteger
  dsimp only at isInteger
  split at isInteger
  next small =>
    simp only [Bool.and_eq_true, decide_eq_true_eq] at small
    exact ⟨small.1.1, small.2⟩
  split at isInteger
  next small =>
    simp only [Bool.and_eq_true, decide_eq_true_eq] at small
    exact ⟨small.1.1.1, small.2.trans_lt (by norm_num)⟩
  next => cases isInteger

theorem toBinary64_of_integer (isInteger : ofNumeral reading n = .integer k) :
    Binary64.ofInt k = n.toBinary64 := by
  obtain ⟨whole, notNegativeZero, value⟩ := ofNumeral_eq_integer isInteger
  rw [toBinary64_of_isWhole whole, Binary64.ofInt]
  have size := value_of_isWhole whole
  rw [value, Int.cast_inj] at size
  cases sign : n.negative with
  | false =>
      rw [sign, if_neg Bool.false_ne_true] at size
      rw [size, Int.natAbs_natCast, decide_eq_false (Int.not_lt.mpr (Int.natCast_nonneg _))]
  | true =>
      rw [sign, if_pos rfl] at size
      have negative : k < 0 := by
        have nonzero : k ≠ 0 := fun zero => notNegativeZero ⟨sign, by rw [value, zero]; rfl⟩
        omega
      rw [decide_eq_true negative, size, Int.natAbs_neg, Int.natAbs_natCast]

/-- Integers that are kept apart on the way are read like all other numerals. -/
theorem toBinary64_ofNumeral (n : Numeral) :
    (ofNumeral .bestEffort n).toBinary64 = bestEffort.double n := by
  cases number : ofNumeral .bestEffort n with
  | real x =>
      unfold ofNumeral at number
      dsimp only at number
      split at number
      next => cases number
      split at number
      next => cases number
      next =>
        cases number
        rfl
  | integer k =>
      rw [double_eq_of_isShort (isShort_of_integer number), toBinary64,
        toBinary64_of_integer number]

theorem isFinite_ofNumeral (n : Numeral) :
    (ofNumeral .bestEffort n).isFinite = (bestEffort.double n).isFinite := by
  rw [← toBinary64_ofNumeral]
  have inRange := @ofNumeral_inRange .bestEffort n
  cases number : ofNumeral .bestEffort n with
  | real x => rfl
  | integer k =>
      rw [number] at inRange
      exact (Writable.isFinite_toBinary64 ⟨inRange, rfl⟩).symm

end Json.Number

namespace Quantity

variable {n : Numeral} {text : String}

theorem ofNumber_of_isInt64 (fits : n.IsInt64) :
    ∃ i : Int64, ofNumber (.ofNumeral .bestEffort n) = .integer i ∧ (i.toInt : ℚ) = n.value := by
  obtain ⟨k, number, low, high⟩ := Json.Number.exists_of_isInt64 fits
  obtain ⟨-, -, value⟩ := Json.Number.ofNumeral_eq_integer number
  refine ⟨.ofInt k, ?_, ?_⟩
  · rw [number, ofNumber, if_pos ⟨low, high⟩]
  · rw [Int64.toInt_ofInt_of_le low high, value]

theorem ofNumber_of_not_isInt64 (other : ¬n.IsInt64) :
    ofNumber (.ofNumeral .bestEffort n) = .float (bestEffort.double n) := by
  have read := Json.Number.toBinary64_ofNumeral n
  cases number : Json.Number.ofNumeral .bestEffort n with
  | real x =>
      rw [number] at read
      rw [ofNumber, ← read, Json.Number.toBinary64]
  | integer k =>
      obtain ⟨whole, notNegativeZero, value⟩ := Json.Number.ofNumeral_eq_integer number
      rw [number] at read
      have outside : ¬(-2 ^ 63 ≤ k ∧ k < 2 ^ 63) := by
        intro inside
        refine other ⟨whole, notNegativeZero, ?_, ?_⟩
        · rw [value]
          exact_mod_cast inside.1
        · rw [value]
          exact_mod_cast inside.2
      rw [ofNumber, if_neg outside, ← read, Json.Number.toBinary64]

/-- The number is read to its end and is refused if it is infinite. -/
theorem decode_of_spelledBy (spelled : n.SpelledBy text) :
    codec.decode text =
      if (bestEffort.double n).isFinite then .ok (ofNumber (.ofNumeral .bestEffort n))
      else .error .malformed := by
  rw [Codec.decode, Codec.decodeUnder, Document.ofTextUnder_eq_iff.mpr (spelled.draft .bestEffort)]
  simp only [codec, Draft.soundBelow, Json.Number.isFinite_ofNumeral]
  cases (bestEffort.double n).isFinite <;> rfl

theorem decode_of_isInt64 (spelled : n.SpelledBy text) (fits : n.IsInt64) :
    ∃ i : Int64, codec.decode text = .ok (.integer i) ∧ (i.toInt : ℚ) = n.value := by
  obtain ⟨k, number, -⟩ := Json.Number.exists_of_isInt64 fits
  obtain ⟨i, quantity, value⟩ := ofNumber_of_isInt64 fits
  have finite : (bestEffort.double n).isFinite = true := by
    rw [← Json.Number.isFinite_ofNumeral, number, Json.Number.isFinite]
  refine ⟨i, ?_, value⟩
  rw [decode_of_spelledBy spelled, if_pos finite, quantity]

theorem decode_of_not_isInt64 (spelled : n.SpelledBy text) (other : ¬n.IsInt64) :
    codec.decode text =
      if (bestEffort.double n).isFinite then .ok (.float (bestEffort.double n))
      else .error .malformed := by
  rw [decode_of_spelledBy spelled, ofNumber_of_not_isInt64 other]

/-- A point or an exponent makes a number a double. -/
theorem decode_of_isWhole_eq_false (spelled : n.SpelledBy text) (notWhole : n.isWhole = false) :
    codec.decode text =
      if (bestEffort.double n).isFinite then .ok (.float (bestEffort.double n))
      else .error .malformed :=
  decode_of_not_isInt64 spelled fun fits => absurd fits.whole (notWhole ▸ Bool.false_ne_true)

/-- A number of a text is an integer if and only if it is spelled like one, is no negative
zero and fits 64 signed bits; it is then the integer of that value. Any other number is the
double that it is read as, or is refused. The double has the sign of the number, is near to
it, and is the nearest one if the number is short; a number is refused only close to the end
of the doubles, and always beyond it. What was read is written so that it is read as a
quantity of the same kind: an integer as the same one, a double as one near to it, and as
the same one if what was written is short. -/
theorem decode_number (n : Numeral) (text : String) (spelled : n.SpelledBy text) :
    ((∃ i, codec.decode text = .ok (.integer i)) ↔ n.IsInt64) ∧
    (∀ i, codec.decode text = .ok (.integer i) →
      (i.toInt : ℚ) = n.value ∧ codec.decode (codec.encode (.integer i)) = .ok (.integer i)) ∧
    (¬n.IsInt64 →
      (codec.decode text = .ok (.float (bestEffort.double n)) ∧
        TakenFor n (bestEffort.double n)) ∨
      (codec.decode text = .error .malformed ∧
        Binary64.Overflows (n.value * (1 + 1 / 2 ^ 50)))) ∧
    (Binary64.Overflows (n.value * (1 - 1 / 2 ^ 50)) → codec.decode text = .error .malformed) ∧
    ∀ x, codec.decode text = .ok (.float x) →
      ∃ y, codec.decode (codec.encode (.float x)) = .ok (.float y) ∧ ComesBackAs x y := by
  have digits := spelled.hasDigits
  have integerOnly {i : Int64} (decoded : codec.decode text = .ok (.integer i)) : n.IsInt64 := by
    by_contra other
    rw [decode_of_not_isInt64 spelled other] at decoded
    split at decoded <;> cases decoded
  refine ⟨⟨?kind, ?fits⟩, ?value, ?float, ?refused, ?back⟩
  case kind =>
    rintro ⟨i, decoded⟩
    exact integerOnly decoded
  case fits =>
    intro fits
    obtain ⟨i, decoded, -⟩ := decode_of_isInt64 spelled fits
    exact ⟨i, decoded⟩
  case value =>
    intro i decoded
    obtain ⟨j, decoded', value⟩ := decode_of_isInt64 spelled (integerOnly decoded)
    rw [decoded] at decoded'
    cases decoded'
    exact ⟨value, Codec.decodeUnder_encode (codec_readsBack keepsFinite_bestEffort rfl)⟩
  case float =>
    intro other
    rw [decode_of_not_isInt64 spelled other]
    by_cases finite : (bestEffort.double n).isFinite = true
    · exact .inl ⟨if_pos finite, takenFor_double digits finite⟩
    · exact .inr ⟨if_neg finite, overflows_near_of_double digits finite⟩
  case refused =>
    intro overflows
    rw [decode_of_spelledBy spelled, if_neg (not_isFinite_of_overflows digits overflows)]
  case back =>
    intro x decoded
    have finite : x.isFinite = true := codec_yields.of_decodeUnder decoded
    exact ⟨_, Codec.decodeUnder_encode (codec_readsBack keepsFinite_bestEffort finite),
      comesBackAs_reread finite⟩

/-- An integer is an integer as long as it fits: `2 ^ 63` is a float and its opposite is
none. -/
theorem decode_number_twoPow63 :
    (∃ x, codec.decode "9223372036854775808" = .ok (.float x) ∧ x.IsNearest (2 ^ 63)) ∧
    ∃ i : Int64, codec.decode "-9223372036854775808" = .ok (.integer i) ∧
      (i.toInt : ℚ) = -2 ^ 63 := by
  have texts : integerText (2 ^ 63) = "9223372036854775808" ∧
      integerText (-2 ^ 63) = "-9223372036854775808" := by decide +kernel
  rw [← texts.1, ← texts.2]
  constructor
  · have value : (ofInt (2 ^ 63)).value = 2 ^ 63 := by
      rw [value_ofInt]
      norm_num
    have other : ¬(ofInt (2 ^ 63)).IsInt64 := fun fits => absurd fits.high (by rw [value]; norm_num)
    have short : (ofInt (2 ^ 63)).IsShort := by decide +kernel
    have finite : (bestEffort.double (ofInt (2 ^ 63))).isFinite = true := by decide +kernel
    obtain ⟨-, -, float, -⟩ := decode_number (ofInt (2 ^ 63)) _ (spelledBy_integerText _)
    obtain ⟨decoded, taken⟩ | ⟨refused, -⟩ := float other
    · exact ⟨_, decoded, value ▸ taken.nearest short⟩
    · rw [decode_of_not_isInt64 (spelledBy_integerText _) other, if_pos finite] at refused
      cases refused
  · have value : (ofInt (-2 ^ 63)).value = -2 ^ 63 := by
      rw [value_ofInt]
      norm_num
    have fits : (ofInt (-2 ^ 63)).IsInt64 :=
      ⟨rfl, by rw [value]; norm_num, by rw [value], by rw [value]; norm_num⟩
    obtain ⟨kind, same, -⟩ := decode_number (ofInt (-2 ^ 63)) _ (spelledBy_integerText _)
    obtain ⟨i, decoded⟩ := kind.mpr fits
    exact ⟨i, decoded, (same i decoded).1.trans value⟩

/-- Not every number is read as the double nearest to it; not every number with a finite
nearest double is read, and one with an infinite one may be; and not every double that was
read comes back as it was. -/
theorem decode_not_nearest :
    (∃ (n : Numeral) (x : Binary64), n.SpelledBy "9007199254740993.0" ∧
      codec.decode "9007199254740993.0" = .ok (.float x) ∧ ¬x.IsNearest n.value) ∧
    (∃ n : Numeral, n.SpelledBy "1.7976931348623158e308" ∧ ¬Binary64.Overflows n.value ∧
      codec.decode "1.7976931348623158e308" = .error .malformed) ∧
    (∃ (n : Numeral) (x : Binary64), n.SpelledBy "179769313486231581e291" ∧
      Binary64.Overflows n.value ∧ codec.decode "179769313486231581e291" = .ok (.float x)) ∧
    ∃ x y, codec.decode "92.328872873237628" = .ok (.float x) ∧
      codec.decode (codec.encode (.float x)) = .ok (.float y) ∧ x ≠ y := by
  refine ⟨?nearest, ?refused, ?read, ?back⟩
  case nearest =>
    let n : Numeral := ⟨false, "9007199254740993".toList, some ['0'], none⟩
    have spelled : n.SpelledBy "9007199254740993.0" := spelledBy_of_scan? (by decide +kernel)
    have finite : n.toBinary64.isFinite = true := by decide +kernel
    have other : bestEffort.double n ≠ n.toBinary64 := by decide +kernel
    refine ⟨n, bestEffort.double n, spelled, ?_, fun nearest => other ?_⟩
    · rw [decode_of_isWhole_eq_false spelled rfl]
      exact if_pos (by decide +kernel)
    · exact (isNearest_value_iff rfl finite rfl).mp nearest
  case refused =>
    let n : Numeral := ⟨false, ['1'], some "7976931348623158".toList, some 308⟩
    have spelled : n.SpelledBy "1.7976931348623158e308" := spelledBy_of_scan? (by decide +kernel)
    refine ⟨n, spelled, isFinite_toBinary64_iff.mp (by decide +kernel), ?_⟩
    rw [decode_of_isWhole_eq_false spelled rfl]
    exact if_neg (by decide +kernel)
  case read =>
    let n : Numeral := ⟨false, "179769313486231581".toList, none, some 291⟩
    have spelled : n.SpelledBy "179769313486231581e291" := spelledBy_of_scan? (by decide +kernel)
    have infinite : ¬n.toBinary64.isFinite = true := by decide +kernel
    rw [isFinite_toBinary64_iff, not_not] at infinite
    refine ⟨n, bestEffort.double n, spelled, infinite, ?_⟩
    rw [decode_of_isWhole_eq_false spelled rfl]
    exact if_pos (by decide +kernel)
  case back =>
    let n : Numeral := ⟨false, "92".toList, some "328872873237628".toList, none⟩
    have spelled : n.SpelledBy "92.328872873237628" := spelledBy_of_scan? (by decide +kernel)
    have finite : (bestEffort.double n).isFinite = true := by decide +kernel
    refine ⟨bestEffort.double n, bestEffort.reread (bestEffort.double n), ?_,
      Codec.decodeUnder_encode (codec_readsBack keepsFinite_bestEffort finite), by decide +kernel⟩
    rw [decode_of_isWhole_eq_false spelled rfl]
    exact if_pos finite

end Quantity

end TableReport
