import TableReport.Proofs.Json.FloatReading

/-!
Numbers keep their kind in a text: an integer of at most 64 bits is written
without a point, and a float never is. An integer keeps its value, too, and a float
comes back as the reading of decimals has it.
-/

namespace TableReport.Json.Number

variable {reading : FloatReading}

/-- An integer of the number fits 64 bits, signed or unsigned. -/
def InRange : Number → Prop
  | .integer n => -2 ^ 63 ≤ n ∧ n < 2 ^ 64
  | .real _ => True

/-- The numbers that have a numeral of their own. -/
structure Writable (n : Number) : Prop where
  inRange : n.InRange
  finite : n.isFinite = true

theorem writable_integer {n : Int} (low : -2 ^ 63 ≤ n) (high : n < 2 ^ 64) :
    (integer n).Writable := ⟨⟨low, high⟩, rfl⟩

theorem ofNumeral_inRange (n : Numeral) : (ofNumeral reading n).InRange := by
  simp only [ofNumeral]
  split
  next small =>
    simp only [Bool.and_eq_true, decide_eq_true_eq] at small
    constructor <;> omega
  split
  next negative =>
    simp only [Bool.and_eq_true, decide_eq_true_eq] at negative
    constructor <;> omega
  · exact trivial

/-- A number of a text that is finite at all is a finite double. -/
theorem Writable.isFinite_toBinary64 {n : Number} (writable : n.Writable) :
    n.toBinary64.isFinite = true := by
  cases n with
  | integer n =>
      have ⟨low, high⟩ := writable.inRange
      exact Binary64.isFinite_ofInt (by omega)
  | real => exact writable.finite

theorem ofNumeral_integer {n : Int} (low : -2 ^ 63 ≤ n) (high : n < 2 ^ 64) :
    ofNumeral reading ⟨decide (n < 0), digitChars n.natAbs, none, none⟩ = .integer n := by
  unfold ofNumeral
  dsimp only
  rw [digitsValue_digitChars]
  by_cases negative : n < 0
  · have small : n.natAbs ≠ 0 ∧ n.natAbs ≤ 2 ^ 63 := by omega
    have value : -(n.natAbs : Int) = n := by omega
    rw [if_neg (by simp [negative]), if_pos (by simpa [Numeral.isWhole, negative] using small),
      value]
  · have small : n.natAbs < 2 ^ 64 := by omega
    have value : (n.natAbs : Int) = n := by omega
    rw [if_pos (by simpa [Numeral.isWhole, negative] using small), value]

theorem ofNumeral_real {n : Numeral} (notWhole : n.isWhole = false) :
    ofNumeral reading n = .real (reading.double n) := by
  simp [ofNumeral, notWhole]

/-- The number that is read where a number was written. -/
def reread (reading : FloatReading) : Number → Number
  | .integer n => .integer n
  | .real x => .real (reading.reread x)

theorem spells_chars {n : Number} (writable : n.Writable) :
    ∃ numeral, Numeral.Spells n.chars numeral ∧
      ∀ reading, ofNumeral reading numeral = n.reread reading := by
  cases n with
  | integer n =>
      have ⟨low, high⟩ := writable.inRange
      exact ⟨_, spells_integerChars n, fun _ => ofNumeral_integer low high⟩
  | real x =>
      have finite : x.isFinite = true := writable.finite
      obtain ⟨numeral, spells, -, notWhole⟩ := floatStyle.spells_chars (Or.inl rfl) finite
      refine ⟨numeral, by rwa [chars, if_pos finite], fun reading => ?_⟩
      rw [ofNumeral_real (notWhole rfl), reread, FloatReading.reread_eq_double spells]

end TableReport.Json.Number
