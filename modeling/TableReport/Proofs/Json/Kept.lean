import TableReport.Json.FloatReading
import TableReport.Proofs.Decimal.Value

/-!
The digits that are kept of a numeral. They are the leading ones, and there are enough
of them: what is left over is less than `2 ^ (-60)` of the number. Nothing is left over
if all of them fit.
-/

namespace TableReport

namespace Numeral

variable {n : Numeral} {text : List Char}

/-- The digits in front of the point and behind it. -/
def allDigits (n : Numeral) : List Char := n.whole ++ n.fraction.getD []

/-- All that stands where digits are expected are digits. -/
def HasDigits (n : Numeral) : Prop := ∀ c ∈ n.allDigits, c.isDigit = true

theorem Spells.hasDigits (spells : Spells text n) : n.HasDigits := by
  intro c membership
  rcases List.mem_append.mp membership with front | behind
  · exact spells.wholeRow.allDigits c front
  · cases present : n.fraction with
    | none =>
        rw [present] at behind
        cases behind
    | some digits =>
        rw [present] at behind
        exact (spells.fractionRow digits present).allDigits c behind

end Numeral

namespace Json.FloatReading

open Numeral

section Rows

variable {taken : ℕ} {digits : List Char}

theorem takeDigits_cons_total (taken : ℕ) (c : Char) (rest : List Char) :
    taken * 10 ^ (c :: rest).length + digitsValue (c :: rest) =
      (10 * taken + (c.toNat - '0'.toNat)) * 10 ^ rest.length + digitsValue rest := by
  rw [digitsValue_cons, List.length_cons]
  ring

/-- The number that is taken is made of the leading digits. -/
theorem takeDigits_fst (taken : ℕ) (allDigits : ∀ c ∈ digits, c.isDigit = true) :
    (takeDigits taken digits).1 =
      (taken * 10 ^ digits.length + digitsValue digits) / 10 ^ (takeDigits taken digits).2 := by
  induction digits generalizing taken with
  | nil => simp [takeDigits, digitsValue]
  | cons c rest inductionHypothesis =>
      have others := (List.forall_mem_cons.mp allDigits).2
      unfold takeDigits
      dsimp only
      split
      next =>
        rw [takeDigits_cons_total]
        exact inductionHypothesis _ others
      next =>
        rw [← List.length_cons (a := c), Nat.add_comm, Nat.add_mul_div_right _ _ (by positivity),
          Nat.div_eq_of_lt (digitsValue_lt allDigits), Nat.zero_add]

theorem takeDigits_snd_le (taken : ℕ) (digits : List Char) :
    (takeDigits taken digits).2 ≤ digits.length := by
  induction digits generalizing taken with
  | nil => exact Nat.le_refl 0
  | cons c rest inductionHypothesis =>
      unfold takeDigits
      dsimp only
      split
      next => exact (inductionHypothesis _).trans (Nat.le_succ _)
      next => exact Nat.le_refl _

/-- Digits are only left over where the number has grown long. -/
theorem le_takeDigits_fst (allDigits : ∀ c ∈ digits, c.isDigit = true)
    (left : (takeDigits taken digits).2 ≠ 0) : 2 ^ 60 ≤ (takeDigits taken digits).1 := by
  induction digits generalizing taken with
  | nil => exact absurd rfl left
  | cons c rest inductionHypothesis =>
      obtain ⟨first, others⟩ := List.forall_mem_cons.mp allDigits
      have lead := digit_le_nine first
      unfold takeDigits at left ⊢
      dsimp only at left ⊢
      split at left
      next fits =>
        rw [if_pos fits]
        exact inductionHypothesis others left
      next long =>
        rw [if_neg long]
        dsimp only
        omega

theorem takeDigits_fst_lt (fits : taken < 2 ^ 64) (digits : List Char) :
    (takeDigits taken digits).1 < 2 ^ 64 := by
  induction digits generalizing taken with
  | nil => exact fits
  | cons c rest inductionHypothesis =>
      unfold takeDigits
      dsimp only
      split
      next more => exact inductionHypothesis more
      next => exact fits

theorem takeDigits_of_lt (fits : taken * 10 ^ digits.length + digitsValue digits < 2 ^ 64) :
    takeDigits taken digits = (taken * 10 ^ digits.length + digitsValue digits, 0) := by
  induction digits generalizing taken with
  | nil => simp [takeDigits, digitsValue]
  | cons c rest inductionHypothesis =>
      rw [takeDigits_cons_total] at fits ⊢
      have next : 10 * taken + (c.toNat - '0'.toNat) < 2 ^ 64 :=
        calc 10 * taken + (c.toNat - '0'.toNat)
            ≤ (10 * taken + (c.toNat - '0'.toNat)) * 10 ^ rest.length :=
              Nat.le_mul_of_pos_right _ (by positivity)
          _ ≤ _ := Nat.le_add_right _ _
          _ < 2 ^ 64 := fits
      rw [takeDigits, if_pos next, inductionHypothesis fits]

end Rows

section Leading

variable {m n whole front back all length skipped dropped : ℕ}

/-- The numbers have the same leading digits, and so many of them that they hardly
differ. -/
def Agree (m n : ℕ) : Prop :=
  ∃ step lead, 0 < step ∧ m / step = lead ∧ n / step = lead ∧ (step = 1 ∨ 2 ^ 60 ≤ lead)

theorem Agree.abs_sub_le (agree : Agree m n) : |(m : ℚ) - n| ≤ n / 2 ^ 60 := by
  obtain ⟨step, lead, positive, quotientM, quotientN, enough⟩ := agree
  rcases enough with rfl | enough
  · rw [Nat.div_one] at quotientM quotientN
    rw [quotientM, quotientN, sub_self, abs_zero]
    positivity
  · have belowM := Nat.div_mul_le_self m step
    have belowN := Nat.div_mul_le_self n step
    have aboveM := @Nat.lt_div_mul_add m step positive
    have aboveN := @Nat.lt_div_mul_add n step positive
    have long := Nat.mul_le_mul_right step enough
    rw [quotientM] at belowM aboveM
    rw [quotientN] at belowN aboveN
    have above : (m : ℚ) ≤ n + step := by exact_mod_cast (by omega : m ≤ n + step)
    have below : (n : ℚ) ≤ m + step := by exact_mod_cast (by omega : n ≤ m + step)
    have small : (2 ^ 60 * step : ℚ) ≤ n := by exact_mod_cast long.trans belowN
    rw [abs_le]
    constructor <;> linarith

theorem agree_mul_div {places : ℕ} (n : ℕ) (enough : places ≠ 0 → 2 ^ 60 ≤ n / 10 ^ places) :
    Agree (n / 10 ^ places * 10 ^ places) n := by
  have positive : 0 < 10 ^ places := by positivity
  refine ⟨10 ^ places, _, positive, Nat.mul_div_cancel _ positive, rfl, ?_⟩
  by_cases none : places = 0
  · exact .inl (none ▸ Nat.pow_zero 10)
  · exact .inr (enough none)

/-- Zeros may stand for digits at the end, and for some in front of these. -/
theorem agree_of_skipped (below : back < 10 ^ length)
    (within : dropped ≤ length) (enough : 2 ^ 60 ≤ front / 10 ^ skipped) :
    Agree ((front / 10 ^ skipped * 10 ^ length + back) / 10 ^ dropped * 10 ^ (skipped + dropped))
      (front * 10 ^ length + back) := by
  obtain ⟨more, rfl⟩ := Nat.exists_eq_add_of_le within
  have positive (places : ℕ) : 0 < 10 ^ places := by positivity
  have leading (n : ℕ) : (n * 10 ^ (dropped + more) + back) / 10 ^ (dropped + more) = n := by
    rw [Nat.add_comm, Nat.add_mul_div_right _ _ (positive _), Nat.div_eq_of_lt below, Nat.zero_add]
  refine ⟨10 ^ (dropped + more) * 10 ^ skipped, front / 10 ^ skipped,
    Nat.mul_pos (positive _) (positive _), ?_, ?_, .inr enough⟩
  · generalize total : front / 10 ^ skipped * 10 ^ (dropped + more) + back = kept
    calc kept / 10 ^ dropped * 10 ^ (skipped + dropped) / (10 ^ (dropped + more) * 10 ^ skipped)
        = kept / 10 ^ dropped * 10 ^ dropped / 10 ^ (dropped + more) := by
          rw [Nat.add_comm skipped, Nat.pow_add 10 dropped skipped, ← Nat.mul_assoc,
            Nat.mul_div_mul_right _ _ (positive skipped)]
      _ = kept / 10 ^ dropped / 10 ^ more := by
          rw [Nat.add_comm dropped, Nat.pow_add, Nat.mul_div_mul_right _ _ (positive dropped)]
      _ = kept / 10 ^ (dropped + more) := by rw [Nat.div_div_eq_div_mul, ← Nat.pow_add]
      _ = front / 10 ^ skipped := by rw [← total, leading]
  · rw [← Nat.div_div_eq_div_mul, leading]

/-- The digits of two rows are taken in turn. -/
theorem agree_of_rows (below : back < 10 ^ length) (within : dropped ≤ length)
    (frontTaken : front = whole / 10 ^ skipped) (frontLong : skipped ≠ 0 → 2 ^ 60 ≤ front)
    (allTaken : all = (front * 10 ^ length + back) / 10 ^ dropped)
    (allLong : dropped ≠ 0 → 2 ^ 60 ≤ all) :
    Agree (all * 10 ^ (skipped + dropped)) (whole * 10 ^ length + back) := by
  subst allTaken frontTaken
  by_cases none : skipped = 0
  · rw [none, Nat.pow_zero, Nat.div_one] at allLong ⊢
    rw [Nat.zero_add]
    exact agree_mul_div _ allLong
  · exact agree_of_skipped below within (frontLong none)

end Leading

section Kept

variable {n : Numeral}

theorem digits_decimal (n : Numeral) :
    n.decimal.digits = digitsValue n.whole * 10 ^ (n.fraction.getD []).length +
      digitsValue (n.fraction.getD []) := by
  show digitsValue (n.whole ++ n.fraction.getD []) = _
  rw [digitsValue_append, Nat.mul_comm]

theorem kept_agree (digits : n.HasDigits) :
    ∃ taken : ℕ,
      (kept n).value = taken * 10 ^ n.decimal.exponent ∧ Agree taken n.decimal.digits := by
  have front : ∀ c ∈ n.whole, c.isDigit = true := fun c inside =>
    digits c (List.mem_append_left _ inside)
  have behind : ∀ c ∈ n.fraction.getD [], c.isDigit = true := fun c inside =>
    digits c (List.mem_append_right _ inside)
  have frontTaken := takeDigits_fst 0 front
  rw [Nat.zero_mul, Nat.zero_add] at frontTaken
  refine ⟨_, ?value, digits_decimal n ▸ agree_of_rows (digitsValue_lt behind)
    (takeDigits_snd_le _ _) frontTaken (le_takeDigits_fst front) (takeDigits_fst _ behind)
    (le_takeDigits_fst behind)⟩
  case value =>
    rw [Nat.cast_mul, Nat.cast_pow, Nat.cast_ofNat, mul_assoc, ← zpow_natCast,
      ← zpow_add₀ (by norm_num)]
    unfold kept decimal Decimal.value
    dsimp only
    congr 2
    omega

/-- What is not kept of a number hardly changes it. -/
theorem abs_kept_sub_le (digits : n.HasDigits) :
    |(kept n).value - n.decimal.value| ≤ n.decimal.value / 2 ^ 60 := by
  obtain ⟨taken, value, agree⟩ := kept_agree digits
  have positive : (0 : ℚ) < 10 ^ n.decimal.exponent := zpow_pos (by norm_num) _
  rw [value, Decimal.value, ← sub_mul, abs_mul, abs_of_pos positive, mul_div_right_comm]
  exact mul_le_mul_of_nonneg_right agree.abs_sub_le positive.le

theorem kept_digits_lt (n : Numeral) : (kept n).digits < 2 ^ 64 :=
  takeDigits_fst_lt (takeDigits_fst_lt (by norm_num) _) _

/-- Nothing is left over if all of the digits fit. -/
theorem kept_eq_decimal (fits : n.decimal.digits < 2 ^ 64) : kept n = n.decimal := by
  rw [digits_decimal] at fits
  have front : takeDigits 0 n.whole = (digitsValue n.whole, 0) := by
    have first : digitsValue n.whole < 2 ^ 64 :=
      calc digitsValue n.whole ≤ digitsValue n.whole * 10 ^ (n.fraction.getD []).length :=
            Nat.le_mul_of_pos_right _ (by positivity)
        _ ≤ _ := Nat.le_add_right _ _
        _ < 2 ^ 64 := fits
    have taken := @takeDigits_of_lt 0 n.whole (by rwa [Nat.zero_mul, Nat.zero_add])
    rwa [Nat.zero_mul, Nat.zero_add] at taken
  unfold kept
  dsimp only
  rw [front, takeDigits_of_lt fits, ← digits_decimal]
  simp [decimal]

end Kept

end Json.FloatReading

end TableReport
