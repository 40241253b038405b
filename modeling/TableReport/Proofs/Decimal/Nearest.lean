import TableReport.Decimal.Shortest
import TableReport.Proofs.Binary64.Rounding

/-!
The double nearest to a decimal depends on its value alone: neither the shortcuts
for very large and very small exponents nor zeros at the end of the digits make a
difference. So the shortest digits of a magnitude, which were checked before they
were trimmed, read back to it.
-/

namespace TableReport.Decimal

theorem two_pow_le_ten_pow (exponent : Nat) : 2 ^ (3 * exponent) ≤ 10 ^ exponent := by
  rw [Nat.pow_mul]
  exact Nat.pow_le_pow_left (by decide) exponent

theorem two_pow_le_mul_ten_pow {digits : Nat} (positive : 0 < digits) (places shift : Nat) :
    2 ^ (3 * places + shift) ≤ digits * 10 ^ places * 2 ^ shift :=
  calc 2 ^ (3 * places + shift) = 2 ^ (3 * places) * 2 ^ shift := Nat.pow_add ..
    _ ≤ 10 ^ places * 2 ^ shift := Nat.mul_le_mul_right _ (two_pow_le_ten_pow places)
    _ ≤ digits * 10 ^ places * 2 ^ shift :=
      Nat.mul_le_mul_right _ (Nat.le_mul_of_pos_left _ positive)

theorem two_mul_lt_ten_pow (digits shift places : Nat)
    (bound : digits.log2 + shift + 2 ≤ 3 * places) : 2 * (digits * 2 ^ shift) < 10 ^ places :=
  calc 2 * (digits * 2 ^ shift) < 2 * (2 ^ (digits.log2 + 1) * 2 ^ shift) :=
        Nat.mul_lt_mul_of_pos_left
          (Nat.mul_lt_mul_of_pos_right Nat.lt_log2_self (Nat.two_pow_pos _)) (by decide)
    _ = 2 ^ (digits.log2 + 1 + shift + 1) := by rw [← Nat.pow_add, Nat.mul_comm, Nat.pow_succ]
    _ ≤ 2 ^ (3 * places) := Nat.pow_le_pow_right (by decide) (by omega)
    _ ≤ 10 ^ places := two_pow_le_ten_pow _

/-- The shortcuts of `nearest` agree with rounding the whole quotient. -/
theorem nearest_eq_nearestMagnitude (d : Decimal) :
    d.nearest =
      Binary64.nearestMagnitude (d.digits * 10 ^ d.exponent.toNat * Binary64.unitsPerOne)
        (10 ^ (-d.exponent).toNat) := by
  unfold nearest
  by_cases zero : d.digits = 0
  · have small : 2 * (0 * 10 ^ d.exponent.toNat * Binary64.unitsPerOne) <
        10 ^ (-d.exponent).toNat := by
      rw [Nat.zero_mul, Nat.zero_mul]
      exact Nat.pow_pos (by decide)
    rw [if_pos zero, zero, Binary64.nearestMagnitude_eq_zero small]
  · rw [if_neg zero]
    unfold Binary64.unitsPerOne
    cases d.exponent with
    | ofNat up =>
        have exponents : (Int.ofNat up).toNat = up ∧ (-Int.ofNat up).toNat = 0 :=
          ⟨rfl, Int.toNat_neg_natCast up⟩
        rw [exponents.1, exponents.2, Nat.pow_zero]
        dsimp only
        split
        next large =>
          have bound := two_pow_le_mul_ten_pow (Nat.pos_of_ne_zero zero) up 1074
          rw [Binary64.nearestMagnitude_eq_infinity (by omega) bound]
        next => rfl
    | negSucc down =>
        have exponents : (Int.negSucc down).toNat = 0 ∧ (-Int.negSucc down).toNat = down + 1 := by
          omega
        rw [exponents.1, exponents.2, Nat.pow_zero, Nat.mul_one]
        dsimp only
        split
        next small =>
          have bound : 2 * (d.digits * 2 ^ 1074) < 10 ^ (down + 1) :=
            two_mul_lt_ten_pow d.digits 1074 (down + 1) (by omega)
          rw [Binary64.nearestMagnitude_eq_zero bound]
        next => rfl

theorem nearest_whole (digits : Nat) :
    nearest { digits, exponent := 0 } =
      Binary64.nearestMagnitude (digits * Binary64.unitsPerOne) 1 := by
  have nearest := nearest_eq_nearestMagnitude { digits, exponent := 0 }
  simpa only [Int.toNat_zero, Int.neg_zero, Nat.pow_zero, Nat.mul_one] using nearest

theorem nearest_append_zero (digits : Nat) (exponent : Int) :
    nearest { digits := digits * 10, exponent := exponent - 1 } = nearest { digits, exponent } := by
  simp only [nearest_eq_nearestMagnitude]
  by_cases positive : 0 < exponent
  · have raised : exponent.toNat = (exponent - 1).toNat + 1 := by omega
    have whole : (-exponent).toNat = 0 ∧ (-(exponent - 1)).toNat = 0 := by omega
    rw [raised, whole.1, whole.2, Nat.pow_succ, Nat.mul_assoc digits, Nat.mul_comm 10]
  · have whole : exponent.toNat = 0 ∧ (exponent - 1).toNat = 0 := by omega
    have lowered : (-(exponent - 1)).toNat = (-exponent).toNat + 1 := by omega
    rw [lowered, whole.1, whole.2, Nat.pow_zero, Nat.mul_one, Nat.mul_one, Nat.pow_succ,
      Nat.mul_right_comm, Binary64.nearestMagnitude_mul_right (by decide)]

theorem nearest_append_zeros (digits : Nat) (exponent : Int) (zeros : Nat) :
    nearest { digits := digits * 10 ^ zeros, exponent := exponent - zeros } =
      nearest { digits, exponent } := by
  induction zeros with
  | zero => simp
  | succ zeros inductionHypothesis =>
      rw [Nat.pow_succ, ← Nat.mul_assoc, Int.natCast_succ, ← Int.sub_sub, nearest_append_zero,
        inductionHypothesis]

theorem nearest_trim (d : Decimal) : d.trim.nearest = d.nearest := by
  fun_induction trim d with
  | case1 d ends inductionHypothesis =>
      rw [inductionHypothesis, ← nearest_append_zero,
        Nat.div_mul_cancel (Nat.dvd_of_mod_eq_zero ends.2), Int.add_sub_cancel]
  | case2 => rfl

theorem nearestMagnitude_mul_five_pow (units places : Nat) :
    Binary64.nearestMagnitude (units * 5 ^ places * 10 ^ 0 * 2 ^ places) (10 ^ places) =
      Binary64.nearestMagnitude units 1 := by
  have positive : 0 < 10 ^ places := Nat.pow_pos (by decide)
  have scaled := @Binary64.nearestMagnitude_mul_right units 1 (10 ^ places) positive
  have powers : 10 ^ places = 5 ^ places * 2 ^ places := Nat.mul_pow 5 2 places
  rwa [Nat.one_mul, powers, ← Nat.mul_assoc, ← powers, ← Nat.mul_one (units * 5 ^ places),
    ← Nat.pow_zero 10] at scaled

theorem nearest_exact {magnitude : Nat} (finite : magnitude < Binary64.infinityMagnitude) :
    (exact magnitude).nearest = magnitude := by
  have exponents : (exact magnitude).exponent.toNat = 0 ∧
      (-(exact magnitude).exponent).toNat = 1074 := ⟨rfl, rfl⟩
  rw [nearest_eq_nearestMagnitude, exponents.1, exponents.2, exact, Binary64.unitsPerOne,
    nearestMagnitude_mul_five_pow _ 1074, Binary64.nearestMagnitude_unitsOf finite]

theorem nearest_of_onGrid? {tie : Tie} {magnitude : Nat} {exponent : Int} {d : Decimal}
    (found : onGrid? tie magnitude exponent = some d) : d.nearest = magnitude := by
  unfold onGrid? at found
  generalize overPower (Binary64.unitsOf magnitude) exponent = quotient at found
  obtain ⟨num, den⟩ := quotient
  dsimp only at found
  split at found <;> simp only [beq_iff_eq, Option.some.injEq, reduceCtorEq] at *
  next lower upper =>
    -- Both neighbours read back, so it does not matter which one is the nearer.
    split at found <;> simp only [Option.some.injEq] at found <;> subst found
    case h_4 => split <;> assumption
    all_goals assumption
  next lower _ => rwa [← found]
  next _ upper => rwa [← found]

/-- The shortest digits of a finite magnitude read back to it. -/
theorem nearest_shortest {tie : Tie} {magnitude : Nat}
    (finite : magnitude < Binary64.infinityMagnitude) :
    (shortest tie magnitude).nearest = magnitude := by
  unfold shortest
  rw [nearest_trim]
  cases searched : (List.range 17).findSome? fun n =>
      onGrid? tie magnitude (scale (Binary64.unitsOf magnitude) - (n + 1 : Nat)) with
  | none => exact nearest_exact finite
  | some d =>
      obtain ⟨n, -, found⟩ := List.exists_of_findSome?_eq_some searched
      exact nearest_of_onGrid? found

end TableReport.Decimal
