import TableReport.Binary64.Rounding

/-!
Rounding depends on the quotient alone, not on the numbers that it is written
with, and it gives back every finite magnitude from its exact value. Quotients
beyond the range of the doubles end at infinity and at zero.
-/

namespace TableReport

theorem roundHalfUp_mul_right {num den scale : Nat} (positive : 0 < scale) :
    roundHalfUp (num * scale) (den * scale) = roundHalfUp num den := by
  unfold roundHalfUp
  rw [← Nat.mul_assoc, ← Nat.mul_assoc, ← Nat.add_mul, Nat.mul_div_mul_right _ _ positive]

theorem roundHalfEven_mul_right {num den scale : Nat} (positive : 0 < scale) :
    roundHalfEven (num * scale) (den * scale) = roundHalfEven num den := by
  unfold roundHalfEven
  have tie : (2 * (num * scale) + den * scale) % (2 * (den * scale)) = 0 ↔
      (2 * num + den) % (2 * den) = 0 := by
    rw [← Nat.mul_assoc, ← Nat.mul_assoc, ← Nat.add_mul, Nat.mul_mod_mul_right,
      Nat.mul_eq_zero, or_iff_left (Nat.ne_of_gt positive)]
  simp only [roundHalfUp_mul_right positive, tie]

theorem roundHalfEven_one (n : Nat) : roundHalfEven n 1 = n := by
  unfold roundHalfEven roundHalfUp
  have half : (2 * n + 1) / (2 * 1) = n := by omega
  have noTie : (2 * n + 1) % (2 * 1) = 1 := by omega
  simp [half, noTie]

theorem roundHalfEven_eq_zero {num den : Nat} (small : 2 * num < den) :
    roundHalfEven num den = 0 := by
  unfold roundHalfEven roundHalfUp
  have half : (2 * num + den) / (2 * den) = 0 := Nat.div_eq_of_lt (by omega)
  simp [half]

theorem roundHalfUp_le (num : Nat) {den : Nat} (positive : 0 < den) :
    roundHalfUp num den ≤ num / den + 1 := by
  have below : 2 * num + den < 2 * den * (num / den + 2) := by
    have remainder := Nat.mod_lt num positive
    have parts := Nat.div_add_mod num den
    have whole : 2 * den * (num / den + 2) = 2 * (den * (num / den)) + 4 * den := by
      rw [Nat.mul_add, Nat.mul_assoc]
      omega
    omega
  exact Nat.le_of_lt_succ (Nat.div_lt_of_lt_mul below)

theorem roundHalfEven_le (num : Nat) {den : Nat} (positive : 0 < den) :
    roundHalfEven num den ≤ num / den + 1 := by
  have up := roundHalfUp_le num positive
  unfold roundHalfEven
  dsimp only
  split <;> omega

namespace Binary64

theorem isFinite_iff {x : Binary64} : x.isFinite = true ↔ x.magnitude < infinityMagnitude := by
  simp [isFinite]

theorem nearestMagnitude_mul_right {num den scale : Nat} (positive : 0 < scale) :
    nearestMagnitude (num * scale) (den * scale) = nearestMagnitude num den := by
  simp only [nearestMagnitude, Nat.mul_div_mul_right _ _ positive, Nat.mul_right_comm den scale,
    roundHalfEven_mul_right positive]

theorem log2_mul_two_pow {n : Nat} (nonzero : n ≠ 0) (exponent : Nat) :
    (n * 2 ^ exponent).log2 = n.log2 + exponent := by
  obtain ⟨lower, upper⟩ := (Nat.log2_eq_iff nonzero).mp rfl
  have positive := Nat.two_pow_pos exponent
  rw [Nat.log2_eq_iff (Nat.mul_ne_zero nonzero (Nat.ne_of_gt positive)), Nat.add_right_comm,
    Nat.pow_add, Nat.pow_add]
  exact ⟨Nat.mul_le_mul_right _ lower, Nat.mul_lt_mul_of_pos_right upper positive⟩

/-- A finite magnitude is the one nearest to its own value. -/
theorem nearestMagnitude_unitsOf {magnitude : Nat} (finite : magnitude < infinityMagnitude) :
    nearestMagnitude (unitsOf magnitude) 1 = magnitude := by
  have parts := Nat.div_add_mod magnitude (2 ^ 52)
  have bound : magnitude % 2 ^ 52 < 2 ^ 52 := Nat.mod_lt _ (by decide)
  simp only [nearestMagnitude, unitsOf, Nat.div_one, Nat.one_mul]
  generalize magnitude / 2 ^ 52 = exponent at *
  generalize magnitude % 2 ^ 52 = fraction at *
  -- Subnormal magnitudes count units; every other one has its leading bit 52
  -- places above its last one, and the bits below are zero.
  cases exponent with
  | zero =>
      have log : fraction.log2 - 52 = 0 := by
        by_cases zero : fraction = 0
        · simp [zero]
        · have := (Nat.log2_lt zero).mpr bound
          omega
      rw [if_pos rfl, log, Nat.pow_zero, roundHalfEven_one]
      omega
  | succ below =>
      have log : (2 ^ 52 + fraction).log2 = 52 := (Nat.log2_eq_iff (by omega)).mpr (by omega)
      have exact : roundHalfEven ((2 ^ 52 + fraction) * 2 ^ below) (2 ^ below) =
          2 ^ 52 + fraction := by
        have scaled := @roundHalfEven_mul_right (2 ^ 52 + fraction) 1 (2 ^ below)
          (Nat.two_pow_pos below)
        rwa [Nat.one_mul, roundHalfEven_one] at scaled
      rw [if_neg (Nat.succ_ne_zero below), Nat.add_sub_cancel, log2_mul_two_pow (by omega), log,
        Nat.add_sub_cancel_left, exact]
      omega

theorem nearestMagnitude_eq_infinity {num exponent : Nat} (far : 2099 ≤ exponent)
    (large : 2 ^ exponent ≤ num) : nearestMagnitude num 1 = infinityMagnitude := by
  have nonzero : num ≠ 0 := Nat.ne_of_gt (Nat.lt_of_lt_of_le (Nat.two_pow_pos exponent) large)
  have log : exponent ≤ num.log2 := (Nat.le_log2 nonzero).mpr large
  simp only [nearestMagnitude, infinityMagnitude, Nat.div_one]
  omega

theorem nearestMagnitude_lt_infinity {num exponent : Nat} (near : exponent ≤ 2000)
    (bound : num < 2 ^ exponent) : nearestMagnitude num 1 < infinityMagnitude := by
  have log : num.log2 ≤ exponent := by
    by_cases zero : num = 0
    · simp [zero]
    · exact Nat.le_of_lt ((Nat.log2_lt zero).mpr bound)
  have scaled : num / 2 ^ (num.log2 - 52) < 2 ^ 53 := by
    rw [Nat.div_lt_iff_lt_mul (Nat.two_pow_pos _), ← Nat.pow_add]
    exact Nat.lt_of_lt_of_le Nat.lt_log2_self (Nat.pow_le_pow_right (by decide) (by omega))
  have rounded := roundHalfEven_le num (Nat.two_pow_pos (num.log2 - 52))
  simp only [nearestMagnitude, infinityMagnitude, Nat.div_one, Nat.one_mul]
  omega

theorem mul_two_pow_lt {n size shift total : Nat} (bound : n ≤ 2 ^ size)
    (room : size + shift < total) : n * 2 ^ shift < 2 ^ total :=
  calc n * 2 ^ shift ≤ 2 ^ size * 2 ^ shift := Nat.mul_le_mul_right _ bound
    _ = 2 ^ (size + shift) := (Nat.pow_add ..).symm
    _ < 2 ^ total := Nat.pow_lt_pow_right (by decide) room

/-- Whole numbers of 64 bits are far from infinity. -/
theorem isFinite_ofInt {n : Int} (bound : n.natAbs ≤ 2 ^ 64) : (ofInt n).isFinite = true := by
  have units : n.natAbs * unitsPerOne < 2 ^ 2000 := by
    rw [unitsPerOne]
    exact @mul_two_pow_lt n.natAbs 64 1074 2000 bound (by decide)
  exact decide_eq_true (nearestMagnitude_lt_infinity (Nat.le_refl _) units)

theorem nearestMagnitude_eq_zero {num den : Nat} (small : 2 * num < den) :
    nearestMagnitude num den = 0 := by
  have below : num / den = 0 := Nat.div_eq_of_lt (by omega)
  simp [nearestMagnitude, below, roundHalfEven_eq_zero small]

end Binary64

end TableReport
