import Mathlib.Algebra.Order.Floor.Semifield
import Mathlib.Data.Nat.Cast.Order.Field
import Mathlib.Data.Rat.Floor
import Mathlib.Tactic.FieldSimp
import Mathlib.Tactic.Linarith
import Mathlib.Tactic.Positivity
import Mathlib.Tactic.Ring
import TableReport.Proofs.Binary64.Spacing

/-!
Nearest magnitudes. `NearestUnits` says which magnitude stands for a rational number
of units: none is nearer, and of two that are as near it is the even one. There is
exactly one, it rises with the number, and rounding finds it: at the scale of the
binade the question is which whole number is nearest, and whatever lies in lower
binades is farther off than the first magnitude of this one.
-/

namespace TableReport

variable {x : ℚ} {num den r j : ℕ}

theorem half_le_abs_sub (near : |(r : ℚ) - x| ≤ 1 / 2) (other : j ≠ r) : 1 / 2 ≤ |(j : ℚ) - x| := by
  have apart : (1 : ℚ) ≤ |(j : ℚ) - r| := by
    have whole : (j : ℤ) - r ≠ 0 := by omega
    exact_mod_cast Int.one_le_abs whole
  have triangle := abs_sub_le (j : ℚ) x r
  rw [abs_sub_comm x (r : ℚ)] at triangle
  linarith

/-- A rounded quotient is at most one half away; if it is one half away, it is even. -/
theorem roundHalfEven_near (num : ℕ) (positive : 0 < den) :
    2 * (den * roundHalfEven num den) ≤ 2 * num + den ∧
      2 * num ≤ 2 * (den * roundHalfEven num den) + den ∧
      (2 * (den * roundHalfEven num den) = 2 * num + den ∨
        2 * num = 2 * (den * roundHalfEven num den) + den → roundHalfEven num den % 2 = 0) := by
  have parts := Nat.div_add_mod (2 * num + den) (2 * den)
  have remainder := Nat.mod_lt (2 * num + den) (show 2 * den > 0 by omega)
  unfold roundHalfEven
  change 2 * den * roundHalfUp num den + _ = _ at parts
  rw [Nat.mul_assoc] at parts
  dsimp only
  generalize roundHalfUp num den = up at *
  split
  case isTrue tie =>
    simp only [Bool.and_eq_true, decide_eq_true_eq] at tie
    obtain ⟨below, rfl⟩ : ∃ below, up = below + 1 := ⟨up - 1, by omega⟩
    rw [Nat.mul_succ] at parts
    rw [Nat.add_sub_cancel]
    omega
  case isFalse noTie =>
    simp only [Bool.and_eq_true, decide_eq_true_eq] at noTie
    omega

theorem abs_roundHalfEven_sub (num : ℕ) (positive : 0 < den) :
    |(roundHalfEven num den : ℚ) - num / den| ≤ 1 / 2 ∧
      (|(roundHalfEven num den : ℚ) - num / den| = 1 / 2 → roundHalfEven num den % 2 = 0) := by
  obtain ⟨above, below, tie⟩ := roundHalfEven_near num positive
  generalize roundHalfEven num den = r at *
  have positiveDen : (0 : ℚ) < den := by exact_mod_cast positive
  have aboveRat : 2 * ((den : ℚ) * r) ≤ 2 * num + den := by exact_mod_cast above
  have belowRat : 2 * (num : ℚ) ≤ 2 * (den * r) + den := by exact_mod_cast below
  have error : (r : ℚ) - num / den = (2 * (den * r) - 2 * num) / (2 * den) := by field_simp
  constructor
  · rw [error, abs_div, abs_of_pos (show (0 : ℚ) < 2 * den by linarith),
      div_le_iff₀ (show (0 : ℚ) < 2 * den by linarith), abs_le]
    constructor <;> linarith
  · intro half
    apply tie
    rcases eq_or_eq_neg_of_abs_eq half with high | low
    · left
      rw [error, div_eq_iff (by linarith)] at high
      have equal : 2 * ((den : ℚ) * r) = 2 * num + den := by linarith
      exact_mod_cast equal
    · right
      rw [error, div_eq_iff (by linarith)] at low
      have equal : 2 * (num : ℚ) = 2 * (den * r) + den := by linarith
      exact_mod_cast equal

namespace Binary64

variable {q q' : ℚ} {magnitude other a b shift : ℕ}

/-- The magnitude whose value comes nearest to `q` units; of two such, the even one. -/
structure NearestUnits (q : ℚ) (magnitude : ℕ) : Prop where
  nearest : ∀ other, |(unitsOf magnitude : ℚ) - q| ≤ |(unitsOf other : ℚ) - q|
  even : ∀ other, other ≠ magnitude →
    |(unitsOf other : ℚ) - q| = |(unitsOf magnitude : ℚ) - q| → magnitude % 2 = 0

/-- Among the multiples of a step, the nearest one is that of the nearest whole number. -/
theorem abs_scaled_sub_le {scale : ℚ} (positive : 0 < scale) (near : |(r : ℚ) - x| ≤ 1 / 2)
    (apart : j ≠ r) :
    |(r : ℚ) * scale - x * scale| ≤ |(j : ℚ) * scale - x * scale| ∧
      (|(j : ℚ) * scale - x * scale| = |(r : ℚ) * scale - x * scale| → |(r : ℚ) - x| = 1 / 2) := by
  have far := half_le_abs_sub near apart
  rw [← sub_mul, ← sub_mul, abs_mul, abs_mul, abs_of_pos positive]
  refine ⟨mul_le_mul_of_nonneg_right (near.trans far) positive.le, fun same => ?_⟩
  exact le_antisymm near (far.trans (mul_right_cancel₀ positive.ne' same).le)

/-- A number that is rounded at the scale of a binade, in which it lies. -/
structure Rounds (x : ℚ) (magnitude shift r : ℕ) : Prop where
  splits : Splits magnitude shift r
  near : |(r : ℚ) - x| ≤ 1 / 2
  tie : |(r : ℚ) - x| = 1 / 2 → r % 2 = 0
  reached : shift ≠ 0 → ((2 ^ 52 : ℕ) : ℚ) ≤ x

namespace Rounds

theorem value (rounds : Rounds x magnitude shift r) : (unitsOf magnitude : ℚ) = r * 2 ^ shift := by
  rw [rounds.splits.unitsOf_eq, Nat.cast_mul, Nat.cast_pow, Nat.cast_ofNat]

/-- The first magnitude of the binade lies between a lower one and the number. -/
theorem abs_sub_lt_of_lower (rounds : Rounds x magnitude shift r) (notLowest : shift ≠ 0)
    (lower : unitsOf other < 2 ^ 52 * 2 ^ shift) :
    |(unitsOf magnitude : ℚ) - x * 2 ^ shift| < |(unitsOf other : ℚ) - x * 2 ^ shift| := by
  have positive : (0 : ℚ) < 2 ^ shift := by positivity
  have first : |(r : ℚ) * 2 ^ shift - x * 2 ^ shift| ≤
      |((2 ^ 52 : ℕ) : ℚ) * 2 ^ shift - x * 2 ^ shift| := by
    by_cases same : 2 ^ 52 = r
    · rw [same]
    · exact (abs_scaled_sub_le positive rounds.near same).1
  have lowerRat : (unitsOf other : ℚ) < ((2 ^ 52 : ℕ) : ℚ) * 2 ^ shift := by
    have cast : (unitsOf other : ℚ) < ((2 ^ 52 * 2 ^ shift : ℕ) : ℚ) := Nat.cast_lt.mpr lower
    rwa [Nat.cast_mul, Nat.cast_pow 2 shift, Nat.cast_ofNat (n := 2)] at cast
  have inside := mul_le_mul_of_nonneg_right (rounds.reached notLowest) positive.le
  rw [rounds.value]
  refine first.trans_lt ?_
  rw [abs_sub_comm, abs_of_nonneg (sub_nonneg.mpr inside), abs_sub_comm,
    abs_of_pos (by linarith)]
  linarith

theorem nearestUnits (rounds : Rounds x magnitude shift r) :
    NearestUnits (x * 2 ^ shift) magnitude := by
  have positive : (0 : ℚ) < 2 ^ shift := by positivity
  have key (other : ℕ) (apart : other ≠ magnitude) :
      |(unitsOf magnitude : ℚ) - x * 2 ^ shift| ≤ |(unitsOf other : ℚ) - x * 2 ^ shift| ∧
        (|(unitsOf other : ℚ) - x * 2 ^ shift| = |(unitsOf magnitude : ℚ) - x * 2 ^ shift| →
          magnitude % 2 = 0) := by
    have aligned : 2 ^ shift ∣ unitsOf other ∨ shift ≠ 0 ∧ unitsOf other < 2 ^ 52 * 2 ^ shift := by
      by_cases low : shift = 0
      · exact .inl (low ▸ Nat.one_dvd _)
      · exact (dvd_unitsOf_or_lt other shift).imp_right (⟨low, ·⟩)
    rcases aligned with ⟨j, multiple⟩ | ⟨notLowest, lower⟩
    · have apart' : j ≠ r := by
        rintro rfl
        refine apart (strictMono_unitsOf.injective ?_)
        rw [multiple, rounds.splits.unitsOf_eq, Nat.mul_comm]
      have otherValue : (unitsOf other : ℚ) = j * 2 ^ shift := by
        rw [multiple, Nat.cast_mul, Nat.cast_pow, Nat.cast_ofNat, mul_comm]
      obtain ⟨closer, level⟩ := abs_scaled_sub_le positive rounds.near apart'
      rw [rounds.value, otherValue]
      refine ⟨closer, fun same => ?_⟩
      have even := rounds.tie (level same)
      have parts := rounds.splits.parts
      omega
    · have farther := rounds.abs_sub_lt_of_lower notLowest lower
      exact ⟨farther.le, fun same => absurd same farther.ne'⟩
  refine ⟨fun other => ?_, fun other apart => (key other apart).2⟩
  by_cases same : other = magnitude
  · rw [same]
  · exact (key other same).1

end Rounds

/-- The scale at which a quotient is rounded, and what it is there. -/
theorem exists_rounds (num : ℕ) (positive : 0 < den) :
    ∃ x shift r, (num : ℚ) / den = x * 2 ^ shift ∧
      Rounds x (unboundedMagnitude num den) shift r := by
  have splits := splits_unboundedMagnitude num positive
  have shifted := @two_pow_le_of_shift (num / den)
  generalize Nat.log2 (num / den) - 52 = shift at splits shifted
  obtain ⟨near, tie⟩ := abs_roundHalfEven_sub num (Nat.mul_pos positive (Nat.two_pow_pos shift))
  refine ⟨num / ((den * 2 ^ shift : ℕ) : ℚ), shift, _, ?_, splits, near, tie, fun notLowest => ?_⟩
  · rw [Nat.cast_mul, Nat.cast_pow, Nat.cast_ofNat]
    field_simp
  · refine le_trans ?_ Nat.cast_div_le
    rw [Nat.cast_le, ← Nat.div_div_eq_div_mul]
    exact (Nat.le_div_iff_mul_le (Nat.two_pow_pos shift)).mpr (shifted notLowest)

/-- Rounding finds the nearest magnitude. -/
theorem nearestUnits_unboundedMagnitude (num : ℕ) (positive : 0 < den) :
    NearestUnits ((num : ℚ) / den) (unboundedMagnitude num den) := by
  obtain ⟨x, shift, r, scaled, rounds⟩ := exists_rounds num positive
  exact scaled ▸ rounds.nearestUnits

/-- Of two numbers the lower one is the nearer up to the point halfway between them. -/
theorem abs_lower_le_iff {u v : ℚ} (rises : u < v) : |u - q| ≤ |v - q| ↔ 2 * q ≤ u + v := by
  rw [← sq_le_sq]
  constructor <;> intro closer <;> nlinarith

theorem abs_upper_le_iff {u v : ℚ} (rises : u < v) : |v - q| ≤ |u - q| ↔ u + v ≤ 2 * q := by
  rw [← sq_le_sq]
  constructor <;> intro closer <;> nlinarith

theorem unitsOf_cast_lt (lower : a < b) : (unitsOf a : ℚ) < unitsOf b :=
  Nat.cast_lt.mpr (strictMono_unitsOf lower)

theorem natAbs_num_div_den (nonneg : 0 ≤ q) : (q.num.natAbs : ℚ) / q.den = q := by
  rw [Nat.cast_natAbs, abs_of_nonneg (Rat.num_nonneg.mpr nonneg), Rat.num_div_den]

theorem exists_nearestUnits (nonneg : 0 ≤ q) : ∃ magnitude, NearestUnits q magnitude := by
  have near := nearestUnits_unboundedMagnitude q.num.natAbs q.den_pos
  exact ⟨_, natAbs_num_div_den nonneg ▸ near⟩

theorem nearestUnits_unitsOf (magnitude : ℕ) : NearestUnits (unitsOf magnitude) magnitude := by
  constructor
  · intro other
    rw [sub_self, abs_zero]
    exact abs_nonneg _
  · intro other apart same
    rw [sub_self, abs_zero, abs_eq_zero, sub_eq_zero, Nat.cast_inj] at same
    exact absurd (strictMono_unitsOf.injective same) apart

namespace NearestUnits

theorem two_mul_le (near : NearestUnits q a) (higher : a < b) :
    2 * q ≤ (unitsOf a : ℚ) + unitsOf b :=
  (abs_lower_le_iff (unitsOf_cast_lt higher)).mp (near.nearest b)

theorem le_two_mul (near : NearestUnits q b) (lower : a < b) :
    (unitsOf a : ℚ) + unitsOf b ≤ 2 * q :=
  (abs_upper_le_iff (unitsOf_cast_lt lower)).mp (near.nearest a)

/-- Halfway between two magnitudes none but an even one is the nearest. -/
theorem even_of_halfway (near : NearestUnits q magnitude) (apart : other ≠ magnitude)
    (halfway : (unitsOf magnitude : ℚ) + unitsOf other = 2 * q) : magnitude % 2 = 0 := by
  refine near.even other apart ?_
  have opposite : (unitsOf other : ℚ) - q = -(unitsOf magnitude - q) := by linarith
  rw [opposite, abs_neg]

theorem mono (first : NearestUnits q a) (second : NearestUnits q' b) (rises : q ≤ q') : a ≤ b := by
  by_contra falls
  have lower : b < a := Nat.lt_of_not_le falls
  have above := first.le_two_mul lower
  have below := second.two_mul_le lower
  -- Both numbers lie halfway, so both magnitudes are even and one stands in between.
  have evenA := first.even_of_halfway (Nat.ne_of_lt lower) (by linarith)
  have evenB := second.even_of_halfway (Nat.ne_of_gt lower) (by linarith)
  have next := second.two_mul_le (Nat.lt_succ_self b)
  have between : (unitsOf (b + 1) : ℚ) < unitsOf a := unitsOf_cast_lt (by omega)
  linarith

theorem unique (first : NearestUnits q a) (second : NearestUnits q b) : a = b :=
  Nat.le_antisymm (first.mono second le_rfl) (second.mono first le_rfl)

theorem eq_zero (near : NearestUnits 0 a) : a = 0 := by
  have nothing := nearestUnits_unitsOf 0
  rw [unitsOf_zero, Nat.cast_zero] at nothing
  exact near.unique nothing

/-- The numbers that are rounded to an odd magnitude or below it lie below the middle
of the step that follows. -/
theorem le_iff_of_odd (near : NearestUnits q a) (odd : b % 2 = 1) :
    a ≤ b ↔ 2 * q < (unitsOf b : ℚ) + unitsOf (b + 1) := by
  constructor
  · intro lower
    have below := near.two_mul_le (Nat.lt_succ_of_le lower)
    rcases Nat.lt_or_eq_of_le lower with less | rfl
    · have rises := unitsOf_cast_lt less
      linarith
    · refine lt_of_le_of_ne below fun halfway => ?_
      have even := near.even_of_halfway (Nat.succ_ne_self a) halfway.symm
      omega
  · intro below
    by_contra higher
    have next : b + 1 ≤ a := Nat.lt_of_not_le higher
    have above := near.le_two_mul (Nat.lt_of_succ_le next)
    have rises : (unitsOf (b + 1) : ℚ) ≤ unitsOf a :=
      Nat.cast_le.mpr (strictMono_unitsOf.monotone next)
    linarith

theorem exists_rounds (near : NearestUnits q magnitude) (nonneg : 0 ≤ q) :
    ∃ x shift r, q = x * 2 ^ shift ∧ Rounds x magnitude shift r := by
  obtain ⟨x, shift, r, scaled, rounds⟩ := Binary64.exists_rounds q.num.natAbs q.den_pos
  rw [natAbs_num_div_den nonneg] at scaled
  have same := rounds.nearestUnits
  rw [← scaled] at same
  exact ⟨x, shift, r, scaled, near.unique same ▸ rounds⟩

/-- A number of the normal range is rounded at its own scale. -/
theorem scale (near : NearestUnits q magnitude) (normal : ((2 ^ 52 : ℕ) : ℚ) ≤ q) (count : ℕ) :
    NearestUnits (q * 2 ^ count) (magnitude + count * 2 ^ 52) := by
  obtain ⟨x, shift, r, rfl, rounds⟩ := near.exists_rounds (le_trans (Nat.cast_nonneg _) normal)
  have first : unitsOf (2 ^ 52) = 2 ^ 52 := by decide
  have above : 2 ^ 52 ≤ magnitude := (nearestUnits_unitsOf (2 ^ 52)).mono near (by rwa [first])
  obtain ⟨parts, bound, full⟩ := rounds.splits
  have splits : Splits (magnitude + count * 2 ^ 52) (shift + count) r :=
    ⟨by rw [parts, Nat.add_mul, Nat.add_right_comm], bound, .inr (by omega)⟩
  have reached : ((2 ^ 52 : ℕ) : ℚ) ≤ x := by
    by_cases lowest : shift = 0
    · rwa [lowest, pow_zero, mul_one] at normal
    · exact rounds.reached lowest
  rw [mul_assoc, ← pow_add]
  exact Rounds.nearestUnits ⟨splits, rounds.near, rounds.tie, fun _ => reached⟩

/-- Rounding is off by at most half a unit, or by half of the last bit. -/
theorem abs_sub_le (near : NearestUnits q magnitude) (nonneg : 0 ≤ q) :
    |(unitsOf magnitude : ℚ) - q| ≤ max (1 / 2) (q / 2 ^ 53) := by
  obtain ⟨x, shift, r, rfl, rounds⟩ := near.exists_rounds nonneg
  have positive : (0 : ℚ) < 2 ^ shift := by positivity
  rw [rounds.value, ← sub_mul, abs_mul, abs_of_pos positive]
  have scaled := mul_le_mul_of_nonneg_right rounds.near positive.le
  by_cases lowest : shift = 0
  · exact le_max_of_le_left (by simpa [lowest] using scaled)
  · refine le_max_of_le_right (scaled.trans ?_)
    have reached := mul_le_mul_of_nonneg_right (rounds.reached lowest) positive.le
    rw [Nat.cast_pow, Nat.cast_ofNat] at reached
    rw [le_div_iff₀ (by positivity)]
    linarith

end NearestUnits

end Binary64

end TableReport
