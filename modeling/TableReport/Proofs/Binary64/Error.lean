import TableReport.Proofs.Binary64.Arithmetic

/-!
Errors of several roundings, one after another. Each of them leaves a number within a
factor of `1 - 2 ^ (-53)`, as long as the number is not as small as the least doubles
are. The factors multiply: those of a product or a quotient are the ones of both terms
together.
-/

namespace TableReport.Binary64

variable {x y z q r : ℚ} {count others magnitude : ℕ}

/-- What a rounding leaves of a number at least. -/
def shrink : ℚ := 1 - 1 / 2 ^ 53

theorem shrink_pos : 0 < shrink := by
  norm_num [shrink]

theorem shrink_pow_pos (count : ℕ) : 0 < shrink ^ count := pow_pos shrink_pos count

theorem shrink_pow_le (more : count ≤ others) : shrink ^ others ≤ shrink ^ count :=
  pow_le_pow_of_le_one shrink_pos.le (by norm_num [shrink]) more

theorem shrink_pow_le_one (count : ℕ) : shrink ^ count ≤ 1 :=
  pow_le_one₀ shrink_pos.le (by norm_num [shrink])

/-- The numbers differ by at most so many roundings. -/
structure Within (count : ℕ) (x q : ℚ) : Prop where
  lower : q * shrink ^ count ≤ x
  upper : x * shrink ^ count ≤ q

namespace Within

theorem refl (q : ℚ) : Within 0 q q := ⟨by simp, by simp⟩

theorem of_abs_sub_le (nonneg : 0 ≤ q) (error : |x - q| ≤ q / 2 ^ 53) : Within 1 x q := by
  obtain ⟨low, high⟩ := abs_le.mp error
  have above : x * shrink ≤ (q + q / 2 ^ 53) * shrink :=
    mul_le_mul_of_nonneg_right (by linarith) shrink_pos.le
  constructor <;> rw [pow_one]
  · unfold shrink
    linarith
  · unfold shrink at above ⊢
    linarith

theorem mono (within : Within count x q) (nonnegX : 0 ≤ x) (nonneg : 0 ≤ q)
    (more : count ≤ others) : Within others x q where
  lower := (mul_le_mul_of_nonneg_left (shrink_pow_le more) nonneg).trans within.lower
  upper := (mul_le_mul_of_nonneg_left (shrink_pow_le more) nonnegX).trans within.upper

theorem trans (first : Within count x y) (second : Within others y z) :
    Within (count + others) x z where
  lower :=
    calc z * shrink ^ (count + others) = z * shrink ^ others * shrink ^ count := by ring
      _ ≤ y * shrink ^ count :=
        mul_le_mul_of_nonneg_right second.lower (shrink_pow_pos count).le
      _ ≤ x := first.lower
  upper :=
    calc x * shrink ^ (count + others) = x * shrink ^ count * shrink ^ others := by ring
      _ ≤ y * shrink ^ others :=
        mul_le_mul_of_nonneg_right first.upper (shrink_pow_pos others).le
      _ ≤ z := second.upper

theorem mul (first : Within count x q) (second : Within others y r) (nonnegX : 0 ≤ x)
    (nonnegQ : 0 ≤ q) (nonnegY : 0 ≤ y) (nonnegR : 0 ≤ r) :
    Within (count + others) (x * y) (q * r) where
  lower :=
    calc q * r * shrink ^ (count + others) = q * shrink ^ count * (r * shrink ^ others) := by ring
      _ ≤ x * y := mul_le_mul first.lower second.lower
        (mul_nonneg nonnegR (shrink_pow_pos others).le) nonnegX
  upper :=
    calc x * y * shrink ^ (count + others) = x * shrink ^ count * (y * shrink ^ others) := by ring
      _ ≤ q * r := mul_le_mul first.upper second.upper
        (mul_nonneg nonnegY (shrink_pow_pos others).le) nonnegQ

theorem div (first : Within count x q) (second : Within others y r) (nonnegX : 0 ≤ x)
    (nonnegQ : 0 ≤ q) (positiveY : 0 < y) (positiveR : 0 < r) :
    Within (count + others) (x / y) (q / r) where
  lower := by
    rw [div_mul_eq_mul_div, div_le_div_iff₀ positiveR positiveY]
    calc q * shrink ^ (count + others) * y = q * shrink ^ count * (y * shrink ^ others) := by ring
      _ ≤ x * r := mul_le_mul first.lower second.upper
        (mul_nonneg positiveY.le (shrink_pow_pos others).le) nonnegX
  upper := by
    rw [div_mul_eq_mul_div, div_le_div_iff₀ positiveY positiveR]
    calc x * shrink ^ (count + others) * r = x * shrink ^ count * (r * shrink ^ others) := by ring
      _ ≤ q * y := mul_le_mul first.upper second.lower
        (mul_nonneg positiveR.le (shrink_pow_pos others).le) nonnegQ

theorem mul_shrink_le (within : Within count x q) (above : r ≤ q) : r * shrink ^ count ≤ x :=
  (mul_le_mul_of_nonneg_right above (shrink_pow_pos count).le).trans within.lower

/-- Five roundings change a number by less than `6 / 2 ^ 53` of itself. -/
theorem error_le (within : Within 5 x q) (nonneg : 0 ≤ q) : |x - q| ≤ q * (6 / 2 ^ 53) := by
  have low : 1 - 6 / 2 ^ 53 ≤ shrink ^ 5 := by norm_num [shrink]
  have high : 1 ≤ (1 + 6 / 2 ^ 53) * shrink ^ 5 := by norm_num [shrink]
  have below : x ≤ q * (1 + 6 / 2 ^ 53) := by
    refine le_of_mul_le_mul_right (within.upper.trans ?_) (shrink_pow_pos 5)
    rw [mul_assoc]
    exact le_mul_of_one_le_right nonneg high
  have above := (mul_le_mul_of_nonneg_left low nonneg).trans within.lower
  rw [abs_le]
  constructor <;> linarith

/-- What holds of a number still holds of one beside it, but for a loss of its own. -/
theorem exists_beside {loss : ℚ} (within : Within count x y) (nonnegX : 0 ≤ x) (nonnegY : 0 ≤ y)
    (nonnegZ : 0 ≤ z) (beside : |y - z| ≤ loss) :
    ∃ rounded, 0 ≤ rounded ∧ Within count rounded z ∧ |x - rounded| ≤ loss / shrink ^ count := by
  have positive := shrink_pow_pos count
  rcases nonnegY.eq_or_lt with rfl | positiveY
  · have zero : x = 0 :=
      le_antisymm (nonpos_of_mul_nonpos_left within.upper positive) nonnegX
    have lossNonneg := (abs_nonneg _).trans beside
    refine ⟨z, nonnegZ, (refl z).mono nonnegZ nonnegZ (Nat.zero_le count), ?_⟩
    rw [zero]
    exact beside.trans (le_div_self lossNonneg positive (shrink_pow_le_one count))
  · have lower : shrink ^ count ≤ x / y := by
      rw [le_div_iff₀ positiveY, mul_comm]
      exact within.lower
    have upper : x / y * shrink ^ count ≤ 1 := by
      rw [div_mul_eq_mul_div, div_le_one positiveY]
      exact within.upper
    have ratio : 0 ≤ x / y := div_nonneg nonnegX nonnegY
    refine ⟨z * (x / y), mul_nonneg nonnegZ ratio,
      ⟨mul_le_mul_of_nonneg_left lower nonnegZ, ?_⟩, ?_⟩
    · rw [mul_assoc]
      exact mul_le_of_le_one_right nonnegZ upper
    · have apart : x - z * (x / y) = (y - z) * (x / y) := by
        rw [sub_mul, mul_div_cancel₀ _ positiveY.ne']
      rw [apart, abs_mul, abs_of_nonneg ratio]
      calc |y - z| * (x / y) ≤ loss * (1 / shrink ^ count) :=
            mul_le_mul beside ((le_div_iff₀ positive).mpr upper) ratio ((abs_nonneg _).trans beside)
        _ = loss / shrink ^ count := mul_one_div loss _

end Within

/-- The number comes of another one by at most so many roundings, and by a loss of at most
so many units. -/
def Off (count : ℕ) (loss x q : ℚ) : Prop :=
  ∃ rounded, 0 ≤ rounded ∧ Within count rounded q ∧ |x - rounded| ≤ loss / unitsPerOne

namespace Off

variable {loss larger : ℚ}

theorem of_within (within : Within count x q) (nonneg : 0 ≤ x) : Off count 0 x q :=
  ⟨x, nonneg, within, by rw [sub_self, abs_zero, zero_div]⟩

theorem mono (off : Off count loss x q) (nonneg : 0 ≤ q) (more : count ≤ others)
    (growing : loss ≤ larger) : Off others larger x q := by
  obtain ⟨rounded, nonnegRounded, within, error⟩ := off
  exact ⟨rounded, nonnegRounded, within.mono nonnegRounded nonneg more,
    error.trans (div_le_div_of_nonneg_right growing unitsPerOne_pos.le)⟩

theorem div (off : Off count loss x q) (divisor : Within others y r) (nonneg : 0 ≤ q)
    (positiveY : 0 < y) (positiveR : 0 < r) : Off (count + others) (loss / y) (x / y) (q / r) := by
  obtain ⟨rounded, nonnegRounded, within, error⟩ := off
  refine ⟨rounded / y, div_nonneg nonnegRounded positiveY.le,
    within.div divisor nonnegRounded nonneg positiveY positiveR, ?_⟩
  rw [← sub_div, abs_div, abs_of_pos positiveY, div_right_comm]
  exact div_le_div_of_nonneg_right error positiveY.le

/-- Five roundings and the loss of a unit. -/
theorem error_le (off : Off 5 1 x q) (nonneg : 0 ≤ q) :
    |x - q| ≤ q * (6 / 2 ^ 53) + 1 / unitsPerOne := by
  obtain ⟨rounded, -, within, error⟩ := off
  have triangle := abs_sub_le x rounded q
  have relative := within.error_le nonneg
  linarith

end Off

section Rounding

/-- Rounding is within a factor, but for half of the least double. -/
theorem NearestUnits.off (near : NearestUnits (q * unitsPerOne) magnitude) (nonneg : 0 ≤ q) :
    Off 1 (1 / 2) ((unitsOf magnitude : ℚ) / unitsPerOne) q := by
  have error := near.abs_sub_le (mul_nonneg nonneg unitsPerOne_pos.le)
  have half : (0 : ℚ) ≤ 1 / 2 / unitsPerOne := div_nonneg (by norm_num) unitsPerOne_pos.le
  rw [abs_units_sub, mul_div_right_comm] at error
  rcases le_max_iff.mp error with small | normal
  · refine ⟨q, nonneg, (Within.of_abs_sub_le nonneg ?_), (le_div_iff₀ unitsPerOne_pos).mpr small⟩
    rw [sub_self, abs_zero]
    positivity
  · refine ⟨_, magnitude_value_nonneg magnitude, Within.of_abs_sub_le nonneg ?_, ?_⟩
    · exact le_of_mul_le_mul_right normal unitsPerOne_pos
    · rwa [sub_self, abs_zero]

/-- Rounding adds one rounding and half a unit to what is off already. -/
theorem Off.round {loss : ℚ} (off : Off count loss x q) (nonneg : 0 ≤ x)
    (near : NearestUnits (x * unitsPerOne) magnitude) :
    Off (1 + count) (loss / shrink + 1 / 2) ((unitsOf magnitude : ℚ) / unitsPerOne) q := by
  obtain ⟨first, nonnegFirst, within, lost⟩ := off
  obtain ⟨next, nonnegNext, step, lostNext⟩ := near.off nonneg
  obtain ⟨rounded, nonnegRounded, moved, lostMoved⟩ :=
    step.exists_beside nonnegNext nonneg nonnegFirst lost
  refine ⟨rounded, nonnegRounded, moved.trans within, ?_⟩
  have triangle := abs_sub_le ((unitsOf magnitude : ℚ) / unitsPerOne) next rounded
  rw [pow_one, div_right_comm] at lostMoved
  rw [add_div]
  linarith

/-- From one thousandth on nothing is lost to the least double, and at zero there is
nothing to lose. -/
theorem NearestUnits.within (near : NearestUnits (q * unitsPerOne) magnitude)
    (normal : q = 0 ∨ 1 / 1000 ≤ q) : Within 1 ((unitsOf magnitude : ℚ) / unitsPerOne) q := by
  rcases normal with rfl | normal
  · rw [zero_mul] at near
    rw [near.eq_zero, unitsOf_zero, Nat.cast_zero, zero_div]
    exact (Within.refl 0).mono le_rfl le_rfl (Nat.zero_le 1)
  · have nonneg : 0 ≤ q := le_trans (by norm_num) normal
    have error := near.abs_sub_le_max nonneg
    rw [max_eq_left normal] at error
    exact Within.of_abs_sub_le nonneg error

end Rounding

end TableReport.Binary64
