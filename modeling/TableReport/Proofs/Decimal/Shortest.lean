import TableReport.Proofs.Decimal.Value

/-!
What the search for the fewest digits finds. A decimal that is read as a double lies less
than one step of its grid from the double, as long as the steps are no finer than doubles
are; then the search stops at its grid at the latest, with a decimal that lies on that
grid as well. Where doubles are dense enough, no two decimals of one grid are read as the
same double, so what is found is the decimal itself.
-/

namespace TableReport.Decimal

open Binary64 (unitsOf unitsPerOne unitsPerOne_pos zero_lt_unitsPerOne infinityMagnitude)

variable {tie : Tie} {magnitude digits units : ℕ} {exponent : ℤ} {d e : Decimal}

theorem Pads.value {place : ℤ} (pads : d.Pads place e) : d.value = e.value := by
  obtain ⟨zeros, rfl, -⟩ := pads
  simp only [Decimal.value]
  rw [zpow_sub₀ (by norm_num), zpow_natCast, Nat.cast_mul, Nat.cast_pow, Nat.cast_ofNat]
  field_simp

theorem value_trim (d : Decimal) : d.trim.value = d.value := by
  fun_induction trim d with
  | case1 d ends inductionHypothesis =>
      have whole : d.digits / 10 * 10 = d.digits :=
        Nat.div_mul_cancel (Nat.dvd_of_mod_eq_zero ends.2)
      rw [inductionHypothesis]
      simp only [value]
      rw [zpow_add_one₀ (by norm_num), ← whole, Nat.cast_mul, Nat.cast_ofNat, whole]
      ring
  | case2 => rfl

theorem exponent_le_trim (d : Decimal) : d.exponent ≤ d.trim.exponent := by
  fun_induction trim d with
  | case1 d ends inductionHypothesis =>
      simp only at inductionHypothesis
      omega
  | case2 => exact le_rfl

section Grids

theorem overPower_pos (units : ℕ) (exponent : ℤ) : 0 < (overPower units exponent).2 :=
  Nat.mul_pos zero_lt_unitsPerOne (Nat.pow_pos (by decide))

theorem overPower_value (units : ℕ) (exponent : ℤ) :
    ((overPower units exponent).1 : ℚ) / (overPower units exponent).2 =
      units / unitsPerOne / 10 ^ exponent := by
  unfold overPower
  dsimp only
  rcases Int.le_total 0 exponent with whole | small
  · obtain ⟨up, rfl⟩ := Int.eq_ofNat_of_zero_le whole
    rw [Int.toNat_natCast, Int.toNat_neg_natCast, zpow_natCast]
    push_cast
    rw [mul_one, div_div]
  · obtain ⟨down, rfl⟩ := Int.exists_eq_neg_ofNat small
    rw [Int.toNat_neg_natCast, neg_neg, Int.toNat_natCast, zpow_neg, zpow_natCast]
    push_cast
    rw [mul_one, div_inv_eq_mul, div_mul_eq_mul_div]

/-- A whole number less than one away from a quotient is one of its two neighbours. -/
theorem neighbour_of_abs_sub_lt {num den n : ℕ} (positive : 0 < den)
    (near : |(num : ℚ) / den - n| < 1) : n = num / den ∨ n = num / den + 1 := by
  have positiveDen : (0 : ℚ) < den := Nat.cast_pos.mpr positive
  obtain ⟨low, high⟩ := abs_lt.mp near
  have below : n * den ≤ num + den := by
    have scaled : (n : ℚ) - 1 < num / den := by linarith
    rw [lt_div_iff₀ positiveDen] at scaled
    have cast : ((n * den : ℕ) : ℚ) ≤ (num + den : ℕ) := by
      push_cast
      linarith
    exact_mod_cast cast
  have above : num < (n + 1) * den := by
    have scaled : (num : ℚ) / den < n + 1 := by linarith
    rw [div_lt_iff₀ positiveDen] at scaled
    exact_mod_cast scaled
  have lower : num / den < n + 1 := (Nat.div_lt_iff_lt_mul positive).mpr above
  have upper : n ≤ (num + den) / den := (Nat.le_div_iff_mul_le positive).mpr below
  rw [Nat.add_div_right _ positive] at upper
  omega

/-- The grid of a decimal that is read as the double, and is near enough, has an answer. -/
theorem onGrid?_isSome (reads : nearest ⟨digits, exponent⟩ = magnitude)
    (near : |(unitsOf magnitude : ℚ) / unitsPerOne - value ⟨digits, exponent⟩| < 10 ^ exponent) :
    (onGrid? tie magnitude exponent).isSome := by
  have step : (0 : ℚ) < 10 ^ exponent := zpow_pos (by norm_num) _
  have neighbour := @neighbour_of_abs_sub_lt _ _ digits (overPower_pos (unitsOf magnitude) exponent)
    (by
      rw [overPower_value, ← mul_lt_mul_iff_left₀ step, one_mul]
      nth_rewrite 2 [← abs_of_pos step]
      rw [← abs_mul, sub_mul, div_mul_cancel₀ _ step.ne']
      exact near)
  unfold onGrid?
  generalize overPower (unitsOf magnitude) exponent = quotient at neighbour
  dsimp only
  split
  next => split <;> rfl
  next => rfl
  next => rfl
  next lower upper =>
    rw [beq_eq_false_iff_ne] at lower upper
    rcases neighbour with rfl | rfl
    · exact absurd reads lower
    · exact absurd reads upper

theorem exponent_of_onGrid? (found : onGrid? tie magnitude exponent = some d) :
    d.exponent = exponent := by
  unfold onGrid? at found
  dsimp only at found
  split at found
  next =>
    split at found
    all_goals cases found
    case h_4 => split <;> rfl
    all_goals rfl
  all_goals cases found
  all_goals rfl

/-- A search ends at a place that has an answer, if not before. -/
theorem exists_findSome?_range {α : Type} {f : ℕ → Option α} {last count : ℕ}
    (inside : last < count) (hit : (f last).isSome) :
    ∃ first ≤ last, ∃ a, f first = some a ∧ (List.range count).findSome? f = some a := by
  obtain ⟨behind, rfl⟩ := Nat.exists_eq_add_of_le (Nat.succ_le_of_lt inside)
  rw [List.range_add, List.findSome?_append]
  cases result : (List.range last.succ).findSome? f with
  | none =>
      have inRange := List.mem_range.mpr last.lt_succ_self
      have missed := List.findSome?_eq_none_iff.mp result last inRange
      rw [missed] at hit
      cases hit
  | some a =>
      obtain ⟨first, membership, found⟩ := List.exists_of_findSome?_eq_some result
      exact ⟨first, Nat.le_of_lt_succ (List.mem_range.mp membership), a, found, rfl⟩

/-- The search goes from coarse grids to finer ones, so what it finds lies on a given grid
if that has an answer. -/
theorem exists_trim_of_isSome (hit : (onGrid? tie magnitude exponent).isSome)
    (above : scale (unitsOf magnitude) - 17 ≤ exponent)
    (below : exponent < scale (unitsOf magnitude)) :
    ∃ d : Decimal, shortest tie magnitude = d.trim ∧ d.nearest = magnitude ∧
      exponent ≤ d.exponent := by
  unfold shortest
  dsimp only
  generalize scale (unitsOf magnitude) = top at above below
  obtain ⟨last, rfl⟩ : ∃ last : ℕ, exponent = top - (last + 1 : ℕ) :=
    ⟨(top - exponent - 1).toNat, by omega⟩
  obtain ⟨first, notAfter, d, found, result⟩ := exists_findSome?_range
    (f := fun n => onGrid? tie magnitude (top - (n + 1 : ℕ))) (show last < 17 by omega) hit
  refine ⟨d, by rw [result, Option.getD_some], nearest_of_onGrid? found, ?_⟩
  rw [exponent_of_onGrid? found]
  omega

end Grids

section Scale

/-- The first guess at the power of ten above so many units. -/
def guess (units : ℕ) : ℤ := ((units.log2 : ℤ) - 1074) * 30103 / 100000 - 1

theorem overPower_lt_iff (units : ℕ) (exponent : ℤ) :
    (overPower units exponent).1 < (overPower units exponent).2 ↔
      (units : ℚ) / unitsPerOne < 10 ^ exponent := by
  have positive : (0 : ℚ) < (overPower units exponent).2 := Nat.cast_pos.mpr (overPower_pos _ _)
  have power : (0 : ℚ) < 10 ^ exponent := zpow_pos (by norm_num) _
  rw [← div_lt_one power, ← overPower_value, div_lt_one positive, Nat.cast_lt]

/-- The guess is raised until it lies above the value, but not further. -/
theorem scale_cases (units : ℕ) :
    ∃ steps : ℕ, scale units = guess units + steps ∧ steps ≤ 6 ∧
      (steps < 6 → (units : ℚ) / unitsPerOne < 10 ^ (guess units + steps)) ∧
      ∀ k < steps, (10 : ℚ) ^ (guess units + k) ≤ units / unitsPerOne := by
  unfold scale
  dsimp only
  change ∃ steps : ℕ, guess units + _ = _ ∧ _
  cases result : (List.range 6).find? fun k : ℕ =>
      decide ((overPower units (guess units + k)).1 < (overPower units (guess units + k)).2) with
  | none =>
      have missed := List.find?_range_eq_none.mp result
      refine ⟨6, congrArg _ (congrArg _ (congrArg (Option.getD · 6) result)), le_rfl, by omega,
        fun k inside => ?_⟩
      have notAbove := missed k inside
      rw [Bool.not_eq_true', decide_eq_false_iff_not, overPower_lt_iff, not_lt] at notAbove
      exact notAbove
  | some steps =>
      obtain ⟨above, inside, missed⟩ := List.find?_range_eq_some.mp result
      rw [decide_eq_true_iff, overPower_lt_iff] at above
      refine ⟨steps, congrArg _ (congrArg _ (congrArg (Option.getD · 6) result)),
        (List.mem_range.mp inside).le, fun _ => above, fun k before => ?_⟩
      have notAbove := missed k before
      rw [Bool.not_eq_true', decide_eq_false_iff_not, overPower_lt_iff, not_lt] at notAbove
      exact notAbove

theorem lt_scale (reached : (10 : ℚ) ^ exponent ≤ units / unitsPerOne)
    (near : exponent < guess units + 6) : exponent < scale units := by
  obtain ⟨steps, scale_eq, bound, above, -⟩ := scale_cases units
  rw [scale_eq]
  rcases Nat.lt_or_eq_of_le bound with inside | rfl
  · exact (zpow_lt_zpow_iff_right₀ (by norm_num)).mp (reached.trans_lt (above inside))
  · exact near

theorem scale_le (below : (units : ℚ) / unitsPerOne < 10 ^ exponent)
    (near : guess units ≤ exponent) : scale units ≤ exponent := by
  obtain ⟨steps, scale_eq, -, -, missed⟩ := scale_cases units
  rw [scale_eq]
  cases steps with
  | zero => simpa using near
  | succ k =>
      have reached := (missed k k.lt_succ_self).trans_lt below
      rw [zpow_lt_zpow_iff_right₀ (by norm_num)] at reached
      omega

end Scale

section Hundredths

/-- From a hundredth up to `10 ^ 13`, where doubles are dense enough for two decimal places. -/
structure InHundredths (magnitude : ℕ) : Prop where
  low : unitsPerOne ≤ unitsOf magnitude * 100
  high : unitsOf magnitude ≤ 10 ^ 13 * unitsPerOne
  finite : magnitude < infinityMagnitude

theorem InHundredths.le_value (inside : InHundredths magnitude) :
    (1 / 100 : ℚ) ≤ unitsOf magnitude / unitsPerOne := by
  have low : (unitsPerOne : ℚ) ≤ unitsOf magnitude * 100 := by exact_mod_cast inside.low
  rw [div_le_div_iff₀ (by norm_num) unitsPerOne_pos]
  linarith

theorem InHundredths.value_le (inside : InHundredths magnitude) :
    (unitsOf magnitude : ℚ) / unitsPerOne ≤ 10 ^ 13 := by
  have high : (unitsOf magnitude : ℚ) ≤ (10 ^ 13 * unitsPerOne : ℕ) := Nat.cast_le.mpr inside.high
  rw [Nat.cast_mul, Nat.cast_pow, Nat.cast_ofNat] at high
  exact (div_le_iff₀ unitsPerOne_pos).mpr high

/-- The binary logarithm of the units is known well enough for the guess. -/
theorem InHundredths.guess_bounds (inside : InHundredths magnitude) :
    -4 ≤ guess (unitsOf magnitude) ∧ guess (unitsOf magnitude) ≤ 14 := by
  have lowParts : unitsPerOne = 2 ^ 7 * 2 ^ 1067 := by rw [unitsPerOne, ← Nat.pow_add]
  have highParts : 2 ^ 1121 = 2 ^ 47 * unitsPerOne := by rw [unitsPerOne, ← Nat.pow_add]
  have atLeast : 2 ^ 1067 ≤ unitsOf magnitude := by
    have low := inside.low
    rw [lowParts] at low
    generalize 2 ^ 1067 = power at low ⊢
    omega
  have below : unitsOf magnitude < 2 ^ 1121 := by
    rw [highParts]
    exact inside.high.trans_lt (Nat.mul_lt_mul_of_pos_right (by decide) zero_lt_unitsPerOne)
  have nonzero : unitsOf magnitude ≠ 0 := by
    intro zero
    have low := inside.low
    rw [zero, Nat.zero_mul] at low
    exact Nat.not_le.mpr zero_lt_unitsPerOne low
  have lowLog := (Nat.le_log2 nonzero).mpr atLeast
  have highLog := (Nat.log2_lt nonzero).mpr below
  unfold guess
  omega

theorem InHundredths.scale_bounds (inside : InHundredths magnitude) :
    -2 < scale (unitsOf magnitude) ∧ scale (unitsOf magnitude) ≤ 14 := by
  obtain ⟨low, high⟩ := inside.guess_bounds
  constructor
  · apply lt_scale _ (by omega)
    refine le_trans ?_ inside.le_value
    norm_num
  · apply scale_le _ high
    refine inside.value_le.trans_lt ?_
    norm_num

/-- A decimal lies less than half of a hundredth from the double that it is read as. -/
theorem InHundredths.abs_sub_lt (inside : InHundredths magnitude) (reads : d.nearest = magnitude) :
    |(unitsOf magnitude : ℚ) / unitsPerOne - d.value| < 1 / 200 := by
  have near := nearestUnits_of_nearest reads inside.finite
  have error := near.abs_sub_le_max d.value_nonneg
  have nonneg := d.value_nonneg
  have sum : max d.value (1 / 1000) ≤ d.value + 1 / 1000 := max_le (by linarith) (by linarith)
  have bound := inside.value_le
  have below := (abs_le.mp error).1
  linarith

theorem value_hundredths (count : ℕ) : value ⟨count, -2⟩ = count / 100 := by
  rw [value]
  norm_num
  ring

theorem exists_hundredths (place : -2 ≤ d.exponent) : ∃ count : ℕ, d.value = count / 100 := by
  obtain ⟨up, exponent⟩ := Int.eq_ofNat_of_zero_le (show 0 ≤ d.exponent + 2 by omega)
  have exponent_eq : d.exponent = up - 2 := by omega
  refine ⟨d.digits * 10 ^ up, ?_⟩
  rw [value, exponent_eq, zpow_sub₀ (by norm_num), zpow_natCast]
  push_cast
  ring

/-- No two decimals without further places are read as the same double. -/
theorem InHundredths.value_eq (inside : InHundredths magnitude) (placeD : -2 ≤ d.exponent)
    (placeE : -2 ≤ e.exponent) (readsD : d.nearest = magnitude) (readsE : e.nearest = magnitude) :
    d.value = e.value := by
  have nearD := abs_lt.mp (inside.abs_sub_lt readsD)
  have nearE := abs_lt.mp (inside.abs_sub_lt readsE)
  obtain ⟨countD, valueD⟩ := exists_hundredths placeD
  obtain ⟨countE, valueE⟩ := exists_hundredths placeE
  rw [valueD] at nearD ⊢
  rw [valueE] at nearE ⊢
  have lower : (countD : ℚ) < countE + 1 := by linarith
  have upper : (countE : ℚ) < countD + 1 := by linarith
  have same : countD = countE := by
    apply Nat.le_antisymm
    · exact Nat.lt_succ_iff.mp (by exact_mod_cast lower)
    · exact Nat.lt_succ_iff.mp (by exact_mod_cast upper)
  rw [same]

variable {count : ℕ}

theorem inHundredths_nearest (nonzero : count ≠ 0) (bound : count ≤ 10 ^ 15) :
    InHundredths (nearest ⟨count, -2⟩) := by
  have least : unitsPerOne ≤ unitsOf (nearest ⟨1, -2⟩) * 100 := by decide +kernel
  have greatest : unitsOf (nearest ⟨10 ^ 15, -2⟩) ≤ 10 ^ 13 * unitsPerOne := by decide +kernel
  have inRange : nearest ⟨10 ^ 15, -2⟩ < infinityMagnitude := by decide +kernel
  have rises {m n : ℕ} (below : m ≤ n) : nearest ⟨m, -2⟩ ≤ nearest ⟨n, -2⟩ := by
    apply nearest_mono
    exact mul_le_mul_of_nonneg_right (Nat.cast_le.mpr below) (zpow_pos (by norm_num) _).le
  have atLeast := rises (Nat.one_le_iff_ne_zero.mpr nonzero)
  have atMost := rises bound
  refine ⟨least.trans ?_, le_trans ?_ greatest, atMost.trans_lt inRange⟩
  · exact Nat.mul_le_mul_right 100 (Binary64.strictMono_unitsOf.monotone atLeast)
  · exact Binary64.strictMono_unitsOf.monotone atMost

/-- A double that is the nearest to a number of hundredths is written as this number, with
no digit behind the second decimal place. -/
theorem shortest_nearest_hundredths (tie : Tie) (nonzero : count ≠ 0) (bound : count ≤ 10 ^ 15) :
    (shortest tie (nearest ⟨count, -2⟩)).value = count / 100 ∧
      -2 ≤ (shortest tie (nearest ⟨count, -2⟩)).exponent := by
  have inside := inHundredths_nearest nonzero bound
  obtain ⟨low, high⟩ := inside.scale_bounds
  have near : |(unitsOf (nearest ⟨count, -2⟩) : ℚ) / unitsPerOne - value ⟨count, -2⟩| <
      10 ^ (-2 : ℤ) := by
    refine (inside.abs_sub_lt rfl).trans ?_
    norm_num
  have hit : (onGrid? tie (nearest ⟨count, -2⟩) (-2)).isSome := onGrid?_isSome rfl near
  obtain ⟨d, shortest_eq, reads, place⟩ := exists_trim_of_isSome hit (by omega) low
  rw [shortest_eq]
  constructor
  · rw [value_trim, inside.value_eq place le_rfl reads rfl, value_hundredths]
  · exact place.trans (exponent_le_trim d)

end Hundredths

end TableReport.Decimal
