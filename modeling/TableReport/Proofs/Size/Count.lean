import TableReport.Proofs.Size.Rounding
import TableReport.TableOrder

/-!
The counts of size texts. `Size.Counts` says which texts have one and which it is, by
the form of the text and the number that it stands for: digits alone, a whole amount
with a unit, or an amount with a point, which is taken at the precision of doubles.
Parsing decides this relation, so no count wraps or stops at the largest one, however
many digits a text has.
-/

namespace TableReport

open Binary64

/-- The count of a size text. -/
inductive Size.Counts : SizeEncoding → String → ℕ → Prop where
  | plain {row : List Char} (isRow : IsDigitRow row) (fits : digitsValue row < 2 ^ 64) :
      Counts .plain (String.ofList row) (digitsValue row)
  | whole {size : ReadableSize} (bare : size.isPointed = false)
      (fits : size.digits * size.unit.factor < 2 ^ 64) :
      Counts .readable size.text (size.digits * size.unit.factor)
  | pointed {size : ReadableSize} {d : Binary64} (pointed : size.isPointed)
      (fits : size.exact < 2 ^ 64 - 1024) (nearest : d.IsNearest size.amount) :
      Counts .readable size.text ⌊d.value * size.unit.factor⌋₊

namespace ReadableSize

variable {size : ReadableSize} {magnitude : ℕ} {d : Binary64}

theorem toList_text (size : ReadableSize) : size.text.toList = size.chars :=
  String.toList_ofList

theorem exact_of_bare (bare : size.isPointed = false) :
    size.exact = (size.digits * size.unit.factor : ℕ) := by
  have written : size.fraction = none := by simpa [isPointed] using bare
  rw [exact, amount, places, written, Option.getD_none, List.length_nil, pow_zero, div_one,
    Nat.cast_mul]

/-- An amount whose scaled size fits is far below infinity. -/
theorem amount_inRange (near : NearestUnits (size.amount * unitsPerOne) magnitude)
    (fits : size.exact < 2 ^ 64 - 1024) : magnitude < infinityMagnitude := by
  obtain ⟨scaled, nearScaled⟩ := size.exists_nearestUnits
  have small := nearScaled.floor_lt_iff.mpr fits
  rw [← size.floor_amount_scaled near nearScaled] at small
  have positive : 0 < size.unit.factor := by cases size.unit <;> decide
  exact Size.inRange_of_small small (Nat.le_mul_of_pos_right _ positive)

theorem exists_isNearest (fits : size.exact < 2 ^ 64 - 1024) :
    ∃ d : Binary64, d.IsNearest size.amount := by
  obtain ⟨magnitude, near, rounded⟩ := size.decimal.exists_nearestUnits
  rw [decimal_value] at near
  have inRange := size.amount_inRange near fits
  have read : (Binary64.ofDecimal false size.decimal).magnitude = magnitude :=
    rounded.trans (Nat.min_eq_right inRange.le)
  exact ⟨_, NearestUnits.isNearest (read ▸ near) rfl (isFinite_iff.mpr (read ▸ inRange))
    size.amount_nonneg⟩

/-- Scaled, the double nearest to the amount has the whole part of the double nearest
to the exact size. -/
theorem floor_value_scaled (nearest : d.IsNearest size.amount) (fits : size.exact < 2 ^ 64 - 1024)
    (near : NearestUnits (size.exact * unitsPerOne) magnitude) :
    ⌊d.value * size.unit.factor⌋₊ = unitsOf magnitude / unitsPerOne := by
  obtain ⟨amount, nearAmount⟩ := Binary64.exists_nearestUnits
    (mul_nonneg size.amount_nonneg unitsPerOne_pos.le)
  obtain ⟨-, value⟩ := nearest.nearestUnits nearAmount (size.amount_inRange nearAmount fits)
    size.amount_nonneg
  rw [value, div_mul_eq_mul_div, ← Nat.cast_mul, Nat.floor_div_eq_div,
    size.floor_amount_scaled nearAmount near]

end ReadableSize

namespace Size

variable {encoding : SizeEncoding} {text : String} {size : ReadableSize} {n : ℕ}

theorem bytes?_bare_iff (bare : size.isPointed = false) :
    bytes? .readable size.text = some n ↔
      size.digits * size.unit.factor < limit ∧ n = size.digits * size.unit.factor := by
  rw [bytes?, size.toList_text, size.readable?_bare bare, count?_eq_some_iff]

theorem bytes?_pointed_iff {magnitude : ℕ} (pointed : size.isPointed)
    (near : NearestUnits (size.exact * unitsPerOne) magnitude) :
    bytes? .readable size.text = some n ↔
      size.exact < 2 ^ 64 - 1024 ∧ n = unitsOf magnitude / unitsPerOne := by
  rw [bytes?, size.toList_text, size.readable?_pointed pointed near, count?_eq_some_iff,
    near.floor_lt_iff]

theorem exists_size_of_bytes? (counted : bytes? .readable text = some n) :
    ∃ size : ReadableSize, text = size.text := by
  obtain ⟨size, chars⟩ := ReadableSize.exists_of_readable? counted
  exact ⟨size, String.toList_inj.mp (chars.trans size.toList_text.symm)⟩

theorem counts_of_bytes? (counted : bytes? encoding text = some n) : Counts encoding text n := by
  cases encoding with
  | plain =>
      obtain ⟨row, fits, rfl⟩ := plain?_eq_some_iff.mp counted
      have counts := Counts.plain row fits
      rwa [String.ofList_toList] at counts
  | readable =>
      obtain ⟨size, rfl⟩ := exists_size_of_bytes? counted
      cases form : size.isPointed with
      | false =>
          obtain ⟨fits, rfl⟩ := (bytes?_bare_iff form).mp counted
          exact .whole form fits
      | true =>
          obtain ⟨magnitude, near⟩ := size.exists_nearestUnits
          obtain ⟨fits, rfl⟩ := (bytes?_pointed_iff form near).mp counted
          obtain ⟨d, nearest⟩ := size.exists_isNearest fits
          rw [← size.floor_value_scaled nearest fits near]
          exact .pointed form fits nearest

theorem bytes?_of_counts (counts : Counts encoding text n) : bytes? encoding text = some n := by
  cases counts with
  | plain isRow fits =>
      rw [bytes?, String.toList_ofList]
      exact plain?_eq_some_iff.mpr ⟨isRow, fits, rfl⟩
  | whole bare fits => exact (bytes?_bare_iff bare).mpr ⟨fits, rfl⟩
  | @pointed size d pointed fits nearest =>
      obtain ⟨magnitude, near⟩ := size.exists_nearestUnits
      rw [size.floor_value_scaled nearest fits near]
      exact (bytes?_pointed_iff pointed near).mpr ⟨fits, rfl⟩

theorem bytes?_of_bytes (counted : bytes encoding text = .ok n) : bytes? encoding text = some n := by
  unfold bytes at counted
  split at counted
  · next found =>
    obtain rfl := Except.ok.inj counted
    exact found
  · contradiction

theorem bytes_eq_ok_iff : bytes encoding text = .ok n ↔ Counts encoding text n := by
  constructor
  · exact fun counted => counts_of_bytes? (bytes?_of_bytes counted)
  · intro counts
    rw [bytes, bytes?_of_counts counts]

theorem bytes_eq_error_iff {fault : OrderFault} :
    bytes encoding text = .error fault ↔
      fault = .malformedSize text ∧ ∀ n, ¬Counts encoding text n := by
  simp only [← bytes_eq_ok_iff]
  unfold bytes
  cases bytes? encoding text <;> simp [eq_comm]

theorem exists_bytes_iff (size : ReadableSize) :
    (∃ n, bytes .readable size.text = .ok n) ↔
      size.exact < if size.isPointed then 2 ^ 64 - 1024 else 2 ^ 64 := by
  simp only [bytes_eq_ok_iff]
  cases form : size.isPointed with
  | false =>
      rw [if_neg Bool.false_ne_true, size.exact_of_bare form]
      constructor
      · rintro ⟨n, counts⟩
        exact_mod_cast ((bytes?_bare_iff form).mp (bytes?_of_counts counts)).1
      · intro fits
        exact ⟨_, .whole form (by exact_mod_cast fits)⟩
  | true =>
      rw [if_pos rfl]
      constructor
      · rintro ⟨n, counts⟩
        obtain ⟨magnitude, near⟩ := size.exists_nearestUnits
        exact ((bytes?_pointed_iff form near).mp (bytes?_of_counts counts)).1
      · intro fits
        obtain ⟨d, nearest⟩ := size.exists_isNearest fits
        exact ⟨_, .pointed form fits nearest⟩

theorem Counts.lt_limit (counts : Counts encoding text n) : n < 2 ^ 64 := by
  cases counts with
  | plain isRow fits => exact fits
  | whole bare fits => exact fits
  | @pointed size d pointed fits nearest =>
      obtain ⟨magnitude, near⟩ := size.exists_nearestUnits
      rw [size.floor_value_scaled nearest fits near]
      exact near.floor_lt_iff.mpr fits

/-- Parsing gives the count that a text has, and refuses exactly the texts without one.
Whether a size with a unit has one is up to the number that it stands for. -/
theorem bytes_decides_counts :
    (∀ encoding text n, bytes encoding text = .ok n ↔ Counts encoding text n) ∧
      (∀ encoding text fault, bytes encoding text = .error fault ↔
        fault = .malformedSize text ∧ ∀ n, ¬Counts encoding text n) ∧
      (∀ size : ReadableSize, (∃ n, bytes .readable size.text = .ok n) ↔
        size.exact < if size.isPointed then 2 ^ 64 - 1024 else 2 ^ 64) ∧
      ∀ encoding text n, Counts encoding text n → n < 2 ^ 64 :=
  ⟨fun _ _ _ => bytes_eq_ok_iff, fun _ _ _ => bytes_eq_error_iff, exists_bytes_iff,
    fun _ _ _ => Counts.lt_limit⟩

theorem bytes_decides_counts_tib :
    bytes .readable "1.21 TiB" = .ok 1330409069608 ∧
      Counts .readable "1.21 TiB" 1330409069608 ∧ 1330409069608 < 2 ^ 64 := by
  have counted : bytes .readable "1.21 TiB" = .ok 1330409069608 := by decide +kernel
  have counts := (bytes_decides_counts.1 _ _ _).mp counted
  exact ⟨counted, counts, bytes_decides_counts.2.2.2 _ _ _ counts⟩

end Size

end TableReport
