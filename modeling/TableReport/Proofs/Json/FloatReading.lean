import TableReport.Json.Number
import TableReport.Proofs.Decimal.Text

/-!
Doubles that are written and read. Under any reading of decimals the double that comes
back is decided by the digits that were written; under a reading that rounds correctly
it is the double that was there before.
-/

namespace TableReport.Json.FloatReading

variable {reading : FloatReading} {x : Binary64} {n : Numeral}

/-- Every numeral is taken for the double nearest to its number. -/
def IsNearest (reading : FloatReading) : Prop := ∀ n : Numeral, reading.double n = n.toBinary64

theorem isNearest_nearest : nearest.IsNearest := fun _ => rfl

/-- The double that is read where a double was written. One that JSON has no number for
is left as it is. -/
def reread (reading : FloatReading) (x : Binary64) : Binary64 :=
  match Numeral.scan? (floatStyle.chars x) with
  | some (n, _) => reading.double n
  | none => x

theorem reread_eq_double (spells : Numeral.Spells (floatStyle.chars x) n) :
    reading.reread x = reading.double n := by
  rw [reread, Numeral.scan?_eq_some spells]

theorem reread_of_not_isFinite (notFinite : ¬x.isFinite = true) : reading.reread x = x := by
  have unscanned : Numeral.scan? (floatStyle.chars x) = none := by
    unfold FloatStyle.chars
    split
    next => decide
    next notNaN =>
      have infinite : x.isInfinite = true := by
        simp only [Binary64.isFinite, Binary64.isNaN, Binary64.isInfinite, decide_eq_true_eq] at *
        omega
      rw [if_pos infinite]
      cases x.negative <;> decide
  rw [reread, unscanned]

/-- Doubles that are written come back as finite doubles. -/
def KeepsFinite (reading : FloatReading) : Prop :=
  ∀ x : Binary64, x.isFinite = true → (reading.reread x).isFinite = true

namespace IsNearest

/-- The digits that are written are those of no other double. -/
theorem reread_eq (nearest : reading.IsNearest) (x : Binary64) : reading.reread x = x := by
  by_cases finite : x.isFinite = true
  · obtain ⟨n, spells, value, -⟩ := floatStyle.spells_chars (Or.inl rfl) finite
    rw [reread_eq_double spells, nearest n, value]
  · exact reread_of_not_isFinite finite

theorem keepsFinite (nearest : reading.IsNearest) : reading.KeepsFinite := fun x finite =>
  (nearest.reread_eq x).symm ▸ finite

end IsNearest

end TableReport.Json.FloatReading
