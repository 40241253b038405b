import TableReport.Proofs.Json.Number
import TableReport.Proofs.Text.Lines
import TableReport.Report.Text

/-!
The numbers of text reports. Each is written on one line. Integers, quantities and
averages can be read back from their texts, all of them by one reader: an integer
has no point and a float always has one, unless it is no finite number and stands
there by its name. So different numbers have different texts, across kinds too,
but for the NaNs, which share one.
-/

namespace TableReport

open Numeral

theorem lineBreak_notMem_digits {digits : List Char} (allDigits : ∀ c ∈ digits, c.isDigit = true) :
    '\n' ∉ digits := by
  intro membership
  exact absurd (allDigits '\n' membership) (by decide)

namespace Numeral

variable {text : List Char} {n : Numeral}

theorem SpellsExponent.lineBreak_notMem {exponent : Option Int}
    (spells : SpellsExponent text exponent) : '\n' ∉ text := by
  cases spells with
  | none => exact List.not_mem_nil
  | some isMark isSign row =>
      have noBreak := lineBreak_notMem_digits row.allDigits
      rcases isMark with rfl | rfl <;> rcases isSign with rfl | rfl | rfl <;> simpa using noBreak

theorem Spells.lineBreak_notMem (spells : Spells text n) : '\n' ∉ text := by
  obtain ⟨exponentText, exponentSpells, rfl⟩ := spells.parts
  have whole := lineBreak_notMem_digits spells.wholeRow.allDigits
  have fraction : '\n' ∉ fractionChars n.fraction := by
    cases present : n.fraction with
    | none => exact List.not_mem_nil
    | some digits =>
        have noBreak := lineBreak_notMem_digits (spells.fractionRow digits present).allDigits
        simpa [fractionChars] using noBreak
  have exponent := exponentSpells.lineBreak_notMem
  cases n.negative <;> simp [whole, fraction, exponent]

end Numeral

/-- The double itself, or the one NaN that stands for all. -/
def Binary64.canonical (x : Binary64) : Binary64 := if x.isNaN then .nan else x

/-- The doubles that are written without digits, by their texts. -/
def namedFloats : List (String × Binary64) :=
  [("NaN", .nan), ("Infinity", .infinity false), ("-Infinity", .infinity true)]

/-- The text of a double is a numeral that is read as that double, or else a name. -/
theorem floatText_cases (x : Binary64) :
    (∃ n, Spells (reportStyle.chars x) n ∧ n.isWhole = false ∧ n.toBinary64 = x.canonical) ∨
      (reportStyle.text x, x.canonical) ∈ namedFloats := by
  by_cases isNaN : x.isNaN = true
  · right
    rw [FloatStyle.text, FloatStyle.chars, if_pos isNaN, Binary64.canonical, if_pos isNaN]
    exact List.mem_cons_self
  · rw [Binary64.canonical, if_neg isNaN]
    by_cases finite : x.isFinite = true
    · left
      obtain ⟨n, spells, value, notWhole⟩ := reportStyle.spells_chars (Or.inr rfl) finite
      exact ⟨n, spells, notWhole rfl, value⟩
    · right
      have infinite : x = .infinity x.negative := by
        obtain ⟨negative, magnitude, magnitude_lt⟩ := x
        simp only [Binary64.isFinite, Binary64.isNaN, decide_eq_true_eq] at finite isNaN
        simp only [Binary64.infinity, Binary64.mk.injEq, true_and]
        omega
      rw [infinite]
      cases x.negative <;> decide

section Lines

theorem isLine_integerText (n : Int) : IsLine (integerText n) := by
  apply isLine_ofList.mpr
  exact (spells_integerChars n).lineBreak_notMem

theorem isLine_floatText (x : Binary64) : IsLine (reportStyle.text x) := by
  have names : ∀ named ∈ namedFloats, IsLine named.1 := by decide
  rcases floatText_cases x with ⟨n, spells, -⟩ | named
  · apply isLine_ofList.mpr
    exact spells.lineBreak_notMem
  · exact names (reportStyle.text x, x.canonical) named

theorem isLine_quantityText (quantity : Option Quantity) : IsLine (quantityText quantity) := by
  cases quantity with
  | none => decide
  | some q =>
      cases q with
      | integer n => exact isLine_integerText n.toInt
      | float x => exact isLine_floatText x

theorem lineBreak_notMem_signed {size : List Char} (negative : Bool) (noBreak : '\n' ∉ size) :
    '\n' ∉ (if negative then '-' :: size else size) := by
  cases negative <;> simpa using noBreak

theorem lineBreak_notMem_pointed {digits : List Char} (count : Nat) (noBreak : '\n' ∉ digits) :
    '\n' ∉ digits.take count ++ '.' :: digits.drop count := by
  intro membership
  rcases List.mem_append.mp membership with front | back
  · exact noBreak (List.mem_of_mem_take front)
  · rcases List.mem_cons.mp back with point | behind
    · exact absurd point (by decide)
    · exact noBreak (List.mem_of_mem_drop behind)

theorem isLine_fixedText (places : Nat) (x : Binary64) : IsLine (fixedText places x) := by
  unfold fixedText
  split
  · decide
  · apply isLine_ofList.mpr
    apply lineBreak_notMem_signed
    split
    · decide
    · apply lineBreak_notMem_pointed
      apply lineBreak_notMem_digits
      intro c membership
      rcases List.mem_append.mp membership with zero | digit
      · exact isDigit_of_mem_zeros c zero
      · exact (isDigitRow_digitChars _).allDigits c digit

theorem isLine_ratioText (quantity : Option Quantity) : IsLine (ratioText quantity) := by
  cases quantity with
  | none => decide
  | some q => exact isLine_fixedText 5 q.toBinary64

theorem isLine_latencyText (x : Binary64) : IsLine (latencyText x) :=
  (isLine_fixedText 3 x).append (by decide)

end Lines

namespace Quantity

/-- The quantity with one NaN for all. -/
def canonical : Quantity → Quantity
  | .integer n => .integer n
  | .float x => .float x.canonical

/-- The quantity that a text of a report stands for, unless it stands for none. A float is
the double nearest to what is written. -/
def ofText? (text : String) : Option Quantity :=
  match scan? text.toList with
  | some (n, _) => some (ofNumber (.ofNumeral .nearest n))
  | none => (namedFloats.lookup text).map float

theorem ofText?_of_spells {chars : List Char} {n : Numeral} (spells : Spells chars n) :
    ofText? (.ofList chars) = some (ofNumber (.ofNumeral .nearest n)) := by
  unfold ofText?
  rw [String.toList_ofList, scan?_eq_some spells]

theorem ofText?_integerText (n : Int64) : ofText? (integerText n.toInt) = some (.integer n) := by
  have low := n.le_toInt
  have high := n.toInt_lt
  rw [integerText, ofText?_of_spells (spells_integerChars n.toInt),
    Json.Number.ofNumeral_integer low (by omega), ofNumber, if_pos ⟨low, high⟩, n.ofInt_toInt]

theorem ofText?_floatText (x : Binary64) :
    ofText? (reportStyle.text x) = some (.float x.canonical) := by
  have names : ∀ named ∈ namedFloats, ofText? named.1 = some (.float named.2) := by decide
  rcases floatText_cases x with ⟨n, spells, notWhole, value⟩ | named
  · rw [FloatStyle.text, ofText?_of_spells spells, Json.Number.ofNumeral_real notWhole, ofNumber,
      Json.FloatReading.isNearest_nearest n, value]
  · exact names (reportStyle.text x, x.canonical) named

theorem ofText?_text (q : Quantity) : ofText? q.text = some q.canonical := by
  cases q with
  | integer n => exact ofText?_integerText n
  | float x => exact ofText?_floatText x

/-- The note that there is no quantity is the text of none. -/
theorem ofText?_quantityText (quantity : Option Quantity) :
    ofText? (quantityText quantity) = quantity.map canonical := by
  cases quantity with
  | none => rfl
  | some q => exact ofText?_text q

end Quantity

section Distinct

theorem integerText_inj {n m : Int64} : integerText n.toInt = integerText m.toInt ↔ n = m := by
  constructor
  · intro same
    have read := congrArg Quantity.ofText? same
    rw [Quantity.ofText?_integerText, Quantity.ofText?_integerText] at read
    exact Quantity.integer.inj (Option.some.inj read)
  · rintro rfl
    rfl

theorem canonical_eq_of_floatText_eq {x y : Binary64}
    (same : reportStyle.text x = reportStyle.text y) : x.canonical = y.canonical := by
  have read := congrArg Quantity.ofText? same
  rw [Quantity.ofText?_floatText, Quantity.ofText?_floatText] at read
  exact Quantity.float.inj (Option.some.inj read)

theorem canonical_eq_of_quantityText_eq {q r : Option Quantity}
    (same : quantityText q = quantityText r) :
    q.map Quantity.canonical = r.map Quantity.canonical := by
  have read := congrArg Quantity.ofText? same
  rwa [Quantity.ofText?_quantityText, Quantity.ofText?_quantityText] at read

end Distinct

end TableReport
