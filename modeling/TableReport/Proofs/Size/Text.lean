import Mathlib.Data.List.TakeDrop
import Mathlib.Data.List.TakeWhile
import Mathlib.Data.Rat.Defs
import TableReport.Proofs.Decimal.Numeral
import TableReport.Size

/-!
The texts of sizes. `ReadableSize` is their grammar in readable encoding, with the
exact number of bytes that each stands for. The marks in such a text, one blank and
at most one point, are the first of their kind, so it can be taken apart in one way
only, and a text that cannot be taken apart has no count.
-/

namespace TableReport

/-- A size as it is written with a unit. -/
structure ReadableSize where
  whole : List Char
  /-- The digits behind the point, if there is one. -/
  fraction : Option (List Char)
  unit : SizeUnit
  wholeRow : IsDigitRow whole
  fractionRow : ∀ digits ∈ fraction, IsDigitRow digits

namespace ReadableSize

def amountChars (size : ReadableSize) : List Char :=
  size.whole ++ Numeral.fractionChars size.fraction

def chars (size : ReadableSize) : List Char := size.amountChars ++ ' ' :: size.unit.name.toList

def text (size : ReadableSize) : String := String.ofList size.chars

/-- The amount is written with a point. -/
def isPointed (size : ReadableSize) : Bool := size.fraction.isSome

/-- All digits of the amount, read as one number. -/
def digits (size : ReadableSize) : ℕ := digitsValue (size.whole ++ size.fraction.getD [])

/-- How many of the digits stand behind the point. -/
def places (size : ReadableSize) : ℕ := (size.fraction.getD []).length

def amount (size : ReadableSize) : ℚ := size.digits / 10 ^ size.places

/-- The number of bytes that the text stands for, before it is counted. -/
def exact (size : ReadableSize) : ℚ := size.amount * size.unit.factor

end ReadableSize

section Marks

variable {mark : Char} {front back text : List Char}

theorem passes_of_absent (absent : mark ∉ text) : ∀ c ∈ text, (c != mark) = true := by
  intro c membership
  rw [bne_iff_ne]
  rintro rfl
  exact absent membership

theorem span_of_absent (absent : mark ∉ text) : text.span (· != mark) = (text, []) := by
  have passes := passes_of_absent absent
  rw [List.span_eq_takeWhile_dropWhile, List.takeWhile_eq_self_iff.mpr passes,
    List.dropWhile_eq_nil_iff.mpr passes]

theorem span_append_mark (absent : mark ∉ front) :
    (front ++ mark :: back).span (· != mark) = (front, mark :: back) := by
  have passes := passes_of_absent absent
  rw [List.span_eq_takeWhile_dropWhile, List.takeWhile_append_of_pos passes,
    List.dropWhile_append_of_pos passes]
  simp

/-- A text has a first mark, or none. -/
theorem absent_or_append_mark (mark : Char) (text : List Char) :
    mark ∉ text ∨ ∃ front back, mark ∉ front ∧ text = front ++ mark :: back := by
  by_cases present : mark ∈ text
  · obtain ⟨front, back, split, absent⟩ := List.eq_append_cons_of_mem present
    exact .inr ⟨front, back, absent, split⟩
  · exact .inl present

theorem IsDigitRow.notMem {digits : List Char} (row : IsDigitRow digits)
    (notDigit : mark.isDigit = false) : mark ∉ digits := by
  intro membership
  have isDigit := row.allDigits mark membership
  rw [notDigit] at isDigit
  contradiction

theorem IsDigitRow.forall_mem_some {row : List Char} (isRow : IsDigitRow row) :
    ∀ digits ∈ some row, IsDigitRow digits := by
  rintro digits ⟨⟩
  exact isRow

end Marks

theorem Size.isDigits_iff {text : List Char} : isDigits text = true ↔ IsDigitRow text := by
  simp only [isDigits, Bool.and_eq_true, Bool.not_eq_true', List.isEmpty_eq_false_iff,
    List.all_eq_true]
  exact ⟨fun ⟨nonempty, allDigits⟩ => ⟨nonempty, allDigits⟩, fun row => ⟨row.nonempty, row.allDigits⟩⟩

instance : DecidablePred IsDigitRow := fun _ => decidable_of_iff _ Size.isDigits_iff

theorem SizeUnit.ofName?_eq_some_iff {name : List Char} {unit : SizeUnit} :
    ofName? name = some unit ↔ name = unit.name.toList := by
  constructor
  · intro found
    have named := List.find?_some found
    exact (beq_iff_eq.mp named).symm
  · rintro rfl
    cases unit <;> decide

namespace Size

variable {text amount whole fraction : List Char} {unit : SizeUnit} {n : ℕ}

theorem count?_eq_some_iff {count : ℕ} : count? count = some n ↔ count < limit ∧ n = count := by
  unfold count?
  split
  · next fits => simp [fits, eq_comm]
  · next exceeds => simp [exceeds]

theorem plain?_eq_some_iff :
    plain? text = some n ↔ IsDigitRow text ∧ digitsValue text < limit ∧ n = digitsValue text := by
  unfold plain?
  rw [← isDigits_iff]
  split
  · next row => simp [row, count?_eq_some_iff]
  · next noRow => simp [noRow]

theorem ofAmount?_whole (row : IsDigitRow whole) (unit : SizeUnit) :
    ofAmount? whole unit = count? (digitsValue whole * unit.factor) := by
  unfold ofAmount?
  rw [span_of_absent (row.notMem (by decide))]
  exact if_pos (isDigits_iff.mpr row)

theorem ofAmount?_pointed (wholeRow : IsDigitRow whole) (fractionRow : IsDigitRow fraction)
    (unit : SizeUnit) :
    ofAmount? (whole ++ '.' :: fraction) unit =
      scaled? { digits := digitsValue (whole ++ fraction), exponent := -fraction.length } unit := by
  unfold ofAmount?
  rw [span_append_mark (wholeRow.notMem (by decide))]
  refine if_pos ?_
  rw [isDigits_iff.mpr wholeRow, isDigits_iff.mpr fractionRow]
  rfl

/-- What is written with a counted amount is one row of digits, or two with a point. -/
theorem exists_rows_of_ofAmount? (counted : ofAmount? amount unit = some n) :
    ∃ whole fraction, IsDigitRow whole ∧ (∀ digits ∈ fraction, IsDigitRow digits) ∧
      amount = whole ++ Numeral.fractionChars fraction := by
  unfold ofAmount? at counted
  rcases absent_or_append_mark '.' amount with absent | ⟨whole, fraction, absent, rfl⟩
  · rw [span_of_absent absent] at counted
    dsimp only at counted
    split at counted
    · next row =>
      exact ⟨amount, none, isDigits_iff.mp row, by simp, (List.append_nil amount).symm⟩
    · contradiction
  · rw [span_append_mark absent] at counted
    dsimp only at counted
    split at counted
    · next rows =>
      rw [Bool.and_eq_true, isDigits_iff, isDigits_iff] at rows
      exact ⟨whole, some fraction, rows.1, by simpa using rows.2, rfl⟩
    · contradiction

end Size

namespace ReadableSize

variable {n : ℕ}

theorem blank_notMem_amountChars (size : ReadableSize) : ' ' ∉ size.amountChars := by
  unfold amountChars
  rw [List.mem_append]
  rintro (inWhole | inFraction)
  · exact size.wholeRow.notMem (by decide) inWhole
  · cases written : size.fraction with
    | none => simp [written, Numeral.fractionChars] at inFraction
    | some digits =>
        rw [written, Numeral.fractionChars, List.mem_cons] at inFraction
        rcases inFraction with isPoint | inDigits
        · exact absurd isPoint (by decide)
        · exact (size.fractionRow digits written).notMem (by decide) inDigits

/-- The text of a size is taken apart into its amount and its unit. -/
theorem readable?_chars (size : ReadableSize) :
    Size.readable? size.chars = Size.ofAmount? size.amountChars size.unit := by
  unfold Size.readable? chars
  rw [span_append_mark size.blank_notMem_amountChars]
  dsimp only
  rw [SizeUnit.ofName?_eq_some_iff.mpr rfl, Option.bind_some]

/-- Every text with a count is the text of a size. -/
theorem exists_of_readable? {text : List Char} (counted : Size.readable? text = some n) :
    ∃ size : ReadableSize, text = size.chars := by
  unfold Size.readable? at counted
  rcases absent_or_append_mark ' ' text with absent | ⟨amount, name, absent, rfl⟩
  · rw [span_of_absent absent] at counted
    contradiction
  · rw [span_append_mark absent] at counted
    obtain ⟨unit, named, counted⟩ := Option.bind_eq_some_iff.mp counted
    obtain ⟨whole, fraction, wholeRow, fractionRow, rfl⟩ := Size.exists_rows_of_ofAmount? counted
    obtain rfl := SizeUnit.ofName?_eq_some_iff.mp named
    exact ⟨⟨whole, fraction, unit, wholeRow, fractionRow⟩, rfl⟩

end ReadableSize

end TableReport
