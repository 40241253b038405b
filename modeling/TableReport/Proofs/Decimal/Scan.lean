import TableReport.Proofs.Decimal.Numeral

/-!
Scanning takes nothing but numerals. What each part of the scanner takes off the front
of a text is the text of that part, as far as its digits go; so a whole scan takes the
text of the numeral that it returns, and with what `scan?_append` says, the grammar
`Spells` and the scanner agree.
-/

namespace TableReport.Numeral

variable {text digits rest : List Char}

theorem scanDigits?_sound (scanned : scanDigits? text = some (digits, rest)) :
    text = digits ++ rest ∧ IsDigitRow digits ∧ ∀ c ∈ rest.head?, c.isDigit = false := by
  unfold scanDigits? at scanned
  split at scanned
  next => cases scanned
  next noDigits =>
    cases scanned
    refine ⟨List.takeWhile_append_dropWhile.symm, ⟨noDigits, ?_⟩, ?_⟩
    · exact List.all_eq_true.mp List.all_takeWhile
    · intro c head
      have stops := List.head?_dropWhile_not Char.isDigit text
      rw [Option.mem_def.mp head] at stops
      exact stops

theorem scanWhole?_sound (scanned : scanWhole? text = some (digits, rest)) :
    text = digits ++ rest ∧ IsDigitRow digits ∧ (digits.head? = some '0' → digits = ['0']) ∧
      ∀ c ∈ rest.head?, c.isDigit = false := by
  obtain ⟨⟨found, after⟩, foundRow, kept⟩ := Option.bind_eq_some_iff.mp scanned
  obtain ⟨text_eq, row, ends⟩ := scanDigits?_sound foundRow
  dsimp only at kept
  split at kept
  next => cases kept
  next apart =>
    cases kept
    refine ⟨text_eq, row, fun leadingZero => ?_, ends⟩
    cases digits with
    | nil => cases leadingZero
    | cons first more =>
        cases leadingZero
        cases more with
        | nil => rfl
        | cons second more => exact absurd rfl (apart second more)

theorem scanFraction?_sound {fraction : Option (List Char)}
    (scanned : scanFraction? text = some (fraction, rest))
    (ends : ∀ c ∈ text.head?, c.isDigit = false) :
    text = fractionChars fraction ++ rest ∧ (∀ digits ∈ fraction, IsDigitRow digits) ∧
      ∀ c ∈ rest.head?, c.isDigit = false := by
  unfold scanFraction? at scanned
  split at scanned
  next behind =>
    obtain ⟨⟨found, after⟩, foundRow, kept⟩ := Option.bind_eq_some_iff.mp scanned
    cases kept
    obtain ⟨rfl, row, ends⟩ := scanDigits?_sound foundRow
    refine ⟨rfl, fun digits membership => ?_, ends⟩
    cases membership
    exact row
  next =>
    cases scanned
    exact ⟨rfl, by simp, ends⟩

theorem scanExponent?_sound {exponent : Option Int}
    (scanned : scanExponent? text = some (exponent, rest))
    (ends : ∀ c ∈ text.head?, c.isDigit = false) :
    (∃ front, SpellsExponent front exponent ∧ text = front ++ rest) ∧
      ∀ c ∈ rest.head?, c.isDigit = false := by
  unfold scanExponent? at scanned
  split at scanned
  next c behind =>
    split at scanned
    next isMark =>
      obtain ⟨⟨found, after⟩, foundRow, kept⟩ := Option.bind_eq_some_iff.mp scanned
      cases kept
      obtain ⟨digits_eq, row, ends⟩ := scanDigits?_sound foundRow
      refine ⟨?_, ends⟩
      split at digits_eq
      next signed => exact ⟨_, .some isMark (.inr (.inl rfl)) row, by simp_all⟩
      next signed => exact ⟨_, .some isMark (.inr (.inr rfl)) row, by simp_all⟩
      next => exact ⟨_, .some isMark (.inl rfl) row, by simp_all⟩
    next =>
      cases scanned
      exact ⟨⟨[], .none, rfl⟩, ends⟩
  next =>
    cases scanned
    exact ⟨⟨[], .none, rfl⟩, ends⟩

/-- What is scanned off the front of a text is the text of a numeral, and no digit
follows it. -/
theorem scan?_sound {n : Numeral} (scanned : scan? text = some (n, rest)) :
    (∃ front, Spells front n ∧ text = front ++ rest) ∧ ∀ c ∈ rest.head?, c.isDigit = false := by
  obtain ⟨⟨whole, afterWhole⟩, wholeScanned, scanned⟩ := Option.bind_eq_some_iff.mp scanned
  obtain ⟨⟨fraction, afterFraction⟩, fractionScanned, scanned⟩ := Option.bind_eq_some_iff.mp scanned
  obtain ⟨⟨exponent, afterExponent⟩, exponentScanned, same⟩ := Option.bind_eq_some_iff.mp scanned
  obtain ⟨whole_eq, wholeRow, noLeadingZero, endsWhole⟩ := scanWhole?_sound wholeScanned
  obtain ⟨rfl, fractionRow, endsFraction⟩ := scanFraction?_sound fractionScanned endsWhole
  obtain ⟨⟨exponentText, exponentSpells, rfl⟩, ends⟩ :=
    scanExponent?_sound exponentScanned endsFraction
  cases same
  refine ⟨⟨_, ⟨wholeRow, noLeadingZero, fractionRow, exponentText, exponentSpells, rfl⟩, ?_⟩, ends⟩
  -- Only the sign is left, which stands in front of the digits or is not there.
  split at whole_eq
  next => simpa using whole_eq
  next => simpa using whole_eq

end TableReport.Numeral
