import TableReport.Decimal.Numeral
import TableReport.Decimal.Text

/-!
The texts of numerals. `Spells` is their grammar; a text that it derives is read
to its end and not beyond, as long as what follows cannot belong to a numeral.
-/

namespace TableReport

section Digits

theorem digitsValue_append (front back : List Char) :
    digitsValue (front ++ back) = 10 ^ back.length * digitsValue front + digitsValue back := by
  change Nat.ofDigitChars 10 (front ++ back) 0 = _
  rw [Nat.ofDigitChars_append, Nat.ofDigitChars_eq_ofDigitChars_zero]
  rfl

theorem digitsValue_cons (c : Char) (digits : List Char) :
    digitsValue (c :: digits) =
      (c.toNat - '0'.toNat) * 10 ^ digits.length + digitsValue digits := by
  have single : digitsValue [c] = c.toNat - '0'.toNat := Nat.zero_add _
  rw [← List.singleton_append, digitsValue_append, single, Nat.mul_comm]

theorem digit_le_nine {c : Char} (digit : c.isDigit = true) : c.toNat - '0'.toNat ≤ 9 := by
  have upper : c.toNat ≤ 57 := (Char.isDigit_iff_toNat.mp digit).2
  change c.toNat - 48 ≤ 9
  omega

theorem digitsValue_lt {digits : List Char} (allDigits : ∀ c ∈ digits, c.isDigit = true) :
    digitsValue digits < 10 ^ digits.length := by
  induction digits with
  | nil => exact Nat.one_pos
  | cons c digits inductionHypothesis =>
      obtain ⟨first, others⟩ := List.forall_mem_cons.mp allDigits
      have below := inductionHypothesis others
      have lead := Nat.mul_le_mul_right (10 ^ digits.length) (digit_le_nine first)
      rw [digitsValue_cons, List.length_cons, Nat.pow_succ]
      omega

theorem digitsValue_replicate_zero (count : Nat) : digitsValue (List.replicate count '0') = 0 := by
  change Nat.ofDigitChars 10 _ 0 = 0
  rw [Nat.ofDigitChars_replicate_zero, Nat.mul_zero]

@[simp] theorem digitsValue_digitChars (n : Nat) : digitsValue (digitChars n) = n :=
  Nat.ofDigitChars_ten_toDigits

theorem head?_digitChars {n : Nat} (positive : 0 < n) : (digitChars n).head? ≠ some '0' := by
  unfold digitChars
  induction n using Nat.strongRecOn with
  | ind n inductionHypothesis =>
      by_cases small : n < 10
      · rw [Nat.toDigits_of_lt_base small]
        simpa using Nat.ne_of_gt positive
      · rw [Nat.toDigits_of_base_le (by decide) (by omega), List.head?_append,
          List.head?_eq_some_head Nat.toDigits_ne_nil, Option.some_or,
          ← List.head?_eq_some_head Nat.toDigits_ne_nil]
        exact inductionHypothesis (n / 10) (by omega) (by omega)

/-- A row of at least one digit. -/
structure IsDigitRow (digits : List Char) : Prop where
  nonempty : digits ≠ []
  allDigits : ∀ c ∈ digits, c.isDigit

theorem IsDigitRow.exists_cons {digits : List Char} (row : IsDigitRow digits) :
    ∃ first more, digits = first :: more ∧ first.isDigit = true := by
  obtain ⟨first, more, rfl⟩ := List.exists_cons_of_ne_nil row.nonempty
  exact ⟨first, more, rfl, row.allDigits first List.mem_cons_self⟩

theorem isDigitRow_digitChars (n : Nat) : IsDigitRow (digitChars n) where
  nonempty := Nat.toDigits_ne_nil
  allDigits _ := Nat.isDigit_of_mem_toDigits (by decide) (by decide)

end Digits

namespace Numeral

/-- A numeral that ends in front of this text cannot be read on into it. -/
def Ends (rest : List Char) : Prop :=
  ∀ c ∈ rest.head?, c.isDigit = false ∧ c ≠ '.' ∧ c ≠ 'e' ∧ c ≠ 'E'

def fractionChars : Option (List Char) → List Char
  | none => []
  | some digits => '.' :: digits

inductive SpellsExponent : List Char → Option Int → Prop
  | none : SpellsExponent [] none
  | some {mark : Char} {sign digits : List Char} (isMark : mark = 'e' ∨ mark = 'E')
      (isSign : sign = [] ∨ sign = ['+'] ∨ sign = ['-']) (row : IsDigitRow digits) :
      SpellsExponent (mark :: (sign ++ digits))
        (some (if sign = ['-'] then -digitsValue digits else digitsValue digits))

/-- The text of a numeral: a sign, digits of which a leading zero stands alone, a
point with digits, and an exponent. -/
structure Spells (text : List Char) (n : Numeral) : Prop where
  wholeRow : IsDigitRow n.whole
  noLeadingZero : n.whole.head? = some '0' → n.whole = ['0']
  fractionRow : ∀ digits ∈ n.fraction, IsDigitRow digits
  parts : ∃ exponentText, SpellsExponent exponentText n.exponent ∧
    text = (if n.negative then ['-'] else []) ++ (n.whole ++ (fractionChars n.fraction ++ exponentText))

theorem Spells.begins {text : List Char} {n : Numeral} (spells : Spells text n) :
    ∃ first more, text = first :: more ∧ (first.isDigit = true ∨ first = '-') := by
  obtain ⟨exponentText, -, rfl⟩ := spells.parts
  obtain ⟨first, more, whole_eq, firstDigit⟩ := spells.wholeRow.exists_cons
  rw [whole_eq]
  cases n.negative with
  | true => exact ⟨'-', _, rfl, Or.inr rfl⟩
  | false => exact ⟨first, _, rfl, Or.inl firstDigit⟩

theorem scanDigits?_append {digits rest : List Char} (row : IsDigitRow digits)
    (ends : ∀ c ∈ rest.head?, c.isDigit = false) :
    scanDigits? (digits ++ rest) = some (digits, rest) := by
  have stops : rest.takeWhile Char.isDigit = [] ∧ rest.dropWhile Char.isDigit = rest := by
    cases rest with
    | nil => simp
    | cons c rest =>
        have notDigit := ends c rfl
        simp [notDigit]
  unfold scanDigits?
  rw [List.takeWhile_append_of_pos row.allDigits, List.dropWhile_append_of_pos row.allDigits,
    stops.1, stops.2, List.append_nil]
  cases digits with
  | nil => exact absurd rfl row.nonempty
  | cons => rfl

theorem Ends.notDigit {rest : List Char} (ends : Ends rest) : ∀ c ∈ rest.head?, c.isDigit = false :=
  fun c membership => (ends c membership).1

theorem scanWhole?_append {digits rest : List Char} (row : IsDigitRow digits)
    (noLeadingZero : digits.head? = some '0' → digits = ['0'])
    (ends : ∀ c ∈ rest.head?, c.isDigit = false) :
    scanWhole? (digits ++ rest) = some (digits, rest) := by
  unfold scanWhole?
  rw [scanDigits?_append row ends]
  simp only [Option.bind_eq_bind, Option.bind_some]
  split
  next => simp at noLeadingZero
  next => rfl

theorem scanFraction?_append {fraction : Option (List Char)} {rest : List Char}
    (row : ∀ digits ∈ fraction, IsDigitRow digits)
    (ends : ∀ c ∈ rest.head?, c.isDigit = false ∧ c ≠ '.') :
    scanFraction? (fractionChars fraction ++ rest) = some (fraction, rest) := by
  cases fraction with
  | none =>
      cases rest with
      | nil => rfl
      | cons c rest =>
          have notPoint := (ends c rfl).2
          simp only [fractionChars, List.nil_append]
          unfold scanFraction?
          split
          next same => exact absurd (List.cons.inj same).1 notPoint
          next => rfl
  | some digits =>
      simp only [fractionChars, List.cons_append, scanFraction?]
      rw [scanDigits?_append (row digits rfl) fun c membership => (ends c membership).1]
      rfl

theorem scanExponent?_append {text rest : List Char} {exponent : Option Int}
    (spells : SpellsExponent text exponent) (ends : Ends rest) :
    scanExponent? (text ++ rest) = some (exponent, rest) := by
  cases spells with
  | none =>
      cases rest with
      | nil => rfl
      | cons c rest =>
          have ⟨_, _, notLower, notUpper⟩ := ends c rfl
          simp [scanExponent?, notLower, notUpper]
  | @some mark sign digits isMark isSign row =>
      -- A sign can only be told from the digits by their first character.
      simp only [List.cons_append, List.append_assoc, scanExponent?]
      rw [if_pos isMark]
      have scanned := scanDigits?_append row ends.notDigit
      rcases isSign with rfl | rfl | rfl
      · obtain ⟨first, more, rfl, firstDigit⟩ := row.exists_cons
        have notSign : first ≠ '+' ∧ first ≠ '-' := by
          constructor <;> rintro rfl <;> simp at firstDigit
        simp only [List.nil_append, List.cons_append] at scanned ⊢
        simp [notSign.1, notSign.2, scanned]
      · simp [scanned]
      · simp [scanned]

theorem SpellsExponent.head_append {text rest : List Char} {exponent : Option Int}
    (spells : SpellsExponent text exponent) (ends : Ends rest) :
    ∀ c ∈ (text ++ rest).head?, c.isDigit = false ∧ c ≠ '.' := by
  cases spells with
  | none => exact fun c membership => ⟨(ends c membership).1, (ends c membership).2.1⟩
  | some isMark =>
      intro c membership
      simp only [List.cons_append, List.head?_cons, Option.mem_some_iff] at membership
      subst membership
      rcases isMark with rfl | rfl <;> decide

theorem scan?_append {text rest : List Char} {n : Numeral} (spells : Spells text n)
    (ends : Ends rest) : scan? (text ++ rest) = some (n, rest) := by
  obtain ⟨exponentText, exponentSpells, rfl⟩ := spells.parts
  have afterFraction := exponentSpells.head_append ends
  have afterWhole : ∀ c ∈ (fractionChars n.fraction ++ (exponentText ++ rest)).head?,
      c.isDigit = false := by
    cases n.fraction with
    | none => exact fun c membership => (afterFraction c membership).1
    | some digits => simp [fractionChars]
  have whole := scanWhole?_append spells.wholeRow spells.noLeadingZero afterWhole
  have fraction := scanFraction?_append spells.fractionRow afterFraction
  have exponent := scanExponent?_append exponentSpells ends
  obtain ⟨negative, digits, fractionDigits, exponentValue⟩ := n
  cases negative with
  | true => simp [scan?, whole, fraction, exponent]
  | false =>
      obtain ⟨first, more, rfl, firstDigit⟩ := spells.wholeRow.exists_cons
      have notMinus : first ≠ '-' := by
        rintro rfl
        simp at firstDigit
      simp only [List.cons_append] at whole
      simp [scan?, notMinus, whole, fraction, exponent]

theorem scan?_eq_some {text : List Char} {n : Numeral} (spells : Spells text n) :
    scan? text = some (n, []) := by
  have scanned := scan?_append spells (fun _ nothing => nomatch nothing : Ends [])
  rwa [List.append_nil] at scanned

end Numeral

end TableReport
