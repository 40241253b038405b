import TableReport.Proofs.Decimal.Nearest
import TableReport.Proofs.Decimal.Numeral

/-!
The texts of doubles. Whatever the decisions of a style, a layout keeps the value
of the digits that it spreads out, so the text of a finite double is a numeral
that is read as that double again.
-/

namespace TableReport

open Numeral

theorem isDigit_of_mem_zeros {count : Nat} : ∀ c ∈ List.replicate count '0', c.isDigit := by
  intro c membership
  rw [(List.mem_replicate.mp membership).2]
  rfl

theorem IsDigitRow.append {front back : List Char} (row : IsDigitRow front)
    (allDigits : ∀ c ∈ back, c.isDigit) : IsDigitRow (front ++ back) where
  nonempty := by simp [row.nonempty]
  allDigits c membership := (List.mem_append.mp membership).elim (row.allDigits c) (allDigits c)

theorem IsDigitRow.prepend {front back : List Char} (allDigits : ∀ c ∈ front, c.isDigit)
    (row : IsDigitRow back) : IsDigitRow (front ++ back) where
  nonempty := by simp [row.nonempty]
  allDigits c membership := (List.mem_append.mp membership).elim (allDigits c) (row.allDigits c)

theorem IsDigitRow.take {digits : List Char} (row : IsDigitRow digits) {count : Nat}
    (positive : 0 < count) : IsDigitRow (digits.take count) where
  nonempty := by simp [row.nonempty, Nat.ne_of_gt positive]
  allDigits c membership := row.allDigits c (List.mem_of_mem_take membership)

theorem IsDigitRow.drop {digits : List Char} (row : IsDigitRow digits) {count : Nat}
    (inside : count < digits.length) : IsDigitRow (digits.drop count) where
  nonempty := by simpa using inside
  allDigits c membership := row.allDigits c (List.mem_of_mem_drop membership)

theorem isDigitRow_zero : IsDigitRow ['0'] where
  nonempty := by simp
  allDigits := by simp

theorem digitsValue_zeros_append (count : Nat) (digits : List Char) :
    digitsValue (List.replicate count '0' ++ digits) = digitsValue digits := by
  rw [digitsValue_append, digitsValue_replicate_zero, Nat.mul_zero, Nat.zero_add]

namespace Decimal

/-- The same number with zeros behind its digits, none of them below a place. -/
def Pads (place : Int) (d e : Decimal) : Prop :=
  ∃ zeros : Nat, d = { digits := e.digits * 10 ^ zeros, exponent := e.exponent - zeros } ∧
    (zeros = 0 ∨ place ≤ d.exponent)

theorem Pads.of_eq {place : Int} {d e : Decimal} (same : d = e) : d.Pads place e :=
  ⟨0, by simp [same], .inl rfl⟩

theorem Pads.nearest {place : Int} {d e : Decimal} (pads : d.Pads place e) :
    d.nearest = e.nearest := by
  obtain ⟨zeros, padded, -⟩ := pads
  rw [padded, nearest_append_zeros]

theorem Pads.le_exponent {least place : Int} {d e : Decimal} (pads : d.Pads place e)
    (below : least ≤ place) (bound : least ≤ e.exponent) : least ≤ d.exponent := by
  obtain ⟨zeros, padded, none | above⟩ := pads
  · rw [padded]
    simp only [none, Int.natCast_zero, Int.sub_zero]
    exact bound
  · exact Int.le_trans below above

theorem pads_zeroChars {place : Int} (digits : List Char) {exponent : Int} (zeros : Nat)
    (above : zeros = 0 ∨ place ≤ exponent) :
    Pads place { digits := digitsValue (digits ++ List.replicate zeros '0'), exponent }
      { digits := digitsValue digits, exponent := exponent + zeros } := by
  refine ⟨zeros, ?_, above⟩
  rw [digitsValue_append, digitsValue_replicate_zero, List.length_replicate, Nat.add_zero,
    Nat.mul_comm, Int.add_sub_cancel]

/-- The numeral that `positional` writes. -/
def positionalNumeral (pointZero : Bool) (digits : List Char) (place : Int) : Numeral where
  negative := false
  whole :=
    if place ≤ 0 then ['0']
    else digits.take place.toNat ++ List.replicate (place.toNat - digits.length) '0'
  fraction :=
    if place ≤ 0 then some (List.replicate (-place).toNat '0' ++ digits)
    else if digits.length ≤ place.toNat then if pointZero then some ['0'] else none
    else some (digits.drop place.toNat)
  exponent := none

theorem spells_positional {digits : List Char} (row : IsDigitRow digits)
    (pointZero : Bool) (place : Int)
    (noLeadingZero : digits.head? = some '0' → digits = ['0'] ∧ place = 1) :
    Spells (positional pointZero digits place) (positionalNumeral pointZero digits place) := by
  -- The point stands in front of the digits, or else among them or behind them.
  by_cases low : place ≤ 0
  · constructor
    · simpa [positionalNumeral, low] using isDigitRow_zero
    · simp [positionalNumeral, low]
    · simpa [positionalNumeral, low] using row.prepend isDigit_of_mem_zeros
    · exact ⟨[], .none, by simp [positionalNumeral, positional, low, fractionChars]⟩
  · have positive : 0 < place.toNat := by omega
    constructor
    · simpa [positionalNumeral, low] using (row.take positive).append isDigit_of_mem_zeros
    · intro leadingZero
      obtain ⟨first, more, rfl⟩ := List.exists_cons_of_ne_nil row.nonempty
      obtain ⟨count, place_eq⟩ := Nat.exists_eq_succ_of_ne_zero (Nat.ne_of_gt positive)
      simp [positionalNumeral, low, place_eq] at leadingZero
      have alone := noLeadingZero (by simp [leadingZero])
      simp [positionalNumeral, alone]
    · intro fraction membership
      by_cases inside : place.toNat < digits.length
      · simp [positionalNumeral, low, Nat.not_le.mpr inside] at membership
        exact membership ▸ row.drop inside
      · simp [positionalNumeral, low, Nat.not_lt.mp inside] at membership
        exact membership.2 ▸ isDigitRow_zero
    · refine ⟨[], .none, ?_⟩
      by_cases inside : place.toNat < digits.length
      · simp [positionalNumeral, positional, low, Nat.not_le.mpr inside, fractionChars,
          Nat.sub_eq_zero_of_le (Nat.le_of_lt inside)]
      · simp [positionalNumeral, positional, low, Nat.not_lt.mp inside]
        cases pointZero <;> simp [fractionChars]

/-- Spreading digits out puts nothing but zeros behind them, the last one right behind the
point at most. -/
theorem pads_positionalNumeral (pointZero : Bool) (digits : List Char) (place : Int)
    (exponent : Option Int) :
    { positionalNumeral pointZero digits place with exponent }.decimal.Pads
      (exponent.getD 0 - 1)
      { digits := digitsValue digits, exponent := exponent.getD 0 + place - digits.length } := by
  unfold positionalNumeral Numeral.decimal
  by_cases low : place ≤ 0
  · simp only [if_pos low, Option.getD_some, List.length_append, List.length_replicate]
    rw [show ['0'] = List.replicate 1 '0' from rfl, digitsValue_zeros_append,
      digitsValue_zeros_append]
    apply Pads.of_eq
    congr 1
    omega
  · simp only [if_neg low]
    by_cases inside : place.toNat < digits.length
    · simp only [if_neg (Nat.not_le.mpr inside), Nat.sub_eq_zero_of_le (Nat.le_of_lt inside),
        List.replicate_zero, List.append_nil, Option.getD_some, List.take_append_drop,
        List.length_drop]
      apply Pads.of_eq
      congr 1
      omega
    · have outside := Nat.not_lt.mp inside
      -- The zeros that fill up the whole part, and the one behind the point, if any.
      obtain ⟨zeros, fraction_eq, bound⟩ : ∃ zeros : Nat,
          (if pointZero then some ['0'] else none).getD [] = List.replicate zeros '0' ∧
            zeros ≤ 1 := by
        cases pointZero
        · exact ⟨0, rfl, by decide⟩
        · exact ⟨1, rfl, by decide⟩
      simp only [if_pos outside, List.take_of_length_le outside, fraction_eq, List.append_assoc,
        List.replicate_append_replicate, List.length_replicate]
      have pads := @pads_zeroChars (exponent.getD 0 - 1) digits (exponent.getD 0 - zeros)
        (place.toNat - digits.length + zeros) (.inr (by omega))
      have total : exponent.getD 0 - zeros + (place.toNat - digits.length + zeros : Nat) =
          exponent.getD 0 + place - digits.length := by omega
      rwa [total] at pads

theorem isWhole_positionalNumeral (digits : List Char) (place : Int) :
    (positionalNumeral true digits place).isWhole = false := by
  unfold positionalNumeral Numeral.isWhole
  dsimp only
  split
  · rfl
  · split <;> rfl

theorem digits_ne_zero_of_nearest {d : Decimal} (nonzero : d.nearest ≠ 0) : d.digits ≠ 0 := by
  intro zero
  exact nonzero (by rw [nearest, if_pos zero])

end Decimal

theorem Numeral.Spells.append_exponent {text exponentText : List Char} {n : Numeral}
    {exponent : Option Int} (spells : Spells text n) (bare : n.exponent = none)
    (exponentSpells : SpellsExponent exponentText exponent) :
    Spells (text ++ exponentText) { n with exponent } where
  wholeRow := spells.wholeRow
  noLeadingZero := spells.noLeadingZero
  fractionRow := spells.fractionRow
  parts := by
    obtain ⟨empty, emptySpells, rfl⟩ := spells.parts
    rw [bare] at emptySpells
    cases emptySpells
    exact ⟨exponentText, exponentSpells, by simp⟩

namespace FloatStyle

variable (style : FloatStyle)

/-- The exponent of a scientific layout, with the mark in front. -/
theorem spellsExponent_layout (isMark : style.exponentMark = 'e' ∨ style.exponentMark = 'E')
    (lead : Int) :
    SpellsExponent
      (style.exponentMark ::
        ((if lead < 0 then ['-'] else if style.exponentPlus then ['+'] else []) ++
          digitChars lead.natAbs))
      (some lead) := by
  have row := isDigitRow_digitChars lead.natAbs
  by_cases negative : lead < 0
  · have value : -(lead.natAbs : Int) = lead := by omega
    have spells := SpellsExponent.some isMark (Or.inr (Or.inr rfl)) row
    rw [if_pos rfl, digitsValue_digitChars, value] at spells
    rwa [if_pos negative]
  · have value : (lead.natAbs : Int) = lead := by omega
    rw [if_neg negative]
    cases style.exponentPlus with
    | false =>
        have spells := SpellsExponent.some isMark (Or.inl rfl) row
        rwa [if_neg (by decide), digitsValue_digitChars, value] at spells
    | true =>
        have spells := SpellsExponent.some isMark (Or.inr (Or.inl rfl)) row
        rwa [if_neg (by decide), digitsValue_digitChars, value] at spells

theorem mantissa_eq_positional {digits : List Char} (nonempty : digits ≠ []) (pointZero : Bool) :
    digits.take 1 ++
        (match digits.drop 1 with
        | [] => if pointZero then ['.', '0'] else []
        | rest => '.' :: rest) =
      Decimal.positional pointZero digits 1 := by
  obtain ⟨first, more, rfl⟩ := List.exists_cons_of_ne_nil nonempty
  cases more <;> simp [Decimal.positional]

/-- The decimal that the layout of a magnitude spreads out. -/
def written (magnitude : Nat) : Decimal :=
  if magnitude = 0 then { digits := 0, exponent := 0 } else Decimal.shortest style.tie magnitude

theorem nearest_written {magnitude : Nat} (finite : magnitude < Binary64.infinityMagnitude) :
    (style.written magnitude).nearest = magnitude := by
  unfold written
  split
  next zero => rw [zero, Decimal.nearest, if_pos rfl]
  next => exact Decimal.nearest_shortest finite

/-- A numeral shows a decimal: with zeros behind it at most, with an exponent only where the
style has one, and with a point if the style always has one. -/
structure Shows (n : Numeral) (d : Decimal) : Prop where
  pads : n.decimal.Pads (n.exponent.getD 0 - 1) d
  scientific : ∀ lead ∈ n.exponent,
    d.exponent ≤ lead ∧ (lead < style.plainFrom ∨ style.plainBelow ≤ lead)
  pointed : style.pointZero → n.isWhole = false

theorem shows_positional {d : Decimal} {place : Int} {digits : List Char}
    (digits_eq : digitsValue digits = d.digits) (exponent_eq : place - digits.length = d.exponent) :
    style.Shows (Decimal.positionalNumeral style.pointZero digits place) d where
  pads := by
    have pads := Decimal.pads_positionalNumeral style.pointZero digits place none
    rwa [Option.getD_none, Int.zero_add, digits_eq, exponent_eq] at pads
  scientific _ membership := nomatch membership
  pointed pointZero := by rw [pointZero, Decimal.isWhole_positionalNumeral]

theorem shows_scientific {d : Decimal} (lead : Int)
    (exponent_eq : lead + 1 - (digitChars d.digits).length = d.exponent)
    (outside : ¬(style.plainFrom ≤ lead ∧ lead < style.plainBelow)) :
    style.Shows
      { Decimal.positionalNumeral style.mantissaPointZero (digitChars d.digits) 1 with
        exponent := some lead } d where
  pads := by
    have pads := Decimal.pads_positionalNumeral style.mantissaPointZero (digitChars d.digits) 1
      (some lead)
    rwa [Option.getD_some, digitsValue_digitChars, exponent_eq] at pads
  scientific lead' membership := by
    cases membership
    have length : 0 < (digitChars d.digits).length := Nat.length_toDigits_pos
    omega
  pointed _ := Bool.and_false _

theorem spells_layout (isMark : style.exponentMark = 'e' ∨ style.exponentMark = 'E')
    {magnitude : Nat} (finite : magnitude < Binary64.infinityMagnitude) :
    ∃ n, Spells (style.layout magnitude) n ∧ n.negative = false ∧
      style.Shows n (style.written magnitude) := by
  have reads := style.nearest_written finite
  unfold layout
  unfold written at reads ⊢
  split
  next zero =>
    refine ⟨Decimal.positionalNumeral style.pointZero ['0'] 1,
      Decimal.spells_positional isDigitRow_zero _ _ fun _ => ⟨rfl, rfl⟩, rfl, ?_⟩
    exact style.shows_positional rfl rfl
  next nonzero =>
    rw [if_neg nonzero] at reads
    generalize Decimal.shortest style.tie magnitude = d at reads
    have positive := Decimal.digits_ne_zero_of_nearest (reads ▸ nonzero)
    have row := isDigitRow_digitChars d.digits
    have noLeadingZero := head?_digitChars (Nat.pos_of_ne_zero positive)
    dsimp only
    split
    next =>
      refine ⟨_, Decimal.spells_positional row _ _ fun zero => absurd zero noLeadingZero, rfl, ?_⟩
      exact style.shows_positional (digitsValue_digitChars _) (by omega)
    next outside =>
      have mantissa := Decimal.spells_positional row style.mantissaPointZero 1
        fun zero => absurd zero noLeadingZero
      rw [← mantissa_eq_positional row.nonempty] at mantissa
      refine ⟨_, mantissa.append_exponent rfl (style.spellsExponent_layout isMark _), rfl, ?_⟩
      exact style.shows_scientific _ (by omega) (by simpa using outside)

theorem chars_of_isFinite {x : Binary64} (finite : x.isFinite) :
    style.chars x = (if x.negative then ['-'] else []) ++ style.layout x.magnitude := by
  have inRange := Binary64.isFinite_iff.mp finite
  have notNaN : x.isNaN = false := by simp [Binary64.isNaN, Nat.le_of_lt inRange]
  have notInfinite : x.isInfinite = false := by simp [Binary64.isInfinite, Nat.ne_of_lt inRange]
  simp [chars, notNaN, notInfinite]

theorem spells_chars_of_layout {n : Numeral} {x : Binary64} (finite : x.isFinite)
    (spells : Spells (style.layout x.magnitude) n) (positive : n.negative = false) :
    Spells (style.chars x) { n with negative := x.negative } := by
  refine ⟨spells.wholeRow, spells.noLeadingZero, spells.fractionRow, ?_⟩
  obtain ⟨exponentText, exponentSpells, layout_eq⟩ := spells.parts
  refine ⟨exponentText, exponentSpells, ?_⟩
  rw [positive] at layout_eq
  rw [style.chars_of_isFinite finite, layout_eq]
  rfl

/-- The text of a finite double is a numeral of its sign, which shows the decimal that its
magnitude is written as. -/
theorem exists_shows (isMark : style.exponentMark = 'e' ∨ style.exponentMark = 'E')
    {x : Binary64} (finite : x.isFinite) :
    ∃ n, Spells (style.chars x) n ∧ n.negative = x.negative ∧
      style.Shows n (style.written x.magnitude) := by
  obtain ⟨n, spells, positive, shown⟩ :=
    style.spells_layout isMark (Binary64.isFinite_iff.mp finite)
  exact ⟨_, style.spells_chars_of_layout finite spells positive, rfl,
    ⟨shown.pads, shown.scientific, shown.pointed⟩⟩

theorem Shows.toBinary64_eq {style : FloatStyle} {n : Numeral} {x : Binary64}
    (shown : style.Shows n (style.written x.magnitude)) (sign : n.negative = x.negative)
    (finite : x.isFinite) : n.toBinary64 = x := by
  have nearest := style.nearest_written (Binary64.isFinite_iff.mp finite)
  rw [← shown.pads.nearest] at nearest
  obtain ⟨negative, magnitude, magnitude_lt⟩ := x
  simp only [Numeral.toBinary64, Binary64.ofDecimal, Binary64.mk.injEq]
  exact ⟨sign, nearest⟩

/-- The text of a finite double is a numeral that is read as that double. -/
theorem spells_chars (isMark : style.exponentMark = 'e' ∨ style.exponentMark = 'E')
    {x : Binary64} (finite : x.isFinite) :
    ∃ n, Spells (style.chars x) n ∧ n.toBinary64 = x ∧ (style.pointZero → n.isWhole = false) := by
  obtain ⟨n, spells, sign, shown⟩ := style.exists_shows isMark finite
  exact ⟨n, spells, shown.toBinary64_eq sign finite, shown.pointed⟩

end FloatStyle

theorem spells_integerChars (n : Int) :
    Spells (integerChars n) ⟨decide (n < 0), digitChars n.natAbs, none, none⟩ where
  wholeRow := isDigitRow_digitChars _
  noLeadingZero leadingZero := by
    by_cases zero : n.natAbs = 0
    · simp [zero, digitChars]
    · exact absurd leadingZero (head?_digitChars (Nat.pos_of_ne_zero zero))
  fractionRow := by simp
  parts := ⟨[], .none, by
    by_cases negative : n < 0 <;> simp [integerChars, negative, fractionChars]⟩

end TableReport
