import TableReport.Decimal.Basic
import TableReport.Text.Digits

/-!
Numerals: decimal numbers as they are written, with an optional sign, fraction
and exponent. `Numeral.scan?` takes the longest numeral off the front of a text;
there is no plus sign in front, no leading zero, and a point or an exponent mark
must be followed by digits.
-/

namespace TableReport

structure Numeral where
  negative : Bool
  whole : List Char
  /-- The digits behind the point, if there is one. -/
  fraction : Option (List Char)
  exponent : Option Int
deriving DecidableEq

namespace Numeral

/-- A row of digits with what follows it, if there is at least one. -/
def scanDigits? (text : List Char) : Option (List Char × List Char) :=
  match text.takeWhile Char.isDigit with
  | [] => none
  | digits => some (digits, text.dropWhile Char.isDigit)

/-- The digits in front of the point: a zero stands alone. -/
def scanWhole? (text : List Char) : Option (List Char × List Char) := do
  let (digits, rest) ← scanDigits? text
  match digits with
  | '0' :: _ :: _ => none
  | _ => some (digits, rest)

/-- A point with its digits, if there is a point. -/
def scanFraction? : List Char → Option (Option (List Char) × List Char)
  | '.' :: rest => do
    let (digits, rest) ← scanDigits? rest
    some (some digits, rest)
  | rest => some (none, rest)

/-- An exponent, if there is an exponent mark. -/
def scanExponent? : List Char → Option (Option Int × List Char)
  | c :: rest =>
    if c = 'e' ∨ c = 'E' then do
      let (negative, rest) :=
        match rest with
        | '+' :: rest => (false, rest)
        | '-' :: rest => (true, rest)
        | rest => (false, rest)
      let (digits, rest) ← scanDigits? rest
      let size : Int := digitsValue digits
      some (some (if negative then -size else size), rest)
    else
      some (none, c :: rest)
  | [] => some (none, [])

/-- The longest numeral at the front of a text, with what follows it. -/
def scan? (text : List Char) : Option (Numeral × List Char) := do
  let (negative, rest) :=
    match text with
    | '-' :: rest => (true, rest)
    | rest => (false, rest)
  let (whole, rest) ← scanWhole? rest
  let (fraction, rest) ← scanFraction? rest
  let (exponent, rest) ← scanExponent? rest
  some ({ negative, whole, fraction, exponent }, rest)

theorem scanDigits?_length {text digits rest : List Char}
    (scanned : scanDigits? text = some (digits, rest)) : rest.length < text.length := by
  unfold scanDigits? at scanned
  split at scanned
  · simp at scanned
  · next noDigits =>
    simp only [Option.some.injEq, Prod.mk.injEq] at scanned
    have whole := congrArg List.length
      (List.takeWhile_append_dropWhile (p := Char.isDigit) (l := text))
    rw [List.length_append] at whole
    have := List.length_pos_iff.mpr noDigits
    rw [← scanned.2]
    omega

theorem scanWhole?_length {text digits rest : List Char}
    (scanned : scanWhole? text = some (digits, rest)) : rest.length < text.length := by
  unfold scanWhole? at scanned
  simp only [Option.bind_eq_bind, Option.bind_eq_some_iff] at scanned
  obtain ⟨⟨digits', rest'⟩, scanned', same⟩ := scanned
  split at same
  · simp at same
  · simp only [Option.some.injEq, Prod.mk.injEq] at same
    exact same.2 ▸ scanDigits?_length scanned'

theorem scanFraction?_length {text rest : List Char} {fraction : Option (List Char)}
    (scanned : scanFraction? text = some (fraction, rest)) : rest.length ≤ text.length := by
  unfold scanFraction? at scanned
  split at scanned
  · simp only [Option.bind_eq_bind, Option.bind_eq_some_iff] at scanned
    obtain ⟨⟨digits', rest'⟩, scanned', same⟩ := scanned
    have := scanDigits?_length scanned'
    simp only [Option.some.injEq, Prod.mk.injEq] at same
    simp only [← same.2, List.length_cons]
    omega
  · simp only [Option.some.injEq, Prod.mk.injEq] at scanned
    exact scanned.2 ▸ Nat.le_refl _

theorem scanExponent?_length {text rest : List Char} {exponent : Option Int}
    (scanned : scanExponent? text = some (exponent, rest)) : rest.length ≤ text.length := by
  unfold scanExponent? at scanned
  split at scanned
  · split at scanned
    · simp only [Option.bind_eq_bind, Option.bind_eq_some_iff] at scanned
      obtain ⟨⟨digits', rest'⟩, scanned', same⟩ := scanned
      have shorter := scanDigits?_length scanned'
      simp only [Option.some.injEq, Prod.mk.injEq] at same
      rw [← same.2]
      split at shorter <;> simp only [List.length_cons] at shorter ⊢ <;> omega
    · simp only [Option.some.injEq, Prod.mk.injEq] at scanned
      exact scanned.2 ▸ Nat.le_refl _
  · simp only [Option.some.injEq, Prod.mk.injEq] at scanned
    exact scanned.2 ▸ Nat.le_refl _

theorem scan?_length {text rest : List Char} {n : Numeral}
    (scanned : scan? text = some (n, rest)) : rest.length < text.length := by
  unfold scan? at scanned
  simp only [Option.bind_eq_bind, Option.bind_eq_some_iff] at scanned
  obtain ⟨⟨_, afterWhole⟩, wholeScanned, ⟨_, afterFraction⟩, fractionScanned,
    ⟨_, afterExponent⟩, exponentScanned, same⟩ := scanned
  have first := scanWhole?_length wholeScanned
  have second : afterFraction.length ≤ afterWhole.length :=
    scanFraction?_length fractionScanned
  have third : afterExponent.length ≤ afterFraction.length :=
    scanExponent?_length exponentScanned
  simp only [Option.some.injEq, Prod.mk.injEq] at same
  rw [← same.2]
  split at first <;> simp only [List.length_cons] at first ⊢ <;> omega

def decimal (n : Numeral) : Decimal :=
  let fraction := n.fraction.getD []
  { digits := digitsValue (n.whole ++ fraction)
    exponent := n.exponent.getD 0 - fraction.length }

/-- The numeral has neither a point nor an exponent. -/
def isWhole (n : Numeral) : Bool := n.fraction.isNone && n.exponent.isNone

def toBinary64 (n : Numeral) : Binary64 := .ofDecimal n.negative n.decimal

end Numeral

end TableReport
