import TableReport.Decimal.Numeral

/-!
Readings of decimals: which double a numeral is taken for. `FloatReading.nearest` rounds
the number that the numeral stands for, once and correctly. `FloatReading.bestEffort` is
quicker and less exact, and it is how texts are read unless they are asked to be read
otherwise. It keeps as many digits as fit 64 bits, takes the double nearest to these
digits as a whole number, and multiplies or divides it by a power of ten; each of the
steps may round.
-/

namespace TableReport.Json

/-- A way of taking numerals for doubles. -/
structure FloatReading where
  /-- The double that a numeral is taken for, infinite if the numeral is out of range. -/
  double : Numeral → Binary64

namespace FloatReading

def nearest : FloatReading where
  double := Numeral.toBinary64

/-- Takes digits into a number for as long as it fits 64 bits. The digits that are left
over are counted. -/
def takeDigits (taken : Nat) : List Char → Nat × Nat
  | [] => (taken, 0)
  | c :: rest =>
    let next := 10 * taken + (c.toNat - '0'.toNat)
    if next < 2 ^ 64 then takeDigits next rest else (taken, rest.length + 1)

/-- The digits of a numeral that are kept, as one number, at their power of ten. Those
in front of the point end at the first that does not fit. Those behind the point go on
from there, also where some in front of it were left over. -/
def kept (n : Numeral) : Decimal :=
  let fraction := n.fraction.getD []
  let (front, skipped) := takeDigits 0 n.whole
  let (digits, dropped) := takeDigits front fraction
  { digits, exponent := n.exponent.getD 0 + skipped + dropped - fraction.length }

/-- The double nearest to a power of ten. -/
def powerOfTen (places : Nat) : Binary64 := .ofDecimal false { digits := 1, exponent := places }

/-- Multiplies by a power of ten. One that is no double itself is too large for any
number but zero. -/
def raise (x : Binary64) (places : Nat) : Binary64 :=
  if places ≤ 308 then x * powerOfTen places
  else if x.magnitude = 0 then x
  else .infinity false

/-- Divides by `10 ^ 308` as often as told, or until nothing is left. -/
def lowerSteps (x : Binary64) : Nat → Binary64
  | 0 => x
  | steps + 1 => if x.magnitude = 0 then x else lowerSteps (x / powerOfTen 308) steps

/-- Divides by a power of ten, by 308 places at a time as long as there are more. -/
def lower (x : Binary64) (places : Nat) : Binary64 :=
  let steps := (places - 1) / 308
  lowerSteps x steps / powerOfTen (places - 308 * steps)

/-- The size of the double that kept digits are taken for. -/
def scaled (d : Decimal) : Binary64 :=
  let whole := Binary64.ofInt d.digits
  match d.exponent with
  | .ofNat up => raise whole up
  | .negSucc down => lower whole (down + 1)

def bestEffort : FloatReading where
  double n := { scaled (kept n) with negative := n.negative }

end FloatReading

end TableReport.Json
