import TableReport.Decimal.Basic

/-!
The fewest decimal digits that read back to a given double.

Grids of ever smaller powers of ten are tried, starting at the leading digit of
the exact value. On each grid the two neighbours of the value are read back; the
first grid with a neighbour that gives the double again has the answer, and the
nearer neighbour is taken where both do. The exact decimal value stands behind
the search, so that whatever is returned reads back.
-/

namespace TableReport

/-- What becomes of a value halfway between two decimals that read back to it. -/
inductive Tie where
  /-- The larger one is taken. -/
  | up
  /-- The one with an even last digit is taken. -/
  | even
deriving DecidableEq

namespace Decimal

/-- A count of units over a power of ten, as a quotient of natural numbers. -/
def overPower (units : Nat) (exponent : Int) : Nat × Nat :=
  (units * 10 ^ (-exponent).toNat, Binary64.unitsPerOne * 10 ^ exponent.toNat)

/-- The least power of ten above the value of so many units. The estimate from
the binary logarithm is low by at most a few, and is raised until it fits. -/
def scale (units : Nat) : Int :=
  let low : Int := ((units.log2 : Int) - 1074) * 30103 / 100000 - 1
  let above (k : Nat) : Bool :=
    let (num, den) := overPower units (low + k)
    num < den
  low + ((List.range 6).find? above).getD 6

/-- The decimal on one grid that reads back to a magnitude, if one of the two
neighbours of the exact value does; the nearer one if both do. -/
def onGrid? (tie : Tie) (magnitude : Nat) (exponent : Int) : Option Decimal :=
  let (num, den) := overPower (Binary64.unitsOf magnitude) exponent
  let lower : Decimal := { digits := num / den, exponent }
  let upper : Decimal := { digits := num / den + 1, exponent }
  match lower.nearest == magnitude, upper.nearest == magnitude with
  | true, true =>
    match compare (2 * (num % den)) den, tie with
    | .lt, _ => some lower
    | .gt, _ => some upper
    | .eq, .up => some upper
    | .eq, .even => some (if lower.digits % 2 = 0 then lower else upper)
  | true, false => some lower
  | false, true => some upper
  | false, false => none

/-- The exact decimal value of a finite magnitude. -/
def exact (magnitude : Nat) : Decimal :=
  { digits := Binary64.unitsOf magnitude * 5 ^ 1074, exponent := -1074 }

/-- The fewest digits that read back to a finite magnitude. Seventeen are enough
for every double. -/
def shortest (tie : Tie) (magnitude : Nat) : Decimal :=
  let top := scale (Binary64.unitsOf magnitude)
  let found := (List.range 17).findSome? fun n =>
    onGrid? tie magnitude (top - (n + 1 : Nat))
  (found.getD (exact magnitude)).trim

end Decimal

end TableReport
