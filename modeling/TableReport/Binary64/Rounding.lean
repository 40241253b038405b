import TableReport.Binary64.Basic

/-!
Rounding to doubles. Every operation is computed exactly, as a quotient of
natural numbers, and rounded once by `nearestMagnitude`: to the nearest double,
a tie going to the one whose last bit is clear.
-/

namespace TableReport

/-- The whole number nearest to `num / den`; a half goes up. -/
def roundHalfUp (num den : Nat) : Nat := (2 * num + den) / (2 * den)

/-- The whole number nearest to `num / den`; a half goes to the even neighbour. -/
def roundHalfEven (num den : Nat) : Nat :=
  let up := roundHalfUp num den
  if (2 * num + den) % (2 * den) = 0 && up % 2 = 1 then up - 1 else up

namespace Binary64

/-- The magnitude nearest to `num / den` units. Beyond the lowest two binades the
quotient is first scaled to 53 bits; the number of binades passed is then added
to the exponent field, and a carry out of the fraction raises it by one more. -/
def nearestMagnitude (num den : Nat) : Nat :=
  let shift := Nat.log2 (num / den) - 52
  min infinityMagnitude (shift * 2 ^ 52 + roundHalfEven num (den * 2 ^ shift))

theorem nearestMagnitude_le (num den : Nat) :
    nearestMagnitude num den ≤ infinityMagnitude :=
  Nat.min_le_left _ _

/-- The double of the given sign that is nearest to `num / den` units. -/
def ofUnits (negative : Bool) (num den : Nat) : Binary64 where
  negative
  magnitude := nearestMagnitude num den
  magnitude_lt := Nat.lt_of_le_of_lt (nearestMagnitude_le num den) (by decide)

/-- The double nearest to a whole number. -/
def ofInt (n : Int) : Binary64 :=
  ofUnits (n < 0) (n.natAbs * unitsPerOne) 1

def mul (x y : Binary64) : Binary64 :=
  let negative := x.negative != y.negative
  if x.isNaN || y.isNaN then nan
  else if x.isInfinite || y.isInfinite then
    if x.magnitude = 0 || y.magnitude = 0 then nan else infinity negative
  else ofUnits negative (x.units * y.units) unitsPerOne

def div (x y : Binary64) : Binary64 :=
  let negative := x.negative != y.negative
  if x.isNaN || y.isNaN then nan
  else if x.isInfinite then
    if y.isInfinite then nan else infinity negative
  else if y.isInfinite then ofUnits negative 0 1
  else if y.magnitude = 0 then
    if x.magnitude = 0 then nan else infinity negative
  else ofUnits negative (x.units * unitsPerOne) y.units

instance : Mul Binary64 := ⟨mul⟩

instance : Div Binary64 := ⟨div⟩

/-- The whole number nearest to a double, as a double of the same sign; a half
goes away from zero. Infinities and NaNs are left as they are. -/
def round (x : Binary64) : Binary64 :=
  if x.isFinite then
    ofUnits x.negative (roundHalfUp x.units unitsPerOne * unitsPerOne) 1
  else
    x

/-- The whole part of the absolute value of a finite double. -/
def floorAbs (x : Binary64) : Nat := x.units / unitsPerOne

end Binary64

end TableReport
