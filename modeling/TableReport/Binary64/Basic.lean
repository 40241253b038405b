/-!
Double-precision numbers, kept as their sign and the other 63 bits.

Read as a natural number, those 63 bits order the finite magnitudes, with
infinity above them and every NaN above infinity, so neighbouring magnitudes are
neighbouring doubles. The exact value of a finite magnitude is a whole number of
units, one unit being `2 ^ (-1074)`, the least positive double.
-/

namespace TableReport

/-- Powers of naturals and of integers are the core ones, also in a file where
the instances of `Monoid` are in scope. -/
@[default_instance 20000]
instance (priority := 20000) corePow {α : Type} [NatPow α] : Pow α Nat := instPowNat

/-- A double-precision number, by its bits. -/
structure Binary64 where
  negative : Bool
  /-- The exponent and fraction bits, as one number. -/
  magnitude : Nat
  magnitude_lt : magnitude < 2 ^ 63 := by decide
deriving DecidableEq

namespace Binary64

/-- The magnitude of infinity: above every finite magnitude, below every NaN. -/
def infinityMagnitude : Nat := 0x7FF * 2 ^ 52

/-- Zero with its sign bit clear. -/
def zero : Binary64 := { negative := false, magnitude := 0 }

/-- The quiet NaN with its sign bit clear and an empty payload. -/
def nan : Binary64 := { negative := false, magnitude := 0x7FF8 * 2 ^ 48 }

/-- An infinity of the given sign. -/
def infinity (negative : Bool) : Binary64 :=
  { negative, magnitude := infinityMagnitude }

def ofBits (bits : UInt64) : Binary64 where
  negative := 2 ^ 63 ≤ bits.toNat
  magnitude := bits.toNat % 2 ^ 63
  magnitude_lt := Nat.mod_lt _ (by decide)

def toBits (x : Binary64) : UInt64 :=
  UInt64.ofNat ((if x.negative then 2 ^ 63 else 0) + x.magnitude)

/-- The magnitude stands for no number. -/
def isNaN (x : Binary64) : Bool := infinityMagnitude < x.magnitude

def isInfinite (x : Binary64) : Bool := x.magnitude = infinityMagnitude

/-- The double stands for a real number. -/
def isFinite (x : Binary64) : Bool := x.magnitude < infinityMagnitude

/-- The exact value of a finite magnitude, counted in units of `2 ^ (-1074)`.
The lowest binade is spaced by one unit, and so is the next one. -/
def unitsOf (magnitude : Nat) : Nat :=
  let exponent := magnitude / 2 ^ 52
  let fraction := magnitude % 2 ^ 52
  if exponent = 0 then fraction else (2 ^ 52 + fraction) * 2 ^ (exponent - 1)

/-- The exact absolute value of a finite double in units of `2 ^ (-1074)`. -/
def units (x : Binary64) : Nat := unitsOf x.magnitude

/-- How many units make one. -/
def unitsPerOne : Nat := 2 ^ 1074

/-- The place of a double in the total order of bit patterns: negative ones in
reverse below the others, so that `-0.0` comes just before `0.0` and a NaN lies
beyond the infinity of its sign. -/
def rank (x : Binary64) : Int :=
  if x.negative then -1 - x.magnitude else x.magnitude

/-- The total order of bit patterns. -/
def compareTotal (x y : Binary64) : Ordering := compare x.rank y.rank

/-- The whole number that a finite double stands for, if it stands for one. -/
def whole? (x : Binary64) : Option Int :=
  if x.isFinite && x.units % unitsPerOne == 0 then
    let size : Int := x.units / unitsPerOne
    some (if x.negative then -size else size)
  else
    none

end Binary64

end TableReport
