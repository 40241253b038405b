import TableReport.Decimal.Shortest

/-!
How doubles are written. A `FloatStyle` holds the decisions of one output
format: which decimal exponents are written positionally, how an exponent is
marked, and how a tie between two shortest texts goes.
-/

namespace TableReport

def digitChars (n : Nat) : List Char := Nat.toDigits 10 n

def integerChars (n : Int) : List Char :=
  if n < 0 then '-' :: digitChars n.natAbs else digitChars n.natAbs

def integerText (n : Int) : String := String.ofList (integerChars n)

namespace Decimal

/-- Digits with a point after the first `place` of them. Zeros are filled in
where the point lies before or behind the digits, and a whole number ends in
`.0` if `pointZero` is set. -/
def positional (pointZero : Bool) (digits : List Char) (place : Int) : List Char :=
  if place ≤ 0 then
    '0' :: '.' :: (List.replicate (-place).toNat '0' ++ digits)
  else
    let whole := digits.take place.toNat
    let fraction := digits.drop place.toNat
    let padded := whole ++ List.replicate (place.toNat - digits.length) '0'
    if fraction.isEmpty then
      padded ++ (if pointZero then ['.', '0'] else [])
    else
      padded ++ '.' :: fraction

end Decimal

/-- The decisions of one way of writing doubles. -/
structure FloatStyle where
  /-- The least exponent of the leading digit that is written positionally. -/
  plainFrom : Int
  /-- The least exponent of the leading digit that is too large for it. -/
  plainBelow : Int
  /-- A whole number written positionally ends in `.0`. -/
  pointZero : Bool := true
  /-- A single digit in front of an exponent is followed by `.0`. -/
  mantissaPointZero : Bool := false
  /-- What stands between the digits and their exponent. -/
  exponentMark : Char := 'e'
  /-- An exponent that is not negative carries a plus sign. -/
  exponentPlus : Bool := false
  /-- How a tie between two shortest texts goes. -/
  tie : Tie
  /-- The text of infinity, without its sign. -/
  infinity : String := "inf"

namespace FloatStyle

/-- The digits of a finite magnitude, laid out. -/
def layout (style : FloatStyle) (magnitude : Nat) : List Char :=
  if magnitude = 0 then
    Decimal.positional style.pointZero ['0'] 1
  else
    let d := Decimal.shortest style.tie magnitude
    let digits := digitChars d.digits
    let lead : Int := digits.length + d.exponent - 1
    if style.plainFrom ≤ lead && lead < style.plainBelow then
      Decimal.positional style.pointZero digits (lead + 1)
    else
      let fraction :=
        match digits.drop 1 with
        | [] => if style.mantissaPointZero then ['.', '0'] else []
        | rest => '.' :: rest
      let sign :=
        if lead < 0 then ['-'] else if style.exponentPlus then ['+'] else []
      digits.take 1 ++ fraction ++ style.exponentMark :: (sign ++ digitChars lead.natAbs)

def chars (style : FloatStyle) (x : Binary64) : List Char :=
  if x.isNaN then ['N', 'a', 'N']
  else
    (if x.negative then ['-'] else []) ++
      (if x.isInfinite then style.infinity.toList else style.layout x.magnitude)

def text (style : FloatStyle) (x : Binary64) : String :=
  String.ofList (style.chars x)

end FloatStyle

/-- Floats in a log entry are never written with an exponent, and whole ones
carry no point. -/
def plainStyle : FloatStyle where
  plainFrom := -1000
  plainBelow := 1000
  pointZero := false
  tie := .up

/-- The exact value of a double with a fixed number of decimal places, a half
going to the even neighbour. -/
def fixedText (places : Nat) (x : Binary64) : String :=
  if x.isNaN then "NaN"
  else
    let size :=
      if x.isInfinite then ['i', 'n', 'f']
      else
        let scaled := roundHalfEven (x.units * 10 ^ places) Binary64.unitsPerOne
        let digits := digitChars scaled
        let padded := List.replicate (places + 1 - digits.length) '0' ++ digits
        padded.take (padded.length - places) ++ '.' :: padded.drop (padded.length - places)
    String.ofList (if x.negative then '-' :: size else size)

end TableReport
