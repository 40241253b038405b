import TableReport.Decimal.Numeral

/-!
Sizes as texts. In plain encoding a size is a row of digits, the count of its
bytes. In readable encoding it is an amount and a unit with one blank between
them, the amount a row of digits or two rows with a point between, the unit
`bytes` or one of four that grow by factors of 1024.
-/

namespace TableReport

inductive SizeEncoding where
  | plain
  | readable
deriving DecidableEq, Repr

inductive SizeUnit where
  | bytes
  | kib
  | mib
  | gib
  | tib
deriving DecidableEq, Repr

namespace SizeUnit

/-- All units, the smallest first. -/
def all : List SizeUnit := [.bytes, .kib, .mib, .gib, .tib]

def name : SizeUnit → String
  | .bytes => "bytes"
  | .kib => "KiB"
  | .mib => "MiB"
  | .gib => "GiB"
  | .tib => "TiB"

def factor : SizeUnit → Nat
  | .bytes => 1
  | .kib => 1024
  | .mib => 1024 ^ 2
  | .gib => 1024 ^ 3
  | .tib => 1024 ^ 4

def ofName? (name : List Char) : Option SizeUnit :=
  all.find? fun unit => unit.name.toList == name

end SizeUnit

namespace Size

/-- Byte counts stay below this. -/
def limit : Nat := 2 ^ 64

/-- A byte count, if it is not too large. -/
def count? (n : Nat) : Option Nat := if n < limit then some n else none

/-- The text is a row of at least one digit. -/
def isDigits (text : List Char) : Bool := !text.isEmpty && text.all Char.isDigit

/-- The whole part of a fractional amount times the factor of its unit. The
amount is read as the nearest double, so the product is that of doubles. -/
def scaled? (amount : Decimal) (unit : SizeUnit) : Option Nat :=
  let product := Binary64.ofDecimal false amount * Binary64.ofInt unit.factor
  if product.isFinite then count? product.floorAbs else none

def ofAmount? (amount : List Char) (unit : SizeUnit) : Option Nat :=
  match amount.span (· != '.') with
  | (whole, []) => if isDigits whole then count? (digitsValue whole * unit.factor) else none
  | (whole, _ :: fraction) =>
    if isDigits whole && isDigits fraction then
      scaled? { digits := digitsValue (whole ++ fraction), exponent := -fraction.length } unit
    else
      none

def plain? (text : List Char) : Option Nat :=
  if isDigits text then count? (digitsValue text) else none

def readable? (text : List Char) : Option Nat :=
  match text.span (· != ' ') with
  | (_, []) => none
  | (amount, _ :: name) => (SizeUnit.ofName? name).bind (ofAmount? amount)

/-- The byte count of a size text, unless it does not fit its encoding or the
count does not fit 64 bits. -/
def bytes? (encoding : SizeEncoding) (text : String) : Option Nat :=
  match encoding with
  | .plain => plain? text.toList
  | .readable => readable? text.toList

end Size

end TableReport
