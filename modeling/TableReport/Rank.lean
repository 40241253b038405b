import TableReport.Binary64.Basic

/-!
Ranks: the values by which tables are compared.
-/

namespace TableReport

/-- A table's value under some order. -/
inductive Rank where
  /-- There is no value. Ranks below every other. -/
  | missing
  | integer (n : Int64)
  | float (x : Binary64)
  /-- The byte count of a size. -/
  | bytes (n : Nat)
  | text (s : String)
deriving DecidableEq

namespace Rank

def kind : Rank → String
  | .missing => "missing"
  | .integer _ => "integer"
  | .float _ => "float"
  | .bytes _ => "size"
  | .text _ => "text"

/-- The order of two ranks, the lower one first, if their kinds can be compared. -/
def compare? : Rank → Rank → Option Ordering
  | .missing, .missing => some .eq
  | .missing, _ => some .lt
  | _, .missing => some .gt
  | .integer n, .integer m => some (compare n.toInt m.toInt)
  | .float x, .float y => some (x.compareTotal y)
  | .bytes n, .bytes m => some (compare n m)
  | .text s, .text t => some (compare s t)
  | _, _ => none

end Rank

end TableReport
