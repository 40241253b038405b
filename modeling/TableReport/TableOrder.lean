import TableReport.Log
import TableReport.Metric
import TableReport.Rank
import TableReport.Size

/-!
Orders of tables: by a metric, in either direction, or by name. Sorting first
reads the ranks of all tables and checks that they can be compared with each
other, so a list is sorted as a whole or not at all. Tables of equal rank keep
their places.
-/

namespace TableReport

inductive OrderFault where
  | unsupportedKey (name : String)
  /-- A table does not have the quantity that it is to be ordered by. -/
  | absentValue (key : String) (table : String)
  /-- The ranks of two tables are of different kinds. -/
  | kindsDiffer (key : String) (left leftKind right rightKind : String)
  | missingTable
  /-- A size text is not in the expected encoding. -/
  | malformedSize (text : String)
deriving DecidableEq, Repr

def OrderFault.message : OrderFault → String
  | .unsupportedKey name => "unsupported sort key '" ++ name ++ "'"
  | .absentValue key table =>
    "cannot order by '" ++ key ++ "': " ++ table ++
      " (absent) is not comparable with an integer or float"
  | .kindsDiffer key left leftKind right rightKind =>
    "cannot order by '" ++ key ++ "': " ++ left ++ " (" ++ leftKind ++
      ") is not comparable with " ++ right ++ " (" ++ rightKind ++ ")"
  | .missingTable => "cannot order a missing table record"
  | .malformedSize text => "malformed numeric string '" ++ text ++ "'"

def Metric.ofName (name : String) : Except OrderFault Metric :=
  match ofName? name with
  | some metric => .ok metric
  | none => .error (.unsupportedKey name)

/-- The metric that a key names; an empty key names none. -/
def Metric.ofKey (key : Option String) : Except OrderFault (Option Metric) :=
  match key with
  | none | some "" => .ok none
  | some name => (ofName name).map some

def Size.bytes (encoding : SizeEncoding) (text : String) : Except OrderFault Nat :=
  match bytes? encoding text with
  | some n => .ok n
  | none => .error (.malformedSize text)

structure TableOrder where
  /-- What tables are ordered by. Without a metric it is their full names. -/
  metric : Option Metric
  /-- Smallest first. Without a metric that is the only direction. -/
  ascending : Bool
  encoding : SizeEncoding
deriving DecidableEq, Repr

namespace TableOrder

def byName : TableOrder := { metric := none, ascending := true, encoding := .plain }

/-- The order by the metric that a key names, or by full name if it names none. -/
def ofKey (key : Option String) (ascending : Bool) (encoding : SizeEncoding) :
    Except OrderFault TableOrder :=
  (Metric.ofKey key).map fun metric => { metric, ascending, encoding }

/-- The name of what tables are ordered by. -/
def keyName (order : TableOrder) : String :=
  match order.metric with
  | some metric => metric.name
  | none => Metric.fullName.name

/-- The smallest table comes first. -/
def smallestFirst (order : TableOrder) : Bool := order.metric.isNone || order.ascending

def sizeRank (order : TableOrder) (text : String) : Except OrderFault Rank :=
  (Size.bytes order.encoding text).map .bytes

def rank (order : TableOrder) (table : Table) : Except OrderFault Rank :=
  match order.metric with
  | none => .ok (.text table.fullName)
  | some metric =>
    match metric.reading with
    | .count get => .ok (.integer (get table))
    | .ratio get => .ok (.float (get table))
    | .quantity get =>
      match get table with
      | some (.integer n) => .ok (.integer n)
      | some (.float x) => .ok (.float x)
      | none => .error (.absentValue metric.name table.fullName)
    | .size get => order.sizeRank (get table)
    | .latency get =>
      let x := get table
      .ok (if x.isNaN then .missing else .float x)
    | .offHeap get =>
      match get table with
      | some text => order.sizeRank text
      | none => .ok .missing
    | .name get => .ok (.text (get table))

/-- Turns the order of two ranks into the direction of the order of tables. -/
def directed (order : TableOrder) (natural : Ordering) : Ordering :=
  if order.smallestFirst then natural else natural.swap

def clash (order : TableOrder) (x : Table) (xRank : Rank) (y : Table) (yRank : Rank) :
    OrderFault :=
  .kindsDiffer order.keyName x.fullName xRank.kind y.fullName yRank.kind

def compare (order : TableOrder) (x y : Table) : Except OrderFault Ordering := do
  let xRank ← order.rank x
  let yRank ← order.rank y
  match xRank.compare? yRank with
  | some natural => .ok (order.directed natural)
  | none => .error (order.clash x xRank y yRank)

def compareRecords (order : TableOrder) : Option Table → Option Table → Except OrderFault Ordering
  | some x, some y => order.compare x y
  | _, _ => .error .missingTable

section Sorting

variable {α : Type}

def ranked (order : TableOrder) (table : α → Table) : List α → Except OrderFault (List (Rank × α))
  | [] => .ok []
  | item :: rest => do
    let itemRank ← order.rank (table item)
    let rest ← order.ranked table rest
    .ok ((itemRank, item) :: rest)

/-- The first rank that is not missing against the first one of another kind.
A missing rank is comparable with every other. -/
def clash? (order : TableOrder) (table : α → Table) (ranked : List (Rank × α)) :
    Option OrderFault :=
  match ranked.filter (·.1 ≠ .missing) with
  | [] => none
  | first :: rest =>
    (rest.find? fun other => (first.1.compare? other.1).isNone).map fun other =>
      order.clash (table first.2) first.1 (table other.2) other.1

/-- The first rank does not have to come behind the second. -/
def inOrder (order : TableOrder) (x y : Rank × α) : Bool :=
  order.directed ((x.1.compare? y.1).getD .eq) ≠ .gt

/-- Sorts items by the tables they hold. -/
def sortOn (order : TableOrder) (table : α → Table) (items : List α) :
    Except OrderFault (List α) := do
  let ranked ← order.ranked table items
  match order.clash? table ranked with
  | some fault => .error fault
  | none => .ok ((ranked.mergeSort order.inOrder).map (·.2))

/-- Sorts items by the tables they hold, and tells of it. -/
def sortOnLogged (order : TableOrder) (table : α → Table) (items : List α) :
    Logged OrderFault (List α) := do
  let sorted ← .ofExcept (order.sortOn table items)
  .tell
    { level := .debug
      target := "  ordering"
      text := "Sorted " ++ integerText sorted.length ++ " tables by '" ++ order.keyName ++ "' (" ++
        (if order.smallestFirst then "ascending" else "descending") ++ ")" }
  return sorted

end Sorting

def sort (order : TableOrder) (tables : List Table) : Except OrderFault (List Table) :=
  order.sortOn id tables

end TableOrder

end TableReport
