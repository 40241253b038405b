import TableReport.Log
import TableReport.Quantity

/-!
Tables: the storage statistics of one table or index.
-/

namespace TableReport

structure Traffic where
  count : Int64
  /-- The mean latency in milliseconds; NaN if there were no operations. -/
  latency : Binary64
deriving DecidableEq

/-- How many cells of some kind one read slice had to scan over the last five
minutes. -/
structure SliceCells where
  /-- NaN if there were no slices. -/
  average : Binary64
  maximum : Int64
deriving DecidableEq

/-- How much of the data has been repaired. -/
structure Repair where
  percent : Binary64
  repaired : Int64
  unrepaired : Int64
  pending : Int64
deriving DecidableEq

/-- Sizes of compacted partitions in bytes. -/
structure PartitionSizes where
  minimum : Int64
  maximum : Int64
  mean : Int64
deriving DecidableEq

/-- Data held in memory that is still to be written. -/
structure Memtable where
  cells : Option Quantity
  dataSize : String
  offHeap : Option String
  switches : Option Quantity
deriving DecidableEq

structure BloomFilter where
  falsePositives : Option Quantity
  falseRatio : Option Quantity
  space : String
  offHeap : Option String
deriving DecidableEq

/-- The storage statistics of a table. Sizes are kept as the texts they came as;
off-heap sizes are absent if the table does not report them. -/
structure Table where
  keyspace : String
  name : String
  isIndex : Bool
  /-- The sstables of each level, for tables that have levels. -/
  levels : Option (List String)
  sstables : Option Quantity
  spaceLive : String
  spaceTotal : String
  spaceSnapshots : String
  offHeapTotal : Option String
  /-- Negative one if the table is not compressed. -/
  compressionRatio : Option Quantity
  partitions : Option Quantity
  memtable : Memtable
  reads : Traffic
  writes : Traffic
  pendingFlushes : Option Quantity
  repair : Repair
  bloom : BloomFilter
  indexSummaryOffHeap : Option String
  compressionOffHeap : Option String
  compacted : PartitionSizes
  liveCells : SliceCells
  tombstones : SliceCells
  droppedMutations : String
deriving DecidableEq

/-- Whether and how a table's pending flushes count in the total of its
keyspace. -/
inductive FlushAccount where
  /-- A whole number of flushes. -/
  | counted (n : Int64)
  /-- A float that is no whole number, or too large to be taken for a count. -/
  | notWhole (x : Binary64)
  | unreported
deriving DecidableEq

namespace Table

/-- A table that has seen no traffic. -/
def fresh (keyspace name : String) : Table where
  keyspace
  name
  isIndex := false
  levels := none
  sstables := some (.integer 0)
  spaceLive := "0"
  spaceTotal := "0"
  spaceSnapshots := "0"
  offHeapTotal := none
  compressionRatio := some (.float (.ofInt (-1)))
  partitions := some (.integer 0)
  memtable :=
    { cells := some (.integer 0), dataSize := "0", offHeap := none, switches := some (.integer 0) }
  reads := { count := 0, latency := .nan }
  writes := { count := 0, latency := .nan }
  pendingFlushes := some (.integer 0)
  repair := { percent := .ofInt 100, repaired := 0, unrepaired := 0, pending := 0 }
  bloom :=
    { falsePositives := some (.integer 0), falseRatio := some (.float .zero), space := "0"
      offHeap := none }
  indexSummaryOffHeap := none
  compressionOffHeap := none
  compacted := { minimum := 0, maximum := 0, mean := 0 }
  liveCells := { average := .nan, maximum := 0 }
  tombstones := { average := .nan, maximum := 0 }
  droppedMutations := "0"

/-- The name of a table with that of its keyspace in front. -/
def fullName (table : Table) : String := table.keyspace ++ "." ++ table.name

/-- Whole floats of at least this size are not taken for counts of flushes. -/
def flushLimit : Nat := 9 * 10 ^ 18

def flushAccount (table : Table) : FlushAccount :=
  match table.pendingFlushes with
  | some (.integer n) => .counted n
  | some (.float x) =>
    match x.whole? with
    | some n => if n.natAbs < flushLimit then .counted (.ofInt n) else .notWhole x
    | none => .notWhole x
  | none => .unreported

/-- The pending flushes that a table adds to the total of its keyspace. -/
def flushes (table : Table) : Int64 :=
  match table.flushAccount with
  | .counted n => n
  | _ => 0

/-- What there is to tell of pending flushes that do not count. -/
def flushNotes (table : Table) : List LogEntry :=
  let entry (text : String) : LogEntry :=
    { level := .debug
      target := "     stats"
      text := "Pending flushes of " ++ table.fullName ++ text }
  match table.flushAccount with
  | .counted _ => []
  | .notWhole x =>
    [entry (" is " ++ plainStyle.text x ++
      ", not a whole count; leaving it out of the keyspace total")]
  | .unreported => [entry " not reported; leaving it out of the keyspace total"]

end Table

end TableReport
