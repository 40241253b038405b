import TableReport.Report.Basic
import TableReport.Text.Lines

/-!
Reports as text: lines of a label and a value, indented below their keyspaces,
between separators.
-/

namespace TableReport

/-- A line that holds a value under a label. -/
def labelled (indent label value : String) : String := indent ++ label ++ ": " ++ value

/-- The line at the head and the foot of a listing. -/
def separator : String := "----------------"

/-- A latency in milliseconds with three decimal places. -/
def latencyText (x : Binary64) : String := fixedText 3 x ++ " ms"

/-- A double rounded to hundredths, half away from zero. -/
def hundredthsText (x : Binary64) : String :=
  reportStyle.text ((x * .ofInt 100).round / .ofInt 100)

/-- A quantity, or the note that there is none. -/
def quantityText : Option Quantity → String
  | some q => q.text
  | none => "n/a"

/-- A quantity with five decimal places, or the note that there is none. -/
def ratioText : Option Quantity → String
  | some q => fixedText 5 q.toBinary64
  | none => "n/a"

/-- An entry that stands only if its value is there. -/
def entryOf (label : String) (value : Option String) : List (String × String) :=
  (value.map (label, ·)).toList

namespace Table

/-- The labels and values of a table's block, under the name it is shown by. -/
def entries (table : Table) (name : String) : List (String × String) :=
  [ (if table.isIndex then "Table (index)" else "Table", name),
    ("SSTable count", quantityText table.sstables) ] ++
  entryOf "SSTables in each level"
    (table.levels.map fun levels => "[" ++ ", ".intercalate levels ++ "]") ++
  [ ("Space used (live)", table.spaceLive),
    ("Space used (total)", table.spaceTotal),
    ("Space used by snapshots (total)", table.spaceSnapshots) ] ++
  entryOf "Off heap memory used (total)" table.offHeapTotal ++
  [ ("SSTable Compression Ratio", quantityText table.compressionRatio),
    ("Number of partitions (estimate)", quantityText table.partitions),
    ("Memtable cell count", quantityText table.memtable.cells),
    ("Memtable data size", table.memtable.dataSize) ] ++
  entryOf "Memtable off heap memory used" table.memtable.offHeap ++
  [ ("Memtable switch count", quantityText table.memtable.switches),
    ("Local read count", integerText table.reads.count.toInt),
    ("Local read latency", latencyText table.reads.latency),
    ("Local write count", integerText table.writes.count.toInt),
    ("Local write latency", latencyText table.writes.latency),
    ("Pending flushes", quantityText table.pendingFlushes),
    ("Percent repaired", hundredthsText table.repair.percent),
    ("Bloom filter false positives", quantityText table.bloom.falsePositives),
    ("Bloom filter false ratio", ratioText table.bloom.falseRatio),
    ("Bloom filter space used", table.bloom.space) ] ++
  entryOf "Bloom filter off heap memory used" table.bloom.offHeap ++
  entryOf "Index summary off heap memory used" table.indexSummaryOffHeap ++
  entryOf "Compression metadata off heap memory used" table.compressionOffHeap ++
  [ ("Compacted partition minimum bytes", integerText table.compacted.minimum.toInt),
    ("Compacted partition maximum bytes", integerText table.compacted.maximum.toInt),
    ("Compacted partition mean bytes", integerText table.compacted.mean.toInt),
    ("Average live cells per slice (last five minutes)",
      reportStyle.text table.liveCells.average),
    ("Maximum live cells per slice (last five minutes)",
      integerText table.liveCells.maximum.toInt),
    ("Average tombstones per slice (last five minutes)",
      reportStyle.text table.tombstones.average),
    ("Maximum tombstones per slice (last five minutes)",
      integerText table.tombstones.maximum.toInt),
    ("Dropped Mutations", table.droppedMutations) ]

/-- The lines of a table's block; an empty one ends it. -/
def lines (table : Table) (name indent : String) : List String :=
  (table.entries name).map (fun (label, value) => labelled indent label value) ++ [""]

end Table

/-- The lines of a keyspace, with its tables and the separator below it. -/
def Keyspace.lines (keyspace : Keyspace) : List String :=
  [ "Keyspace : " ++ keyspace.name,
    labelled "\t" "Read Count" (integerText keyspace.readCount.toInt),
    labelled "\t" "Read Latency" (reportStyle.text keyspace.readLatency ++ " ms"),
    labelled "\t" "Write Count" (integerText keyspace.writeCount.toInt),
    labelled "\t" "Write Latency" (reportStyle.text keyspace.writeLatency ++ " ms"),
    labelled "\t" "Pending Flushes" (integerText keyspace.pendingFlushes.toInt) ] ++
  keyspace.tables.flatMap (fun table => table.lines table.name "\t\t") ++
  [separator]

namespace Snapshot

def headLines (snapshot : Snapshot) : List String :=
  [labelled "" "Total number of tables" (integerText snapshot.tableCount.toNat), separator]

def groupedLines (snapshot : Snapshot) : List String :=
  snapshot.headLines ++ snapshot.keyspaces.flatMap (·.lines)

def sortedLines (snapshot : Snapshot) (tables : List Table) : List String :=
  snapshot.headLines ++ tables.flatMap (fun table => table.lines table.fullName "\t") ++
    [separator]

def textReport (snapshot : Snapshot) (options : ReportOptions) : Logged OrderFault String := do
  if options.isGrouped then
    .tell (reportEntry .info
      ("Rendered " ++ integerText snapshot.keyspaces.length ++ " keyspaces grouped by keyspace"))
    return unlines snapshot.groupedLines
  else
    let tables ← snapshot.select options
    .tell (reportEntry .info
      ("Rendered " ++ integerText tables.length ++ " tables in sorted order"))
    return unlines (snapshot.sortedLines tables)

end Snapshot

end TableReport
