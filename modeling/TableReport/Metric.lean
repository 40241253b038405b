import TableReport.Table.Basic

/-!
Metrics: what tables can be sorted by. The vocabulary is fixed. Each metric has a
name, some have short names beside it, and its reading says which value of a
table it means and how such values are ordered.
-/

namespace TableReport

/-- How a value is read off a table, which also settles how such values order. -/
inductive Reading where
  /-- A whole number. -/
  | count (get : Table → Int64)
  /-- A double in the total order of doubles. -/
  | ratio (get : Table → Binary64)
  /-- A quantity, comparable with quantities of its own kind only. -/
  | quantity (get : Table → Option Quantity)
  /-- A size text, ordered by its count of bytes. -/
  | size (get : Table → String)
  /-- A double, with NaN for the lack of any sample; that ranks lowest. -/
  | latency (get : Table → Binary64)
  /-- A size text that may be absent; absence ranks lowest. -/
  | offHeap (get : Table → Option String)
  /-- A text in alphabetical order. -/
  | name (get : Table → String)

def Reading.word : Reading → String
  | .count _ => "count"
  | .ratio _ => "ratio"
  | .quantity _ => "opaque"
  | .size _ => "size"
  | .latency _ => "latency"
  | .offHeap _ => "off_heap"
  | .name _ => "name"

/-- What tables can be sorted by. -/
inductive Metric where
  | averageLiveCells
  | averageTombstones
  | bloomFalsePositives
  | bloomFalseRatio
  | bloomOffHeap
  | bloomSpace
  | bytesPendingRepair
  | bytesRepaired
  | bytesUnrepaired
  | compactedMaximum
  | compactedMean
  | compactedMinimum
  | compressionOffHeap
  | droppedMutations
  | fullName
  | indexSummaryOffHeap
  | maximumLiveCells
  | maximumTombstones
  | memtableCells
  | memtableDataSize
  | memtableOffHeap
  | memtableSwitches
  | partitions
  | offHeapTotal
  | pendingFlushes
  | percentRepaired
  | readLatency
  | reads
  | spaceSnapshots
  | spaceLive
  | spaceTotal
  | compressionRatio
  | sstables
  | tableName
  | writeLatency
  | writes
deriving DecidableEq, Repr

namespace Metric

structure Entry where
  name : String
  description : String
  /-- Short names that are accepted in place of the name. -/
  aliases : List String := []
  reading : Reading

def entry : Metric → Entry
  | .averageLiveCells =>
    { name := "average_live_cells_per_slice_last_five_minutes"
      description := "Average live cells scanned per read slice over the last five minutes"
      aliases := ["average_live"]
      reading := .ratio (·.liveCells.average) }
  | .averageTombstones =>
    { name := "average_tombstones_per_slice_last_five_minutes"
      description := "Average tombstones scanned per read slice over the last five minutes"
      aliases := ["average_tombstones"]
      reading := .ratio (·.tombstones.average) }
  | .bloomFalsePositives =>
    { name := "bloom_filter_false_positives"
      description := "Number of bloom filter false positives"
      reading := .quantity (·.bloom.falsePositives) }
  | .bloomFalseRatio =>
    { name := "bloom_filter_false_ratio"
      description := "Ratio of bloom filter false positives to all bloom filter checks"
      reading := .quantity (·.bloom.falseRatio) }
  | .bloomOffHeap =>
    { name := "bloom_filter_off_heap_memory_used"
      description := "Off-heap memory used by bloom filters"
      reading := .offHeap (·.bloom.offHeap) }
  | .bloomSpace =>
    { name := "bloom_filter_space_used"
      description := "Disk space used by bloom filters"
      reading := .size (·.bloom.space) }
  | .bytesPendingRepair =>
    { name := "bytes_pending_repair"
      description := "Bytes in sstables pending repair"
      reading := .count (·.repair.pending) }
  | .bytesRepaired =>
    { name := "bytes_repaired"
      description := "Bytes in repaired sstables"
      reading := .count (·.repair.repaired) }
  | .bytesUnrepaired =>
    { name := "bytes_unrepaired"
      description := "Bytes in unrepaired sstables"
      reading := .count (·.repair.unrepaired) }
  | .compactedMaximum =>
    { name := "compacted_partition_maximum_bytes"
      description := "Size of the largest compacted partition"
      aliases := ["compacted_maximum"]
      reading := .count (·.compacted.maximum) }
  | .compactedMean =>
    { name := "compacted_partition_mean_bytes"
      description := "Mean size of compacted partitions"
      aliases := ["compacted_mean"]
      reading := .count (·.compacted.mean) }
  | .compactedMinimum =>
    { name := "compacted_partition_minimum_bytes"
      description := "Size of the smallest compacted partition"
      aliases := ["compacted_minimum"]
      reading := .count (·.compacted.minimum) }
  | .compressionOffHeap =>
    { name := "compression_metadata_off_heap_memory_used"
      description := "Off-heap memory used by compression metadata"
      reading := .offHeap (·.compressionOffHeap) }
  | .droppedMutations =>
    { name := "dropped_mutations"
      description := "Number of dropped mutations"
      reading := .size (·.droppedMutations) }
  | .fullName =>
    { name := "full_name"
      description := "Keyspace and table name, as keyspace.table"
      reading := .name (·.fullName) }
  | .indexSummaryOffHeap =>
    { name := "index_summary_off_heap_memory_used"
      description := "Off-heap memory used by index summaries"
      reading := .offHeap (·.indexSummaryOffHeap) }
  | .maximumLiveCells =>
    { name := "maximum_live_cells_per_slice_last_five_minutes"
      description := "Most live cells scanned by a single read slice over the last five minutes"
      aliases := ["maximum_live"]
      reading := .count (·.liveCells.maximum) }
  | .maximumTombstones =>
    { name := "maximum_tombstones_per_slice_last_five_minutes"
      description := "Most tombstones scanned by a single read slice over the last five minutes"
      aliases := ["maximum_tombstones"]
      reading := .count (·.tombstones.maximum) }
  | .memtableCells =>
    { name := "memtable_cell_count"
      description := "Number of cells in the memtable"
      reading := .quantity (·.memtable.cells) }
  | .memtableDataSize =>
    { name := "memtable_data_size"
      description := "Size of data held in the memtable"
      reading := .size (·.memtable.dataSize) }
  | .memtableOffHeap =>
    { name := "memtable_off_heap_memory_used"
      description := "Off-heap memory used by the memtable"
      reading := .offHeap (·.memtable.offHeap) }
  | .memtableSwitches =>
    { name := "memtable_switch_count"
      description := "Number of times the memtable was flushed and replaced"
      reading := .quantity (·.memtable.switches) }
  | .partitions =>
    { name := "number_of_partitions_estimate"
      description := "Estimated number of partitions"
      aliases := ["partitions"]
      reading := .quantity (·.partitions) }
  | .offHeapTotal =>
    { name := "off_heap_memory_used_total"
      description := "Total off-heap memory used by the table"
      reading := .offHeap (·.offHeapTotal) }
  | .pendingFlushes =>
    { name := "pending_flushes"
      description := "Number of pending memtable flushes"
      reading := .quantity (·.pendingFlushes) }
  | .percentRepaired =>
    { name := "percent_repaired"
      description := "Percentage of data marked as repaired"
      reading := .ratio (·.repair.percent) }
  | .readLatency =>
    { name := "read_latency"
      description := "Mean local read latency in milliseconds"
      reading := .latency (·.reads.latency) }
  | .reads =>
    { name := "reads"
      description := "Number of local reads"
      reading := .count (·.reads.count) }
  | .spaceSnapshots =>
    { name := "space_used_by_snapshots_total"
      description := "Disk space used by snapshots"
      reading := .size (·.spaceSnapshots) }
  | .spaceLive =>
    { name := "space_used_live"
      description := "Disk space used by live sstables"
      reading := .size (·.spaceLive) }
  | .spaceTotal =>
    { name := "space_used_total"
      description := "Disk space used by all sstables, live or awaiting deletion"
      reading := .size (·.spaceTotal) }
  | .compressionRatio =>
    { name := "sstable_compression_ratio"
      description := "Ratio of compressed to uncompressed sstable size"
      reading := .quantity (·.compressionRatio) }
  | .sstables =>
    { name := "sstable_count"
      description := "Number of sstables"
      reading := .quantity (·.sstables) }
  | .tableName =>
    { name := "table_name"
      description := "Table name, without the keyspace"
      reading := .name (·.name) }
  | .writeLatency =>
    { name := "write_latency"
      description := "Mean local write latency in milliseconds"
      reading := .latency (·.writes.latency) }
  | .writes =>
    { name := "writes"
      description := "Number of local writes"
      reading := .count (·.writes.count) }

def name (metric : Metric) : String := metric.entry.name

/-- What a metric measures, in a few words. -/
def description (metric : Metric) : String := metric.entry.description

def aliases (metric : Metric) : List String := metric.entry.aliases

def reading (metric : Metric) : Reading := metric.entry.reading

/-- All metrics, in alphabetical order of their names. -/
def all : List Metric :=
  [.averageLiveCells, .averageTombstones, .bloomFalsePositives, .bloomFalseRatio, .bloomOffHeap,
    .bloomSpace, .bytesPendingRepair, .bytesRepaired, .bytesUnrepaired, .compactedMaximum,
    .compactedMean, .compactedMinimum, .compressionOffHeap, .droppedMutations, .fullName,
    .indexSummaryOffHeap, .maximumLiveCells, .maximumTombstones, .memtableCells,
    .memtableDataSize, .memtableOffHeap, .memtableSwitches, .partitions, .offHeapTotal,
    .pendingFlushes, .percentRepaired, .readLatency, .reads, .spaceSnapshots, .spaceLive,
    .spaceTotal, .compressionRatio, .sstables, .tableName, .writeLatency, .writes]

theorem mem_all (metric : Metric) : metric ∈ all := by
  cases metric <;> decide

def ofName? (name : String) : Option Metric :=
  all.find? fun metric => metric.name == name || metric.aliases.contains name

end Metric

end TableReport
