import TableReport.Table.Record

/-!
The fields of tables, each under the name that it has in JSON. Names alone tell
fields apart here, so what is said of a field does not depend on how a record
groups its values.
-/

namespace TableReport

/-- What a field of a table can hold. -/
inductive FieldValue where
  | text (s : String)
  | flag (b : Bool)
  | levels (names : Option (List String))
  | quantity (q : Option Quantity)
  /-- A size that may not be reported. -/
  | offHeap (s : Option String)
  | count (n : Int64)
  | float (x : Binary64)
deriving DecidableEq

namespace Table

def fields (table : Table) : List (String × FieldValue) :=
  [ ("keyspace_name", .text table.keyspace),
    ("table_name", .text table.name),
    ("is_index", .flag table.isIndex),
    ("sstables_in_each_level", .levels table.levels),
    ("sstable_count", .quantity table.sstables),
    ("space_used_live", .text table.spaceLive),
    ("space_used_total", .text table.spaceTotal),
    ("space_used_by_snapshots_total", .text table.spaceSnapshots),
    ("off_heap_memory_used_total", .offHeap table.offHeapTotal),
    ("sstable_compression_ratio", .quantity table.compressionRatio),
    ("number_of_partitions_estimate", .quantity table.partitions),
    ("memtable_cell_count", .quantity table.memtable.cells),
    ("memtable_data_size", .text table.memtable.dataSize),
    ("memtable_off_heap_memory_used", .offHeap table.memtable.offHeap),
    ("memtable_switch_count", .quantity table.memtable.switches),
    ("local_read_count", .count table.reads.count),
    ("local_read_latency_ms", .float table.reads.latency),
    ("local_write_count", .count table.writes.count),
    ("local_write_latency_ms", .float table.writes.latency),
    ("pending_flushes", .quantity table.pendingFlushes),
    ("percent_repaired", .float table.repair.percent),
    ("bytes_repaired", .count table.repair.repaired),
    ("bytes_unrepaired", .count table.repair.unrepaired),
    ("bytes_pending_repair", .count table.repair.pending),
    ("bloom_filter_false_positives", .quantity table.bloom.falsePositives),
    ("bloom_filter_false_ratio", .quantity table.bloom.falseRatio),
    ("bloom_filter_space_used", .text table.bloom.space),
    ("bloom_filter_off_heap_memory_used", .offHeap table.bloom.offHeap),
    ("index_summary_off_heap_memory_used", .offHeap table.indexSummaryOffHeap),
    ("compression_metadata_off_heap_memory_used", .offHeap table.compressionOffHeap),
    ("compacted_partition_minimum_bytes", .count table.compacted.minimum),
    ("compacted_partition_maximum_bytes", .count table.compacted.maximum),
    ("compacted_partition_mean_bytes", .count table.compacted.mean),
    ("average_live_cells_per_slice_last_five_minutes", .float table.liveCells.average),
    ("maximum_live_cells_per_slice_last_five_minutes", .count table.liveCells.maximum),
    ("average_tombstones_per_slice_last_five_minutes", .float table.tombstones.average),
    ("maximum_tombstones_per_slice_last_five_minutes", .count table.tombstones.maximum),
    ("dropped_mutations", .text table.droppedMutations) ]

/-- The value of the field of a name. -/
def field? (table : Table) (name : String) : Option FieldValue := table.fields.lookup name

end Table

open Json in
/-- The field as it is written, or nothing if it is left out. -/
def FieldValue.write : FieldValue → Option Value
  | .text s => Codec.text.write s
  | .flag b => Codec.flag.write b
  | .levels names => (Codec.omittable (.list .text)).write names
  | .quantity q => (Codec.optional Quantity.codec).write q
  | .offHeap s => (Codec.optional .text).write s
  | .count n => Codec.signed.write n
  | .float x => Codec.float.write x

/-- What is written of a table is its fields, each under its name. -/
theorem Table.writtenMembers_eq (table : Table) :
    record.writtenMembers table =
      table.fields.filterMap fun (name, value) => value.write.map (name, ·) := rfl

end TableReport
