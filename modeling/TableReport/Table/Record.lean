import TableReport.Json.Record
import TableReport.Table.Basic

/-!
The JSON form of tables.
-/

namespace TableReport.Table

open Json

/-- The record that is filled when a table is read. Only what may be missing
from a text matters here. -/
def blank : Table := { fresh "" "" with
  sstables := none
  compressionRatio := none
  partitions := none
  memtable := { cells := none, dataSize := "", offHeap := none, switches := none }
  pendingFlushes := none
  bloom := { falsePositives := none, falseRatio := none, space := "", offHeap := none } }

/-- The members of a table in the order of its array form. -/
def members : List (Member Table) :=
  [ .of "keyspace_name" .text (·.keyspace) fun v t => { t with keyspace := v },
    .of "table_name" .text (·.name) fun v t => { t with name := v },
    .of "is_index" .flag (·.isIndex) (fun v t => { t with isIndex := v }) .trailing,
    .of "sstables_in_each_level" (.omittable (.list .text)) (·.levels)
      (fun v t => { t with levels := v }) .trailing,
    .of "sstable_count" (.optional Quantity.codec) (·.sstables)
      (fun v t => { t with sstables := v }) .optional,
    .of "space_used_live" .text (·.spaceLive) fun v t => { t with spaceLive := v },
    .of "space_used_total" .text (·.spaceTotal) fun v t => { t with spaceTotal := v },
    .of "space_used_by_snapshots_total" .text (·.spaceSnapshots)
      fun v t => { t with spaceSnapshots := v },
    .of "off_heap_memory_used_total" (.optional .text) (·.offHeapTotal)
      (fun v t => { t with offHeapTotal := v }) .trailing,
    .of "sstable_compression_ratio" (.optional Quantity.codec) (·.compressionRatio)
      (fun v t => { t with compressionRatio := v }) .optional,
    .of "number_of_partitions_estimate" (.optional Quantity.codec) (·.partitions)
      (fun v t => { t with partitions := v }) .optional,
    .of "memtable_cell_count" (.optional Quantity.codec) (·.memtable.cells)
      (fun v t => { t with memtable.cells := v }) .optional,
    .of "memtable_data_size" .text (·.memtable.dataSize)
      fun v t => { t with memtable.dataSize := v },
    .of "memtable_off_heap_memory_used" (.optional .text) (·.memtable.offHeap)
      (fun v t => { t with memtable.offHeap := v }) .trailing,
    .of "memtable_switch_count" (.optional Quantity.codec) (·.memtable.switches)
      (fun v t => { t with memtable.switches := v }) .optional,
    .of "local_read_count" .signed (·.reads.count) fun v t => { t with reads.count := v },
    .of "local_read_latency_ms" .floatOrNaN (·.reads.latency)
      fun v t => { t with reads.latency := v },
    .of "local_write_count" .signed (·.writes.count) fun v t => { t with writes.count := v },
    .of "local_write_latency_ms" .floatOrNaN (·.writes.latency)
      fun v t => { t with writes.latency := v },
    .of "pending_flushes" (.optional Quantity.codec) (·.pendingFlushes)
      (fun v t => { t with pendingFlushes := v }) .optional,
    .of "percent_repaired" .float (·.repair.percent) fun v t => { t with repair.percent := v },
    .of "bytes_repaired" .signed (·.repair.repaired)
      (fun v t => { t with repair.repaired := v }) .trailing,
    .of "bytes_unrepaired" .signed (·.repair.unrepaired)
      (fun v t => { t with repair.unrepaired := v }) .trailing,
    .of "bytes_pending_repair" .signed (·.repair.pending)
      (fun v t => { t with repair.pending := v }) .trailing,
    .of "bloom_filter_false_positives" (.optional Quantity.codec) (·.bloom.falsePositives)
      (fun v t => { t with bloom.falsePositives := v }) .optional,
    .of "bloom_filter_false_ratio" (.optional Quantity.codec) (·.bloom.falseRatio)
      (fun v t => { t with bloom.falseRatio := v }) .optional,
    .of "bloom_filter_space_used" .text (·.bloom.space) fun v t => { t with bloom.space := v },
    .of "bloom_filter_off_heap_memory_used" (.optional .text) (·.bloom.offHeap)
      (fun v t => { t with bloom.offHeap := v }) .trailing,
    .of "index_summary_off_heap_memory_used" (.optional .text) (·.indexSummaryOffHeap)
      (fun v t => { t with indexSummaryOffHeap := v }) .trailing,
    .of "compression_metadata_off_heap_memory_used" (.optional .text) (·.compressionOffHeap)
      (fun v t => { t with compressionOffHeap := v }) .trailing,
    .of "compacted_partition_minimum_bytes" .signed (·.compacted.minimum)
      fun v t => { t with compacted.minimum := v },
    .of "compacted_partition_maximum_bytes" .signed (·.compacted.maximum)
      fun v t => { t with compacted.maximum := v },
    .of "compacted_partition_mean_bytes" .signed (·.compacted.mean)
      fun v t => { t with compacted.mean := v },
    .of "average_live_cells_per_slice_last_five_minutes" .floatOrNaN (·.liveCells.average)
      fun v t => { t with liveCells.average := v },
    .of "maximum_live_cells_per_slice_last_five_minutes" .signed (·.liveCells.maximum)
      fun v t => { t with liveCells.maximum := v },
    .of "average_tombstones_per_slice_last_five_minutes" .floatOrNaN (·.tombstones.average)
      fun v t => { t with tombstones.average := v },
    .of "maximum_tombstones_per_slice_last_five_minutes" .signed (·.tombstones.maximum)
      fun v t => { t with tombstones.maximum := v },
    .of "dropped_mutations" .text (·.droppedMutations) fun v t => { t with droppedMutations := v } ]

theorem distinct_names : (members.map (·.name)).Nodup := by
  decide

def record : Record Table where
  name := "TableStatistics"
  members := members
  blank := blank

def codec : Codec Table := record.codec

end TableReport.Table
