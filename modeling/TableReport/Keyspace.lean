import TableReport.Table.Record

/-!
Keyspaces: tables with their totals. The totals are summed once, when a keyspace
is put together, and from then on are data of their own.
-/

namespace TableReport

structure Keyspace where
  name : String
  readCount : Int64
  writeCount : Int64
  pendingFlushes : Int64
  /-- The time of all reads, in microseconds. -/
  readTime : Binary64
  /-- The time of all writes, in microseconds. -/
  writeTime : Binary64
  tables : List Table
deriving DecidableEq

namespace Keyspace

/-- A keyspace with the totals of its tables. How long the operations took
cannot be told from the means of the tables, and is left at zero. -/
def ofTables (name : String) (tables : List Table) : Keyspace where
  name
  readCount := (tables.map (·.reads.count)).sum
  writeCount := (tables.map (·.writes.count)).sum
  pendingFlushes := (tables.map (·.flushes)).sum
  readTime := .zero
  writeTime := .zero
  tables

/-- What there is to tell of the tables whose pending flushes do not count. -/
def flushNotes (tables : List Table) : List LogEntry := tables.flatMap (·.flushNotes)

/-- The same keyspace with other times of all reads and writes. -/
def withTimes (keyspace : Keyspace) (readTime writeTime : Binary64) : Keyspace :=
  { keyspace with readTime, writeTime }

/-- The mean time of one operation in milliseconds; NaN if there were none. -/
def meanLatency (time : Binary64) (count : Int64) : Binary64 :=
  if count = 0 then .nan else time / .ofInt count.toInt / .ofInt 1000

def readLatency (keyspace : Keyspace) : Binary64 :=
  meanLatency keyspace.readTime keyspace.readCount

def writeLatency (keyspace : Keyspace) : Binary64 :=
  meanLatency keyspace.writeTime keyspace.writeCount

open Json in
def record : Record Keyspace where
  name := "KeyspaceStatistics"
  members :=
    [ .of "name" .text (·.name) fun v k => { k with name := v },
      .of "read_count" .signed (·.readCount) fun v k => { k with readCount := v },
      .of "write_count" .signed (·.writeCount) fun v k => { k with writeCount := v },
      .of "pending_flushes" .signed (·.pendingFlushes) fun v k => { k with pendingFlushes := v },
      .of "total_read_time_micros" .float (·.readTime)
        (fun v k => { k with readTime := v }) .trailing,
      .of "total_write_time_micros" .float (·.writeTime)
        (fun v k => { k with writeTime := v }) .trailing,
      .of "tables" (.list Table.codec) (·.tables) fun v k => { k with tables := v } ]
  blank := ofTables "" []

def codec : Json.Codec Keyspace := record.codec

end Keyspace

end TableReport
