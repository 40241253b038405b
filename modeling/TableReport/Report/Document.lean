import TableReport.Report.Basic

/-!
Reports as JSON documents. All members are sorted by their names; a table has
the members of its JSON form and its full name beside them.
-/

namespace TableReport

open Json

def Table.document (table : Table) : Value :=
  .sortedObject (record.writtenMembers table ++ [("full_name", .string table.fullName)])

def Keyspace.document (keyspace : Keyspace) : Value :=
  .sortedObject
    [ ("name", .string keyspace.name),
      ("read_count", .integer keyspace.readCount.toInt),
      ("read_latency_ms", .real keyspace.readLatency),
      ("write_count", .integer keyspace.writeCount.toInt),
      ("write_latency_ms", .real keyspace.writeLatency),
      ("pending_flushes", .integer keyspace.pendingFlushes.toInt),
      ("tables", .array (keyspace.tables.map (·.document))) ]

namespace Snapshot

/-- A document that holds a listing under a name. -/
def document (snapshot : Snapshot) (name : String) (listing : List Value) : Value :=
  .sortedObject
    [ ("total_number_of_tables", .integer snapshot.tableCount.toNat), (name, .array listing) ]

def jsonReport (snapshot : Snapshot) (options : ReportOptions) : Logged OrderFault String := do
  if options.isGrouped then
    return (snapshot.document "keyspaces" (snapshot.keyspaces.map (·.document))).pretty
  else
    let tables ← snapshot.select options
    return (snapshot.document "tables" (tables.map (·.document))).pretty

end Snapshot

end TableReport
