import TableReport.Keyspace

/-!
Snapshots: what a node told of its tables at one moment.
-/

namespace TableReport

/-- The statistics of all keyspaces at one moment. -/
structure Snapshot where
  /-- The number of tables on the node, listed here or not. -/
  tableCount : UInt64
  keyspaces : List Keyspace
deriving DecidableEq

namespace Snapshot

/-- All tables, keyspace by keyspace. -/
def tables (snapshot : Snapshot) : List Table := snapshot.keyspaces.flatMap (·.tables)

/-- A snapshot whose table count is the number of the tables it lists. -/
def ofKeyspaces (keyspaces : List Keyspace) : Snapshot where
  tableCount := .ofNat (keyspaces.flatMap (·.tables)).length
  keyspaces

/-- The same snapshot with another table count. -/
def withTableCount (snapshot : Snapshot) (tableCount : UInt64) : Snapshot :=
  { snapshot with tableCount }

open Json in
def record : Record Snapshot where
  name := "Snapshot"
  members :=
    [ .of "table_count" .unsigned (·.tableCount) fun v s => { s with tableCount := v },
      .of "keyspaces" (.list Keyspace.codec) (·.keyspaces) fun v s => { s with keyspaces := v } ]
  blank := { tableCount := 0, keyspaces := [] }

def codec : Json.Codec Snapshot := record.codec

end Snapshot

end TableReport
