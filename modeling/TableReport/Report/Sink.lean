import TableReport.Report

/-!
Reports on their way into a sink. Text goes there line by line, a document in one
piece. What was written before a failure would stay in the sink, so the tables of
a report are selected before its first line is written.
-/

namespace TableReport

/-- Work that writes to the end of a sink and may fail on its way. -/
abbrev Writing (α : Type) := ExceptT OrderFault (StateM String) α

namespace Writing

/-- How the work ends on a sink, and what the sink holds then. -/
def into {α : Type} (work : Writing α) (sink : String) : Except OrderFault α × String :=
  work.run.run sink

def put (text : String) : Writing Unit := modify (· ++ text)

def putLines (lines : List String) : Writing Unit := lines.forM fun line => put (line ++ "\n")

end Writing

namespace Snapshot

open Writing

def writeText (snapshot : Snapshot) (options : ReportOptions) : Writing Unit := do
  if options.isGrouped then
    putLines snapshot.headLines
    snapshot.keyspaces.forM fun keyspace => putLines keyspace.lines
  else
    let tables ← MonadExcept.ofExcept (snapshot.select options).result
    putLines snapshot.headLines
    tables.forM fun table => putLines (table.lines table.fullName "\t")
    putLines [separator]

def writeJson (snapshot : Snapshot) (options : ReportOptions) : Writing Unit := do
  let document ← MonadExcept.ofExcept (snapshot.jsonReport options).result
  put document

end Snapshot

end TableReport
