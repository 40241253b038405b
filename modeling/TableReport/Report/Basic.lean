import TableReport.Snapshot
import TableReport.TableOrder

/-!
What a report shows: every keyspace with its tables, or, if a metric is given,
the tables of all keyspaces in one sorted list that may be cut short.
-/

namespace TableReport

inductive ReportFormat where
  | text
  | json
deriving DecidableEq, Repr

def ReportFormat.name : ReportFormat → String
  | .text => "text"
  | .json => "json"

structure ReportOptions where
  /-- What the tables are sorted by. Without a metric they stand under their
  keyspaces, and none of the other options has any effect. -/
  metric : Option Metric
  ascending : Bool
  /-- How many tables a sorted list keeps; zero keeps all. -/
  top : Nat
  encoding : SizeEncoding
deriving DecidableEq, Repr

namespace ReportOptions

/-- The tables stand under their keyspaces. -/
def isGrouped (options : ReportOptions) : Bool := options.metric.isNone

def order (options : ReportOptions) : TableOrder :=
  match options.metric with
  | none => .byName
  | some metric =>
    { metric := some metric, ascending := options.ascending, encoding := options.encoding }

/-- How many of `count` tables a sorted list keeps. -/
def kept (options : ReportOptions) (count : Nat) : Nat :=
  if options.top = 0 then count else min options.top count

end ReportOptions

def reportEntry (level : LogLevel) (text : String) : LogEntry :=
  { level, target := "   reports", text }

def Snapshot.select (snapshot : Snapshot) (options : ReportOptions) :
    Logged OrderFault (List Table) := do
  let sorted ← options.order.sortOnLogged id snapshot.tables
  let kept := options.kept sorted.length
  if kept < sorted.length then
    .tell (reportEntry .debug
      ("Keeping the top " ++ integerText kept ++ " of " ++ integerText sorted.length ++ " tables"))
  return sorted.take kept

end TableReport
