import TableReport.Report.Document
import TableReport.Report.Text

/-!
Reports in either format.
-/

namespace TableReport

def Snapshot.report (snapshot : Snapshot) (format : ReportFormat) (options : ReportOptions) :
    Logged OrderFault String :=
  match format with
  | .text => snapshot.textReport options
  | .json => snapshot.jsonReport options

/-- A report is appended to what a sink already holds. One that fails leaves the
sink as it was. -/
def appendReport (sink : String) (report : Except OrderFault String) : String :=
  match report with
  | .ok text => sink ++ text
  | .error _ => sink

end TableReport
