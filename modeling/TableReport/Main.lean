import TableReport.Run

/-!
The program: it reads the files that a request names, runs it, and prints what
it leaves behind.
-/

namespace TableReport

def usageText : String :=
  unlines
    [ "Report per-table storage statistics, grouped by keyspace or sorted by any metric",
      "",
      "Usage: tablestats render [OPTIONS] <SNAPSHOT>",
      "       tablestats keys",
      "       tablestats init [PATH]",
      "",
      "Options of render:",
      "  -s, --sort <KEY>         Sort tables by this metric",
      "      --ascending          Sort smallest first instead of largest first",
      "  -t, --top <N>            Show only the first N tables of a sorted listing",
      "  -H, --human-readable     Sizes use units such as \"5 KiB\"",
      "      --format <FORMAT>    text or json",
      "  -c, --config <PATH>      Path of the configuration file",
      "      --log-level <LEVEL>  none, error, warn, info, debug or trace" ]

/-- The fault that a failure of the system stands for. -/
def FileFault.ofError : IO.Error → FileFault
  | .noFileOrDirectory .. => .notFound
  | error => .other (toString error)

def readFile (path : String) : IO (Except FileFault String) := do
  try
    match Entry.ofBytes (← IO.FS.readBinFile path) with
    | .text content => return .ok content
    | _ => return .error .notText
  catch error => return .error (.ofError error)

def writeFile (path content : String) : IO (Except FileFault Unit) := do
  try
    IO.FS.writeFile path content
    return .ok ()
  catch error => return .error (.ofError error)

/-- The outcome of a request, and which entries of its log are shown. -/
def perform (request : Request) : IO (Outcome × LogFilter) := do
  match request with
  | .render request =>
    let settings := request.settings.getD ("./" ++ Settings.fileName)
    let files := [(settings, ← readFile settings), (request.snapshot, ← readFile request.snapshot)]
    let read (path : String) := (files.lookup path).getD (.error .notFound)
    return (.ofLogged {} (request.render read), request.logFilter.getD .none)
  | .keys => return (.ofLogged {} (return Metric.listing), .none)
  | .init path =>
    let path := Request.initPath path
    let written ← writeFile path Settings.defaultText
    return (.ofLogged {} (Request.initWork path written), .none)

/-- Prints an outcome and gives the code to exit with. -/
def finish (outcome : Outcome) (filter : LogFilter) : IO UInt32 := do
  for entry in outcome.log do
    if filter.shows entry.level then
      IO.eprintln ("[" ++ entry.level.name ++ " " ++ entry.target ++ "] " ++ entry.text)
  IO.print outcome.output
  IO.eprint outcome.errors
  return .ofNat ((outcome.exits.head?).getD 0)

end TableReport

open TableReport in
def main (arguments : List String) : IO UInt32 := do
  match Request.ofArguments arguments with
  | .ok request =>
    let (outcome, filter) ← perform request
    finish outcome filter
  | .error .usage =>
    IO.eprint usageText
    return 2
  | .error .help =>
    IO.print usageText
    return 0
  | .error .version =>
    IO.print versionText
    return 0
