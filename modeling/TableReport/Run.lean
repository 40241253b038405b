import TableReport.Folder
import TableReport.Report
import TableReport.Request

/-!
Runs: what becomes of a request. A run either ends well, with all of its output,
or fails with one line of complaint, no output and a request to exit with one.
Reports and listings only read files; a new settings file is the only thing that
is ever written.
-/

namespace TableReport

inductive RunFault where
  | readSettings (path : String) (fault : FileFault)
  | parseSettings (path : String) (fault : SettingsFault)
  /-- The settings sort by a metric that does not exist. -/
  | settingsKey (fault : OrderFault)
  | readSnapshot (path : String) (fault : FileFault)
  | parseSnapshot (path : String) (fault : Json.Fault)
  | order (fault : OrderFault)
  | writeSettings (path : String) (fault : FileFault)
deriving DecidableEq, Repr

/-- The words for texts that cannot be read. -/
structure Wording where
  settings : SettingsFault → String := SettingsFault.message
  snapshot : Json.Fault → String := Json.Fault.message

namespace RunFault

def message (wording : Wording) : RunFault → String
  | .readSettings _ fault | .readSnapshot _ fault | .writeSettings _ fault => fault.message
  | .parseSettings _ fault => wording.settings fault
  | .parseSnapshot _ fault => wording.snapshot fault
  | .settingsKey fault => "invalid sort_key in configuration: " ++ fault.message
  | .order fault => fault.message

/-- What was being done, if that is told. -/
def context? : RunFault → Option String
  | .readSettings path _ => some ("reading tablestats configuration file '" ++ path ++ "'")
  | .parseSettings path _ => some ("parsing configuration file '" ++ path ++ "'")
  | .readSnapshot path _ => some ("reading snapshot file '" ++ path ++ "'")
  | .parseSnapshot path _ => some ("parsing snapshot file '" ++ path ++ "'")
  | .writeSettings path _ => some ("writing default configuration to " ++ path)
  | .settingsKey _ | .order _ => none

/-- The complaint about a fault: its text behind a mark, and under it what was
being done. -/
def complaint (wording : Wording) (fault : RunFault) : String :=
  "❌ " ++ fault.message wording ++ "\n" ++
    (match fault.context? with
    | some context => "> " ++ context ++ "\n"
    | none => "")

end RunFault

namespace Settings

def entry (text : String) : LogEntry := { level := .debug, target := "    config", text }

/-- The settings of a text that was found at a path. They may not sort by a
metric that does not exist, even if the command line names another. -/
def parse (path text : String) : Logged RunFault Settings := do
  let settings ← .ofExcept ((ofText text).mapError (.parseSettings path))
  let _ ← .ofExcept ((Metric.ofKey settings.sortKey).mapError .settingsKey)
  .tell (entry ("Loaded configuration from '" ++ path ++ "'"))
  return settings

/-- The settings of a run: those of the file at the given path, or those of the
file that is looked for, which need not be there. -/
def load (read : String → Except FileFault String) (path : Option String) :
    Logged RunFault Settings :=
  match path with
  | some path => do
    let text ← .ofExcept ((read path).mapError (.readSettings path))
    parse path text
  | none =>
    let path := "./" ++ fileName
    match read path with
    | .error .notFound => do
      .tell (entry ("No '" ++ path ++ "' found, using the default configuration"))
      return {}
    | .error fault => .ofExcept (.error (.readSettings path fault))
    | .ok text => parse path text

/-- The settings with what a command line says in their place. A flag can only be
raised by it; every other setting is replaced if it is given. -/
def withRequest (settings : Settings) (request : RenderRequest) : Settings where
  sortKey := request.sort.or settings.sortKey
  ascending := request.ascending || settings.ascending
  top := request.top.getD settings.top
  humanReadable := request.humanReadable || settings.humanReadable
  format := request.format.getD settings.format

/-- What a report shows under these settings, sorted by a metric or not. -/
def options (settings : Settings) (metric : Option Metric) : ReportOptions where
  metric
  ascending := settings.ascending
  top := settings.top
  encoding := if settings.humanReadable then .readable else .plain

end Settings

def runEntry (level : LogLevel) (text : String) : LogEntry :=
  { level, target := "    render", text }

def Snapshot.load (read : String → Except FileFault String) (path : String) :
    Logged RunFault Snapshot := do
  let text ← .ofExcept ((read path).mapError (.readSnapshot path))
  let snapshot ← .ofExcept ((codec.decode text).mapError (.parseSnapshot path))
  .tell (runEntry .debug
    ("Loaded " ++ integerText snapshot.tables.length ++ " tables in " ++
      integerText snapshot.keyspaces.length ++ " keyspaces from '" ++ path ++ "'"))
  return snapshot

/-- The report that settings ask for, on the snapshot at a path. -/
def Settings.render (settings : Settings) (read : String → Except FileFault String)
    (path : String) : Logged RunFault String := do
  let metric ← .ofExcept ((Metric.ofKey settings.sortKey).mapError .order)
  let snapshot ← Snapshot.load read path
  .tell (runEntry .info
    ("Rendering " ++ integerText snapshot.keyspaces.length ++ " keyspaces as " ++
      settings.format.name ++ ", sorted by " ++ (metric.map (·.name)).getD "keyspace"))
  let report ← (snapshot.report settings.format (settings.options metric)).mapError .order
  return match settings.format with
    | .text => report
    | .json => report ++ "\n"

def RenderRequest.render (request : RenderRequest) (read : String → Except FileFault String) :
    Logged RunFault String := do
  let settings ← Settings.load read request.settings
  (settings.withRequest request).render read request.snapshot

namespace Metric

/-- The line of a metric in the list of all: its name, padded to the width of the
longest, what it measures, and its short names. -/
def line (metric : Metric) : String :=
  let width := (all.map (·.name.length)).foldl max 0
  let padding := String.ofList (List.replicate (width - metric.name.length) ' ')
  metric.name ++ padding ++ "  " ++ metric.description ++
    (if metric.aliases.isEmpty then ""
    else " (also: " ++ ", ".intercalate metric.aliases ++ ")")

def listing : String := unlines (all.map (·.line))

end Metric

/-- What a run leaves behind. -/
structure Outcome where
  failure : Option RunFault
  /-- The codes that the run asks to exit with. -/
  exits : List Nat
  output : String
  errors : String
  log : List LogEntry

/-- The outcome of work whose result is the output. -/
def Outcome.ofLogged (wording : Wording) (work : Logged RunFault String) : Outcome :=
  match work.result with
  | .ok output => { failure := none, exits := [], output, errors := "", log := work.log }
  | .error fault =>
    { failure := some fault, exits := [1], output := "", errors := fault.complaint wording
      log := work.log }

namespace Request

/-- Where a new settings file is written. -/
def initPath (path : Option String) : String := path.getD Settings.fileName

/-- What is told of a new settings file, once it has been written or not. -/
def initWork {α : Type} (path : String) (written : Except FileFault α) : Logged RunFault String :=
  match written with
  | .ok _ => return "Generated default configuration file: " ++ path ++ "\n"
  | .error fault => .ofExcept (.error (.writeSettings path fault))

def run (wording : Wording) (folder : Folder) : Request → Outcome × Folder
  | .render request => (.ofLogged wording (request.render folder.read), folder)
  | .keys => (.ofLogged wording (return Metric.listing), folder)
  | .init path =>
    let path := initPath path
    let written := folder.write path Settings.defaultText
    let after :=
      match written with
      | .ok after => after
      | .error _ => folder
    (.ofLogged wording (initWork path written), after)

end Request

end TableReport
