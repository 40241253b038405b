import TableReport.Report.Basic
import TableReport.Request.Switch
import TableReport.Settings
import TableReport.Text.Digits

/-!
Requests: what a command line asks for.
-/

namespace TableReport

/-- Which entries of a log are shown. -/
inductive LogFilter where
  | none
  | error
  | warn
  | info
  | debug
  | trace
deriving DecidableEq, Repr

def LogFilter.ofName? : String → Option LogFilter
  | "none" => some .none
  | "error" => some .error
  | "warn" => some .warn
  | "info" => some .info
  | "debug" => some .debug
  | "trace" => some .trace
  | _ => Option.none

/-- The filter lets entries of a level through. -/
def LogFilter.shows : LogFilter → LogLevel → Bool
  | .info, .info => true
  | .debug, _ | .trace, _ => true
  | _, _ => false

/-- What the command line says of a report. What it does not say is left to the
settings. -/
structure RenderRequest where
  snapshot : String
  /-- The name of a metric; an empty one asks for no sorting. -/
  sort : Option String := none
  ascending : Bool := false
  top : Option Nat := none
  humanReadable : Bool := false
  format : Option ReportFormat := none
  settings : Option String := none
  logFilter : Option LogFilter := none
deriving DecidableEq, Repr

inductive Request where
  | render (request : RenderRequest)
  | keys
  | init (path : Option String)
deriving DecidableEq, Repr

/-- Puts a value where there is none yet. -/
def putOnce {α ρ : Type} (get : ρ → Option α) (set : Option α → ρ → ρ) (value : Option α)
    (record : ρ) : Option ρ :=
  match get record, value with
  | none, some value => some (set (some value) record)
  | _, _ => none

/-- Raises a flag that is not raised yet. -/
def raiseOnce {ρ : Type} (get : ρ → Bool) (set : ρ → ρ) (record : ρ) : Option ρ :=
  if get record then none else some (set record)

/-- A count of at most 64 bits, with or without a plus sign. -/
def count? (text : String) : Option Nat :=
  let digits :=
    match text.toList with
    | '+' :: digits => digits
    | digits => digits
  if !digits.isEmpty && digits.all Char.isDigit && digitsValue digits < 2 ^ 64 then
    some (digitsValue digits)
  else
    none

def helpSwitch (ρ : Type) : Switch ρ := { long := "help", short := 'h', action := .stop .help }

/-- The arguments of a report: a request of which the snapshot may be missing. -/
def renderArguments : Arguments (Option String × RenderRequest) where
  switches :=
    [ { long := "sort", short := 's'
        action := .value fun s => putOnce (·.2.sort) (fun v r => (r.1, { r.2 with sort := v })) s },
      { long := "ascending"
        action := .flag
          (raiseOnce (·.2.ascending) fun r => (r.1, { r.2 with ascending := true })) },
      { long := "top", short := 't'
        action := .value fun s =>
          putOnce (·.2.top) (fun v r => (r.1, { r.2 with top := v })) (count? s) },
      { long := "human-readable", short := 'H'
        action := .flag
          (raiseOnce (·.2.humanReadable) fun r => (r.1, { r.2 with humanReadable := true })) },
      { long := "format"
        action := .value fun s =>
          putOnce (·.2.format) (fun v r => (r.1, { r.2 with format := v }))
            (ReportFormat.ofName? s) },
      { long := "config", short := 'c'
        action := .value fun s =>
          putOnce (·.2.settings) (fun v r => (r.1, { r.2 with settings := v })) s },
      { long := "log-level"
        action := .value fun s =>
          putOnce (·.2.logFilter) (fun v r => (r.1, { r.2 with logFilter := v }))
            (LogFilter.ofName? s) },
      helpSwitch _ ]
  operand path := putOnce (·.1) (fun v r => (v, r.2)) path

def keysArguments : Arguments Unit where
  switches := [helpSwitch _]
  operand _ _ := none

def initArguments : Arguments (Option String) where
  switches := [helpSwitch _]
  operand path := putOnce id (fun v _ => v) path

def versionText : String := "tablestats 0.1.0\n"

namespace Request

def commands : List String := ["render", "keys", "init", "help"]

def ofCommand (command : String) (arguments : List String) : Except Stop Request :=
  match command with
  | "render" => do
    match ← renderArguments.take none arguments (none, { snapshot := "" }) with
    | (some snapshot, request) => .ok (.render { request with snapshot })
    | (none, _) => .error .usage
  | "keys" => do
    keysArguments.take none arguments ()
    .ok .keys
  | "init" => do
    let path ← initArguments.take none arguments none
    .ok (.init path)
  | "help" =>
    match arguments.dropWhile (· == "help") with
    | [] => .error .help
    | [other] => .error (if other ∈ commands then .help else .usage)
    | _ => .error .usage
  | _ => .error .usage

def ofArguments (arguments : List String) : Except Stop Request :=
  match arguments with
  | [] => .error .usage
  | first :: rest =>
    match ArgumentForm.of first with
    | .operand => ofCommand first rest
    | .long "help" none | .short ('h' :: _) => .error .help
    | .long "version" none | .short ('V' :: _) => .error .version
    | _ => .error .usage

end Request

end TableReport
