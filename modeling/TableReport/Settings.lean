import TableReport.Report.Basic
import TableReport.Settings.Statement
import TableReport.Text.Lines

/-!
Settings: how reports are made unless the command line says otherwise. A
settings file assigns some of five keys, each at most once.
-/

namespace TableReport

/-- What a settings file can say of reports. -/
structure Settings where
  /-- What tables are sorted by; nothing or an empty name for no sorting. -/
  sortKey : Option String := none
  ascending : Bool := false
  /-- How many tables a sorted list keeps; zero keeps all. -/
  top : Nat := 0
  humanReadable : Bool := false
  format : ReportFormat := .text
deriving DecidableEq, Repr

/-- Why a text is not a settings file. -/
inductive SettingsFault where
  /-- Some line is neither an assignment nor the opening of a section. -/
  | notAStatement
  | unknownKey (name : String)
  | repeatedKey (name : String)
  | wrongValue (name : String)
deriving DecidableEq, Repr

def SettingsFault.message : SettingsFault → String
  | .notAStatement => "expected a line that assigns a value to a key"
  | .unknownKey name => "unknown key '" ++ name ++ "'"
  | .repeatedKey name => "duplicate key '" ++ name ++ "'"
  | .wrongValue name => "invalid value for key '" ++ name ++ "'"

def ReportFormat.ofName? (name : String) : Option ReportFormat :=
  [ReportFormat.text, .json].find? (·.name == name)

namespace Settings

/-- An assignment of a settings file, with the key written out in full. -/
abbrev Assignment := Key × Value

/-- The keys that can be assigned. -/
def keys : List String := ["sort_key", "ascending", "top", "human_readable", "format"]

def withFormat (settings : Settings) (name : String) : Except SettingsFault Settings :=
  match ReportFormat.ofName? name with
  | some format => .ok { settings with format }
  | none => .error (.wrongValue "format")

/-- Puts one assignment into effect. A format is given by its name, or by a
table whose only member has that name and is empty. -/
def assign (settings : Settings) : Assignment → Except SettingsFault Settings
  | (["sort_key"], .text s) => .ok { settings with sortKey := some s }
  | (["ascending"], .flag b) => .ok { settings with ascending := b }
  | (["top"], .integer n) =>
    if 0 ≤ n ∧ n < 2 ^ 64 then .ok { settings with top := n.toNat }
    else .error (.wrongValue "top")
  | (["human_readable"], .flag b) => .ok { settings with humanReadable := b }
  | (["format"], .text s) => settings.withFormat s
  | (["format"], .choice s) => settings.withFormat s
  | (["format", s], .empty) => settings.withFormat s
  | (name :: _, _) => .error (if name ∈ keys then .wrongValue name else .unknownKey name)
  | ([], _) => .ok settings

/-- Puts assignments into effect; `assigned` keys may not be assigned again. -/
def assignAll (settings : Settings) (assigned : List String) :
    List Assignment → Except SettingsFault Settings
  | [] => .ok settings
  | (key, value) :: rest => do
    let name := key.headD ""
    if name ∈ assigned then .error (.repeatedKey name)
    else do
      let settings ← settings.assign (key, value)
      settings.assignAll (name :: assigned) rest

/-- A section of a settings file. The lines in front of the first section make
up one with an empty key. -/
structure Section where
  key : Key
  body : List Assignment

/-- The sections of a file; `current` is the one that the first line belongs to. -/
def sections (current : Section) : List Statement → List Section
  | [] => [current]
  | .assign key value :: rest =>
    sections { current with body := current.body ++ [(key, value)] } rest
  | .openSection key :: rest => current :: sections { key, body := [] } rest

/-- The assignments of a section, with the keys written out in full. An empty
section is an empty table, unless another section adds to it. -/
def Section.assignments (all : List Section) (sect : Section) : List Assignment :=
  if sect.body.isEmpty && !all.any (fun other =>
      sect.key.isPrefixOf other.key && sect.key != other.key) && sect.key ≠ [] then
    [(sect.key, .empty)]
  else
    sect.body.map fun (key, value) => (sect.key ++ key, value)

def ofStatements (statements : List Statement) : Except SettingsFault Settings :=
  let all := sections { key := [], body := [] } statements
  let keys := (all.map (·.key)).drop 1
  match keys.find? (fun key => 1 < keys.count key) with
  | some key => .error (.repeatedKey (".".intercalate key))
  | none => assignAll {} [] (all.flatMap (·.assignments all))

def ofText (text : String) : Except SettingsFault Settings :=
  match Statement.ofText? text with
  | some statements => ofStatements statements
  | none => .error .notAStatement

/-- The name of the settings file that is looked for. -/
def fileName : String := "tablestats.toml"

/-- A settings file that explains the keys and changes nothing. -/
def defaultText : String :=
  unlines
    [ "# tablestats configuration",
      "#",
      "# Every setting can be overridden on the command line.",
      "",
      "# Metric to sort tables by. When unset, tables are listed grouped by keyspace",
      "# in snapshot order. Run `tablestats keys` to see every supported key.",
      "# sort_key = \"reads\"",
      "",
      "# Sort smallest first instead of largest first.",
      "ascending = false",
      "",
      "# Show only the first N tables of a sorted listing. 0 shows every table.",
      "top = 0",
      "",
      "# Size fields in snapshots use human-readable units such as \"5 KiB\" or",
      "# \"1.21 TiB\" rather than plain byte counts.",
      "human_readable = false",
      "",
      "# Report format: \"text\" or \"json\".",
      "format = \"text\"" ]

end Settings

end TableReport
