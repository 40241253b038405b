/-!
Arguments of a command: switches, which begin with a dash, and operands. They
are taken one by one and put into a record of type `ρ`; a record refuses what it
cannot take, such as a switch that was given before.

A long name stands behind two dashes, with its value behind an equals sign or in
the next argument. One-letter names stand together behind one dash, and the
first one that takes a value takes the rest of the argument, or the next one.
After `--` there are only operands.
-/

namespace TableReport

/-- Why there is no request to run. -/
inductive Stop where
  | usage
  | help
  | version
deriving DecidableEq, Repr

inductive Action (ρ : Type) where
  | flag (put : ρ → Option ρ)
  | value (put : String → ρ → Option ρ)
  | stop (reason : Stop)

structure Switch (ρ : Type) where
  long : String
  short : Option Char := none
  action : Action ρ

structure Arguments (ρ : Type) where
  switches : List (Switch ρ)
  /-- Takes an operand. -/
  operand : String → ρ → Option ρ

/-- How an argument is looked at. -/
inductive ArgumentForm where
  | operand
  /-- Two dashes alone. -/
  | separator
  | long (name : String) (attached : Option String)
  | short (letters : List Char)
deriving DecidableEq, Repr

/-- The form of an argument. A dash alone is an operand. -/
def ArgumentForm.of (argument : String) : ArgumentForm :=
  match argument.toList with
  | ['-', '-'] => .separator
  | '-' :: '-' :: rest =>
    let name := String.ofList (rest.takeWhile (· != '='))
    match rest.dropWhile (· != '=') with
    | [] => .long name none
    | _ :: attached => .long name (some (String.ofList attached))
  | '-' :: letter :: letters => .short (letter :: letters)
  | _ => .operand

namespace Arguments

variable {ρ : Type}

/-- What a record made of an argument, which is not understood if it was refused. -/
def taken (record : Option ρ) : Except Stop ρ :=
  match record with
  | some record => .ok record
  | none => .error .usage

/-- Takes switches that stand together. If the last one waits for a value, the
way to put it comes with the record. -/
def takeLetters (arguments : Arguments ρ) :
    List Char → ρ → Except Stop (ρ × Option (String → ρ → Option ρ))
  | [], record => .ok (record, none)
  | letter :: rest, record =>
    match arguments.switches.find? (·.short == some letter) with
    | none => .error .usage
    | some switch =>
      match switch.action with
      | .stop reason => .error reason
      | .flag put => do
        let record ← taken (put record)
        arguments.takeLetters rest record
      | .value put =>
        match rest with
        | [] => .ok (record, some put)
        | '=' :: value => do
          let record ← taken (put (String.ofList value) record)
          .ok (record, none)
        | value => do
          let record ← taken (put (String.ofList value) record)
          .ok (record, none)

/-- Takes a switch by its long name. If it waits for a value, the way to put it
comes with the record. -/
def takeLong (arguments : Arguments ρ) (name : String) (attached : Option String) (record : ρ) :
    Except Stop (ρ × Option (String → ρ → Option ρ)) :=
  match arguments.switches.find? (·.long == name), attached with
  | none, _ => .error .usage
  | some switch, attached =>
    match switch.action, attached with
    | .value put, none => .ok (record, some put)
    | .value put, some value => do
      let record ← taken (put value record)
      .ok (record, none)
    | _, some _ => .error .usage
    | .stop reason, none => .error reason
    | .flag put, none => do
      let record ← taken (put record)
      .ok (record, none)

/-- Takes arguments of which all are operands. -/
def takeOperands (arguments : Arguments ρ) (operands : List String) (record : ρ) :
    Except Stop ρ :=
  operands.foldlM (fun record operand => taken (arguments.operand operand record)) record

/-- Takes arguments in order. While `waiting` is set, the next one has to be the
value of the switch in front of it, and may not begin with a dash unless it is
the dash alone. -/
def take (arguments : Arguments ρ) (waiting : Option (String → ρ → Option ρ)) :
    List String → ρ → Except Stop ρ
  | [], record => if waiting.isNone then .ok record else .error .usage
  | argument :: rest, record =>
    match waiting, ArgumentForm.of argument with
    | some put, .operand => do
      let record ← taken (put argument record)
      arguments.take none rest record
    | some _, _ => .error .usage
    | none, .operand => do
      let record ← taken (arguments.operand argument record)
      arguments.take none rest record
    | none, .separator => arguments.takeOperands rest record
    | none, .long name attached => do
      let (record, waiting) ← arguments.takeLong name attached record
      arguments.take waiting rest record
    | none, .short letters => do
      let (record, waiting) ← arguments.takeLetters letters record
      arguments.take waiting rest record

end Arguments

end TableReport
