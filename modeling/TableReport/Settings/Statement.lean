import TableReport.Settings.Token

/-!
The statements of settings files. A statement is a line that assigns a value to
a key, or a line that opens a section for the assignments below it; it goes on
over line breaks within brackets.

Only values that some setting can take are read: texts, truth values, integers,
containers that are empty, and tables of one member whose value is empty.
-/

namespace TableReport.Settings

inductive Value where
  | text (s : String)
  | flag (b : Bool)
  | integer (n : Int)
  /-- An array or a table with nothing in it. -/
  | empty
  /-- A table of one member, of the given name, with an empty value. -/
  | choice (name : String)
deriving DecidableEq

/-- The names of a key, from the outermost to the innermost. -/
abbrev Key := List String

inductive Statement where
  | assign (key : Key) (value : Value)
  /-- What follows belongs to the table of the given key. -/
  | openSection (key : Key)
deriving DecidableEq

/-- Takes out the underscores between digits; elsewhere there may be none. The
character in front is a digit if `afterDigit` is set. -/
def ungroup? (afterDigit : Bool) : List Char → Option (List Char)
  | [] => if afterDigit then some [] else none
  | c :: rest =>
    if c = '_' then
      if afterDigit then ungroup? false rest else none
    else
      (ungroup? true rest).map (c :: ·)

/-- The number that grouped digits stand for in a base. -/
def groupedIn? (base : Nat) (digits : List Char) : Option Nat :=
  (ungroup? false digits).bind (valueIn? base)

/-- The number that decimal digits stand for; a zero in front stands alone. -/
def decimal? : List Char → Option Nat
  | '0' :: _ :: _ => none
  | digits => groupedIn? 10 digits

def integer? : List Char → Option Int
  | '0' :: 'x' :: digits => (groupedIn? 16 digits).map Int.ofNat
  | '0' :: 'o' :: digits => (groupedIn? 8 digits).map Int.ofNat
  | '0' :: 'b' :: digits => (groupedIn? 2 digits).map Int.ofNat
  | '+' :: digits => (decimal? digits).map Int.ofNat
  | '-' :: digits => (decimal? digits).map fun n => -Int.ofNat n
  | digits => (decimal? digits).map Int.ofNat

def wordValue? (word : List Char) : Option Value :=
  if word = ['t', 'r', 'u', 'e'] then some (.flag true)
  else if word = ['f', 'a', 'l', 's', 'e'] then some (.flag false)
  else (integer? word).map .integer

def name? : Token → Option String
  | .word chars => if '+' ∈ chars then none else some (String.ofList chars)
  | .literal l => if l.isBlock then none else some l.text
  | _ => none

/-- Splits tokens into a key and what follows it. -/
def key? : List Token → Option (Key × List Token)
  | first :: .dot :: rest => do
    let name ← name? first
    let (key, rest) ← key? rest
    some (name :: key, rest)
  | first :: rest => do
    let name ← name? first
    some ([name], rest)
  | [] => none

/-- What follows the line breaks at the front of tokens. -/
def skipLineBreaks (tokens : List Token) : List Token := tokens.dropWhile (· == .lineBreak)

/-- What follows an empty container at the front of tokens. -/
def afterEmpty? : List Token → Option (List Token)
  | .openBracket :: rest =>
    match skipLineBreaks rest with
    | .closeBracket :: rest => some rest
    | _ => none
  | .openBrace :: rest =>
    match skipLineBreaks rest with
    | .closeBrace :: rest => some rest
    | _ => none
  | _ => none

/-- The name of the only member of a table, if its value is empty. A comma may
follow the member. -/
def choice? : List Token → Option String
  | .openBrace :: rest => do
    let ([name], rest) ← key? (skipLineBreaks rest) | none
    let .equals :: rest := skipLineBreaks rest | none
    let rest := skipLineBreaks (← afterEmpty? (skipLineBreaks rest))
    let rest :=
      match rest with
      | .comma :: rest => skipLineBreaks rest
      | rest => rest
    if rest = [.closeBrace] then some name else none
  | _ => none

def value? : List Token → Option Value
  | [.literal l] => some (.text l.text)
  | [.word chars] => wordValue? chars
  | tokens =>
    if afterEmpty? tokens = some [] then some .empty else (choice? tokens).map .choice

namespace Statement

def ofTokens? : List Token → Option Statement
  | .openBracket :: rest => do
    let (key, [.closeBracket]) ← key? rest | none
    some (.openSection key)
  | tokens => do
    let (key, .equals :: rest) ← key? tokens | none
    let value ← value? rest
    some (.assign key value)

/-- Splits tokens at the line breaks outside of brackets; `depth` brackets are
open in front of them. -/
def splitLines (depth : Nat) : List Token → List (List Token)
  | [] => [[]]
  | token :: rest =>
    if token = .lineBreak ∧ depth = 0 then [] :: splitLines 0 rest
    else
      let depth :=
        match token with
        | .openBracket | .openBrace => depth + 1
        | .closeBracket | .closeBrace => depth - 1
        | _ => depth
      match splitLines depth rest with
      | [] => [[token]]
      | line :: lines => (token :: line) :: lines

/-- The statements of a text, unless some line is none. A byte order mark may
stand in front. -/
def ofText? (text : String) : Option (List Statement) := do
  let chars :=
    match text.toList with
    | '\uFEFF' :: rest => rest
    | chars => chars
  let tokens ← Token.scan? chars
  ((splitLines 0 tokens).filter (· ≠ [])).mapM ofTokens?

end Statement

end TableReport.Settings
