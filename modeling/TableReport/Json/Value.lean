import TableReport.Json.Token

/-!
JSON values and how they are written: compactly, or with one member or item a
line and two blanks for each level. Members keep the order they are given in.
-/

namespace TableReport.Json

inductive Value where
  | null
  | boolean (b : Bool)
  | number (n : Number)
  | string (text : String)
  | array (items : List Value)
  | object (members : List (String × Value))

namespace Value

def integer (n : Int) : Value := .number (.integer n)

/-- A double, or `null` in place of an infinity or NaN. -/
def real (x : Binary64) : Value := if x.isFinite then .number (.real x) else .null

/-- The text of a value or of what stands in its place, if there is one. -/
def orNull : Option Value → Value
  | some value => value
  | none => .null

/-- The members of an object, sorted by their names. -/
def sortedObject (members : List (String × Value)) : Value :=
  .object (members.mergeSort fun a b => decide (a.1 ≤ b.1))

mutual

/-- The text of a value without any blanks. -/
def compactChars : Value → List Char
  | .null => ['n', 'u', 'l', 'l']
  | .boolean true => ['t', 'r', 'u', 'e']
  | .boolean false => ['f', 'a', 'l', 's', 'e']
  | .number n => n.chars
  | .string text => literalChars text
  | .array [] => ['[', ']']
  | .array (first :: rest) => '[' :: (first.compactChars ++ compactItems rest)
  | .object [] => ['\x7b', '\x7d']
  | .object ((name, value) :: rest) =>
    '\x7b' :: (literalChars name ++ ':' :: (value.compactChars ++ compactMembers rest))

def compactItems : List Value → List Char
  | [] => [']']
  | item :: rest => ',' :: (item.compactChars ++ compactItems rest)

def compactMembers : List (String × Value) → List Char
  | [] => ['\x7d']
  | (name, value) :: rest =>
    ',' :: (literalChars name ++ ':' :: (value.compactChars ++ compactMembers rest))

end

/-- A line break with the blanks of a level. -/
def lineBreak (level : Nat) : List Char := '\n' :: List.replicate (2 * level) ' '

mutual

/-- The text of a value at a level of nesting, spread over lines. -/
def prettyChars (level : Nat) : Value → List Char
  | .null => ['n', 'u', 'l', 'l']
  | .boolean true => ['t', 'r', 'u', 'e']
  | .boolean false => ['f', 'a', 'l', 's', 'e']
  | .number n => n.chars
  | .string text => literalChars text
  | .array [] => ['[', ']']
  | .array (first :: rest) =>
    '[' :: (lineBreak (level + 1) ++ first.prettyChars (level + 1) ++ prettyItems level rest)
  | .object [] => ['\x7b', '\x7d']
  | .object ((name, value) :: rest) =>
    '\x7b' :: (lineBreak (level + 1) ++ literalChars name ++
      ':' :: ' ' :: (value.prettyChars (level + 1) ++ prettyMembers level rest))

def prettyItems (level : Nat) : List Value → List Char
  | [] => lineBreak level ++ [']']
  | item :: rest =>
    ',' :: (lineBreak (level + 1) ++ item.prettyChars (level + 1) ++ prettyItems level rest)

def prettyMembers (level : Nat) : List (String × Value) → List Char
  | [] => lineBreak level ++ ['\x7d']
  | (name, value) :: rest =>
    ',' :: (lineBreak (level + 1) ++ literalChars name ++
      ':' :: ' ' :: (value.prettyChars (level + 1) ++ prettyMembers level rest))

end

/-- The text of a value without any blanks. -/
def compact (value : Value) : String := String.ofList value.compactChars

def pretty (value : Value) : String := String.ofList (value.prettyChars 0)

end Value

end TableReport.Json
