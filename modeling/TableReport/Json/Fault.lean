import TableReport.Json.Draft
import TableReport.Text.Quoted

/-!
Why a JSON text does not hold the value that is wanted, and the words for it.
-/

namespace TableReport.Json

/-- What a reader wants to find at a place of a text. -/
inductive Wanted where
  | text
  | flag
  | list
  | signed
  | unsigned
  | float
  /-- An object or array that holds the record of the given name. -/
  | record (name : String)
deriving DecidableEq, Repr

def Wanted.words : Wanted → String
  | .text => "a string"
  | .flag => "a boolean"
  | .list => "a sequence"
  | .signed => "i64"
  | .unsigned => "usize"
  | .float => "f64"
  | .record name => "struct " ++ name

/-- Why a text does not hold the value that is wanted. -/
inductive Fault where
  /-- The text is not JSON, or holds a number or literal that stands for nothing. -/
  | malformed
  | missingField (name : String)
  | duplicateField (name : String)
  /-- A value of another kind, described by `found`. -/
  | wrongKind (found : String) (wanted : Wanted)
  | outOfRange (n : Int) (wanted : Wanted)
  /-- An array of `length` items is too short for a record. -/
  | tooShort (length : Nat) (record : String) (fields : Nat)
  /-- A number is wanted whose kind is free, and something else is there. -/
  | notANumber
deriving DecidableEq, Repr

def Fault.message : Fault → String
  | .malformed => "the text is not JSON"
  | .missingField name => "missing field `" ++ name ++ "`"
  | .duplicateField name => "duplicate field `" ++ name ++ "`"
  | .wrongKind found wanted => "invalid type: " ++ found ++ ", expected " ++ wanted.words
  | .outOfRange n wanted =>
    "invalid value: integer `" ++ integerText n ++ "`, expected " ++ wanted.words
  | .tooShort length record fields =>
    "invalid length " ++ integerText length ++ ", expected struct " ++ record ++ " with " ++
      integerText fields ++ " elements"
  | .notANumber => "data did not match any variant of untagged enum OpaqueNumber"

namespace Draft

/-- The words for what stands at a place, unless it stands for no value. -/
def words? : Draft → Option String
  | .null => some "null"
  | .boolean true => some "boolean `true`"
  | .boolean false => some "boolean `false`"
  | .number (.integer n) => some ("integer `" ++ integerText n ++ "`")
  | .number (.real x) =>
    if x.isFinite then some ("floating point `" ++ floatStyle.text x ++ "`") else none
  | .string (some text) => some ("string " ++ quoted text)
  | .string none => none
  | .array _ _ => some "sequence"
  | .object _ _ => some "map"
  | .broken => none

/-- The fault of finding this draft where something else is wanted. -/
def refuse {α : Type} (draft : Draft) (wanted : Wanted) : Except Fault α :=
  match draft.words? with
  | some found => .error (.wrongKind found wanted)
  | none => .error .malformed

end Draft

end TableReport.Json
