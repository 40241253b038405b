import TableReport.Json.Fault
import TableReport.Json.Value

/-!
Codecs: how values of one type are read from a draft and written to JSON.

A reader is told how deep it may still nest, since a place where a value of any
kind is read may hold containers within containers.
-/

namespace TableReport.Json

/-- How values of a type are read and written. -/
structure Codec (α : Type) where
  /-- Reads a value at a place that may nest less deep than the given limit. -/
  read : Nat → Draft → Except Fault α
  /-- Writes a value, or nothing if its member is left out. -/
  write : α → Option Value

namespace Codec

def text : Codec String where
  read _ draft :=
    match draft with
    | .string (some text) => .ok text
    | _ => draft.refuse .text
  write text := some (.string text)

def flag : Codec Bool where
  read _ draft :=
    match draft with
    | .boolean b => .ok b
    | _ => draft.refuse .flag
  write b := some (.boolean b)

def signed : Codec Int64 where
  read _ draft :=
    match draft with
    | .number (.integer n) =>
      if -2 ^ 63 ≤ n ∧ n < 2 ^ 63 then .ok (.ofInt n) else .error (.outOfRange n .signed)
    | _ => draft.refuse .signed
  write n := some (.integer n.toInt)

def unsigned : Codec UInt64 where
  read _ draft :=
    match draft with
    | .number (.integer n) =>
      if 0 ≤ n ∧ n < 2 ^ 64 then .ok (.ofNat n.toNat) else .error (.outOfRange n .unsigned)
    | _ => draft.refuse .unsigned
  write n := some (.integer n.toNat)

/-- A double. Infinities and NaNs are written as `null`, which is not read back. -/
def float : Codec Binary64 where
  read _ draft :=
    match draft with
    | .number n => if n.isFinite then .ok n.toBinary64 else .error .malformed
    | _ => draft.refuse .float
  write x := some (.real x)

/-- A double, with `null` for NaN. -/
def floatOrNaN : Codec Binary64 where
  read limit draft :=
    match draft with
    | .null => .ok .nan
    | _ => float.read limit draft
  write x := some (.real x)

/-- A value that may be absent, with `null` for its absence. -/
def optional {α : Type} (codec : Codec α) : Codec (Option α) where
  read limit draft :=
    match draft with
    | .null => .ok none
    | _ => (codec.read limit draft).map some
  write
    | some value => codec.write value
    | none => some .null

/-- A value that may be absent; its member is then left out. -/
def omittable {α : Type} (codec : Codec α) : Codec (Option α) where
  read := codec.optional.read
  write
    | some value => codec.write value
    | none => none

def readItems {α : Type} (codec : Codec α) (limit : Nat) : List Draft → Except Fault (List α)
  | [] => .ok []
  | item :: rest => do
    let first ← codec.read limit item
    let rest ← readItems codec limit rest
    .ok (first :: rest)

def list {α : Type} (codec : Codec α) : Codec (List α) where
  read limit draft :=
    match draft with
    | .array items closed => do
      let values ← readItems codec (limit - 1) items
      if closed then .ok values else .error .malformed
    | _ => draft.refuse .list
  write values := some (.array (values.filterMap codec.write))

/-- How deep the containers of a text may nest. -/
def depthLimit : Nat := 128

/-- The value of a text under a reading of decimals. -/
def decodeUnder {α : Type} (codec : Codec α) (reading : FloatReading) (text : String) :
    Except Fault α := do
  let document := Document.ofTextUnder reading text
  let value ← codec.read depthLimit document.root
  if document.ends then .ok value else .error .malformed

/-- The value of a text, its decimals read as well as is quickly done. -/
def decode {α : Type} (codec : Codec α) (text : String) : Except Fault α :=
  codec.decodeUnder .bestEffort text

/-- The text of a value, without blanks. -/
def encode {α : Type} (codec : Codec α) (value : α) : String :=
  (Value.orNull (codec.write value)).compact

end Codec

end TableReport.Json
