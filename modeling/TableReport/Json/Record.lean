import TableReport.Json.Codec

/-!
Records: values made of named members.

An object is read in two passes. The first goes through the text and reads each
known member once; it meets the first problem in reading order. The second goes
through the record's own list of members and puts what was read into a blank
record, so the order of the text has no say in the result. A record may also be
an array of its members in order.
-/

namespace TableReport.Json

/-- What it means that a member is not in the text. -/
inductive Presence where
  /-- A fault. -/
  | required
  /-- The blank record's value, in an object; a fault in an array. -/
  | optional
  /-- The blank record's value, also for the last members of an array. -/
  | trailing
deriving DecidableEq

/-- One member of a record of type `ρ`. -/
structure Member (ρ : Type) where
  name : String
  presence : Presence
  /-- Reads the member's value and returns how it is put into a record. -/
  read : Nat → Draft → Except Fault (ρ → ρ)
  /-- The member as it is written, or nothing if it is left out. -/
  write : ρ → Option Value

/-- A member with a codec for its value and with access to it. -/
def Member.of {ρ α : Type} (name : String) (codec : Codec α) (get : ρ → α) (set : α → ρ → ρ)
    (presence : Presence := .required) : Member ρ where
  name
  presence
  read limit draft := (codec.read limit draft).map set
  write record := codec.write (get record)

/-- The JSON form of records of type `ρ`. -/
structure Record (ρ : Type) where
  name : String
  members : List (Member ρ)
  /-- Holds the values of members that are not in a text. -/
  blank : ρ

namespace Record

variable {ρ : Type}

/-- How a member found in a text is put into a record. -/
abbrev Found (ρ : Type) := List (String × (ρ → ρ))

/-- Reads the members of an object in order. Members of unknown name are passed
over if their values are well formed. -/
def readMembers (record : Record ρ) (limit : Nat) :
    List (Option String × Draft) → Found ρ → Except Fault (Found ρ)
  | [], found => .ok found
  | (none, _) :: _, _ => .error .malformed
  | (some name, draft) :: rest, found =>
    match record.members.find? (·.name == name) with
    | none =>
      if draft.wellFormed then record.readMembers limit rest found else .error .malformed
    | some member =>
      if (found.lookup name).isSome then .error (.duplicateField name)
      else do
        let put ← member.read limit draft
        record.readMembers limit rest ((name, put) :: found)

/-- Puts what was found into a record, member by member. -/
def assemble (found : Found ρ) : List (Member ρ) → ρ → Except Fault ρ
  | [], value => .ok value
  | member :: rest, value =>
    match found.lookup member.name with
    | some put => assemble found rest (put value)
    | none =>
      if member.presence = .required then .error (.missingField member.name)
      else assemble found rest value

/-- Reads the items of an array as the members of a record, `index` of them
having been read already. -/
def readItems (record : Record ρ) (limit : Nat) (closed : Bool) (index : Nat) :
    List (Member ρ) → List Draft → ρ → Except Fault ρ
  | member :: rest, draft :: drafts, value => do
    let put ← member.read limit draft
    record.readItems limit closed (index + 1) rest drafts (put value)
  | [], _ :: _, _ => .error .malformed
  | members, [], value =>
    if closed then
      match members.findIdx? (·.presence ≠ .trailing) with
      | some more => .error (.tooShort (index + more) record.name record.members.length)
      | none => .ok value
    else
      .error .malformed

def read (record : Record ρ) (limit : Nat) : Draft → Except Fault ρ
  | .object members closed => do
    let found ← record.readMembers (limit - 1) members []
    if closed then assemble found record.members record.blank else .error .malformed
  | .array items closed =>
    record.readItems (limit - 1) closed 0 record.members items record.blank
  | draft => draft.refuse (.record record.name)

/-- The members of a record as they are written, in order. -/
def writtenMembers (record : Record ρ) (value : ρ) : List (String × Value) :=
  record.members.filterMap fun member => (member.write value).map (member.name, ·)

def codec (record : Record ρ) : Codec ρ where
  read := record.read
  write value := some (.object (record.writtenMembers value))

end Record

end TableReport.Json
