import TableReport.Json.Token

/-!
A draft is what a reader has of a JSON text: the tree of its values as far as
the text could be read. Where the text stops being JSON, the containers that are
still open stay unclosed and nothing follows, so that a reader who walks the
draft in order meets the first problem of the text at the place where it lies.

Tokens are taken one by one by `Assembly.step`, which keeps the open containers
on a stack; a deep text needs a long stack and no deep recursion.
-/

namespace TableReport.Json

/-- A value of a text, as far as it could be read. -/
inductive Draft where
  | null
  | boolean (b : Bool)
  /-- A number, infinite if it is out of range. -/
  | number (n : Number)
  /-- A string, without a text if its literal names none. -/
  | string (text : Option String)
  /-- The items of an array, all of them if it is closed. -/
  | array (items : List Draft) (closed : Bool)
  /-- The members of an object, all of them if it is closed. -/
  | object (members : List (Option String × Draft)) (closed : Bool)
  /-- A value is due here and could not be read. -/
  | broken

namespace Draft

mutual

/-- The text of the draft is JSON. Numbers may be out of range and literals
may name no text. -/
def wellFormed : Draft → Bool
  | .array items closed => closed && allWellFormed items
  | .object members closed => closed && membersWellFormed members
  | .broken => false
  | _ => true

def allWellFormed : List Draft → Bool
  | [] => true
  | item :: rest => item.wellFormed && allWellFormed rest

def membersWellFormed : List (Option String × Draft) → Bool
  | [] => true
  | (_, value) :: rest => value.wellFormed && membersWellFormed rest

end

mutual

/-- The draft is well formed, stands for a value at every place, and nests its
containers less deep than `limit`. -/
def soundBelow (limit : Nat) : Draft → Bool
  | .null => true
  | .boolean _ => true
  | .number n => n.isFinite
  | .string text => text.isSome
  | .array items closed =>
    match limit with
    | limit + 2 => closed && allSoundBelow (limit + 1) items
    | _ => false
  | .object members closed =>
    match limit with
    | limit + 2 => closed && membersSoundBelow (limit + 1) members
    | _ => false
  | .broken => false

def allSoundBelow (limit : Nat) : List Draft → Bool
  | [] => true
  | item :: rest => item.soundBelow limit && allSoundBelow limit rest

/-- Every member has a name and a value that is sound below a limit. -/
def membersSoundBelow (limit : Nat) : List (Option String × Draft) → Bool
  | [] => true
  | (name, value) :: rest =>
    name.isSome && value.soundBelow limit && membersSoundBelow limit rest

end

end Draft

/-- A container that is still open, with what it holds so far, last first. -/
inductive Frame where
  | array (items : List Draft)
  | object (members : List (Option String × Draft))
  /-- An object whose member of the given name waits for its value. -/
  | member (name : Option String) (members : List (Option String × Draft))

/-- What has to come next in a text. -/
inductive Due where
  | value
  | valueOrEnd
  | name
  | nameOrEnd
  | colon
  /-- A comma, or the end of the innermost container. -/
  | more

/-- The state of reading: the open containers and what is due in the innermost
one, or the finished value. -/
inductive Assembly where
  | inside (frames : List Frame) (due : Due)
  | finished (root : Draft)

namespace Assembly

def start : Assembly := .inside [] .value

/-- Puts a finished value into the innermost container. -/
def put (value : Draft) : List Frame → Assembly
  | [] => .finished value
  | .array items :: outer => .inside (.array (value :: items) :: outer) .more
  | .member name members :: outer =>
    .inside (.object ((name, value) :: members) :: outer) .more
  | .object members :: outer => .inside (.object members :: outer) .more

/-- Takes a token, unless it is not one that may come next. -/
def step : Assembly → Token → Option Assembly
  | .inside frames due, .null =>
    match due with
    | .value | .valueOrEnd => some (put .null frames)
    | _ => none
  | .inside frames due, .boolean b =>
    match due with
    | .value | .valueOrEnd => some (put (.boolean b) frames)
    | _ => none
  | .inside frames due, .number n =>
    match due with
    | .value | .valueOrEnd => some (put (.number n) frames)
    | _ => none
  | .inside frames due, .string text =>
    match due, frames with
    | .value, _ | .valueOrEnd, _ => some (put (.string text) frames)
    | .name, .object members :: outer | .nameOrEnd, .object members :: outer =>
      some (.inside (.member text members :: outer) .colon)
    | _, _ => none
  | .inside frames due, .openArray =>
    match due with
    | .value | .valueOrEnd => some (.inside (.array [] :: frames) .valueOrEnd)
    | _ => none
  | .inside frames due, .openObject =>
    match due with
    | .value | .valueOrEnd => some (.inside (.object [] :: frames) .nameOrEnd)
    | _ => none
  | .inside (.array items :: outer) due, .closeArray =>
    match due with
    | .valueOrEnd | .more => some (put (.array items.reverse true) outer)
    | _ => none
  | .inside (.object members :: outer) due, .closeObject =>
    match due with
    | .nameOrEnd | .more => some (put (.object members.reverse true) outer)
    | _ => none
  | .inside (.array items :: outer) .more, .comma =>
    some (.inside (.array items :: outer) .value)
  | .inside (.object members :: outer) .more, .comma =>
    some (.inside (.object members :: outer) .name)
  | .inside frames .colon, .colon => some (.inside frames .value)
  | _, _ => none

/-- Takes tokens as long as they may come next. -/
def run : Assembly → List Token → Assembly × List Token
  | state, [] => (state, [])
  | state, token :: rest =>
    match state.step token with
    | some state => run state rest
    | none => (state, token :: rest)

/-- Closes a row of open containers around an inner value that ended early. -/
def abandonOuter (inner : Draft) : List Frame → Draft
  | [] => inner
  | .array items :: outer => abandonOuter (.array (inner :: items).reverse false) outer
  | .member name members :: outer =>
    abandonOuter (.object ((name, inner) :: members).reverse false) outer
  | .object members :: outer => abandonOuter (.object members.reverse false) outer

/-- The draft of a text that ends early or cannot be read on. -/
def abandon : List Frame → Draft
  | [] => .broken
  | .array items :: outer => abandonOuter (.array items.reverse false) outer
  | .member name members :: outer =>
    abandonOuter (.object ((name, .broken) :: members).reverse false) outer
  | .object members :: outer => abandonOuter (.object members.reverse false) outer

end Assembly

/-- A whole text: the draft of its value, and whether anything follows it. -/
structure Document where
  root : Draft
  /-- Nothing but blanks follows the value. -/
  ends : Bool

namespace Document

def ofTokens (tokens : List Token) : Document :=
  match Assembly.start.run tokens with
  | (.finished root, rest) => { root, ends := rest.isEmpty }
  | (.inside frames _, _) => { root := Assembly.abandon frames, ends := false }

/-- The document of a text under a reading of decimals. -/
def ofTextUnder (reading : FloatReading) (text : String) : Document :=
  ofTokens (Token.scan reading text.toList)

/-- The document of a text, its decimals read as well as is quickly done. -/
def ofText (text : String) : Document := ofTextUnder .bestEffort text

end Document

end TableReport.Json
