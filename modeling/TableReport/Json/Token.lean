import TableReport.Json.Literal
import TableReport.Json.Number

/-!
The tokens of a JSON text under a reading of decimals. Scanning never fails: a place
where no token can be read gives the token `unreadable` and ends the row.
-/

namespace TableReport.Json

inductive Token where
  | openArray
  | closeArray
  | openObject
  | closeObject
  | comma
  | colon
  | null
  | boolean (b : Bool)
  | number (n : Number)
  /-- A string literal, without a text if it names none. -/
  | string (text : Option String)
  /-- The text cannot be read from here on. -/
  | unreadable
deriving DecidableEq

namespace Token

/-- The four characters that may stand between tokens. -/
def isBlank (c : Char) : Bool := c = ' ' || c = '\t' || c = '\n' || c = '\r'

/-- What follows a given word at the front of a text. -/
def afterWord? (word text : List Char) : Option (List Char) :=
  if word.isPrefixOf text then some (text.drop word.length) else none

/-- The token that begins with the character `c`, with what follows it. -/
def next? (reading : FloatReading) (c : Char) (rest : List Char) : Option (Token × List Char) :=
  match c with
  | '[' => some (.openArray, rest)
  | ']' => some (.closeArray, rest)
  | '\x7b' => some (.openObject, rest)
  | '\x7d' => some (.closeObject, rest)
  | ',' => some (.comma, rest)
  | ':' => some (.colon, rest)
  | 'n' => (afterWord? ['u', 'l', 'l'] rest).map (.null, ·)
  | 't' => (afterWord? ['r', 'u', 'e'] rest).map (.boolean true, ·)
  | 'f' => (afterWord? ['a', 'l', 's', 'e'] rest).map (.boolean false, ·)
  | '"' => (scanPieces? rest).map fun (pieces, rest) =>
    (.string ((textOf? pieces).map String.ofList), rest)
  | c => (Numeral.scan? (c :: rest)).map fun (numeral, rest) =>
    (.number (.ofNumeral reading numeral), rest)

theorem afterWord?_length {word text rest : List Char}
    (found : afterWord? word text = some rest) : rest.length ≤ text.length := by
  unfold afterWord? at found
  split at found
  · simp only [Option.some.injEq] at found
    rw [← found, List.length_drop]
    omega
  · simp at found

theorem next?_length {reading : FloatReading} {c : Char} {text rest : List Char} {token : Token}
    (found : next? reading c text = some (token, rest)) : rest.length ≤ text.length := by
  unfold next? at found
  split at found
  case h_7 | h_8 | h_9 =>
    simp only [Option.map_eq_some_iff, Prod.mk.injEq] at found
    obtain ⟨_, found, _, rfl⟩ := found
    exact afterWord?_length found
  case h_10 =>
    simp only [Option.map_eq_some_iff, Prod.mk.injEq] at found
    obtain ⟨_, found, _, rfl⟩ := found
    exact Nat.le_of_lt (scanPieces?_length found)
  case h_11 =>
    simp only [Option.map_eq_some_iff, Prod.mk.injEq] at found
    obtain ⟨_, found, _, rfl⟩ := found
    have := Numeral.scan?_length found
    simp only [List.length_cons] at this
    omega
  all_goals
    simp only [Option.some.injEq, Prod.mk.injEq] at found
    exact found.2 ▸ Nat.le_refl _

/-- The tokens of a text, up to the first place that cannot be read. -/
def scan (reading : FloatReading) : List Char → List Token
  | [] => []
  | c :: rest =>
    if isBlank c then scan reading rest
    else
      match _ : next? reading c rest with
      | some (token, rest') => token :: scan reading rest'
      | none => [.unreadable]
termination_by text => text.length
decreasing_by
  · simp
  · rename_i found
    have := next?_length found
    simp only [List.length_cons]
    omega

end Token

end TableReport.Json
