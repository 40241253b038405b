import TableReport.Settings.Literal

/-!
The tokens of settings files. Blanks and comments stand between tokens and are
passed over; line breaks are tokens.
-/

namespace TableReport.Settings

inductive Token where
  /-- A bare key, a number or a truth value. -/
  | word (chars : List Char)
  | literal (l : Literal)
  | dot
  | equals
  | comma
  | openBracket
  | closeBracket
  | openBrace
  | closeBrace
  | lineBreak
deriving DecidableEq

namespace Token

def isBreakChar (c : Char) : Bool := c = '\n' || c = '\r'

def isWordChar (c : Char) : Bool := c.isAlphanum || c = '_' || c = '-' || c = '+'

/-- The token that begins with the character `c`, with what follows it. -/
def next? (c : Char) (rest : List Char) : Option (Token × List Char) :=
  match c with
  | '.' => some (.dot, rest)
  | '=' => some (.equals, rest)
  | ',' => some (.comma, rest)
  | '[' => some (.openBracket, rest)
  | ']' => some (.closeBracket, rest)
  | '\x7b' => some (.openBrace, rest)
  | '\x7d' => some (.closeBrace, rest)
  | '\n' | '\r' => (afterLineBreak? (c :: rest)).map (.lineBreak, ·)
  | c =>
    if c = '"' ∨ c = '\'' then
      (Literal.scan? c (c :: rest)).map fun (l, rest) => (.literal l, rest)
    else if isWordChar c then
      some (.word (c :: rest.takeWhile isWordChar), rest.dropWhile isWordChar)
    else
      none

theorem next?_length {c : Char} {text rest : List Char} {token : Token}
    (found : next? c text = some (token, rest)) : rest.length ≤ text.length := by
  unfold next? at found
  split at found
  case h_8 | h_9 =>
    simp only [Option.map_eq_some_iff, Prod.mk.injEq] at found
    obtain ⟨_, breaks, _, rfl⟩ := found
    exact Nat.le_of_lt_succ (afterLineBreak?_length breaks)
  case h_10 =>
    split at found
    · simp only [Option.map_eq_some_iff, Prod.mk.injEq] at found
      obtain ⟨_, scanned, _, rfl⟩ := found
      have := Literal.scan?_length scanned
      simp only [List.length_cons] at this
      omega
    · split at found
      · simp only [Option.some.injEq, Prod.mk.injEq] at found
        exact found.2 ▸ (List.dropWhile_sublist _).length_le
      · simp at found
  all_goals
    simp only [Option.some.injEq, Prod.mk.injEq] at found
    exact found.2 ▸ Nat.le_refl _

/-- The tokens of a text, unless some place of it cannot be read. -/
def scan? : List Char → Option (List Token)
  | [] => some []
  | c :: rest =>
    if isBlank c then scan? rest
    else if c = '#' then
      if (rest.takeWhile (!isBreakChar ·)).all isPlain then
        scan? (rest.dropWhile (!isBreakChar ·))
      else none
    else
      match _ : next? c rest with
      | some (token, rest') => (scan? rest').map (token :: ·)
      | none => none
termination_by text => text.length
decreasing_by
  · simp
  · have := (List.dropWhile_sublist (l := rest) (!isBreakChar ·)).length_le
    simp only [List.length_cons]
    omega
  · rename_i found
    have := next?_length found
    simp only [List.length_cons]
    omega

end Token

end TableReport.Settings
