import TableReport.Text.Digits

/-!
String literals of settings files. A literal stands on one line between single
quotes, or on any number of lines between quotes written three times. Between
double quotes a backslash escapes what follows it; between apostrophes every
character stands for itself.

A literal is first cut out of the text, and then its escapes are resolved. A line
break may be a line feed alone or one behind a carriage return, and stays as it is
written; elsewhere there may be no carriage return.
-/

namespace TableReport.Settings

def isBlank (c : Char) : Bool := c = ' ' || c = '\t'

/-- The character may stand in a literal or a comment as it is. Line breaks are
among these; where they may not stand, they end the text that is looked at. -/
def isPlain (c : Char) : Bool :=
  c = '\t' || c = '\n' || (0x20 ≤ c.toNat && c.toNat ≠ 0x7F)

/-- Every character of the text may stand there as it is. -/
def allPlain : List Char → Bool
  | '\r' :: '\n' :: rest => allPlain rest
  | c :: rest => isPlain c && allPlain rest
  | [] => true

/-- What follows a line break at the front of a text. -/
def afterLineBreak? : List Char → Option (List Char)
  | '\n' :: rest => some rest
  | '\r' :: '\n' :: rest => some rest
  | _ => none

theorem afterLineBreak?_length {text rest : List Char}
    (breaks : afterLineBreak? text = some rest) : rest.length < text.length := by
  unfold afterLineBreak? at breaks
  split at breaks
  · simp_all
  · simp only [Option.some.injEq] at breaks
    simp only [breaks, List.length_cons]
    omega
  · simp at breaks

/-- A backslash that escapes what follows it. -/
def isEscape (quote : Char) (escaped : Bool) (c : Char) : Bool :=
  quote = '"' && c = '\\' && !escaped

/-- Cuts a literal on one line at its closing quote. The first character is
`escaped` if a backslash stands in front of it. -/
def cutLine? (quote : Char) (escaped : Bool) : List Char → Option (List Char × List Char)
  | [] => none
  | c :: rest =>
    if c = '\n' then none
    else if c = quote && !escaped then some ([], rest)
    else
      (cutLine? quote (isEscape quote escaped c) rest).map fun (raw, rest) => (c :: raw, rest)

/-- The closing quotes of a literal on many lines, if the text begins with them.
Up to two more quotes in front belong to the literal. -/
def closing? (quote : Char) (text : List Char) : Option (List Char × List Char) :=
  let quotes := (text.takeWhile (· == quote)).length
  if 3 ≤ quotes then
    let more := min (quotes - 3) 2
    some (List.replicate more quote, text.drop (3 + more))
  else
    none

/-- Cuts a literal on many lines at its closing quotes. -/
def cutBlock? (quote : Char) (escaped : Bool) : List Char → Option (List Char × List Char)
  | [] => none
  | c :: rest =>
    match if escaped then none else closing? quote (c :: rest) with
    | some cut => some cut
    | none =>
      (cutBlock? quote (isEscape quote escaped c) rest).map fun (raw, rest) => (c :: raw, rest)

theorem cutLine?_length {quote : Char} {escaped : Bool} {text raw rest : List Char}
    (cut : cutLine? quote escaped text = some (raw, rest)) : rest.length < text.length := by
  induction text generalizing escaped raw with
  | nil => simp [cutLine?] at cut
  | cons c text ih =>
    unfold cutLine? at cut
    split at cut
    · simp at cut
    · split at cut
      · simp_all
      · simp only [Option.map_eq_some_iff, Prod.mk.injEq, Prod.exists] at cut
        obtain ⟨_, _, cut, _, rfl⟩ := cut
        have := ih cut
        simp only [List.length_cons]
        omega

theorem closing?_length {quote : Char} {text raw rest : List Char}
    (cut : closing? quote text = some (raw, rest)) : rest.length < text.length := by
  have := (List.takeWhile_sublist (· == quote) (l := text)).length_le
  simp only [closing?, Option.ite_none_right_eq_some, Option.some.injEq, Prod.mk.injEq] at cut
  rw [← cut.2.2, List.length_drop]
  omega

theorem cutBlock?_length {quote : Char} {escaped : Bool} {text raw rest : List Char}
    (cut : cutBlock? quote escaped text = some (raw, rest)) : rest.length < text.length := by
  induction text generalizing escaped raw with
  | nil => simp [cutBlock?] at cut
  | cons c text ih =>
    unfold cutBlock? at cut
    split at cut
    · next closes =>
      split at closes
      · simp at closes
      · simp only [Option.some.injEq] at cut
        exact closing?_length (cut ▸ closes)
    · simp only [Option.map_eq_some_iff, Prod.mk.injEq, Prod.exists] at cut
      obtain ⟨_, _, cut, _, rfl⟩ := cut
      have := ih cut
      simp only [List.length_cons]
      omega

/-- The character of the given number, if there is one. -/
def character? (code : Nat) : Option Char :=
  if code.isValidChar then some (Char.ofNat code) else none

/-- The character that hexadecimal digits name. -/
def named? (digits : List Char) : Option Char := (valueIn? 16 digits).bind character?

/-- The character that a letter behind a backslash stands for. -/
def unescaped? : Char → Option Char
  | '"' => some '"'
  | '\\' => some '\\'
  | 'b' => some '\x08'
  | 'e' => some '\x1b'
  | 'f' => some '\x0c'
  | 'n' => some '\n'
  | 'r' => some '\r'
  | 't' => some '\t'
  | _ => none

/-- Only blanks are left on the line. -/
def endsLine (text : List Char) : Bool := (afterLineBreak? (text.dropWhile isBlank)).isSome

/-- Resolves the escapes of a literal. A backslash at the end of a line stands
for nothing, and with it go all blanks and line breaks up to the next character;
`skipping` is set while these are passed over. -/
def unescape? (skipping : Bool) : List Char → Option (List Char)
  | [] => some []
  | '\\' :: 'x' :: a :: b :: rest => do
    let c ← named? [a, b]
    (unescape? false rest).map (c :: ·)
  | '\\' :: 'u' :: a :: b :: c :: d :: rest => do
    let c ← named? [a, b, c, d]
    (unescape? false rest).map (c :: ·)
  | '\\' :: 'U' :: a :: b :: c :: d :: e :: f :: g :: h :: rest => do
    let c ← named? [a, b, c, d, e, f, g, h]
    (unescape? false rest).map (c :: ·)
  | '\\' :: letter :: rest =>
    if endsLine (letter :: rest) then unescape? true rest
    else do
      let c ← unescaped? letter
      (unescape? false rest).map (c :: ·)
  | '\r' :: '\n' :: rest =>
    if skipping then unescape? true rest
    else (unescape? false rest).map ('\r' :: '\n' :: ·)
  | c :: rest =>
    if skipping && (isBlank c || c = '\n') then unescape? true rest
    else if c = '\\' || !isPlain c then none
    else (unescape? false rest).map (c :: ·)

/-- The text that the inside of a literal stands for. -/
def resolve? (quote : Char) (raw : List Char) : Option (List Char) :=
  if quote = '"' then unescape? false raw
  else if allPlain raw then some raw
  else none

structure Literal where
  text : String
  /-- It is written between quotes written three times. -/
  isBlock : Bool
deriving DecidableEq

/-- The literal at the front of a text that begins with a quote. A line break
right after the quotes of a literal on many lines is not part of it. -/
def Literal.scan? (quote : Char) (text : List Char) : Option (Literal × List Char) :=
  if text.take 3 = [quote, quote, quote] then do
    let (raw, rest) ← cutBlock? quote false (text.drop 3)
    let chars ← resolve? quote ((afterLineBreak? raw).getD raw)
    some ({ text := String.ofList chars, isBlock := true }, rest)
  else do
    let (raw, rest) ← cutLine? quote false (text.drop 1)
    let chars ← resolve? quote raw
    some ({ text := String.ofList chars, isBlock := false }, rest)

theorem Literal.scan?_length {quote : Char} {text rest : List Char} {literal : Literal}
    (scanned : scan? quote text = some (literal, rest)) : rest.length < text.length := by
  unfold scan? at scanned
  simp only [Option.bind_eq_bind] at scanned
  split at scanned <;>
  · simp only [Option.bind_eq_some_iff, Prod.exists, Option.some.injEq, Prod.mk.injEq] at scanned
    obtain ⟨_, _, cut, _, _, _, rfl⟩ := scanned
    first
    | have := cutBlock?_length cut
      rw [List.length_drop] at this
      omega
    | have := cutLine?_length cut
      rw [List.length_drop] at this
      omega

end TableReport.Settings
