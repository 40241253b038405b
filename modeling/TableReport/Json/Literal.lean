import TableReport.Text.Digits

/-!
String literals of JSON. A literal is read as a row of pieces, each a character
or a 16-bit unit given by its number. Units name characters beyond the first
plane in pairs; a literal with an unpaired half of such a pair is well formed
but names no text.
-/

namespace TableReport.Json

/-- What one character or escape of a literal stands for. -/
inductive Piece where
  | char (c : Char)
  | unit (code : Nat)
deriving DecidableEq

def hexUnit? (a b c d : Char) : Option Nat := do
  let a ← hexDigit? a
  let b ← hexDigit? b
  let c ← hexDigit? c
  let d ← hexDigit? d
  some (((a * 16 + b) * 16 + c) * 16 + d)

/-- The character that a letter behind a backslash stands for. -/
def unescape? : Char → Option Char
  | '"' => some '"'
  | '\\' => some '\\'
  | '/' => some '/'
  | 'b' => some '\x08'
  | 'f' => some '\x0c'
  | 'n' => some '\n'
  | 'r' => some '\r'
  | 't' => some '\t'
  | _ => none

/-- The pieces of a literal up to its closing quote, with what follows it. A
literal may not hold control characters, nor end before its quote. -/
def scanPieces? : List Char → Option (List Piece × List Char)
  | [] => none
  | '"' :: rest => some ([], rest)
  | '\\' :: 'u' :: a :: b :: c :: d :: rest => do
    let code ← hexUnit? a b c d
    let (pieces, rest) ← scanPieces? rest
    some (.unit code :: pieces, rest)
  | '\\' :: letter :: rest => do
    let c ← unescape? letter
    let (pieces, rest) ← scanPieces? rest
    some (.char c :: pieces, rest)
  | c :: rest =>
    if c.toNat < 0x20 ∨ c = '\\' then none
    else do
      let (pieces, rest) ← scanPieces? rest
      some (.char c :: pieces, rest)

theorem scanPieces?_length {text rest : List Char} {pieces : List Piece}
    (scanned : scanPieces? text = some (pieces, rest)) : rest.length < text.length := by
  fun_induction scanPieces? text generalizing pieces rest with
  | case1 => simp at scanned
  | case2 => simp_all
  | case3 a b c d text ih =>
    simp only [Option.bind_eq_bind, Option.bind_eq_some_iff] at scanned
    obtain ⟨_, _, ⟨pieces', rest'⟩, scanned', same⟩ := scanned
    have shorter := ih scanned'
    simp only [Option.some.injEq, Prod.mk.injEq] at same
    simp only [← same.2, List.length_cons]
    omega
  | case4 letter text _ ih =>
    simp only [Option.bind_eq_bind, Option.bind_eq_some_iff] at scanned
    obtain ⟨_, _, ⟨pieces', rest'⟩, scanned', same⟩ := scanned
    have shorter := ih scanned'
    simp only [Option.some.injEq, Prod.mk.injEq] at same
    simp only [← same.2, List.length_cons]
    omega
  | case5 => simp at scanned
  | case6 c text _ _ _ _ ih =>
    simp only [Option.bind_eq_bind, Option.bind_eq_some_iff] at scanned
    obtain ⟨⟨pieces', rest'⟩, scanned', same⟩ := scanned
    have shorter := ih scanned'
    simp only [Option.some.injEq, Prod.mk.injEq] at same
    simp only [← same.2, List.length_cons]
    omega

def isHighHalf (code : Nat) : Bool := 0xD800 ≤ code && code < 0xDC00

def isLowHalf (code : Nat) : Bool := 0xDC00 ≤ code && code < 0xE000

/-- The text that pieces stand for, unless a half of a pair stands alone. -/
def textOf? : List Piece → Option (List Char)
  | [] => some []
  | .char c :: rest => (textOf? rest).map (c :: ·)
  | .unit high :: .unit low :: rest =>
    if isHighHalf high then
      if isLowHalf low then
        (textOf? rest).map (Char.ofNat (0x10000 + (high - 0xD800) * 0x400 + (low - 0xDC00)) :: ·)
      else none
    else if isLowHalf high then none
    else (textOf? (.unit low :: rest)).map (Char.ofNat high :: ·)
  | .unit code :: rest =>
    if isHighHalf code || isLowHalf code then none
    else (textOf? rest).map (Char.ofNat code :: ·)

/-- A character as it is written in a literal. Only quotes, backslashes and
control characters are escaped. -/
def escapedChar (c : Char) : List Char :=
  if c = '"' then ['\\', '"']
  else if c = '\\' then ['\\', '\\']
  else if c = '\x08' then ['\\', 'b']
  else if c = '\x0c' then ['\\', 'f']
  else if c = '\n' then ['\\', 'n']
  else if c = '\r' then ['\\', 'r']
  else if c = '\t' then ['\\', 't']
  else if c.toNat < 0x20 then
    ['\\', 'u', '0', '0', Nat.digitChar (c.toNat / 16), Nat.digitChar (c.toNat % 16)]
  else [c]

/-- The literal that names a text. -/
def literalChars (text : String) : List Char :=
  '"' :: (text.toList.flatMap escapedChar ++ ['"'])

end TableReport.Json
