import TableReport.Json.Literal

/-!
The literal of a text is read as that text, up to its closing quote and not
beyond. Control characters that have no letter of their own come back as 16-bit
units; they lie far below the halves of pairs, so each names its character.
-/

namespace TableReport.Json

/-- The pieces that a character may be written as. -/
inductive Piece.Names : Piece → Char → Prop
  | char (c : Char) : Names (.char c) c
  | unit {c : Char} (control : c.toNat < 0x20) : Names (.unit c.toNat) c

theorem hexDigit?_digitChar {n : Nat} (small : n < 16) : hexDigit? (Nat.digitChar n) = some n := by
  revert n
  decide

theorem hexUnit?_control {code : Nat} (control : code < 0x20) :
    hexUnit? '0' '0' (Nat.digitChar (code / 16)) (Nat.digitChar (code % 16)) = some code := by
  have zero : hexDigit? '0' = some 0 := rfl
  have high := hexDigit?_digitChar (show code / 16 < 16 by omega)
  have low := hexDigit?_digitChar (show code % 16 < 16 by omega)
  simp only [hexUnit?, zero, high, low, Option.bind_eq_bind, Option.bind_some, Option.some.injEq]
  omega

/-- A character is written as a letter behind a backslash, by its number, or as
it is. -/
theorem escapedChar_cases (c : Char) :
    (∃ letter, unescape? letter = some c ∧ escapedChar c = ['\\', letter]) ∨
      (c.toNat < 0x20 ∧ escapedChar c =
        ['\\', 'u', '0', '0', Nat.digitChar (c.toNat / 16), Nat.digitChar (c.toNat % 16)]) ∨
      (c ≠ '"' ∧ c ≠ '\\' ∧ 0x20 ≤ c.toNat ∧ escapedChar c = [c]) := by
  by_cases letter : c ∈ ['"', '\\', '\x08', '\x0c', '\n', '\r', '\t']
  · refine Or.inl ?_
    simp only [List.mem_cons, List.not_mem_nil, or_false] at letter
    rcases letter with rfl | rfl | rfl | rfl | rfl | rfl | rfl <;> exact ⟨_, rfl, rfl⟩
  · refine Or.inr ?_
    simp only [List.mem_cons, List.not_mem_nil, or_false, not_or] at letter
    by_cases control : c.toNat < 0x20
    · exact Or.inl ⟨control, by simp [escapedChar, letter, control]⟩
    · exact Or.inr ⟨letter.1, letter.2.1, Nat.not_lt.mp control, by
        simp [escapedChar, letter, control]⟩

theorem scanPieces?_letter {letter c : Char} (names : unescape? letter = some c)
    (text : List Char) :
    scanPieces? ('\\' :: letter :: text) =
      (scanPieces? text).map fun (pieces, rest) => (.char c :: pieces, rest) := by
  rw [scanPieces?]
  · cases scanPieces? text <;> simp [names]
  · rintro _ _ _ _ _ rfl
    simp [unescape?] at names

theorem scanPieces?_plain {c : Char} (notQuote : c ≠ '"') (notBackslash : c ≠ '\\')
    (notControl : 0x20 ≤ c.toNat) (text : List Char) :
    scanPieces? (c :: text) =
      (scanPieces? text).map fun (pieces, rest) => (.char c :: pieces, rest) := by
  rw [scanPieces?]
  · cases scanPieces? text <;> simp [notBackslash, Nat.not_lt.mpr notControl]
  all_goals simp_all

/-- One escaped character is read as one piece that names it. -/
theorem scanPieces?_escapedChar_append (c : Char) {text rest : List Char} {pieces : List Piece}
    (scanned : scanPieces? text = some (pieces, rest)) :
    ∃ piece : Piece, piece.Names c ∧
      scanPieces? (escapedChar c ++ text) = some (piece :: pieces, rest) := by
  rcases escapedChar_cases c with ⟨letter, names, escaped⟩ | ⟨control, escaped⟩ |
    ⟨notQuote, notBackslash, notControl, escaped⟩ <;> rw [escaped]
  · exact ⟨.char c, .char c, by simp [scanPieces?_letter names, scanned]⟩
  · exact ⟨.unit c.toNat, .unit control, by simp [scanPieces?, hexUnit?_control control, scanned]⟩
  · exact ⟨.char c, .char c, by
      simp [scanPieces?_plain notQuote notBackslash notControl, scanned]⟩

theorem textOf?_cons {piece : Piece} {c : Char} (names : piece.Names c) (pieces : List Piece) :
    textOf? (piece :: pieces) = (textOf? pieces).map (c :: ·) := by
  cases names with
  | char => rw [textOf?]
  | unit control =>
      have notHalf : isHighHalf c.toNat = false ∧ isLowHalf c.toNat = false := by
        constructor <;> simp [isHighHalf, isLowHalf] <;> omega
      have named : Char.ofNat c.toNat = c := Char.ofNat_toNat c
      cases pieces with
      | nil => simp [textOf?, notHalf, named]
      | cons second pieces => cases second <;> simp [textOf?, notHalf, named]

/-- A literal is read up to its closing quote, as the text it was written for. -/
theorem scanPieces?_literal (text rest : List Char) :
    ∃ pieces, scanPieces? (text.flatMap escapedChar ++ '"' :: rest) = some (pieces, rest) ∧
      textOf? pieces = some text := by
  induction text with
  | nil => exact ⟨[], rfl, rfl⟩
  | cons c text inductionHypothesis =>
      obtain ⟨pieces, scanned, named⟩ := inductionHypothesis
      obtain ⟨piece, names, scanned⟩ := scanPieces?_escapedChar_append c scanned
      refine ⟨piece :: pieces, ?_, ?_⟩
      · rwa [List.flatMap_cons, List.append_assoc]
      · rw [textOf?_cons names, named, Option.map_some]

end TableReport.Json
