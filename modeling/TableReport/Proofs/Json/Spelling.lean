import Mathlib.Data.List.Chain
import TableReport.Proofs.Decimal.Scan
import TableReport.Proofs.Json.Token

/-!
The grammar of tokens. A row of tokens is spelled by the texts of its tokens, one after
another, with blanks around them; which doubles the numerals among them stand for is up
to a reading of decimals. Scanning agrees with this grammar: a text that spells
some tokens is scanned as these tokens, unless two of its numerals run into each other,
and a text that is scanned to its end spells what it is scanned as.
-/

namespace TableReport.Json

/-- The text of a literal from behind its opening quote to its closing one. -/
inductive SpellsPieces : List Char → List Piece → Prop
  | quote : SpellsPieces ['"'] []
  | unit {a b c d : Char} {code : Nat} {text : List Char} {pieces : List Piece}
      (hex : hexUnit? a b c d = some code) (rest : SpellsPieces text pieces) :
      SpellsPieces ('\\' :: 'u' :: a :: b :: c :: d :: text) (.unit code :: pieces)
  | letter {letter c : Char} {text : List Char} {pieces : List Piece}
      (names : unescape? letter = some c) (rest : SpellsPieces text pieces) :
      SpellsPieces ('\\' :: letter :: text) (.char c :: pieces)
  | plain {c : Char} {text : List Char} {pieces : List Piece} (notQuote : c ≠ '"')
      (notBackslash : c ≠ '\\') (notControl : 0x20 ≤ c.toNat) (rest : SpellsPieces text pieces) :
      SpellsPieces (c :: text) (.char c :: pieces)

theorem scanPieces?_append {text : List Char} {pieces : List Piece}
    (spells : SpellsPieces text pieces) (rest : List Char) :
    scanPieces? (text ++ rest) = some (pieces, rest) := by
  induction spells with
  | quote => rfl
  | unit hex _ inductionHypothesis => simp [scanPieces?, hex, inductionHypothesis]
  | letter names _ inductionHypothesis =>
      rw [List.cons_append, List.cons_append, scanPieces?_letter names, inductionHypothesis]
      rfl
  | plain notQuote notBackslash notControl _ inductionHypothesis =>
      rw [List.cons_append, scanPieces?_plain notQuote notBackslash notControl, inductionHypothesis]
      rfl

theorem scanPieces?_sound {text rest : List Char} {pieces : List Piece}
    (scanned : scanPieces? text = some (pieces, rest)) :
    ∃ front, SpellsPieces front pieces ∧ text = front ++ rest := by
  fun_induction scanPieces? text generalizing pieces rest with
  | case1 => cases scanned
  | case2 =>
      cases scanned
      exact ⟨_, .quote, rfl⟩
  | case3 a b c d text inductionHypothesis =>
      obtain ⟨code, hex, scanned⟩ := Option.bind_eq_some_iff.mp scanned
      obtain ⟨⟨pieces', rest'⟩, scanned, same⟩ := Option.bind_eq_some_iff.mp scanned
      obtain ⟨front, spells, rfl⟩ := inductionHypothesis scanned
      cases same
      exact ⟨_, .unit hex spells, rfl⟩
  | case4 letter text _ inductionHypothesis =>
      obtain ⟨c, names, scanned⟩ := Option.bind_eq_some_iff.mp scanned
      obtain ⟨⟨pieces', rest'⟩, scanned, same⟩ := Option.bind_eq_some_iff.mp scanned
      obtain ⟨front, spells, rfl⟩ := inductionHypothesis scanned
      cases same
      exact ⟨_, .letter names spells, rfl⟩
  | case5 => cases scanned
  | case6 c text notQuote _ _ plain inductionHypothesis =>
      obtain ⟨⟨pieces', rest'⟩, scanned, same⟩ := Option.bind_eq_some_iff.mp scanned
      obtain ⟨front, spells, rfl⟩ := inductionHypothesis scanned
      cases same
      obtain ⟨notControl, notBackslash⟩ := not_or.mp plain
      refine ⟨_, .plain ?_ notBackslash (Nat.not_lt.mp notControl) spells, rfl⟩
      rintro rfl
      exact notQuote rfl

namespace Token

/-- The text of one token. -/
inductive Lexeme (reading : FloatReading) : List Char → Token → Prop
  | openArray : Lexeme reading ['['] .openArray
  | closeArray : Lexeme reading [']'] .closeArray
  | openObject : Lexeme reading ['\x7b'] .openObject
  | closeObject : Lexeme reading ['\x7d'] .closeObject
  | comma : Lexeme reading [','] .comma
  | colon : Lexeme reading [':'] .colon
  | null : Lexeme reading ['n', 'u', 'l', 'l'] .null
  | true : Lexeme reading ['t', 'r', 'u', 'e'] (.boolean true)
  | false : Lexeme reading ['f', 'a', 'l', 's', 'e'] (.boolean false)
  | string {text : List Char} {pieces : List Piece} (spells : SpellsPieces text pieces) :
      Lexeme reading ('"' :: text) (.string ((textOf? pieces).map String.ofList))
  | number {text : List Char} {n : Numeral} (spells : Numeral.Spells text n) :
      Lexeme reading text (.number (.ofNumeral reading n))

/-- The text of a row of tokens, with blanks wherever they may stand. -/
inductive Spells (reading : FloatReading) : List Char → List Token → Prop
  | nil : Spells reading [] []
  | blank {c : Char} {text : List Char} {tokens : List Token} (isBlank : isBlank c = true)
      (rest : Spells reading text tokens) : Spells reading (c :: text) tokens
  | token {lexeme text : List Char} {token : Token} {tokens : List Token}
      (first : Lexeme reading lexeme token) (rest : Spells reading text tokens) :
      Spells reading (lexeme ++ text) (token :: tokens)

def isNumber : Token → Bool
  | .number _ => Bool.true
  | _ => Bool.false

/-- No two numbers stand side by side. -/
def Separate (tokens : List Token) : Prop :=
  tokens.IsChain fun token next => token.isNumber = Bool.true → next.isNumber = Bool.false

variable {reading : FloatReading} {text : List Char} {tokens : List Token}

/-- A numeral ends in front of whatever is no number. -/
theorem Spells.ends (spells : Spells reading text tokens)
    (noNumber : ∀ token ∈ tokens.head?, token.isNumber = Bool.false) : Numeral.Ends text := by
  cases spells with
  | nil => exact fun _ membership => nomatch membership
  | blank isBlank =>
      intro c membership
      cases membership
      simp only [Token.isBlank, Bool.or_eq_true, decide_eq_true_eq] at isBlank
      rcases isBlank with ((rfl | rfl) | rfl) | rfl <;> decide
  | token first =>
      intro c membership
      cases first with
      | number => cases noNumber _ rfl
      | _ =>
        cases membership
        decide

/-- A text is scanned as the tokens that it spells. -/
theorem scan_of_spells (spells : Spells reading text tokens) (separate : Separate tokens) :
    scan reading text = tokens := by
  induction spells with
  | nil => rw [scan]
  | blank isBlank _ inductionHypothesis =>
      rw [scan_of_blank isBlank, inductionHypothesis separate]
  | token first rest inductionHypothesis =>
      have scanned := inductionHypothesis separate.tail
      cases first with
      | string spells =>
          refine (scan_of_next? rfl ?_).trans (congrArg _ scanned)
          simp [next?, scanPieces?_append spells]
      | number spells =>
          have ends := rest.ends fun token membership =>
            (List.isChain_cons.mp separate).1 token membership rfl
          rw [scan_numeral spells ends, scanned]
      | _ => simp [scanned]

theorem afterWord?_sound {word rest : List Char} (found : afterWord? word text = some rest) :
    text = word ++ rest := by
  unfold afterWord? at found
  split at found
  next inFront =>
    obtain ⟨behind, rfl⟩ := List.isPrefixOf_iff_prefix.mp inFront
    cases found
    rw [List.drop_left]
  next => cases found

theorem next?_sound {c : Char} {rest : List Char} {token : Token}
    (found : next? reading c text = some (token, rest)) :
    ∃ lexeme, Lexeme reading lexeme token ∧ c :: text = lexeme ++ rest := by
  unfold next? at found
  split at found
  case h_7 | h_8 | h_9 =>
    obtain ⟨behind, word, same⟩ := Option.map_eq_some_iff.mp found
    cases same
    rw [afterWord?_sound word]
    exact ⟨_, by constructor, rfl⟩
  case h_10 =>
    obtain ⟨⟨pieces, behind⟩, scanned, same⟩ := Option.map_eq_some_iff.mp found
    cases same
    obtain ⟨front, spells, rfl⟩ := scanPieces?_sound scanned
    exact ⟨_, .string spells, rfl⟩
  case h_11 =>
    obtain ⟨⟨numeral, behind⟩, scanned, same⟩ := Option.map_eq_some_iff.mp found
    cases same
    obtain ⟨⟨front, spells, text_eq⟩, -⟩ := Numeral.scan?_sound scanned
    exact ⟨front, .number spells, text_eq⟩
  all_goals
    cases found
    exact ⟨_, by constructor, rfl⟩

/-- A text that is scanned to its end spells what it is scanned as. -/
theorem spells_scan (readable : Token.unreadable ∉ scan reading text) :
    Spells reading text (scan reading text) := by
  fun_induction scan reading text with
  | case1 => exact .nil
  | case2 c rest isBlank inductionHypothesis => exact .blank isBlank (inductionHypothesis readable)
  | case3 c rest notBlank token rest' found inductionHypothesis =>
      obtain ⟨lexeme, first, text_eq⟩ := next?_sound found
      rw [text_eq]
      exact .token first (inductionHypothesis (List.not_mem_of_not_mem_cons readable))
  | case4 => exact absurd List.mem_cons_self readable

end Token

end TableReport.Json
