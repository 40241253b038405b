import Mathlib.Data.List.Forall2
import TableReport.Proofs.Outcome
import TableReport.Proofs.Text.Lines
import TableReport.Settings

/-!
Settings files, line by line. A line without brackets is read by itself, whatever
stands below it: its comments and blanks leave nothing, and its words end where
they are seen to end. So the statements of a file are those of its lines.
-/

namespace TableReport

namespace Settings

namespace Token

variable {c : Char} {chars name rest left : List Char} {token : Token}

theorem scan?_blank (blank : isBlank c = true) : scan? (c :: rest) = scan? rest := by
  rw [scan?, if_pos blank]

theorem scan?_comment (plain : (rest.takeWhile (!isBreakChar ·)).all isPlain = true) :
    scan? ('#' :: rest) = scan? (rest.dropWhile (!isBreakChar ·)) := by
  rw [scan?, if_neg (by decide), if_pos rfl, if_pos plain]

theorem scan?_token (noBlank : isBlank c = false) (noComment : c ≠ '#')
    (found : next? c rest = some (token, left)) :
    scan? (c :: rest) = (scan? left).map (token :: ·) := by
  rw [scan?, if_neg (by simp [noBlank]), if_neg noComment]
  split
  next found' =>
    obtain ⟨rfl, rfl⟩ := Prod.mk.inj (Option.some.inj (found'.symm.trans found))
    rfl
  next missing => cases missing.symm.trans found

theorem scan?_lineBreak (rest : List Char) :
    scan? ('\n' :: rest) = (scan? rest).map (.lineBreak :: ·) :=
  scan?_token (by decide) (by decide) rfl

theorem isBlank_of_isWordChar (word : isWordChar c = true) : isBlank c = false := by
  rw [Bool.eq_false_iff]
  intro blank
  rcases (by simpa [isBlank] using blank : c = ' ' ∨ c = '\t') with rfl | rfl <;>
    exact absurd word (by decide)

theorem next?_word (word : isWordChar c = true) :
    next? c rest = some (.word (c :: rest.takeWhile isWordChar), rest.dropWhile isWordChar) := by
  unfold next?
  split
  case h_10 =>
    have noQuote : ¬(c = '"' ∨ c = '\'') := by
      rintro (rfl | rfl) <;> exact absurd word (by decide)
    rw [if_neg noQuote, if_pos word]
  all_goals exact absurd word (by decide)

theorem takeWhile_of_head? {p : Char → Bool} (ends : rest.head?.all (!p ·) = true) :
    rest.takeWhile p = [] ∧ rest.dropWhile p = rest := by
  cases rest with
  | nil => exact ⟨rfl, rfl⟩
  | cons c rest =>
      have stops : p c = false := by simpa using ends
      simp [stops]

/-- A word ends where something else begins. -/
theorem scan?_word (named : name ≠ []) (word : name.all isWordChar = true)
    (ends : rest.head?.all (!isWordChar ·) = true) :
    scan? (name ++ rest) = (scan? rest).map (.word name :: ·) := by
  cases name with
  | nil => contradiction
  | cons c name =>
      obtain ⟨first, others⟩ : isWordChar c = true ∧ ∀ x ∈ name, isWordChar x = true := by
        simpa using word
      have noComment : c ≠ '#' := by
        rintro rfl
        exact absurd first (by decide)
      obtain ⟨taken, dropped⟩ := takeWhile_of_head? ends
      rw [List.cons_append, scan?_token (isBlank_of_isWordChar first) noComment (next?_word first),
        List.takeWhile_append_of_pos others, List.dropWhile_append_of_pos others, taken, dropped,
        List.append_nil]

/-- The line is made of the tokens, whatever stands below it. -/
def Scans (line : String) (tokens : List Token) : Prop :=
  ∀ rest, scan? (line.toList ++ '\n' :: rest) = (scan? rest).map (tokens ++ .lineBreak :: ·)

theorem scans_empty : Scans "" [] := scan?_lineBreak

theorem scans_comment (plain : chars.all (fun c => isPlain c && !isBreakChar c) = true) :
    Scans (String.ofList ('#' :: chars)) [] := by
  intro rest
  obtain ⟨allPlain, onOneLine⟩ :
      (∀ x ∈ chars, isPlain x = true) ∧ ∀ x ∈ chars, (!isBreakChar x) = true := by
    simpa [forall_and] using plain
  have taken : (chars ++ '\n' :: rest).takeWhile (!isBreakChar ·) = chars := by
    rw [List.takeWhile_append_of_pos onOneLine]
    simp [isBreakChar]
  have dropped : (chars ++ '\n' :: rest).dropWhile (!isBreakChar ·) = '\n' :: rest := by
    rw [List.dropWhile_append_of_pos onOneLine]
    simp [isBreakChar]
  rw [String.toList_ofList, List.cons_append, scan?_comment (by simpa [taken] using allPlain),
    dropped]
  exact scan?_lineBreak rest

theorem scans_word {word : String} (named : word ≠ "")
    (plain : word.toList.all isWordChar = true) : Scans word [.word word.toList] := by
  intro rest
  rw [scan?_word (by simpa using named) plain rfl, scan?_lineBreak]
  simp [Function.comp_def]

theorem scans_quotedText : Scans (String.ofList ['"', 't', 'e', 'x', 't', '"'])
    [.literal { text := "text", isBlock := false }] := by
  intro rest
  have opens : next? '"' (['t', 'e', 'x', 't', '"'] ++ '\n' :: rest) =
      some (.literal { text := "text", isBlock := false }, '\n' :: rest) := rfl
  rw [String.toList_ofList, List.cons_append, scan?_token (by decide) (by decide) opens,
    scan?_lineBreak]
  simp [Function.comp_def]

theorem scans_assignment {line : String} (name value : String)
    (written : line = name ++ " = " ++ value) (named : name ≠ "")
    (plain : name.toList.all isWordChar = true) (reads : Scans value [token]) :
    Scans line [.word name.toList, .equals, token] := by
  intro rest
  have equals : scan? (" = ".toList ++ (value.toList ++ '\n' :: rest)) =
      (scan? (value.toList ++ '\n' :: rest)).map (.equals :: ·) := by
    show scan? (' ' :: '=' :: ' ' :: (value.toList ++ '\n' :: rest)) = _
    rw [scan?_blank (by decide), scan?_token (by decide) (by decide) rfl, scan?_blank (by decide)]
  rw [written, String.toList_append, String.toList_append, List.append_assoc, List.append_assoc,
    scan?_word (by simpa using named) plain rfl, equals, reads]
  simp [Function.comp_def]

theorem scan?_unlines {lines : List String} {tokens : List (List Token)}
    (scans : List.Forall₂ Scans lines tokens) :
    scan? (unlines lines).toList = some (tokens.flatMap (· ++ [.lineBreak])) := by
  rw [toList_unlines]
  induction scans with
  | nil => rw [List.flatMap_nil, scan?]; rfl
  | cons first _ inductionHypothesis =>
      rw [List.flatMap_cons, List.append_assoc, List.singleton_append, first, inductionHypothesis,
        List.flatMap_cons, List.append_assoc]
      rfl

end Token

theorem Statement.ofText?_unlines {lines : List String} {tokens : List (List Token)}
    {statements : List Statement} (scans : List.Forall₂ Token.Scans lines tokens)
    (noMark : (unlines lines).toList.head? ≠ some '\uFEFF')
    (reads : ((splitLines 0 (tokens.flatMap (· ++ [.lineBreak]))).filter (· ≠ [])).mapM ofTokens? =
      some statements) :
    ofText? (unlines lines) = some statements := by
  unfold ofText?
  split
  next marked => simp [marked] at noMark
  next =>
    show (Token.scan? (unlines lines).toList >>= _) = _
    rw [Token.scan?_unlines scans]
    exact reads

theorem ofText_eq_ofStatements {text : String} {statements : List Statement}
    (read : Statement.ofText? text = some statements) : ofText text = ofStatements statements := by
  unfold ofText
  rw [read]

theorem ofText_empty : ofText "" = .ok {} := by
  have read : Statement.ofText? "" = some [] := Statement.ofText?_unlines .nil (by decide) rfl
  rw [ofText_eq_ofStatements read]
  rfl

open Token in
/-- The file that explains the settings leaves each as it is. -/
theorem ofText_defaultText : ofText defaultText = .ok {} := by
  have flag : Scans "false" [.word "false".toList] := scans_word (by decide) (by decide)
  have count : Scans "0" [.word "0".toList] := scans_word (by decide) (by decide)
  have read : Statement.ofText? defaultText =
      some [.assign ["ascending"] (.flag false), .assign ["top"] (.integer 0),
        .assign ["human_readable"] (.flag false), .assign ["format"] (.text "text")] := by
    apply Statement.ofText?_unlines
    case scans =>
      -- One constructor for each line; only the four assignments leave tokens.
      exact .cons (scans_comment rfl) <| .cons (scans_comment rfl) <| .cons (scans_comment rfl) <|
        .cons scans_empty <| .cons (scans_comment rfl) <| .cons (scans_comment rfl) <|
        .cons (scans_comment rfl) <| .cons scans_empty <| .cons (scans_comment rfl) <|
        .cons (scans_assignment "ascending" "false" (by decide) (by decide) (by decide) flag) <|
        .cons scans_empty <| .cons (scans_comment rfl) <|
        .cons (scans_assignment "top" "0" (by decide) (by decide) (by decide) count) <|
        .cons scans_empty <| .cons (scans_comment rfl) <| .cons (scans_comment rfl) <|
        .cons (scans_assignment "human_readable" "false" (by decide) (by decide) (by decide)
          flag) <|
        .cons scans_empty <| .cons (scans_comment rfl) <|
        .cons (scans_assignment "format" _ (by decide) (by decide) (by decide)
          scans_quotedText) .nil
    case noMark =>
      rw [toList_unlines]
      decide
    case reads => decide
  rw [ofText_eq_ofStatements read]
  rfl

end Settings

end TableReport
