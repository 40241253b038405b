import TableReport.Json.Value
import TableReport.Proofs.Json.Literal
import TableReport.Proofs.Json.Number

/-!
Both ways of writing a value give the same tokens. A number is the only token
that does not show its end; whatever follows one in a written value cannot be
taken for a part of it. Numbers are scanned as they come back under the reading of
decimals, and all else as it was written.
-/

namespace TableReport.Json

variable {reading : FloatReading}

namespace Token

theorem scan_of_blank {c : Char} (blank : isBlank c = true) (rest : List Char) :
    scan reading (c :: rest) = scan reading rest := by
  rw [scan, if_pos blank]

theorem scan_of_next? {c : Char} {text rest : List Char} {token : Token}
    (notBlank : isBlank c = false) (found : next? reading c text = some (token, rest)) :
    scan reading (c :: text) = token :: scan reading rest := by
  rw [scan, if_neg (Bool.not_eq_true _ ▸ notBlank)]
  split
  next found' => simp_all
  next missing => simp_all

@[simp] theorem scan_openArray (rest : List Char) :
    scan reading ('[' :: rest) = .openArray :: scan reading rest :=
  scan_of_next? rfl rfl

@[simp] theorem scan_closeArray (rest : List Char) :
    scan reading (']' :: rest) = .closeArray :: scan reading rest :=
  scan_of_next? rfl rfl

@[simp] theorem scan_openObject (rest : List Char) :
    scan reading ('\x7b' :: rest) = .openObject :: scan reading rest :=
  scan_of_next? rfl rfl

@[simp] theorem scan_closeObject (rest : List Char) :
    scan reading ('\x7d' :: rest) = .closeObject :: scan reading rest :=
  scan_of_next? rfl rfl

@[simp] theorem scan_comma (rest : List Char) :
    scan reading (',' :: rest) = .comma :: scan reading rest :=
  scan_of_next? rfl rfl

@[simp] theorem scan_colon (rest : List Char) :
    scan reading (':' :: rest) = .colon :: scan reading rest :=
  scan_of_next? rfl rfl

@[simp] theorem scan_null (rest : List Char) :
    scan reading ('n' :: 'u' :: 'l' :: 'l' :: rest) = .null :: scan reading rest :=
  scan_of_next? rfl (by simp [next?, afterWord?])

@[simp] theorem scan_true (rest : List Char) :
    scan reading ('t' :: 'r' :: 'u' :: 'e' :: rest) = .boolean true :: scan reading rest :=
  scan_of_next? rfl (by simp [next?, afterWord?])

@[simp] theorem scan_false (rest : List Char) :
    scan reading ('f' :: 'a' :: 'l' :: 's' :: 'e' :: rest) = .boolean false :: scan reading rest :=
  scan_of_next? rfl (by simp [next?, afterWord?])

@[simp] theorem scan_space (rest : List Char) : scan reading (' ' :: rest) = scan reading rest :=
  scan_of_blank rfl rest

@[simp] theorem scan_lineBreak (level : Nat) (rest : List Char) :
    scan reading (Value.lineBreak level ++ rest) = scan reading rest := by
  unfold Value.lineBreak
  rw [List.cons_append, scan_of_blank rfl]
  induction 2 * level with
  | zero => rfl
  | succ blanks inductionHypothesis =>
      rw [List.replicate_succ, List.cons_append, scan_space, inductionHypothesis]

@[simp] theorem scan_literal (text : String) (rest : List Char) :
    scan reading (literalChars text ++ rest) = .string (some text) :: scan reading rest := by
  obtain ⟨pieces, scanned, named⟩ := scanPieces?_literal text.toList rest
  unfold literalChars
  rw [List.cons_append, List.append_assoc, List.singleton_append]
  refine scan_of_next? rfl ?_
  simp [next?, scanned, named]

theorem next?_numeral {c : Char} (begins : c.isDigit = true ∨ c = '-') (rest : List Char) :
    next? reading c rest = (Numeral.scan? (c :: rest)).map fun (numeral, rest) =>
      (.number (.ofNumeral reading numeral), rest) := by
  unfold next?
  split
  case h_11 => rfl
  all_goals simp at begins

theorem scan_numeral {text rest : List Char} {numeral : Numeral}
    (spells : Numeral.Spells text numeral) (ends : Numeral.Ends rest) :
    scan reading (text ++ rest) = .number (.ofNumeral reading numeral) :: scan reading rest := by
  have scanned := Numeral.scan?_append spells ends
  obtain ⟨first, more, rfl, begins⟩ := spells.begins
  have notBlank : isBlank first = false := by
    cases blank : isBlank first with
    | false => rfl
    | true =>
        simp only [isBlank, Bool.or_eq_true, decide_eq_true_eq] at blank
        rcases blank with ((rfl | rfl) | rfl) | rfl <;> simp at begins
  rw [List.cons_append] at scanned ⊢
  refine scan_of_next? notBlank ?_
  rw [next?_numeral begins, scanned]
  rfl

theorem scan_number {n : Number} (writable : n.Writable) {rest : List Char}
    (ends : Numeral.Ends rest) :
    scan reading (n.chars ++ rest) = .number (n.reread reading) :: scan reading rest := by
  obtain ⟨numeral, spells, value⟩ := Number.spells_chars writable
  rw [scan_numeral spells ends, value]

end Token

namespace Value

mutual

/-- Every number of the value has a numeral of its own. -/
def Writable : Value → Prop
  | .number n => n.Writable
  | .array items => ItemsWritable items
  | .object members => MembersWritable members
  | _ => True

def ItemsWritable : List Value → Prop
  | [] => True
  | item :: rest => item.Writable ∧ ItemsWritable rest

def MembersWritable : List (String × Value) → Prop
  | [] => True
  | (_, value) :: rest => value.Writable ∧ MembersWritable rest

end

theorem itemsWritable_iff {items : List Value} :
    ItemsWritable items ↔ ∀ item ∈ items, item.Writable := by
  induction items with
  | nil => simp [ItemsWritable]
  | cons item rest inductionHypothesis => simp [ItemsWritable, inductionHypothesis]

theorem membersWritable_iff {members : List (String × Value)} :
    MembersWritable members ↔ ∀ member ∈ members, member.2.Writable := by
  induction members with
  | nil => simp [MembersWritable]
  | cons member rest inductionHypothesis => simp [MembersWritable, inductionHypothesis]

theorem writable_toInt (n : Int64) : (integer n.toInt).Writable := by
  have low : -2 ^ 63 ≤ n.toInt := n.le_toInt
  have high : n.toInt < 2 ^ 63 := n.toInt_lt
  exact Number.writable_integer low (by omega)

theorem writable_toNat (n : UInt64) : (integer n.toNat).Writable := by
  have high : n.toNat < 2 ^ 64 := n.toNat_lt
  exact Number.writable_integer (by omega) (by omega)

theorem writable_real (x : Binary64) : (real x).Writable := by
  unfold real
  split
  next finite => exact ⟨trivial, finite⟩
  next => trivial

mutual

/-- The tokens that a value is written with, as they are read. -/
def tokens (reading : FloatReading) : Value → List Token
  | .null => [.null]
  | .boolean b => [.boolean b]
  | .number n => [.number (n.reread reading)]
  | .string text => [.string (some text)]
  | .array [] => [.openArray, .closeArray]
  | .array (first :: rest) => .openArray :: (first.tokens reading ++ itemTokens reading rest)
  | .object [] => [.openObject, .closeObject]
  | .object ((name, value) :: rest) =>
    .openObject :: .string (some name) :: .colon ::
      (value.tokens reading ++ memberTokens reading rest)

/-- The tokens behind the first item of an array. -/
def itemTokens (reading : FloatReading) : List Value → List Token
  | [] => [.closeArray]
  | item :: rest => .comma :: (item.tokens reading ++ itemTokens reading rest)

/-- The tokens behind the first member of an object. -/
def memberTokens (reading : FloatReading) : List (String × Value) → List Token
  | [] => [.closeObject]
  | (name, value) :: rest =>
    .comma :: .string (some name) :: .colon :: (value.tokens reading ++ memberTokens reading rest)

end

theorem ends_compactItems (items : List Value) (rest : List Char) :
    Numeral.Ends (compactItems items ++ rest) := by
  cases items <;> simp [compactItems, Numeral.Ends]

theorem ends_compactMembers (members : List (String × Value)) (rest : List Char) :
    Numeral.Ends (compactMembers members ++ rest) := by
  cases members <;> simp [compactMembers, Numeral.Ends]

theorem ends_prettyItems (level : Nat) (items : List Value) (rest : List Char) :
    Numeral.Ends (prettyItems level items ++ rest) := by
  cases items <;> simp [prettyItems, lineBreak, Numeral.Ends]

theorem ends_prettyMembers (level : Nat) (members : List (String × Value)) (rest : List Char) :
    Numeral.Ends (prettyMembers level members ++ rest) := by
  cases members <;> simp [prettyMembers, lineBreak, Numeral.Ends]

open Token

mutual

/-- The compact text of a value is scanned as its tokens. -/
theorem scan_compactChars (value : Value) (writable : value.Writable) {rest : List Char}
    (ends : Numeral.Ends rest) :
    scan reading (value.compactChars ++ rest) = value.tokens reading ++ scan reading rest := by
  match value with
  | .null => simp [compactChars, tokens]
  | .boolean true => simp [compactChars, tokens]
  | .boolean false => simp [compactChars, tokens]
  | .number n => simpa [compactChars, tokens] using scan_number writable ends
  | .string text => simp [compactChars, tokens]
  | .array [] => simp [compactChars, tokens]
  | .array (first :: more) =>
      simp [compactChars, tokens, scan_compactChars first writable.1 (ends_compactItems more rest),
        scan_compactItems more writable.2 rest]
  | .object [] => simp [compactChars, tokens]
  | .object ((name, value) :: more) =>
      simp [compactChars, tokens, scan_compactChars value writable.1 (ends_compactMembers more rest),
        scan_compactMembers more writable.2 rest]

theorem scan_compactItems (items : List Value) (writable : ItemsWritable items)
    (rest : List Char) :
    scan reading (compactItems items ++ rest) = itemTokens reading items ++ scan reading rest := by
  match items with
  | [] => simp [compactItems, itemTokens]
  | item :: more =>
      simp [compactItems, itemTokens, scan_compactChars item writable.1 (ends_compactItems more rest),
        scan_compactItems more writable.2 rest]

theorem scan_compactMembers (members : List (String × Value)) (writable : MembersWritable members)
    (rest : List Char) :
    scan reading (compactMembers members ++ rest) =
      memberTokens reading members ++ scan reading rest := by
  match members with
  | [] => simp [compactMembers, memberTokens]
  | (name, value) :: more =>
      simp [compactMembers, memberTokens,
        scan_compactChars value writable.1 (ends_compactMembers more rest),
        scan_compactMembers more writable.2 rest]

end

mutual

/-- The text of a value that is spread over lines is scanned as the same tokens. -/
theorem scan_prettyChars (level : Nat) (value : Value) (writable : value.Writable)
    {rest : List Char} (ends : Numeral.Ends rest) :
    scan reading (value.prettyChars level ++ rest) = value.tokens reading ++ scan reading rest := by
  match value with
  | .null => simp [prettyChars, tokens]
  | .boolean true => simp [prettyChars, tokens]
  | .boolean false => simp [prettyChars, tokens]
  | .number n => simpa [prettyChars, tokens] using scan_number writable ends
  | .string text => simp [prettyChars, tokens]
  | .array [] => simp [prettyChars, tokens]
  | .array (first :: more) =>
      simp [prettyChars, tokens,
        scan_prettyChars (level + 1) first writable.1 (ends_prettyItems level more rest),
        scan_prettyItems level more writable.2 rest]
  | .object [] => simp [prettyChars, tokens]
  | .object ((name, value) :: more) =>
      simp [prettyChars, tokens,
        scan_prettyChars (level + 1) value writable.1 (ends_prettyMembers level more rest),
        scan_prettyMembers level more writable.2 rest]

theorem scan_prettyItems (level : Nat) (items : List Value) (writable : ItemsWritable items)
    (rest : List Char) :
    scan reading (prettyItems level items ++ rest) =
      itemTokens reading items ++ scan reading rest := by
  match items with
  | [] => simp [prettyItems, itemTokens]
  | item :: more =>
      simp [prettyItems, itemTokens,
        scan_prettyChars (level + 1) item writable.1 (ends_prettyItems level more rest),
        scan_prettyItems level more writable.2 rest]

theorem scan_prettyMembers (level : Nat) (members : List (String × Value))
    (writable : MembersWritable members) (rest : List Char) :
    scan reading (prettyMembers level members ++ rest) =
      memberTokens reading members ++ scan reading rest := by
  match members with
  | [] => simp [prettyMembers, memberTokens]
  | (name, value) :: more =>
      simp [prettyMembers, memberTokens,
        scan_prettyChars (level + 1) value writable.1 (ends_prettyMembers level more rest),
        scan_prettyMembers level more writable.2 rest]

end

theorem scan_compact {value : Value} (writable : value.Writable) :
    scan reading value.compact.toList = value.tokens reading := by
  have scanned := @scan_compactChars reading value writable [] (by simp [Numeral.Ends])
  simpa [compact, scan] using scanned

theorem scan_pretty {value : Value} (writable : value.Writable) :
    scan reading value.pretty.toList = value.tokens reading := by
  have scanned := @scan_prettyChars reading 0 value writable [] (by simp [Numeral.Ends])
  simpa [pretty, scan] using scanned

end Value

end TableReport.Json
