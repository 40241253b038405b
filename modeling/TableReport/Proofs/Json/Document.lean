import TableReport.Proofs.Json.Codec
import TableReport.Proofs.Json.Spelling

/-!
Which texts are documents. What has been read of a text shows the tokens it was read
from, at any time: this holds of the empty state, every step adds its token, and so a
finished value shows all of them. With the grammar of tokens that makes a grammar of
texts: a text is read to its end as a value if and only if it spells that value, under
the same reading of decimals.
-/

namespace TableReport.Json

namespace Draft

/-- The comma behind the entries before the next one, unless there are none. -/
def separator {α : Type} : List α → List Token
  | [] => []
  | _ :: _ => [.comma]

/-- The tokens of an array up to the last of its items so far, which come last first. -/
def openItems : List Draft → List Token
  | [] => [.openArray]
  | last :: before => openItems before ++ (separator before ++ last.tokens)

/-- The tokens of an object up to the last of its members so far, last first. -/
def openMembers : List (Option String × Draft) → List Token
  | [] => [.openObject]
  | (name, value) :: before =>
    openMembers before ++ (separator before ++ .string name :: .colon :: value.tokens)

theorem openItems_append {items : List Draft} (nonempty : items ≠ []) (rest : List Draft)
    (closed : Bool) :
    openItems items ++ itemTokens rest = (array (items.reverse ++ rest) closed).tokens := by
  induction items generalizing rest with
  | nil => exact absurd rfl nonempty
  | cons last before inductionHypothesis =>
      cases before with
      | nil => simp [openItems, separator, tokens]
      | cons next more =>
          have moved := inductionHypothesis (List.cons_ne_nil _ _) (last :: rest)
          rw [List.reverse_cons (a := last), List.append_assoc, List.singleton_append, ← moved,
            openItems, separator, itemTokens]
          simp

theorem tokens_array_reverse (items : List Draft) (closed : Bool) :
    (array items.reverse closed).tokens = openItems items ++ [.closeArray] := by
  cases items with
  | nil => rfl
  | cons last before =>
      have closes := openItems_append (List.cons_ne_nil last before) [] closed
      rw [List.append_nil] at closes
      exact closes.symm

theorem openMembers_append {members : List (Option String × Draft)} (nonempty : members ≠ [])
    (rest : List (Option String × Draft)) (closed : Bool) :
    openMembers members ++ memberTokens rest = (object (members.reverse ++ rest) closed).tokens := by
  induction members generalizing rest with
  | nil => exact absurd rfl nonempty
  | cons last before inductionHypothesis =>
      cases before with
      | nil => simp [openMembers, separator, tokens]
      | cons next more =>
          have moved := inductionHypothesis (List.cons_ne_nil _ _) (last :: rest)
          rw [List.reverse_cons (a := last), List.append_assoc, List.singleton_append, ← moved,
            openMembers, separator, memberTokens]
          simp

theorem tokens_object_reverse (members : List (Option String × Draft)) (closed : Bool) :
    (object members.reverse closed).tokens = openMembers members ++ [.closeObject] := by
  cases members with
  | nil => rfl
  | cons last before =>
      have closes := openMembers_append (List.cons_ne_nil last before) [] closed
      rw [List.append_nil] at closes
      exact closes.symm

end Draft

namespace Assembly

open Draft

/-- The tokens taken when a value is due in some open containers. -/
inductive Awaits : List Frame → List Token → Prop
  | root : Awaits [] []
  | item {outer : List Frame} {before : List Token} {items : List Draft}
      (awaits : Awaits outer before) (wellFormed : ∀ item ∈ items, item.wellFormed = true) :
      Awaits (.array items :: outer) (before ++ (openItems items ++ separator items))
  | member {outer : List Frame} {before : List Token} {name : Option String}
      {members : List (Option String × Draft)} (awaits : Awaits outer before)
      (wellFormed : ∀ member ∈ members, member.2.wellFormed = true) :
      Awaits (.member name members :: outer)
        (before ++ (openMembers members ++ (separator members ++ [.string name, .colon])))

/-- The tokens that a state has taken. -/
inductive Taken : Assembly → List Token → Prop
  | value {frames : List Frame} {before : List Token} (awaits : Awaits frames before) :
      Taken (.inside frames .value) before
  | valueOrEnd {outer : List Frame} {before : List Token} (awaits : Awaits outer before) :
      Taken (.inside (.array [] :: outer) .valueOrEnd) (before ++ [.openArray])
  | items {outer : List Frame} {before : List Token} {last : Draft} {items : List Draft}
      (awaits : Awaits outer before)
      (wellFormed : ∀ item ∈ last :: items, item.wellFormed = true) :
      Taken (.inside (.array (last :: items) :: outer) .more) (before ++ openItems (last :: items))
  | nameOrEnd {outer : List Frame} {before : List Token} (awaits : Awaits outer before) :
      Taken (.inside (.object [] :: outer) .nameOrEnd) (before ++ [.openObject])
  | name {outer : List Frame} {before : List Token} {last : Option String × Draft}
      {members : List (Option String × Draft)} (awaits : Awaits outer before)
      (wellFormed : ∀ member ∈ last :: members, member.2.wellFormed = true) :
      Taken (.inside (.object (last :: members) :: outer) .name)
        (before ++ (openMembers (last :: members) ++ [.comma]))
  | members {outer : List Frame} {before : List Token} {last : Option String × Draft}
      {members : List (Option String × Draft)} (awaits : Awaits outer before)
      (wellFormed : ∀ member ∈ last :: members, member.2.wellFormed = true) :
      Taken (.inside (.object (last :: members) :: outer) .more)
        (before ++ openMembers (last :: members))
  | colon {outer : List Frame} {before : List Token} {name : Option String}
      {members : List (Option String × Draft)} (awaits : Awaits outer before)
      (wellFormed : ∀ member ∈ members, member.2.wellFormed = true) :
      Taken (.inside (.member name members :: outer) .colon)
        (before ++ (openMembers members ++ (separator members ++ [.string name])))
  | finished {root : Draft} (wellFormed : root.wellFormed = true) :
      Taken (.finished root) root.tokens

variable {frames outer : List Frame} {before : List Token} {state next : Assembly} {token : Token}

theorem Awaits.put (awaits : Awaits frames before) {draft : Draft}
    (wellFormed : draft.wellFormed = true) : Taken (put draft frames) (before ++ draft.tokens) := by
  cases awaits with
  | root => exact .finished wellFormed
  | item awaits others =>
      have taken := Taken.items awaits (List.forall_mem_cons.mpr ⟨wellFormed, others⟩)
      simpa only [Assembly.put, openItems, List.append_assoc] using taken
  | @member _ _ name _ awaits others =>
      have taken := @Taken.members _ _ (name, draft) _ awaits
        (List.forall_mem_cons.mpr ⟨wellFormed, others⟩)
      simpa only [Assembly.put, openMembers, List.append_assoc, List.cons_append,
        List.nil_append] using taken

/-- Where a value is due, a token is a value or opens one. -/
theorem Awaits.step (awaits : Awaits frames before) {due : Due}
    (isDue : due = .value ∨ due = .valueOrEnd) (noEnd : token ≠ .closeArray)
    (stepped : (inside frames due).step token = some next) : Taken next (before ++ [token]) := by
  cases token with
  | null =>
      rcases isDue with rfl | rfl <;> cases stepped <;>
        exact awaits.put (show Draft.null.wellFormed = true from rfl)
  | boolean b =>
      rcases isDue with rfl | rfl <;> cases stepped <;>
        exact awaits.put (show (Draft.boolean b).wellFormed = true from rfl)
  | number n =>
      rcases isDue with rfl | rfl <;> cases stepped <;>
        exact awaits.put (show (Draft.number n).wellFormed = true from rfl)
  | string text =>
      rcases isDue with rfl | rfl <;> cases stepped <;>
        exact awaits.put (show (Draft.string text).wellFormed = true from rfl)
  | openArray => rcases isDue with rfl | rfl <;> cases stepped <;> exact .valueOrEnd awaits
  | openObject => rcases isDue with rfl | rfl <;> cases stepped <;> exact .nameOrEnd awaits
  | closeArray => exact absurd rfl noEnd
  | _ => rcases isDue with rfl | rfl <;> cases awaits <;> cases stepped

theorem Taken.of_finished {root : Draft} {tokens : List Token}
    (taken : Taken (.finished root) tokens) : root.wellFormed = true ∧ tokens = root.tokens := by
  cases taken with
  | finished wellFormed => exact ⟨wellFormed, rfl⟩

/-- Every step adds its token to those that have been taken. -/
theorem Taken.step (taken : Taken state before) (stepped : state.step token = some next) :
    Taken next (before ++ [token]) := by
  cases taken with
  | value awaits =>
      have noEnd : token ≠ .closeArray := by
        rintro rfl
        cases awaits <;> cases stepped
      exact awaits.step (Or.inl rfl) noEnd stepped
  | @valueOrEnd outer before awaits =>
      by_cases isEnd : token = .closeArray
      · subst isEnd
        cases stepped
        have taken := awaits.put (show (Draft.array [] true).wellFormed = true from rfl)
        rwa [List.append_assoc]
      · have awaitsItem := awaits.item (List.forall_mem_nil _)
        exact awaitsItem.step (Or.inr rfl) isEnd stepped
  | @items outer before last items awaits wellFormed =>
      cases token with
      | closeArray =>
          cases stepped
          have taken := awaits.put (wellFormed_array.mpr ⟨rfl, fun item membership =>
            wellFormed item (List.mem_reverse.mp membership)⟩)
          rwa [tokens_array_reverse, ← List.append_assoc] at taken
      | comma =>
          cases stepped
          have taken := Taken.value (awaits.item wellFormed)
          rwa [separator, ← List.append_assoc] at taken
      | _ => cases stepped
  | nameOrEnd awaits =>
      cases token with
      | closeObject =>
          cases stepped
          have taken := awaits.put (show (Draft.object [] true).wellFormed = true from rfl)
          rwa [List.append_assoc]
      | string name =>
          cases stepped
          have taken := @Taken.colon _ _ name [] awaits (List.forall_mem_nil _)
          rwa [List.append_assoc]
      | _ => cases stepped
  | name awaits wellFormed =>
      cases token with
      | string name =>
          cases stepped
          have taken := @Taken.colon _ _ name _ awaits wellFormed
          simpa only [separator, List.append_assoc] using taken
      | _ => cases stepped
  | @members outer before last members awaits wellFormed =>
      cases token with
      | closeObject =>
          cases stepped
          have taken := awaits.put (wellFormed_object.mpr ⟨rfl, fun member membership =>
            wellFormed member (List.mem_reverse.mp membership)⟩)
          rwa [tokens_object_reverse, ← List.append_assoc] at taken
      | comma =>
          cases stepped
          have taken := Taken.name awaits wellFormed
          rwa [← List.append_assoc] at taken
      | _ => cases stepped
  | @colon outer before name members awaits wellFormed =>
      cases token with
      | colon =>
          cases stepped
          have taken := Taken.value (@Awaits.member _ _ name _ awaits wellFormed)
          simpa only [List.append_assoc, List.cons_append, List.nil_append] using taken
      | _ => cases stepped
  | finished => cases token <;> cases stepped

/-- So does every run. -/
theorem Taken.run {tokens rest : List Token} (taken : Taken state before)
    (ran : run state tokens = (next, rest)) :
    ∃ front, tokens = front ++ rest ∧ Taken next (before ++ front) := by
  induction tokens generalizing state before with
  | nil =>
      cases ran
      exact ⟨[], rfl, by rwa [List.append_nil]⟩
  | cons token tokens inductionHypothesis =>
      rw [Assembly.run] at ran
      split at ran
      next stepped =>
        obtain ⟨front, rfl, taken⟩ := inductionHypothesis (taken.step stepped) ran
        exact ⟨token :: front, rfl, by rwa [List.append_assoc] at taken⟩
      next =>
        cases ran
        exact ⟨[], rfl, by rwa [List.append_nil]⟩

/-- A run does not get past an unreadable place. -/
theorem unreadable_mem_of_run {tokens rest : List Token}
    (ran : Assembly.run state tokens = (next, rest)) (unreadable : Token.unreadable ∈ tokens) :
    Token.unreadable ∈ rest := by
  induction tokens generalizing state with
  | nil => cases unreadable
  | cons token tokens inductionHypothesis =>
      rw [Assembly.run] at ran
      split at ran
      next stepped =>
        rcases List.mem_cons.mp unreadable with rfl | behind
        · cases state <;> cases stepped
        · exact inductionHypothesis ran behind
      next =>
        cases ran
        exact unreadable

end Assembly

namespace Draft

open Token

theorem separate_cons {token : Token} {tokens : List Token} (noNumber : token.isNumber = false)
    (separate : Separate tokens) : Separate (token :: tokens) := by
  refine List.isChain_cons.mpr ⟨fun next _ isNumber => ?_, separate⟩
  rw [noNumber] at isNumber
  cases isNumber

theorem noNumber_itemTokens (items : List Draft) (rest : List Token) :
    ∀ token ∈ (itemTokens items ++ rest).head?, token.isNumber = false := by
  cases items <;> simp [itemTokens, isNumber]

theorem noNumber_memberTokens (members : List (Option String × Draft)) (rest : List Token) :
    ∀ token ∈ (memberTokens members ++ rest).head?, token.isNumber = false := by
  cases members <;> simp [memberTokens, isNumber]

mutual

/-- The numbers of a value are kept apart by commas. -/
theorem separate_tokens (draft : Draft) {rest : List Token} (separate : Separate rest)
    (noNumber : ∀ token ∈ rest.head?, token.isNumber = false) :
    Separate (draft.tokens ++ rest) := by
  match draft with
  | .number n =>
      refine List.isChain_cons.mpr ⟨?_, separate⟩
      intro token membership _
      exact noNumber token membership
  | .null => exact separate_cons rfl separate
  | .boolean _ => exact separate_cons rfl separate
  | .string _ => exact separate_cons rfl separate
  | .broken => exact separate_cons rfl separate
  | .array [] _ => exact separate_cons rfl (separate_cons rfl separate)
  | .array (first :: more) _ =>
      rw [tokens, List.cons_append, List.append_assoc]
      apply separate_cons rfl
      exact separate_tokens first (separate_itemTokens more separate) (noNumber_itemTokens more rest)
  | .object [] _ => exact separate_cons rfl (separate_cons rfl separate)
  | .object ((name, value) :: more) _ =>
      rw [tokens, List.cons_append, List.cons_append, List.cons_append, List.append_assoc]
      apply separate_cons rfl
      apply separate_cons rfl
      apply separate_cons rfl
      exact separate_tokens value (separate_memberTokens more separate)
        (noNumber_memberTokens more rest)

theorem separate_itemTokens (items : List Draft) {rest : List Token} (separate : Separate rest) :
    Separate (itemTokens items ++ rest) := by
  match items with
  | [] => exact separate_cons rfl separate
  | item :: more =>
      rw [itemTokens, List.cons_append, List.append_assoc]
      apply separate_cons rfl
      exact separate_tokens item (separate_itemTokens more separate) (noNumber_itemTokens more rest)

theorem separate_memberTokens (members : List (Option String × Draft)) {rest : List Token}
    (separate : Separate rest) : Separate (memberTokens members ++ rest) := by
  match members with
  | [] => exact separate_cons rfl separate
  | (name, value) :: more =>
      rw [memberTokens, List.cons_append, List.cons_append, List.cons_append, List.append_assoc]
      apply separate_cons rfl
      apply separate_cons rfl
      apply separate_cons rfl
      exact separate_tokens value (separate_memberTokens more separate)
        (noNumber_memberTokens more rest)

end

/-- The text is JSON and holds this value: its tokens are spelled out in order, with blanks
wherever they may stand. -/
structure SpelledBy (reading : FloatReading) (draft : Draft) (text : String) : Prop where
  wellFormed : draft.wellFormed = true
  spells : Token.Spells reading text.toList draft.tokens

end Draft

namespace Document

theorem ofTokens_sound {tokens : List Token} {root : Draft}
    (whole : ofTokens tokens = ⟨root, true⟩) :
    root.wellFormed = true ∧ tokens = root.tokens ∧ Token.unreadable ∉ tokens := by
  unfold ofTokens at whole
  split at whole
  next root' rest ran =>
    obtain ⟨rfl, nothing⟩ := Document.mk.inj whole
    obtain rfl := List.isEmpty_iff.mp nothing
    obtain ⟨front, rfl, taken⟩ := (Assembly.Taken.value .root).run ran
    obtain ⟨wellFormed, tokens_eq⟩ := taken.of_finished
    refine ⟨wellFormed, ?_, fun unreadable => ?_⟩
    · rw [List.append_nil, ← tokens_eq, List.nil_append]
    · cases Assembly.unreadable_mem_of_run ran unreadable
  next => cases whole

/-- A text is read to its end as a value if and only if it is JSON and holds the value. -/
theorem ofTextUnder_eq_iff {reading : FloatReading} {text : String} {root : Draft} :
    ofTextUnder reading text = ⟨root, true⟩ ↔ root.SpelledBy reading text := by
  constructor
  · intro whole
    obtain ⟨wellFormed, tokens_eq, readable⟩ := ofTokens_sound whole
    exact ⟨wellFormed, tokens_eq ▸ Token.spells_scan readable⟩
  · rintro ⟨wellFormed, spells⟩
    have separate : Token.Separate (root.tokens ++ []) :=
      root.separate_tokens .nil fun _ membership => nomatch membership
    rw [List.append_nil] at separate
    rw [ofTextUnder, Token.scan_of_spells spells separate, ofTokens_tokens wellFormed]

end Document

namespace Draft.SpelledBy

variable {reading : FloatReading}

/-- A text holds one value at most. -/
theorem unique {text : String} {draft other : Draft} (spelled : draft.SpelledBy reading text)
    (spelledOther : other.SpelledBy reading text) : draft = other := by
  have whole := Document.ofTextUnder_eq_iff.mpr spelled
  rw [Document.ofTextUnder_eq_iff.mpr spelledOther] at whole
  exact (Document.mk.inj whole).1.symm

theorem compact {value : Value} (writable : value.Writable) :
    (value.draft reading).SpelledBy reading value.compact :=
  Document.ofTextUnder_eq_iff.mp (Document.ofTextUnder_compact writable)

theorem pretty {value : Value} (writable : value.Writable) :
    (value.draft reading).SpelledBy reading value.pretty :=
  Document.ofTextUnder_eq_iff.mp (Document.ofTextUnder_pretty writable)

end Draft.SpelledBy

namespace Codec

variable {α : Type} {codec : Codec α} {reading : FloatReading} {text : String} {value : α}

/-- A text is decoded as the value that is read from what it spells. -/
theorem decodeUnder_eq_ok_iff :
    codec.decodeUnder reading text = .ok value ↔
      ∃ draft : Draft, draft.SpelledBy reading text ∧ codec.read depthLimit draft = .ok value := by
  constructor
  · intro decoded
    obtain ⟨value', read, kept⟩ := bind_eq_ok_iff.mp decoded
    split at kept
    next ends =>
      cases kept
      refine ⟨(Document.ofTextUnder reading text).root, Document.ofTextUnder_eq_iff.mp ?_, read⟩
      rw [← ends]
    next => cases kept
  · rintro ⟨draft, spelled, read⟩
    rw [decodeUnder, Document.ofTextUnder_eq_iff.mpr spelled]
    simp only [read, bind, Except.bind, if_true]

end Codec

end TableReport.Json
