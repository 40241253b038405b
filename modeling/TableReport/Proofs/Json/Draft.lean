import TableReport.Json.Draft
import TableReport.Proofs.Json.Token

/-!
The tokens of a value are assembled to the draft of that value. A run over the
tokens of one value ends where that value is put into the innermost open
container, whatever containers are open and whatever tokens follow. So the text
that is written of a value is a document that holds just this value, its floats as
they come back under the reading of decimals.
-/

namespace TableReport.Json

variable {reading : FloatReading}

namespace Value

mutual

/-- What a reader has of a value that was written whole. -/
def draft (reading : FloatReading) : Value → Draft
  | .null => .null
  | .boolean b => .boolean b
  | .number n => .number (n.reread reading)
  | .string text => .string (some text)
  | .array items => .array (itemDrafts reading items) true
  | .object members => .object (memberDrafts reading members) true

def itemDrafts (reading : FloatReading) : List Value → List Draft
  | [] => []
  | item :: rest => item.draft reading :: itemDrafts reading rest

def memberDrafts (reading : FloatReading) : List (String × Value) → List (Option String × Draft)
  | [] => []
  | (name, value) :: rest => (some name, value.draft reading) :: memberDrafts reading rest

end

mutual

theorem wellFormed_draft (value : Value) : (value.draft reading).wellFormed = true := by
  match value with
  | .null => rfl
  | .boolean _ => rfl
  | .number _ => rfl
  | .string _ => rfl
  | .array items => simp [draft, Draft.wellFormed, allWellFormed_itemDrafts items]
  | .object members => simp [draft, Draft.wellFormed, membersWellFormed_memberDrafts members]

theorem allWellFormed_itemDrafts (items : List Value) :
    Draft.allWellFormed (itemDrafts reading items) = true := by
  match items with
  | [] => rfl
  | item :: rest =>
      simp [itemDrafts, Draft.allWellFormed, wellFormed_draft item, allWellFormed_itemDrafts rest]

theorem membersWellFormed_memberDrafts (members : List (String × Value)) :
    Draft.membersWellFormed (memberDrafts reading members) = true := by
  match members with
  | [] => rfl
  | (name, value) :: rest =>
      simp [memberDrafts, Draft.membersWellFormed, wellFormed_draft value,
        membersWellFormed_memberDrafts rest]

end

theorem itemDrafts_eq_map (items : List Value) :
    itemDrafts reading items = items.map (·.draft reading) := by
  induction items with
  | nil => rfl
  | cons item rest inductionHypothesis => rw [itemDrafts, inductionHypothesis, List.map_cons]

theorem memberDrafts_eq_map (members : List (String × Value)) :
    memberDrafts reading members =
      members.map fun (name, value) => (some name, value.draft reading) := by
  induction members with
  | nil => rfl
  | cons member rest inductionHypothesis =>
      rw [memberDrafts, inductionHypothesis, List.map_cons]

end Value

/-- The value of the only member of a name, in an object that is read to its end. -/
def Draft.member? (name : String) : Draft → Option Draft
  | .object members true =>
    match members.filter (·.1 == some name) with
    | [(_, value)] => some value
    | _ => none
  | _ => none

namespace Value

variable {members : List (String × Value)} {name : String} {value : Value}

theorem filter_memberDrafts (distinct : (members.map (·.1)).Nodup)
    (present : (name, value) ∈ members) :
    (memberDrafts reading members).filter (·.1 == some name) =
      [(some name, value.draft reading)] := by
  induction members with
  | nil => cases present
  | cons member rest inductionHypothesis =>
      obtain ⟨fresh, distinct⟩ := List.nodup_cons.mp distinct
      rcases List.mem_cons.mp present with rfl | present
      · have others : (memberDrafts reading rest).filter (·.1 == some name) = [] := by
          rw [memberDrafts_eq_map, List.filter_eq_nil_iff]
          intro entry membership same
          obtain ⟨other, otherMembership, rfl⟩ := List.mem_map.mp membership
          obtain rfl : other.1 = name := by simpa using same
          exact fresh (List.mem_map.mpr ⟨other, otherMembership, rfl⟩)
        simp [memberDrafts, others]
      · have different : member.1 ≠ name := by
          rintro rfl
          exact fresh (List.mem_map.mpr ⟨_, present, rfl⟩)
        simp [memberDrafts, different, inductionHypothesis distinct present]

theorem member?_draft (distinct : (members.map (·.1)).Nodup) (present : (name, value) ∈ members) :
    ((object members).draft reading).member? name = some (value.draft reading) := by
  simp only [draft, Draft.member?, filter_memberDrafts distinct present]

end Value

namespace Draft

mutual

/-- The tokens of a value that is read whole. -/
def tokens : Draft → List Token
  | .null => [.null]
  | .boolean b => [.boolean b]
  | .number n => [.number n]
  | .string text => [.string text]
  | .array [] _ => [.openArray, .closeArray]
  | .array (first :: rest) _ => .openArray :: (first.tokens ++ itemTokens rest)
  | .object [] _ => [.openObject, .closeObject]
  | .object ((name, value) :: rest) _ =>
    .openObject :: .string name :: .colon :: (value.tokens ++ memberTokens rest)
  | .broken => [.unreadable]

/-- The tokens behind the first item of an array. -/
def itemTokens : List Draft → List Token
  | [] => [.closeArray]
  | item :: rest => .comma :: (item.tokens ++ itemTokens rest)

/-- The tokens behind the first member of an object. -/
def memberTokens : List (Option String × Draft) → List Token
  | [] => [.closeObject]
  | (name, value) :: rest =>
    .comma :: .string name :: .colon :: (value.tokens ++ memberTokens rest)

end

theorem allWellFormed_iff {items : List Draft} :
    allWellFormed items = true ↔ ∀ item ∈ items, item.wellFormed = true := by
  induction items with
  | nil => simp [allWellFormed]
  | cons item rest inductionHypothesis => simp [allWellFormed, inductionHypothesis]

theorem membersWellFormed_iff {members : List (Option String × Draft)} :
    membersWellFormed members = true ↔ ∀ member ∈ members, member.2.wellFormed = true := by
  induction members with
  | nil => simp [membersWellFormed]
  | cons member rest inductionHypothesis => simp [membersWellFormed, inductionHypothesis]

theorem wellFormed_array {items : List Draft} {closed : Bool} :
    (array items closed).wellFormed = true ↔
      closed = true ∧ ∀ item ∈ items, item.wellFormed = true := by
  rw [wellFormed, Bool.and_eq_true, allWellFormed_iff]

theorem wellFormed_object {members : List (Option String × Draft)} {closed : Bool} :
    (object members closed).wellFormed = true ↔
      closed = true ∧ ∀ member ∈ members, member.2.wellFormed = true := by
  rw [wellFormed, Bool.and_eq_true, membersWellFormed_iff]

end Draft

namespace Value

mutual

theorem tokens_draft (value : Value) : (value.draft reading).tokens = value.tokens reading := by
  match value with
  | .null => rfl
  | .boolean _ => rfl
  | .number _ => rfl
  | .string _ => rfl
  | .array [] => rfl
  | .array (first :: rest) =>
      simp [draft, itemDrafts, Draft.tokens, tokens, tokens_draft first, itemTokens_itemDrafts rest]
  | .object [] => rfl
  | .object ((name, value) :: rest) =>
      simp [draft, memberDrafts, Draft.tokens, tokens, tokens_draft value,
        memberTokens_memberDrafts rest]

theorem itemTokens_itemDrafts (items : List Value) :
    Draft.itemTokens (itemDrafts reading items) = itemTokens reading items := by
  match items with
  | [] => rfl
  | item :: rest =>
      simp [itemDrafts, Draft.itemTokens, itemTokens, tokens_draft item, itemTokens_itemDrafts rest]

theorem memberTokens_memberDrafts (members : List (String × Value)) :
    Draft.memberTokens (memberDrafts reading members) = memberTokens reading members := by
  match members with
  | [] => rfl
  | (name, value) :: rest =>
      simp [memberDrafts, Draft.memberTokens, memberTokens, tokens_draft value,
        memberTokens_memberDrafts rest]

end

end Value

namespace Assembly

theorem run_of_step {state next : Assembly} {token : Token} (stepped : state.step token = some next)
    (rest : List Token) : run state (token :: rest) = run next rest := by
  rw [run, stepped]

open Draft

mutual

-- The frames around a value are any, for its items are run with one frame more.

/-- A run takes the tokens of a value and puts its draft into place. -/
theorem run_tokens (draft : Draft) (wellFormed : draft.wellFormed = true) (frames : List Frame)
    {due : Due} (isDue : due = .value ∨ due = .valueOrEnd) (rest : List Token) :
    run (.inside frames due) (draft.tokens ++ rest) = run (put draft frames) rest := by
  match draft with
  | .null => rcases isDue with rfl | rfl <;> rfl
  | .boolean _ => rcases isDue with rfl | rfl <;> rfl
  | .number _ => rcases isDue with rfl | rfl <;> rfl
  | .string _ => rcases isDue with rfl | rfl <;> rfl
  | .array items closed =>
      have opened : (inside frames due).step .openArray =
          some (.inside (.array [] :: frames) .valueOrEnd) := by
        rcases isDue with rfl | rfl <;> rfl
      obtain ⟨rfl, itemsWellFormed⟩ := wellFormed_array.mp wellFormed
      match items with
      | [] =>
          rw [tokens, List.cons_append, run_of_step opened]
          rfl
      | first :: more =>
          obtain ⟨firstWellFormed, moreWellFormed⟩ := List.forall_mem_cons.mp itemsWellFormed
          rw [tokens, List.cons_append, run_of_step opened, List.append_assoc,
            run_tokens first firstWellFormed _ (Or.inr rfl), put, run_itemTokens more moreWellFormed]
          rfl
  | .object members closed =>
      have opened : (inside frames due).step .openObject =
          some (.inside (.object [] :: frames) .nameOrEnd) := by
        rcases isDue with rfl | rfl <;> rfl
      obtain ⟨rfl, membersWellFormed⟩ := wellFormed_object.mp wellFormed
      match members with
      | [] =>
          rw [tokens, List.cons_append, run_of_step opened]
          rfl
      | (name, value) :: more =>
          obtain ⟨valueWellFormed, moreWellFormed⟩ := List.forall_mem_cons.mp membersWellFormed
          rw [tokens, List.cons_append, List.cons_append, List.cons_append, run_of_step opened,
            run_of_step rfl, run_of_step rfl, List.append_assoc,
            run_tokens value valueWellFormed _ (Or.inl rfl), put, run_memberTokens more moreWellFormed]
          rfl
  | .broken => cases wellFormed

theorem run_itemTokens (items : List Draft) (wellFormed : ∀ item ∈ items, item.wellFormed = true)
    (before : List Draft) (outer : List Frame) (rest : List Token) :
    run (.inside (.array before :: outer) .more) (itemTokens items ++ rest) =
      run (put (.array (before.reverse ++ items) true) outer) rest := by
  match items with
  | [] =>
      rw [itemTokens, List.cons_append, run_of_step rfl, List.append_nil, List.nil_append]
  | item :: more =>
      obtain ⟨itemWellFormed, moreWellFormed⟩ := List.forall_mem_cons.mp wellFormed
      rw [itemTokens, List.cons_append, run_of_step rfl, List.append_assoc,
        run_tokens item itemWellFormed _ (Or.inl rfl), put, run_itemTokens more moreWellFormed,
        List.reverse_cons, List.append_assoc]
      rfl

theorem run_memberTokens (members : List (Option String × Draft))
    (wellFormed : ∀ member ∈ members, member.2.wellFormed = true) (before : List (Option String × Draft))
    (outer : List Frame) (rest : List Token) :
    run (.inside (.object before :: outer) .more) (memberTokens members ++ rest) =
      run (put (.object (before.reverse ++ members) true) outer) rest := by
  match members with
  | [] =>
      rw [memberTokens, List.cons_append, run_of_step rfl, List.append_nil, List.nil_append]
  | (name, value) :: more =>
      obtain ⟨valueWellFormed, moreWellFormed⟩ := List.forall_mem_cons.mp wellFormed
      rw [memberTokens, List.cons_append, List.cons_append, List.cons_append, run_of_step rfl,
        run_of_step rfl, run_of_step rfl, List.append_assoc,
        run_tokens value valueWellFormed _ (Or.inl rfl), put, run_memberTokens more moreWellFormed,
        List.reverse_cons, List.append_assoc]
      rfl

end

end Assembly

namespace Document

theorem ofTokens_tokens {draft : Draft} (wellFormed : draft.wellFormed = true) :
    ofTokens draft.tokens = ⟨draft, true⟩ := by
  have taken : Assembly.start.run draft.tokens = (.finished draft, []) := by
    have taken := Assembly.run_tokens draft wellFormed [] (Or.inl rfl) []
    rwa [List.append_nil] at taken
  rw [ofTokens, taken]
  rfl

theorem ofTokens_value (value : Value) :
    ofTokens (value.tokens reading) = ⟨value.draft reading, true⟩ := by
  rw [← value.tokens_draft, ofTokens_tokens value.wellFormed_draft]

/-- The compact text of a value is a document that holds just this value. -/
theorem ofTextUnder_compact {value : Value} (writable : value.Writable) :
    ofTextUnder reading value.compact = ⟨value.draft reading, true⟩ := by
  rw [ofTextUnder, Value.scan_compact writable, ofTokens_value]

/-- So is its text spread over lines. -/
theorem ofTextUnder_pretty {value : Value} (writable : value.Writable) :
    ofTextUnder reading value.pretty = ⟨value.draft reading, true⟩ := by
  rw [ofTextUnder, Value.scan_pretty writable, ofTokens_value]

end Document

end TableReport.Json
