import TableReport.Proofs.Json.Draft

/-!
Every integer of a document fits 64 bits, since a longer numeral is taken for a
double. This is kept by each token that is taken, so it holds of the open
containers at any time, and of the draft that is left when the text ends early.
-/

namespace TableReport.Json

/-- Every integer of the draft fits 64 bits. -/
inductive Draft.InRange : Draft → Prop
  | null : InRange .null
  | boolean (b : Bool) : InRange (.boolean b)
  | number {n : Number} (inRange : n.InRange) : InRange (.number n)
  | string (text : Option String) : InRange (.string text)
  | array {items : List Draft} (inRange : ∀ item ∈ items, InRange item) (closed : Bool) :
      InRange (.array items closed)
  | object {members : List (Option String × Draft)}
      (inRange : ∀ member ∈ members, InRange member.2) (closed : Bool) :
      InRange (.object members closed)
  | broken : InRange .broken

namespace Draft

theorem InRange.array_reverse {items : List Draft} (inRange : ∀ item ∈ items, item.InRange)
    (closed : Bool) : (Draft.array items.reverse closed).InRange :=
  .array (fun item membership => inRange item (List.mem_reverse.mp membership)) closed

theorem InRange.object_reverse {members : List (Option String × Draft)}
    (inRange : ∀ member ∈ members, member.2.InRange) (closed : Bool) :
    (Draft.object members.reverse closed).InRange :=
  .object (fun member membership => inRange member (List.mem_reverse.mp membership)) closed

theorem inRange_cons_member (name : Option String) {value : Draft} (inRange : value.InRange)
    {members : List (Option String × Draft)} (others : ∀ member ∈ members, member.2.InRange) :
    ∀ member ∈ (name, value) :: members, member.2.InRange :=
  List.forall_mem_cons.mpr ⟨inRange, others⟩

end Draft

def Token.InRange : Token → Prop
  | .number n => n.InRange
  | _ => True

namespace Token

theorem next?_inRange {reading : FloatReading} {c : Char} {text rest : List Char} {token : Token}
    (found : next? reading c text = some (token, rest)) : token.InRange := by
  unfold next? at found
  split at found
  case h_11 =>
    simp only [Option.map_eq_some_iff, Prod.mk.injEq] at found
    obtain ⟨⟨numeral, _⟩, _, rfl, _⟩ := found
    exact Number.ofNumeral_inRange numeral
  case h_7 | h_8 | h_9 | h_10 =>
    simp only [Option.map_eq_some_iff, Prod.mk.injEq] at found
    obtain ⟨_, _, rfl, _⟩ := found
    exact trivial
  all_goals
    simp only [Option.some.injEq, Prod.mk.injEq] at found
    exact found.1 ▸ trivial

theorem scan_inRange (reading : FloatReading) (text : List Char) :
    ∀ token ∈ scan reading text, token.InRange := by
  fun_induction scan reading text with
  | case1 => simp
  | case2 c rest blank inductionHypothesis => exact inductionHypothesis
  | case3 c rest notBlank token rest' found inductionHypothesis =>
      simpa using ⟨next?_inRange found, inductionHypothesis⟩
  | case4 => simp [InRange]

end Token

def Frame.InRange : Frame → Prop
  | .array items => ∀ item ∈ items, item.InRange
  | .object members => ∀ member ∈ members, member.2.InRange
  | .member _ members => ∀ member ∈ members, member.2.InRange

namespace Assembly

def InRange : Assembly → Prop
  | .inside frames _ => ∀ frame ∈ frames, frame.InRange
  | .finished root => root.InRange

theorem put_inRange {value : Draft} {frames : List Frame} (inRange : value.InRange)
    (outside : ∀ frame ∈ frames, frame.InRange) : (put value frames).InRange := by
  cases frames with
  | nil => exact inRange
  | cons frame outer =>
      obtain ⟨inner, outer⟩ := List.forall_mem_cons.mp outside
      cases frame with
      | array =>
          exact List.forall_mem_cons.mpr ⟨List.forall_mem_cons.mpr ⟨inRange, inner⟩, outer⟩
      | object => exact List.forall_mem_cons.mpr ⟨inner, outer⟩
      | member =>
          exact List.forall_mem_cons.mpr ⟨List.forall_mem_cons.mpr ⟨inRange, inner⟩, outer⟩

theorem step_inRange {state next : Assembly} {token : Token} (inRange : state.InRange)
    (tokenInRange : token.InRange) (stepped : state.step token = some next) : next.InRange := by
  unfold step at stepped
  -- One case for each token. A scalar or a closed container is put into the frame
  -- around it, an opened one starts an empty frame, and the others move no value.
  split at stepped
  case h_1 => split at stepped <;> cases stepped <;> exact put_inRange .null inRange
  case h_2 => split at stepped <;> cases stepped <;> exact put_inRange (.boolean _) inRange
  case h_3 => split at stepped <;> cases stepped <;> exact put_inRange (.number tokenInRange) inRange
  case h_4 =>
    split at stepped <;> cases stepped
    case h_1 | h_2 => exact put_inRange (.string _) inRange
    case h_3 | h_4 =>
      have ⟨inner, outer⟩ := List.forall_mem_cons.mp inRange
      exact List.forall_mem_cons.mpr ⟨inner, outer⟩
  case h_5 =>
    split at stepped <;> cases stepped <;>
      exact List.forall_mem_cons.mpr ⟨List.forall_mem_nil _, inRange⟩
  case h_6 =>
    split at stepped <;> cases stepped <;>
      exact List.forall_mem_cons.mpr ⟨List.forall_mem_nil _, inRange⟩
  case h_7 =>
    have ⟨inner, outer⟩ := List.forall_mem_cons.mp inRange
    split at stepped <;> cases stepped <;> exact put_inRange (.array_reverse inner true) outer
  case h_8 =>
    have ⟨inner, outer⟩ := List.forall_mem_cons.mp inRange
    split at stepped <;> cases stepped <;> exact put_inRange (.object_reverse inner true) outer
  case h_9 | h_10 | h_11 =>
    cases stepped
    exact inRange
  case h_12 => cases stepped

theorem run_inRange {state : Assembly} (inRange : state.InRange) {tokens : List Token}
    (tokensInRange : ∀ token ∈ tokens, token.InRange) : (state.run tokens).1.InRange := by
  fun_induction run state tokens with
  | case1 => exact inRange
  | case2 state token rest next stepped inductionHypothesis =>
      obtain ⟨tokenInRange, restInRange⟩ := List.forall_mem_cons.mp tokensInRange
      exact inductionHypothesis (step_inRange inRange tokenInRange stepped) restInRange
  | case3 => exact inRange

theorem abandonOuter_inRange {inner : Draft} (inRange : inner.InRange) {frames : List Frame}
    (outside : ∀ frame ∈ frames, frame.InRange) : (abandonOuter inner frames).InRange := by
  fun_induction abandonOuter inner frames with
  | case1 => exact inRange
  | case2 inner items outer inductionHypothesis =>
      obtain ⟨itemsInRange, outside⟩ := List.forall_mem_cons.mp outside
      exact inductionHypothesis
        (.array_reverse (List.forall_mem_cons.mpr ⟨inRange, itemsInRange⟩) false) outside
  | case3 inner name members outer inductionHypothesis =>
      obtain ⟨membersInRange, outside⟩ := List.forall_mem_cons.mp outside
      exact inductionHypothesis
        (.object_reverse (Draft.inRange_cons_member name inRange membersInRange) false) outside
  | case4 inner members outer inductionHypothesis =>
      obtain ⟨membersInRange, outside⟩ := List.forall_mem_cons.mp outside
      exact inductionHypothesis (.object_reverse membersInRange false) outside

theorem abandon_inRange {frames : List Frame} (outside : ∀ frame ∈ frames, frame.InRange) :
    (abandon frames).InRange := by
  cases frames with
  | nil => exact .broken
  | cons frame outer =>
      obtain ⟨inner, outer⟩ := List.forall_mem_cons.mp outside
      cases frame with
      | array => exact abandonOuter_inRange (.array_reverse inner false) outer
      | object => exact abandonOuter_inRange (.object_reverse inner false) outer
      | member name =>
          exact abandonOuter_inRange
            (.object_reverse (Draft.inRange_cons_member name .broken inner) false) outer

end Assembly

/-- Every integer of a document fits 64 bits. -/
theorem Document.ofTextUnder_inRange (reading : FloatReading) (text : String) :
    (ofTextUnder reading text).root.InRange := by
  have reached := Assembly.run_inRange
    (show Assembly.start.InRange from List.forall_mem_nil _)
    (Token.scan_inRange reading text.toList)
  unfold ofTextUnder ofTokens
  split
  next ended =>
    rw [ended] at reached
    exact reached
  next ended =>
    rw [ended] at reached
    exact Assembly.abandon_inRange reached

end TableReport.Json
