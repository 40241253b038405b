import TableReport.Json.Codec
import TableReport.Proofs.Json.Range
import TableReport.Proofs.Outcome

/-!
Two laws carry every round trip through a text. What a codec reads from a
document lies in a class of values, since a document has no infinities; and a
value of this class is written as JSON that is read as it again, but for its
floats, which come back as the reading of decimals has them. Outside of the class a
value may still come back as another one, as an infinity does that is written as
`null` and read as a NaN.
-/

namespace TableReport

/-- A double as it comes back from a place where `null` stands for NaN. -/
def Binary64.orNaN (x : Binary64) : Binary64 := if x.isFinite then x else .nan

@[simp] theorem Binary64.orNaN_nan : nan.orNaN = nan := rfl

namespace Json

variable {α : Type} {reading : FloatReading}

/-- The JSON value stands for `restored` at every place where the codec reads. -/
structure Codec.ReadsAs (reading : FloatReading) (codec : Codec α) (value : Value) (restored : α) :
    Prop where
  writable : value.Writable
  read : ∀ limit, codec.read limit (value.draft reading) = .ok restored

/-- What is written for one value is read as another, most often the same. -/
def Codec.ReadsBack (reading : FloatReading) (codec : Codec α) (written restored : α) : Prop :=
  ∃ value, codec.write written = some value ∧ codec.ReadsAs reading value restored

/-- All that the codec reads from a document has a property. -/
def Codec.Yields (codec : Codec α) (property : α → Prop) : Prop :=
  ∀ {limit : Nat} {draft : Draft} {x : α},
    draft.InRange → codec.read limit draft = .ok x → property x

theorem Draft.refuse_ne_ok (draft : Draft) (wanted : Wanted) (x : α) :
    draft.refuse wanted ≠ .ok x := by
  unfold refuse
  split <;> simp

namespace Codec

theorem yields_any (codec : Codec α) : codec.Yields fun _ => True := fun _ _ => trivial

section Written

theorem text_readsBack (text : String) : Codec.text.ReadsBack reading text text :=
  ⟨.string text, rfl, trivial, fun _ => rfl⟩

theorem flag_readsBack (b : Bool) : flag.ReadsBack reading b b :=
  ⟨.boolean b, rfl, trivial, fun _ => rfl⟩

theorem signed_readsBack (n : Int64) : signed.ReadsBack reading n n := by
  refine ⟨.integer n.toInt, rfl, Value.writable_toInt n, fun _ => ?_⟩
  exact (if_pos ⟨n.le_toInt, n.toInt_lt⟩).trans (congrArg Except.ok n.ofInt_toInt)

theorem unsigned_readsBack (n : UInt64) : unsigned.ReadsBack reading n n := by
  have high : n.toNat < 2 ^ 64 := n.toNat_lt
  have fits : (0 : Int) ≤ n.toNat ∧ (n.toNat : Int) < 2 ^ 64 := by omega
  refine ⟨.integer n.toNat, rfl, Value.writable_toNat n, fun _ => ?_⟩
  simp only [unsigned, Value.integer, Value.draft, Number.reread]
  rw [if_pos fits, Int.toNat_natCast, UInt64.ofNat_toNat]

theorem real_of_isFinite {x : Binary64} (finite : x.isFinite = true) :
    Value.real x = .number (.real x) := if_pos finite

theorem float_readsBack (keeps : reading.KeepsFinite) {x : Binary64} (finite : x.isFinite = true) :
    float.ReadsBack reading x (reading.reread x) := by
  refine ⟨.real x, rfl, Value.writable_real x, fun _ => ?_⟩
  rw [real_of_isFinite finite]
  exact if_pos (keeps x finite)

/-- A codec that has no use for `null` leaves it to the codecs around it. -/
def RefusesNull (codec : Codec α) : Prop := ∀ limit x, codec.read limit .null ≠ .ok x

theorem ReadsAs.draft_ne_null {codec : Codec α} {value : Value} {restored : α}
    (reads : codec.ReadsAs reading value restored) (refuses : codec.RefusesNull) :
    value.draft reading ≠ .null := by
  intro null
  exact refuses 0 restored (null ▸ reads.read 0)

theorem text_refusesNull : text.RefusesNull := fun _ => Draft.refuse_ne_ok .null .text

theorem float_refusesNull : float.RefusesNull := fun _ => Draft.refuse_ne_ok .null .float

theorem list_refusesNull (codec : Codec α) : (list codec).RefusesNull :=
  fun _ => Draft.refuse_ne_ok .null .list

theorem floatOrNaN_readsBack (keeps : reading.KeepsFinite) (x : Binary64) :
    floatOrNaN.ReadsBack reading x (reading.reread x.orNaN) := by
  by_cases finite : x.isFinite = true
  · obtain ⟨value, writes, reads⟩ := float_readsBack keeps finite
    refine ⟨value, writes, reads.writable, fun limit => ?_⟩
    have notNull := reads.draft_ne_null float_refusesNull
    simp only [floatOrNaN, Binary64.orNaN, if_pos finite, reads.read]
  · rw [Binary64.orNaN, if_neg finite, FloatReading.reread_of_not_isFinite (by decide)]
    exact ⟨.null, by simp [floatOrNaN, Value.real, finite], trivial, fun _ => rfl⟩

theorem ReadsAs.optional {codec : Codec α} {value : Value} {restored : α}
    (reads : codec.ReadsAs reading value restored) (refuses : codec.RefusesNull) :
    (optional codec).ReadsAs reading value (some restored) where
  writable := reads.writable
  read limit := by
    have notNull := reads.draft_ne_null refuses
    simp only [Codec.optional, reads.read]
    rfl

theorem null_readsAs_none (codec : Codec α) : (optional codec).ReadsAs reading .null none :=
  ⟨trivial, fun _ => rfl⟩

theorem optional_readsBack {codec : Codec α} (refuses : codec.RefusesNull) {value : Option α}
    (back : ∀ x ∈ value, codec.ReadsBack reading x x) :
    (optional codec).ReadsBack reading value value := by
  cases value with
  | none => exact ⟨.null, rfl, null_readsAs_none codec⟩
  | some x =>
      obtain ⟨value, writes, reads⟩ := back x rfl
      exact ⟨value, writes, reads.optional refuses⟩

theorem readItems_drafts {codec : Codec α} {values : List α} {change : α → α}
    (back : ∀ x ∈ values, codec.ReadsBack reading x (change x)) (limit : Nat) :
    readItems codec limit (Value.itemDrafts reading (values.filterMap codec.write)) =
      .ok (values.map change) := by
  induction values with
  | nil => rfl
  | cons first rest inductionHypothesis =>
      obtain ⟨⟨value, writes, reads⟩, back⟩ := List.forall_mem_cons.mp back
      rw [List.filterMap_cons, writes, Value.itemDrafts, readItems, reads.read,
        inductionHypothesis back]
      rfl

theorem itemsWritable_filterMap {codec : Codec α} {values : List α} {change : α → α}
    (back : ∀ x ∈ values, codec.ReadsBack reading x (change x)) :
    Value.ItemsWritable (values.filterMap codec.write) := by
  induction values with
  | nil => trivial
  | cons first rest inductionHypothesis =>
      obtain ⟨⟨value, writes, reads⟩, back⟩ := List.forall_mem_cons.mp back
      rw [List.filterMap_cons, writes]
      exact ⟨reads.writable, inductionHypothesis back⟩

theorem list_readsBack {codec : Codec α} {values : List α} {change : α → α}
    (back : ∀ x ∈ values, codec.ReadsBack reading x (change x)) :
    (list codec).ReadsBack reading values (values.map change) :=
  ⟨.array (values.filterMap codec.write), rfl, itemsWritable_filterMap back, fun limit => by
    simp only [list, Value.draft, readItems_drafts back]
    rfl⟩

end Written

section Read

theorem float_yields : float.Yields fun x => x.isFinite = true := by
  intro limit draft x inRange read
  unfold float at read
  dsimp only at read
  split at read
  next n =>
    cases inRange with
    | number inRange =>
        split at read
        next finite => exact Except.ok.inj read ▸ Number.Writable.isFinite_toBinary64 ⟨inRange, finite⟩
        next => cases read
  next => exact absurd read (Draft.refuse_ne_ok _ _ _)

theorem floatOrNaN_yields : floatOrNaN.Yields fun x => x.orNaN = x := by
  intro limit draft x inRange read
  unfold floatOrNaN at read
  dsimp only at read
  split at read
  next => exact Except.ok.inj read ▸ rfl
  next => exact if_pos (float_yields inRange read)

theorem optional_yields {codec : Codec α} {property : α → Prop} (yields : codec.Yields property) :
    (optional codec).Yields fun value => ∀ x ∈ value, property x := by
  intro limit draft value inRange read
  unfold optional at read
  dsimp only at read
  split at read
  next =>
    cases read
    exact fun _ membership => nomatch membership
  next =>
    obtain ⟨x, innerRead, rfl⟩ := map_eq_ok_iff.mp read
    exact fun _ membership => Option.some.inj membership ▸ yields inRange innerRead

theorem readItems_eq_ok {codec : Codec α} {limit : Nat} {items : List Draft} {values : List α}
    (read : readItems codec limit items = .ok values) :
    ∀ x ∈ values, ∃ item ∈ items, codec.read limit item = .ok x := by
  induction items generalizing values with
  | nil =>
      cases read
      simp
  | cons item items inductionHypothesis =>
      obtain ⟨first, firstRead, others⟩ := bind_eq_ok_iff.mp read
      obtain ⟨rest, restRead, same⟩ := bind_eq_ok_iff.mp others
      cases same
      refine List.forall_mem_cons.mpr ⟨⟨item, List.mem_cons_self, firstRead⟩, ?_⟩
      intro x membership
      obtain ⟨other, otherMembership, otherRead⟩ := inductionHypothesis restRead x membership
      exact ⟨other, List.mem_cons_of_mem _ otherMembership, otherRead⟩

theorem list_yields {codec : Codec α} {property : α → Prop} (yields : codec.Yields property) :
    (list codec).Yields fun values => ∀ x ∈ values, property x := by
  intro limit draft values inRange read
  unfold list at read
  dsimp only at read
  split at read
  next items closed =>
    obtain ⟨found, itemsRead, same⟩ := bind_eq_ok_iff.mp read
    cases inRange with
    | array inRange =>
        split at same <;> cases same
        intro x membership
        obtain ⟨item, itemMembership, itemRead⟩ := readItems_eq_ok itemsRead x membership
        exact yields (inRange item itemMembership) itemRead
  next => exact absurd read (Draft.refuse_ne_ok _ _ _)

end Read

section Texts

/-- The way through the text makes no difference to what is read. -/
theorem decodeUnder_encode_eq_read {codec : Codec α} {written : α} {value : Value}
    (writes : codec.write written = some value) (writable : value.Writable) :
    codec.decodeUnder reading (codec.encode written) =
      codec.read depthLimit (value.draft reading) := by
  rw [decodeUnder, encode, writes, Value.orNull, Document.ofTextUnder_compact writable]
  cases codec.read depthLimit (value.draft reading) <;> rfl

theorem decodeUnder_encode {codec : Codec α} {written restored : α}
    (back : codec.ReadsBack reading written restored) :
    codec.decodeUnder reading (codec.encode written) = .ok restored := by
  obtain ⟨value, writes, reads⟩ := back
  rw [decodeUnder_encode_eq_read writes reads.writable, reads.read]

theorem read_of_decodeUnder {codec : Codec α} {text : String} {x : α}
    (decoded : codec.decodeUnder reading text = .ok x) :
    codec.read depthLimit (Document.ofTextUnder reading text).root = .ok x := by
  obtain ⟨found, read, ended⟩ := bind_eq_ok_iff.mp decoded
  split at ended
  next => rwa [← Except.ok.inj ended]
  next => cases ended

theorem Yields.of_decodeUnder {codec : Codec α} {property : α → Prop}
    (yields : codec.Yields property) {text : String} {x : α}
    (decoded : codec.decodeUnder reading text = .ok x) : property x :=
  yields (Document.ofTextUnder_inRange reading text) (read_of_decodeUnder decoded)

end Texts

end Codec

end Json

end TableReport
