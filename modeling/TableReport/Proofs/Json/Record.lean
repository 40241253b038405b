import TableReport.Json.Record
import TableReport.Proofs.Json.Codec

/-!
Records in objects. Reading goes by names, so it does not matter in which order
the members stand, nor whether members of other names stand between them; what
matters is that each member of the record is there and can be read, or need not
be there. That every member of a written record comes back is a chain through
the half-filled records, from the blank one to the one that was written.
-/

namespace TableReport.Json

variable {ρ α : Type} {reading : FloatReading}

/-- The members of a record are read one after another from an object, each put
into the record that the ones before it have left. -/
inductive Fills (limit : Nat) (object : List (Option String × Draft)) :
    List (Member ρ) → ρ → ρ → Prop
  | done (record : ρ) : Fills limit object [] record record
  | found {member : Member ρ} {rest : List (Member ρ)} {draft : Draft} {put : ρ → ρ}
      {record filled : ρ} (present : (some member.name, draft) ∈ object)
      (reads : member.read limit draft = .ok put)
      (tail : Fills limit object rest (put record) filled) :
      Fills limit object (member :: rest) record filled
  | missing {member : Member ρ} {rest : List (Member ρ)} {record filled : ρ}
      (absent : some member.name ∉ object.map (·.1)) (spared : member.presence ≠ .required)
      (tail : Fills limit object rest record filled) :
      Fills limit object (member :: rest) record filled

/-- The members of a record are written one after another, and what is read for
each is put into the record that the ones before it have left. -/
inductive Restores (reading : FloatReading) (written : ρ) : List (Member ρ) → ρ → ρ → Prop
  | done (record : ρ) : Restores reading written [] record record
  | put {member : Member ρ} {rest : List (Member ρ)} {value : Value} {put : ρ → ρ}
      {record restored : ρ} (writes : member.write written = some value)
      (writable : value.Writable)
      (reads : ∀ limit, member.read limit (value.draft reading) = .ok put)
      (tail : Restores reading written rest (put record) restored) :
      Restores reading written (member :: rest) record restored
  | leftOut {member : Member ρ} {rest : List (Member ρ)} {record restored : ρ}
      (writes : member.write written = none) (spared : member.presence ≠ .required)
      (tail : Restores reading written rest record restored) :
      Restores reading written (member :: rest) record restored

theorem eq_of_nodup_map {β : Type} {f : α → β} {entries : List α}
    (distinct : (entries.map f).Nodup) {x y : α} (xPresent : x ∈ entries) (yPresent : y ∈ entries)
    (same : f x = f y) : x = y := by
  have differ := List.pairwise_map.mp distinct
  have alike : ∀ ⦃x⦄, x ∈ entries → ∀ ⦃y⦄, y ∈ entries → f x = f y → x = y :=
    List.Pairwise.forall_of_forall_of_flip (fun _ _ _ => rfl)
      (differ.imp fun different same => absurd same different)
      (differ.imp fun different same => absurd same.symm different)
  exact alike xPresent yPresent same

namespace Fills

variable {limit : Nat} {object : List (Option String × Draft)} {members : List (Member ρ)}
  {blank filled : ρ}

theorem reads (fills : Fills limit object members blank filled)
    (distinct : (object.map (·.1)).Nodup) {member : Member ρ} (membership : member ∈ members)
    {draft : Draft} (present : (some member.name, draft) ∈ object) :
    ∃ put, member.read limit draft = .ok put := by
  induction fills with
  | done => cases membership
  | @found first _ other put _ _ otherPresent reads _ inductionHypothesis =>
      rcases List.mem_cons.mp membership with rfl | membership
      · have same := eq_of_nodup_map distinct present otherPresent rfl
        exact ⟨put, (Prod.mk.inj same).2 ▸ reads⟩
      · exact inductionHypothesis membership
  | missing absent _ _ inductionHypothesis =>
      rcases List.mem_cons.mp membership with rfl | membership
      · exact absurd (List.mem_map_of_mem present) absent
      · exact inductionHypothesis membership

/-- What the first pass has collected is put together as the chain says. -/
theorem assemble_eq_ok (fills : Fills limit object members blank filled)
    {found : Record.Found ρ}
    (collected : ∀ member ∈ members, ∀ draft, (some member.name, draft) ∈ object → ∀ put,
      member.read limit draft = .ok put → found.lookup member.name = some put)
    (nothingElse : ∀ name, some name ∉ object.map (·.1) → found.lookup name = none) :
    Record.assemble found members blank = .ok filled := by
  induction fills with
  | done => rfl
  | found present reads _ inductionHypothesis =>
      obtain ⟨here, collected⟩ := List.forall_mem_cons.mp collected
      rw [Record.assemble, here _ present _ reads]
      exact inductionHypothesis collected
  | missing absent spared _ inductionHypothesis =>
      obtain ⟨-, collected⟩ := List.forall_mem_cons.mp collected
      rw [Record.assemble, nothingElse _ absent]
      dsimp only
      rw [if_neg spared]
      exact inductionHypothesis collected

end Fills

namespace Record

variable {record : Record ρ} {limit : Nat}

theorem lookup_cons_of_ne {name other : String} (different : other ≠ name) (put : ρ → ρ)
    (found : Found ρ) : List.lookup other ((name, put) :: found) = found.lookup other := by
  rw [List.lookup_cons, beq_false_of_ne different]

theorem lookup_cons_of_fresh {name : String} {names : List String} {before : Found ρ}
    (nameFresh : name ∉ names) (fresh : ∀ other ∈ names, before.lookup other = none)
    (put : ρ → ρ) : ∀ other ∈ names, List.lookup other ((name, put) :: before) = none := by
  intro other present
  have different : other ≠ name := by
    rintro rfl
    exact nameFresh present
  rw [lookup_cons_of_ne different, fresh other present]

/-- The names in an object that are names of the record, in order. -/
def knownNames (record : Record ρ) (object : List (Option String × Draft)) : List String :=
  (object.filterMap (·.1)).filter fun name => name ∈ record.members.map (·.name)

theorem mem_knownNames {object : List (Option String × Draft)} {member : Member ρ}
    (membership : member ∈ record.members) :
    member.name ∈ record.knownNames object ↔ some member.name ∈ object.map (·.1) := by
  have known : member.name ∈ record.members.map (·.name) := List.mem_map_of_mem membership
  rw [knownNames, List.mem_filter, and_iff_left (decide_eq_true known), List.mem_filterMap,
    List.mem_map]

/-- Only one member of the record has the name of an entry. -/
theorem eq_or_mem_of_mem_cons (distinctMembers : (record.members.map (·.name)).Nodup)
    {member other : Member ρ} (membership : member ∈ record.members)
    (otherMembership : other ∈ record.members) {draft otherDraft : Draft}
    {object : List (Option String × Draft)}
    (present : (some other.name, otherDraft) ∈ (some member.name, draft) :: object) :
    other = member ∧ otherDraft = draft ∨ (some other.name, otherDraft) ∈ object := by
  rcases List.mem_cons.mp present with same | present
  · obtain ⟨sameName, sameDraft⟩ := Prod.mk.inj same
    have same := eq_of_nodup_map distinctMembers otherMembership membership
      (Option.some.inj sameName)
    exact .inl ⟨same, sameDraft⟩
  · exact .inr present

/-- What reading asks of the members of an object: each has a name, those of the record
stand there at most once and can be read, and the others are well formed. -/
structure Readable (record : Record ρ) (limit : Nat) (object : List (Option String × Draft)) :
    Prop where
  named : ∀ entry ∈ object, entry.1.isSome
  distinct : (record.knownNames object).Nodup
  reads : ∀ member ∈ record.members, ∀ draft, (some member.name, draft) ∈ object →
    ∃ put, member.read limit draft = .ok put
  others : ∀ entry ∈ object, (∀ member ∈ record.members, entry.1 ≠ some member.name) →
    entry.2.wellFormed = true

/-- What a pass over an object adds to the members that were found before: those
of the record, each with its value. -/
structure Collects (record : Record ρ) (limit : Nat) (object : List (Option String × Draft))
    (before found : Found ρ) : Prop where
  present : ∀ member ∈ record.members, ∀ draft, (some member.name, draft) ∈ object → ∀ put,
    member.read limit draft = .ok put → found.lookup member.name = some put
  absent : ∀ name, some name ∉ object.map (·.1) → found.lookup name = before.lookup name

section Collects

variable {object : List (Option String × Draft)} {draft : Draft} {before found : Found ρ}

theorem Collects.nil (found : Found ρ) : Collects record limit [] found found where
  present := by simp
  absent _ _ := rfl

theorem Collects.passOver {name : String} (rest : Collects record limit object before found)
    (unknown : ∀ member ∈ record.members, some name ≠ some member.name) :
    Collects record limit ((some name, draft) :: object) before found where
  present := by
    intro member membership memberDraft present
    rcases List.mem_cons.mp present with same | present
    · exact absurd (Prod.mk.inj same).1.symm (unknown member membership)
    · exact rest.present member membership memberDraft present
  absent other absent := rest.absent other (List.not_mem_of_not_mem_cons absent)

theorem Collects.collect (distinctMembers : (record.members.map (·.name)).Nodup)
    {member : Member ρ} (membership : member ∈ record.members) {put : ρ → ρ}
    (read : member.read limit draft = .ok put) (fresh : some member.name ∉ object.map (·.1))
    (rest : Collects record limit object ((member.name, put) :: before) found) :
    Collects record limit ((some member.name, draft) :: object) before found where
  present := by
    intro other otherMembership otherDraft present otherPut otherRead
    rcases eq_or_mem_of_mem_cons distinctMembers membership otherMembership present with
      ⟨rfl, rfl⟩ | present
    · obtain rfl := Except.ok.inj (otherRead.symm.trans read)
      rw [rest.absent _ fresh, List.lookup_cons_self]
    · exact rest.present other otherMembership otherDraft present otherPut otherRead
  absent := by
    intro other absent
    have different : other ≠ member.name := fun same =>
      List.ne_of_not_mem_cons absent (congrArg some same)
    rw [rest.absent other (List.not_mem_of_not_mem_cons absent), lookup_cons_of_ne different]

theorem knownNames_of_known {member : Member ρ} (membership : member ∈ record.members) :
    record.knownNames ((some member.name, draft) :: object) =
      member.name :: record.knownNames object := by
  have known : member.name ∈ record.members.map (·.name) := List.mem_map_of_mem membership
  exact List.filter_cons_of_pos (decide_eq_true known)

theorem knownNames_of_unknown {name : String}
    (unknown : ∀ member ∈ record.members, some name ≠ some member.name) :
    record.knownNames ((some name, draft) :: object) = record.knownNames object := by
  have unknown : name ∉ record.members.map (·.name) := by
    intro known
    obtain ⟨member, membership, rfl⟩ := List.mem_map.mp known
    exact unknown member membership rfl
  exact List.filter_cons_of_neg (by simpa using unknown)

theorem Readable.passOver {name : String} (readable : Readable record limit object)
    (unknown : ∀ member ∈ record.members, some name ≠ some member.name)
    (wellFormed : draft.wellFormed = true) :
    Readable record limit ((some name, draft) :: object) where
  named := List.forall_mem_cons.mpr ⟨rfl, readable.named⟩
  distinct := by
    rw [knownNames_of_unknown unknown]
    exact readable.distinct
  reads := by
    intro member membership memberDraft present
    rcases List.mem_cons.mp present with same | present
    · exact absurd (Prod.mk.inj same).1.symm (unknown member membership)
    · exact readable.reads member membership memberDraft present
  others := List.forall_mem_cons.mpr ⟨fun _ => wellFormed, readable.others⟩

theorem Readable.collect (distinctMembers : (record.members.map (·.name)).Nodup)
    (readable : Readable record limit object) {member : Member ρ}
    (membership : member ∈ record.members) {put : ρ → ρ}
    (read : member.read limit draft = .ok put)
    (fresh : member.name ∉ record.knownNames object) :
    Readable record limit ((some member.name, draft) :: object) where
  named := List.forall_mem_cons.mpr ⟨rfl, readable.named⟩
  distinct := by
    rw [knownNames_of_known membership]
    exact List.nodup_cons.mpr ⟨fresh, readable.distinct⟩
  reads := by
    intro other otherMembership otherDraft present
    rcases eq_or_mem_of_mem_cons distinctMembers membership otherMembership present with
      ⟨rfl, rfl⟩ | present
    · exact ⟨put, read⟩
    · exact readable.reads other otherMembership otherDraft present
  others := by
    refine List.forall_mem_cons.mpr ⟨fun unknown => ?_, readable.others⟩
    exact absurd rfl (unknown member membership)

theorem Readable.tail {entry : Option String × Draft}
    (readable : Readable record limit (entry :: object)) : Readable record limit object where
  named := (List.forall_mem_cons.mp readable.named).2
  distinct :=
    readable.distinct.sublist (((List.sublist_cons_self entry object).filterMap _).filter _)
  reads member membership draft present :=
    readable.reads member membership draft (List.mem_cons_of_mem entry present)
  others := (List.forall_mem_cons.mp readable.others).2

theorem Readable.fresh {member : Member ρ}
    (readable : Readable record limit ((some member.name, draft) :: object))
    (membership : member ∈ record.members) : member.name ∉ record.knownNames object := by
  have distinct := readable.distinct
  rw [knownNames_of_known membership] at distinct
  exact (List.nodup_cons.mp distinct).1

theorem unknown_of_find? {name : String}
    (search : record.members.find? (·.name == name) = none) :
    ∀ member ∈ record.members, some name ≠ some member.name := by
  intro member membership same
  have differs := List.find?_eq_none.mp search member membership
  simp [Option.some.inj same] at differs

theorem find?_name (distinctMembers : (record.members.map (·.name)).Nodup) {member : Member ρ}
    (membership : member ∈ record.members) :
    record.members.find? (·.name == member.name) = some member := by
  cases search : record.members.find? (·.name == member.name) with
  | none => exact absurd rfl (unknown_of_find? search member membership)
  | some other =>
      have same : other.name = member.name := by simpa using List.find?_some search
      rw [eq_of_nodup_map distinctMembers (List.mem_of_find?_eq_some search) membership same]

/-- A member that was not found before is read and collected. -/
theorem readMembers_cons (distinctMembers : (record.members.map (·.name)).Nodup)
    {member : Member ρ} (membership : member ∈ record.members) {before : Found ρ}
    (fresh : before.lookup member.name = none) (draft : Draft)
    (object : List (Option String × Draft)) :
    record.readMembers limit ((some member.name, draft) :: object) before =
      (member.read limit draft).bind fun put =>
        record.readMembers limit object ((member.name, put) :: before) := by
  rw [readMembers, find?_name distinctMembers membership]
  dsimp only
  rw [fresh]
  rfl

/-- Members of unknown name are passed over, and those of the record are
collected with their values. -/
theorem readMembers_eq_ok (distinctMembers : (record.members.map (·.name)).Nodup)
    (readable : Readable record limit object)
    (fresh : ∀ name ∈ record.knownNames object, before.lookup name = none) :
    ∃ found, record.readMembers limit object before = .ok found ∧
      Collects record limit object before found := by
  -- What was found before never has a name that is still to come, so no member is
  -- taken for one that stands twice.
  induction object generalizing before with
  | nil => exact ⟨before, rfl, .nil before⟩
  | cons entry object inductionHypothesis =>
      obtain ⟨label, draft⟩ := entry
      obtain ⟨headNamed, -⟩ := List.forall_mem_cons.mp readable.named
      obtain ⟨name, rfl⟩ := Option.isSome_iff_exists.mp headNamed
      obtain ⟨headOthers, -⟩ := List.forall_mem_cons.mp readable.others
      cases search : record.members.find? (·.name == name) with
      | none =>
          have unknown := unknown_of_find? search
          rw [knownNames_of_unknown unknown] at fresh
          obtain ⟨found, run, collects⟩ := inductionHypothesis readable.tail fresh
          refine ⟨found, ?_, collects.passOver unknown⟩
          rw [readMembers, search]
          dsimp only
          rw [if_pos (headOthers unknown), run]
      | some member =>
          have membership := List.mem_of_find?_eq_some search
          obtain rfl : member.name = name := by simpa using List.find?_some search
          obtain ⟨put, read⟩ := readable.reads member membership draft List.mem_cons_self
          have nameFresh := readable.fresh membership
          rw [knownNames_of_known membership] at fresh
          obtain ⟨headFresh, tailFresh⟩ := List.forall_mem_cons.mp fresh
          have putFresh := lookup_cons_of_fresh nameFresh tailFresh put
          obtain ⟨found, run, collects⟩ := inductionHypothesis readable.tail putFresh
          have absent := mt (mem_knownNames membership).mpr nameFresh
          refine ⟨found, ?_, collects.collect distinctMembers membership read absent⟩
          rw [readMembers_cons distinctMembers membership headFresh, read]
          exact run

/-- A pass over an object succeeds only if the object is readable and has no name that was
found before. -/
theorem readable_of_readMembers (distinctMembers : (record.members.map (·.name)).Nodup)
    (run : record.readMembers limit object before = .ok found) :
    Readable record limit object ∧
      ∀ name ∈ record.knownNames object, before.lookup name = none := by
  induction object generalizing before with
  | nil => exact ⟨⟨by simp, by simp [knownNames], by simp, by simp⟩, by simp [knownNames]⟩
  | cons entry object inductionHypothesis =>
      obtain ⟨_ | name, draft⟩ := entry
      · cases run
      · rw [readMembers] at run
        split at run
        next search =>
          split at run
          next wellFormed =>
            have unknown := unknown_of_find? search
            obtain ⟨readable, fresh⟩ := inductionHypothesis run
            rw [knownNames_of_unknown unknown]
            exact ⟨readable.passOver unknown wellFormed, fresh⟩
          next => cases run
        next first search =>
          have firstMembership := List.mem_of_find?_eq_some search
          obtain rfl : first.name = name := by simpa using List.find?_some search
          split at run
          next => cases run
          next headFresh =>
            obtain ⟨put, read, rest⟩ := bind_eq_ok_iff.mp run
            obtain ⟨readable, fresh⟩ := inductionHypothesis rest
            have nameFresh : first.name ∉ record.knownNames object := by
              intro present
              simpa using fresh first.name present
            rw [knownNames_of_known firstMembership]
            refine ⟨readable.collect distinctMembers firstMembership read nameFresh, ?_⟩
            refine List.forall_mem_cons.mpr ⟨Option.not_isSome_iff_eq_none.mp headFresh, ?_⟩
            intro other present
            have different : other ≠ first.name := by
              rintro rfl
              exact nameFresh present
            rw [← fresh other present, lookup_cons_of_ne different]

theorem collects_of_readMembers (distinctMembers : (record.members.map (·.name)).Nodup)
    (run : record.readMembers limit object before = .ok found) :
    Readable record limit object ∧ Collects record limit object before found := by
  obtain ⟨readable, fresh⟩ := readable_of_readMembers distinctMembers run
  obtain ⟨found', run', collects⟩ := readMembers_eq_ok distinctMembers readable fresh
  obtain rfl := Except.ok.inj (run.symm.trans run')
  exact ⟨readable, collects⟩

end Collects

theorem Readable.of_nodup {object : List (Option String × Draft)}
    (distinct : (object.map (·.1)).Nodup) (named : ∀ entry ∈ object, entry.1.isSome)
    (others : ∀ entry ∈ object, (∀ member ∈ record.members, entry.1 ≠ some member.name) →
      entry.2.wellFormed = true)
    {filled : ρ} (fills : Fills limit object record.members record.blank filled) :
    Readable record limit object where
  named := named
  distinct := by
    have labels : object.filterMap (·.1) = (object.map (·.1)).filterMap id := by
      rw [List.filterMap_map]
      rfl
    rw [knownNames, labels]
    refine List.Pairwise.filter _ (List.Pairwise.filterMap _ ?_ distinct)
    rintro first second different name rfl name' rfl rfl
    exact different rfl
  reads _ membership _ present := fills.reads distinct membership present
  others := others

theorem Collects.fills {object : List (Option String × Draft)} {found : Found ρ}
    (collects : Collects record limit object [] found) (readable : Readable record limit object)
    {members : List (Member ρ)} (subset : ∀ member ∈ members, member ∈ record.members)
    {value filled : ρ} (assembled : assemble found members value = .ok filled) :
    Fills limit object members value filled := by
  induction members generalizing value with
  | nil =>
      cases assembled
      exact .done _
  | cons member members inductionHypothesis =>
      obtain ⟨membership, subset⟩ := List.forall_mem_cons.mp subset
      by_cases present : some member.name ∈ object.map (·.1)
      · obtain ⟨⟨label, draft⟩, present, same⟩ := List.mem_map.mp present
        obtain rfl : label = some member.name := same
        obtain ⟨put, read⟩ := readable.reads member membership draft present
        rw [assemble, collects.present member membership draft present put read] at assembled
        exact .found present read (inductionHypothesis subset assembled)
      · rw [assemble, collects.absent member.name present] at assembled
        dsimp only [List.lookup_nil] at assembled
        split at assembled
        next => cases assembled
        next spared => exact .missing present spared (inductionHypothesis subset assembled)

/-- An object is read if and only if it is readable, and then as the record that its
members fill. -/
theorem read_object_eq_ok_iff (distinctMembers : (record.members.map (·.name)).Nodup)
    {object : List (Option String × Draft)} {filled : ρ} :
    record.read limit (.object object true) = .ok filled ↔
      Readable record (limit - 1) object ∧
        Fills (limit - 1) object record.members record.blank filled := by
  constructor
  · intro success
    obtain ⟨found, run, assembled⟩ := bind_eq_ok_iff.mp success
    obtain ⟨readable, collects⟩ := collects_of_readMembers distinctMembers run
    exact ⟨readable, collects.fills readable (fun _ membership => membership) assembled⟩
  · rintro ⟨readable, fills⟩
    have fresh : ∀ name ∈ record.knownNames object, List.lookup name ([] : Found ρ) = none :=
      fun _ _ => rfl
    obtain ⟨found, run, collects⟩ := readMembers_eq_ok distinctMembers readable fresh
    have assembled := fills.assemble_eq_ok collects.present collects.absent
    simp only [read, run, bind, Except.bind, if_true, assembled]

theorem mem_writtenMembers (distinctMembers : (record.members.map (·.name)).Nodup) {written : ρ}
    {member : Member ρ} (membership : member ∈ record.members) (value : Value) :
    (member.name, value) ∈ record.writtenMembers written ↔ member.write written = some value := by
  constructor
  · intro present
    obtain ⟨other, otherMembership, writes⟩ := List.mem_filterMap.mp present
    obtain ⟨_, writes, same⟩ := Option.map_eq_some_iff.mp writes
    obtain ⟨sameName, rfl⟩ := Prod.mk.inj same
    rwa [← eq_of_nodup_map distinctMembers otherMembership membership sameName]
  · intro writes
    exact List.mem_filterMap.mpr ⟨member, membership, by rw [writes]; rfl⟩

/-- No written record is read that has a `null` where it cannot be read. -/
theorem write_ne_null_of_read (distinctMembers : (record.members.map (·.name)).Nodup)
    {written value : ρ} {name : String} {codec : Codec α} {get : ρ → α} {set : α → ρ → ρ}
    {presence : Presence} (membership : .of name codec get set presence ∈ record.members)
    (refuses : codec.RefusesNull)
    (success : record.read limit
      (.object (Value.memberDrafts reading (record.writtenMembers written)) true) = .ok value) :
    codec.write (get written) ≠ some .null := by
  intro writes
  have present := (mem_writtenMembers distinctMembers membership .null).mpr writes
  rw [Value.memberDrafts_eq_map] at success
  obtain ⟨readable, -⟩ := (read_object_eq_ok_iff distinctMembers).mp success
  obtain ⟨put, read⟩ := readable.reads _ membership _ (List.mem_map_of_mem present)
  obtain ⟨x, read, -⟩ := map_eq_ok_iff.mp (show (codec.read _ .null).map set = .ok put from read)
  exact refuses _ x read

theorem names_writtenMembers_sublist (record : Record ρ) (written : ρ) :
    ((record.writtenMembers written).map (·.1)).Sublist (record.members.map (·.name)) := by
  unfold writtenMembers
  induction record.members with
  | nil => exact .slnil
  | cons member rest inductionHypothesis =>
      cases writes : member.write written with
      | none => simpa [writes] using inductionHypothesis.cons member.name
      | some value => simpa [writes] using inductionHypothesis

end Record

namespace Restores

variable {written : ρ} {members : List (Member ρ)} {blank restored : ρ}

/-- A member that is written with a codec and read with it. -/
theorem of {name : String} {codec : Codec α} {get : ρ → α} {set : α → ρ → ρ} {presence : Presence}
    {x : α} (back : codec.ReadsBack reading (get written) x)
    (tail : Restores reading written members (set x blank) restored) :
    Restores reading written (.of name codec get set presence :: members) blank restored := by
  obtain ⟨value, writes, reads⟩ := back
  exact .put writes reads.writable (fun limit => congrArg (Except.map set) (reads.read limit)) tail

/-- A member that is left out stays as the record has it. -/
theorem omittable {name : String} {codec : Codec α} {get : ρ → Option α}
    {set : Option α → ρ → ρ} {presence : Presence} (refuses : codec.RefusesNull)
    (back : ∀ x ∈ get written, codec.ReadsBack reading x x) (spared : presence ≠ .required)
    (absent : get written = none → set none blank = blank)
    (tail : Restores reading written members (set (get written) blank) restored) :
    Restores reading written (.of name (.omittable codec) get set presence :: members) blank
      restored := by
  cases present : get written with
  | none =>
      rw [present, absent present] at tail
      exact .leftOut (by simp [Member.of, Codec.omittable, present]) spared tail
  | some x =>
      rw [present] at tail
      obtain ⟨value, writes, reads⟩ := back x present
      refine .of ⟨value, ?_, reads.writable, (reads.optional refuses).read⟩ tail
      simpa [Codec.omittable, present] using writes

theorem writable (restores : Restores reading written members blank restored) :
    ∀ member ∈ members, ∀ value, member.write written = some value → value.Writable := by
  induction restores with
  | done => simp
  | put writes writable _ _ inductionHypothesis =>
      refine List.forall_mem_cons.mpr ⟨fun value otherWrites => ?_, inductionHypothesis⟩
      exact Option.some.inj (writes.symm.trans otherWrites) ▸ writable
  | leftOut writes _ _ inductionHypothesis =>
      refine List.forall_mem_cons.mpr ⟨fun value otherWrites => ?_, inductionHypothesis⟩
      cases writes.symm.trans otherWrites

/-- Whatever else an object holds, the written members in it fill the record. -/
theorem fills (restores : Restores reading written members blank restored)
    {json : List (String × Value)}
    (holds : ∀ member ∈ members, ∀ value,
      (member.name, value) ∈ json ↔ member.write written = some value) (limit : Nat) :
    Fills limit (Value.memberDrafts reading json) members blank restored := by
  rw [Value.memberDrafts_eq_map]
  induction restores with
  | done => exact .done _
  | put writes _ reads _ inductionHypothesis =>
      obtain ⟨here, holds⟩ := List.forall_mem_cons.mp holds
      exact .found (List.mem_map.mpr ⟨_, (here _).mpr writes, rfl⟩) (reads limit)
        (inductionHypothesis holds)
  | leftOut writes spared _ inductionHypothesis =>
      obtain ⟨here, holds⟩ := List.forall_mem_cons.mp holds
      refine .missing (fun present => ?_) spared (inductionHypothesis holds)
      simp only [List.map_map, List.mem_map, Function.comp_apply, Option.some.injEq] at present
      obtain ⟨⟨name, value⟩, present, rfl⟩ := present
      cases writes.symm.trans ((here value).mp present)

end Restores

namespace Record

variable {record : Record ρ} {written restored : ρ}

/-- An object that holds the written members of a record, in any order and with
any others, is read as what they restore. -/
theorem readsAs_object (distinctMembers : (record.members.map (·.name)).Nodup)
    (restores : Restores reading written record.members record.blank restored)
    {json : List (String × Value)} (distinct : (json.map (·.1)).Nodup)
    (holds : ∀ member ∈ record.members, ∀ value,
      (member.name, value) ∈ json ↔ member.write written = some value)
    (others : ∀ entry ∈ json, (∀ member ∈ record.members, entry.1 ≠ member.name) →
      entry.2.Writable) :
    record.codec.ReadsAs reading (.object json) restored where
  writable := by
    refine Value.membersWritable_iff.mpr fun entry present => ?_
    by_cases known : ∃ member ∈ record.members, entry.1 = member.name
    · obtain ⟨member, membership, same⟩ := known
      have present : (member.name, entry.2) ∈ json := same ▸ present
      exact restores.writable member membership entry.2
        ((holds member membership entry.2).mp present)
    · exact others entry present fun member membership same => known ⟨member, membership, same⟩
  read limit := by
    have fills := restores.fills holds (limit - 1)
    refine (read_object_eq_ok_iff distinctMembers).mpr ⟨.of_nodup ?_ ?_ ?_ fills, fills⟩
    all_goals rw [Value.memberDrafts_eq_map]
    · have labels : ((json.map (·.1)).map some).Nodup :=
        List.Pairwise.map some (fun _ _ different same => different (Option.some.inj same)) distinct
      rw [List.map_map] at labels ⊢
      exact labels
    · intro entry present
      obtain ⟨member, _, rfl⟩ := List.mem_map.mp present
      rfl
    · intro entry present _
      obtain ⟨member, _, rfl⟩ := List.mem_map.mp present
      exact Value.wellFormed_draft member.2

theorem codec_readsBack (distinctMembers : (record.members.map (·.name)).Nodup)
    (restores : Restores reading written record.members record.blank restored) :
    record.codec.ReadsBack reading written restored := by
  refine ⟨.object (record.writtenMembers written), rfl,
    readsAs_object distinctMembers restores
      (distinctMembers.sublist (names_writtenMembers_sublist record written))
      (fun _ membership => mem_writtenMembers distinctMembers membership) ?_⟩
  intro entry present unknown
  obtain ⟨member, membership, writes⟩ := List.mem_filterMap.mp present
  obtain ⟨_, _, rfl⟩ := Option.map_eq_some_iff.mp writes
  exact absurd rfl (unknown member membership)

end Record

section Invariants

/-- Whatever the member reads from a document, putting it into a record keeps a
property of the record. -/
def Member.Keeps (member : Member ρ) (property : ρ → Prop) : Prop :=
  ∀ {limit : Nat} {draft : Draft} {put : ρ → ρ}, draft.InRange →
    member.read limit draft = .ok put → ∀ record, property record → property (put record)

theorem Member.of_keeps {property : ρ → Prop} {valueProperty : α → Prop} {name : String}
    {codec : Codec α} {get : ρ → α} {set : α → ρ → ρ} {presence : Presence}
    (yields : codec.Yields valueProperty)
    (keeps : ∀ x, valueProperty x → ∀ record, property record → property (set x record)) :
    (Member.of name codec get set presence).Keeps property := by
  intro limit draft put inRange read
  obtain ⟨x, valueRead, rfl⟩ := map_eq_ok_iff.mp read
  exact keeps x (yields inRange valueRead)

namespace Record

variable {record : Record ρ} {property : ρ → Prop} {limit : Nat}

theorem readMembers_keeps (keeps : ∀ member ∈ record.members, member.Keeps property)
    {object : List (Option String × Draft)} (inRange : ∀ entry ∈ object, entry.2.InRange)
    {before found : Found ρ}
    (beforeKeeps : ∀ entry ∈ before, ∀ value, property value → property (entry.2 value))
    (run : record.readMembers limit object before = .ok found) :
    ∀ entry ∈ found, ∀ value, property value → property (entry.2 value) := by
  induction object generalizing before with
  | nil => exact Except.ok.inj run ▸ beforeKeeps
  | cons entry object inductionHypothesis =>
      obtain ⟨headInRange, tailInRange⟩ := List.forall_mem_cons.mp inRange
      obtain ⟨_ | name, draft⟩ := entry
      · cases run
      · rw [readMembers] at run
        split at run
        next =>
          split at run
          next => exact inductionHypothesis tailInRange beforeKeeps run
          next => cases run
        next member search =>
          split at run
          next => cases run
          next =>
            obtain ⟨put, read, rest⟩ := bind_eq_ok_iff.mp run
            have membership := List.mem_of_find?_eq_some search
            exact inductionHypothesis tailInRange (List.forall_mem_cons.mpr
              ⟨keeps member membership headInRange read, beforeKeeps⟩) rest

theorem assemble_keeps {found : Found ρ}
    (foundKeeps : ∀ entry ∈ found, ∀ value, property value → property (entry.2 value))
    {members : List (Member ρ)} {value assembled : ρ} (holds : property value)
    (run : assemble found members value = .ok assembled) : property assembled := by
  induction members generalizing value with
  | nil => exact Except.ok.inj run ▸ holds
  | cons member rest inductionHypothesis =>
      rw [assemble] at run
      split at run
      next put present =>
        obtain ⟨_, _, same, _⟩ := List.lookup_eq_some_iff.mp present
        have kept := foundKeeps (member.name, put) (by simp [same])
        exact inductionHypothesis (kept value holds) run
      next =>
        split at run
        next => cases run
        next => exact inductionHypothesis holds run

theorem readItems_keeps {members : List (Member ρ)}
    (keeps : ∀ member ∈ members, member.Keeps property) {closed : Bool} {index : Nat}
    {items : List Draft} (inRange : ∀ item ∈ items, item.InRange) {value result : ρ}
    (holds : property value)
    (run : record.readItems limit closed index members items value = .ok result) :
    property result := by
  induction members generalizing items value index with
  | nil =>
      cases items with
      | nil =>
          cases closed with
          | false => cases run
          | true => exact Except.ok.inj run ▸ holds
      | cons => cases run
  | cons member rest inductionHypothesis =>
      obtain ⟨headKeeps, tailKeeps⟩ := List.forall_mem_cons.mp keeps
      cases items with
      | nil =>
          rw [readItems] at run
          split at run
          next =>
            split at run
            next => cases run
            next => exact Except.ok.inj run ▸ holds
          next => cases run
      | cons item items =>
          obtain ⟨headInRange, tailInRange⟩ := List.forall_mem_cons.mp inRange
          obtain ⟨put, read, rest⟩ := bind_eq_ok_iff.mp run
          exact inductionHypothesis tailKeeps tailInRange (headKeeps headInRange read value holds) rest

/-- A property of the blank record that every member keeps holds of all records
that are read. -/
theorem codec_yields (blank : property record.blank)
    (keeps : ∀ member ∈ record.members, member.Keeps property) :
    record.codec.Yields property := by
  intro limit draft value inRange run
  unfold codec read at run
  dsimp only at run
  split at run
  next object closed =>
    obtain ⟨found, foundRun, assembled⟩ := bind_eq_ok_iff.mp run
    cases inRange with
    | object inRange =>
        have foundKeeps := readMembers_keeps keeps inRange (List.forall_mem_nil _) foundRun
        split at assembled
        next => exact assemble_keeps foundKeeps blank assembled
        next => cases assembled
  next items closed =>
    cases inRange with
    | array inRange => exact readItems_keeps keeps inRange blank run
  next => exact absurd run (Draft.refuse_ne_ok _ _ _)

end Record

end Invariants

end TableReport.Json
