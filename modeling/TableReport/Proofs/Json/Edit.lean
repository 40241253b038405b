import Mathlib.Data.List.Perm.Basic
import TableReport.Proofs.Json.Record

/-!
Objects that hold a record in other words. Their members may be put into another order,
members of unknown names may be added, members that hold a default may be left out, and
what some members hold may be edited in turn. A record that is read from an object is
read from each of its edits as well: what each member puts into the record is the same
as before, and a default puts into the blank record what is there already.
-/

namespace TableReport.Json

variable {ρ α β : Type}

/-- What there is to know of the objects of a record without reading them. -/
structure Form where
  /-- The names of the members of the record. -/
  names : List String
  /-- The value that stands for the lack of a member. -/
  IsDefault : String → Draft → Prop
  /-- How the value of a member may be edited in turn. -/
  Inside : String → Draft → Draft → Prop

/-- One edit of an object. -/
inductive Form.Edit (form : Form) : Draft → Draft → Prop
  | permute {members members' : List (Option String × Draft)} (permuted : members.Perm members') :
      Edit form (.object members true) (.object members' true)
  | insert {front back : List (Option String × Draft)} {name : String} {value : Draft}
      (unknown : name ∉ form.names) (wellFormed : value.wellFormed = true) :
      Edit form (.object (front ++ back) true) (.object (front ++ (some name, value) :: back) true)
  | remove {front back : List (Option String × Draft)} {name : String} {value : Draft}
      (isDefault : form.IsDefault name value) :
      Edit form (.object (front ++ (some name, value) :: back) true) (.object (front ++ back) true)
  | inside {front back : List (Option String × Draft)} {name : String} {value value' : Draft}
      (inner : form.Inside name value value') :
      Edit form (.object (front ++ (some name, value) :: back) true)
        (.object (front ++ (some name, value') :: back) true)

/-- One item of an array is edited. -/
inductive ItemEdit (Inner : Draft → Draft → Prop) : Draft → Draft → Prop
  | item {front back : List Draft} {item item' : Draft} (inner : Inner item item') :
      ItemEdit Inner (.array (front ++ item :: back) true) (.array (front ++ item' :: back) true)

/-- What is read stays the same when a draft is changed like this. -/
def Codec.Overlooks (codec : Codec α) (Change : Draft → Draft → Prop) : Prop :=
  ∀ ⦃limit draft draft' value⦄, Change draft draft' →
    codec.read limit draft = .ok value → codec.read limit draft' = .ok value

namespace Codec

variable {codec : Codec α} {limit : Nat}

theorem readItems_edit {item item' : Draft}
    (kept : ∀ value, codec.read limit item = .ok value → codec.read limit item' = .ok value)
    {front back : List Draft} {values : List α}
    (success : readItems codec limit (front ++ item :: back) = .ok values) :
    readItems codec limit (front ++ item' :: back) = .ok values := by
  induction front generalizing values with
  | nil =>
      obtain ⟨value, read, success⟩ := bind_eq_ok_iff.mp success
      rw [List.nil_append, readItems, kept value read]
      exact success
  | cons first front inductionHypothesis =>
      obtain ⟨value, read, success⟩ := bind_eq_ok_iff.mp success
      obtain ⟨values, tail, success⟩ := bind_eq_ok_iff.mp success
      rw [List.cons_append, readItems, read, inductionHypothesis tail]
      exact success

theorem list_overlooks {Inner : Draft → Draft → Prop} (overlooks : codec.Overlooks Inner) :
    (list codec).Overlooks (ItemEdit Inner) := by
  intro limit draft draft' values change success
  cases change with
  | item inner =>
      obtain ⟨values, read, success⟩ := bind_eq_ok_iff.mp success
      simp only [list, readItems_edit (fun _ => overlooks inner) read, bind, Except.bind]
      exact success

end Codec

namespace Fills

variable {limit : Nat} {object object' : List (Option String × Draft)} {members : List (Member ρ)}
  {blank filled : ρ}

/-- A record is filled from whatever puts the same into it. -/
theorem congr (fills : Fills limit object members blank filled)
    (kept : ∀ member ∈ members, ∀ draft, (some member.name, draft) ∈ object → ∀ put,
      member.read limit draft = .ok put →
        ∃ draft', (some member.name, draft') ∈ object' ∧ member.read limit draft' = .ok put)
    (absent : ∀ member ∈ members, some member.name ∉ object.map (·.1) →
      some member.name ∉ object'.map (·.1)) :
    Fills limit object' members blank filled := by
  induction fills with
  | done => exact .done _
  | found present reads _ inductionHypothesis =>
      obtain ⟨keptHere, kept⟩ := List.forall_mem_cons.mp kept
      obtain ⟨-, absent⟩ := List.forall_mem_cons.mp absent
      obtain ⟨draft', present', reads'⟩ := keptHere _ present _ reads
      exact .found present' reads' (inductionHypothesis kept absent)
  | missing missing spared _ inductionHypothesis =>
      obtain ⟨-, kept⟩ := List.forall_mem_cons.mp kept
      obtain ⟨absentHere, absent⟩ := List.forall_mem_cons.mp absent
      exact .missing (absentHere missing) spared (inductionHypothesis kept absent)

end Fills

/-- It does not matter which of two members is put into a record first. -/
def Member.Commutes (member other : Member ρ) : Prop :=
  ∀ ⦃limit draft draft' put put'⦄, member.read limit draft = .ok put →
    other.read limit draft' = .ok put' → ∀ record, put (put' record) = put' (put record)

/-- A member is read the same from what its codec reads the same. -/
theorem Member.read_of_overlooks {Change : Draft → Draft → Prop} {name : String}
    {codec : Codec α} {get : ρ → α} {set : α → ρ → ρ} {presence : Presence} {draft draft' : Draft}
    (overlooks : codec.Overlooks Change) (change : Change draft draft') (limit : Nat)
    (put : ρ → ρ) (read : (Member.of name codec get set presence).read limit draft = .ok put) :
    (Member.of name codec get set presence).read limit draft' = .ok put := by
  obtain ⟨x, valueRead, rfl⟩ := map_eq_ok_iff.mp read
  exact map_eq_ok_iff.mpr ⟨x, overlooks change valueRead, rfl⟩

/-- What the member puts into a record shows at one place of a view of the record only. -/
def Member.PutsAt (member : Member ρ) (view : ρ → List β) (index : Nat) : Prop :=
  ∀ ⦃limit draft put⦄, member.read limit draft = .ok put →
    ∃ entry, ∀ record, view (put record) = (view record).set index entry

namespace Member.PutsAt

variable {view : ρ → List β} {index other : Nat}

theorem of {name : String} {codec : Codec α} {get : ρ → α} {set : α → ρ → ρ}
    {presence : Presence} (entry : α → β)
    (shows : ∀ x record, view (set x record) = (view record).set index (entry x)) :
    (Member.of name codec get set presence).PutsAt view index := by
  intro limit draft put read
  obtain ⟨x, -, rfl⟩ := map_eq_ok_iff.mp read
  exact ⟨entry x, shows x⟩

/-- Members with different places in a view that shows everything commute. -/
theorem commutes {member member' : Member ρ} (puts : member.PutsAt view index)
    (puts' : member'.PutsAt view other) (complete : Function.Injective view)
    (different : index ≠ other) : member.Commutes member' := by
  intro limit draft draft' put put' read read' record
  obtain ⟨entry, shows⟩ := puts read
  obtain ⟨entry', shows'⟩ := puts' read'
  apply complete
  rw [shows, shows', shows', shows]
  exact List.set_comm _ _ different.symm

/-- Members that show at their own places commute with each other. -/
theorem commutes_of_zipIdx {members : List (Member ρ)} (complete : Function.Injective view)
    (puts : ∀ entry ∈ members.zipIdx, entry.1.PutsAt view entry.2) {member member' : Member ρ}
    (membership : member ∈ members) (membership' : member' ∈ members)
    (different : member'.name ≠ member.name) : member.Commutes member' := by
  obtain ⟨place, present⟩ := List.mem_iff_getElem?.mp membership
  obtain ⟨place', present'⟩ := List.mem_iff_getElem?.mp membership'
  apply commutes (puts (member, place) (List.mk_mem_zipIdx_iff_getElem?.mpr present))
    (puts (member', place') (List.mk_mem_zipIdx_iff_getElem?.mpr present')) complete
  rintro rfl
  obtain rfl := Option.some.inj (present.symm.trans present')
  exact different rfl

end Member.PutsAt

namespace Fills

variable {limit : Nat} {object object' : List (Option String × Draft)} {members : List (Member ρ)}
  {blank filled : ρ}

/-- A member can be put into the blank record instead of standing in the object. -/
theorem withdraw (fills : Fills limit object members blank filled)
    (distinctMembers : (members.map (·.name)).Nodup) {member : Member ρ}
    (membership : member ∈ members) {draft : Draft} {put : ρ → ρ}
    (present : (some member.name, draft) ∈ object) (read : member.read limit draft = .ok put)
    (only : ∀ draft', (some member.name, draft') ∈ object → draft' = draft)
    (commutes : ∀ other ∈ members, other.name ≠ member.name → member.Commutes other)
    (spared : member.presence ≠ .required)
    (others : ∀ name, name ≠ member.name → ∀ draft',
      (some name, draft') ∈ object' ↔ (some name, draft') ∈ object)
    (withdrawn : some member.name ∉ object'.map (·.1)) :
    Fills limit object' members (put blank) filled := by
  have labels : ∀ name, name ≠ member.name → some name ∉ object.map (·.1) →
      some name ∉ object'.map (·.1) := by
    intro name different absent present
    obtain ⟨⟨label, draft'⟩, present, rfl⟩ := List.mem_map.mp present
    exact absent (List.mem_map_of_mem ((others name different draft').mp present))
  induction fills with
  | done => cases membership
  | @found first rest firstDraft firstPut record filled firstPresent firstReads tail
      inductionHypothesis =>
      obtain ⟨fresh, distinctMembers⟩ := List.nodup_cons.mp distinctMembers
      obtain ⟨commutesFirst, commutes⟩ := List.forall_mem_cons.mp commutes
      rcases List.mem_cons.mp membership with rfl | membership
      · -- The member has its turn here; the members after it have other names.
        have different : ∀ other ∈ rest, other.name ≠ member.name := by
          intro other membership same
          exact fresh (List.mem_map.mpr ⟨other, membership, same⟩)
        obtain rfl := only _ firstPresent
        obtain rfl := Except.ok.inj (read.symm.trans firstReads)
        refine .missing withdrawn spared (tail.congr ?_ ?_)
        · intro other membership draft' present put' read'
          exact ⟨draft', (others _ (different other membership) draft').mpr present, read'⟩
        · intro other membership
          exact labels other.name (different other membership)
      · have different : first.name ≠ member.name := by
          intro same
          exact fresh (List.mem_map.mpr ⟨member, membership, same.symm⟩)
        have filled := inductionHypothesis distinctMembers membership commutes
        rw [commutesFirst different read firstReads] at filled
        exact .found ((others _ different firstDraft).mpr firstPresent) firstReads filled
  | @missing first rest record filled absent firstSpared tail inductionHypothesis =>
      obtain ⟨-, distinctMembers⟩ := List.nodup_cons.mp distinctMembers
      obtain ⟨-, commutes⟩ := List.forall_mem_cons.mp commutes
      have different : first.name ≠ member.name := by
        intro same
        exact absent (same ▸ List.mem_map_of_mem present)
      rcases List.mem_cons.mp membership with rfl | membership
      · exact absurd rfl different
      · exact .missing (labels first.name different absent) firstSpared
          (inductionHypothesis distinctMembers membership commutes)

end Fills

namespace Record

variable {record : Record ρ} {limit : Nat} {object object' : List (Option String × Draft)}
  {name : String} {draft : Draft} {value : ρ}

theorem Readable.permute (readable : Readable record limit object)
    (permuted : object.Perm object') : Readable record limit object' where
  named entry membership := readable.named entry (permuted.mem_iff.mpr membership)
  distinct := ((permuted.filterMap _).filter _).nodup_iff.mp readable.distinct
  reads member membership draft present :=
    readable.reads member membership draft (permuted.mem_iff.mpr present)
  others entry membership := readable.others entry (permuted.mem_iff.mpr membership)

theorem read_permute (distinctMembers : (record.members.map (·.name)).Nodup)
    (permuted : object.Perm object') (success : record.read limit (.object object true) = .ok value) :
    record.read limit (.object object' true) = .ok value := by
  obtain ⟨readable, fills⟩ := (read_object_eq_ok_iff distinctMembers).mp success
  refine (read_object_eq_ok_iff distinctMembers).mpr ⟨readable.permute permuted, fills.congr ?_ ?_⟩
  · intro member _ draft present put read
    exact ⟨draft, permuted.mem_iff.mp present, read⟩
  · intro member _ absent
    exact mt (permuted.map (·.1)).mem_iff.mpr absent

theorem read_cons_unknown (distinctMembers : (record.members.map (·.name)).Nodup)
    (unknown : ∀ member ∈ record.members, some name ≠ some member.name)
    (wellFormed : draft.wellFormed = true)
    (success : record.read limit (.object object true) = .ok value) :
    record.read limit (.object ((some name, draft) :: object) true) = .ok value := by
  obtain ⟨readable, fills⟩ := (read_object_eq_ok_iff distinctMembers).mp success
  refine (read_object_eq_ok_iff distinctMembers).mpr
    ⟨readable.passOver unknown wellFormed, fills.congr ?kept ?absent⟩
  case kept =>
    intro member _ draft present put read
    exact ⟨draft, List.mem_cons_of_mem _ present, read⟩
  case absent =>
    intro member membership absent
    exact List.not_mem_cons_of_ne_of_not_mem (unknown member membership).symm absent

/-- The value of a member may be exchanged for another one that puts the same into the
record. -/
theorem read_cons_exchange (distinctMembers : (record.members.map (·.name)).Nodup)
    {member : Member ρ} (membership : member ∈ record.members) {draft' : Draft}
    (kept : ∀ put, member.read (limit - 1) draft = .ok put →
      member.read (limit - 1) draft' = .ok put)
    (success : record.read limit (.object ((some member.name, draft) :: object) true) = .ok value) :
    record.read limit (.object ((some member.name, draft') :: object) true) = .ok value := by
  obtain ⟨readable, fills⟩ := (read_object_eq_ok_iff distinctMembers).mp success
  obtain ⟨put, read⟩ := readable.reads member membership draft List.mem_cons_self
  have readable' := readable.tail.collect distinctMembers membership (kept put read)
    (readable.fresh membership)
  refine (read_object_eq_ok_iff distinctMembers).mpr
    ⟨readable', fills.congr ?_ fun _ _ absent => absent⟩
  intro other otherMembership otherDraft present otherPut otherRead
  rcases eq_or_mem_of_mem_cons distinctMembers membership otherMembership present with
    ⟨rfl, rfl⟩ | present
  · exact ⟨draft', List.mem_cons_self, kept otherPut otherRead⟩
  · exact ⟨otherDraft, List.mem_cons_of_mem _ present, otherRead⟩

/-- The member may be left out instead of holding this: it need not be there, and puts into
the blank record what is there already. -/
structure Spares (record : Record ρ) (member : Member ρ) (draft : Draft) : Prop where
  presence : member.presence ≠ .required
  idle : ∀ limit put, member.read limit draft = .ok put → put record.blank = record.blank
  commutes : ∀ other ∈ record.members, other.name ≠ member.name → member.Commutes other

theorem read_of_cons_default (distinctMembers : (record.members.map (·.name)).Nodup)
    {member : Member ρ} (membership : member ∈ record.members) (spares : record.Spares member draft)
    (success : record.read limit (.object ((some member.name, draft) :: object) true) = .ok value) :
    record.read limit (.object object true) = .ok value := by
  obtain ⟨readable, fills⟩ := (read_object_eq_ok_iff distinctMembers).mp success
  obtain ⟨put, read⟩ := readable.reads member membership draft List.mem_cons_self
  have withdrawn := mt (mem_knownNames membership).mpr (readable.fresh membership)
  have only : ∀ draft', (some member.name, draft') ∈ (some member.name, draft) :: object →
      draft' = draft := by
    intro draft' present
    rcases List.mem_cons.mp present with same | present
    · exact (Prod.mk.inj same).2
    · exact absurd (List.mem_map_of_mem present) withdrawn
  have others : ∀ other, other ≠ member.name → ∀ draft',
      (some other, draft') ∈ object ↔ (some other, draft') ∈ (some member.name, draft) :: object := by
    intro other different draft'
    simp [different]
  have filled := fills.withdraw distinctMembers membership List.mem_cons_self read only
    spares.commutes spares.presence others withdrawn
  rw [spares.idle _ put read] at filled
  exact (read_object_eq_ok_iff distinctMembers).mpr ⟨readable.tail, filled⟩

end Record

namespace Form

/-- The form says of the record what is so: it knows the names of its members, a member may
be left out instead of holding its default, and the edits of what a member holds make no
difference. -/
structure Fits (form : Form) (record : Record ρ) : Prop where
  distinct : (record.members.map (·.name)).Nodup
  names : form.names = record.members.map (·.name)
  defaults : ∀ ⦃name draft⦄, form.IsDefault name draft →
    ∃ member ∈ record.members, member.name = name ∧ record.Spares member draft
  inside : ∀ ⦃name draft draft'⦄, form.Inside name draft draft' →
    ∃ member ∈ record.members, member.name = name ∧ ∀ limit put,
      member.read limit draft = .ok put → member.read limit draft' = .ok put

variable {form : Form} {record : Record ρ}

theorem Fits.unknown (fits : form.Fits record) {name : String} (unknown : name ∉ form.names) :
    ∀ member ∈ record.members, some name ≠ some member.name := by
  intro member membership same
  rw [fits.names, Option.some.inj same] at unknown
  exact unknown (List.mem_map_of_mem membership)

/-- A record is read from every edit of an object as it is read from the object. -/
theorem Fits.overlooks (fits : form.Fits record) : record.codec.Overlooks form.Edit := by
  intro limit draft draft' value edit success
  -- A member that is edited may as well stand in front of the others.
  cases edit with
  | permute permuted => exact Record.read_permute fits.distinct permuted success
  | insert unknown wellFormed =>
      apply Record.read_permute fits.distinct List.perm_middle.symm
      exact Record.read_cons_unknown fits.distinct (fits.unknown unknown) wellFormed success
  | remove isDefault =>
      obtain ⟨member, membership, rfl, spares⟩ := fits.defaults isDefault
      have inFront := Record.read_permute fits.distinct List.perm_middle success
      exact Record.read_of_cons_default fits.distinct membership spares inFront
  | inside inner =>
      obtain ⟨member, membership, rfl, kept⟩ := fits.inside inner
      have inFront := Record.read_permute fits.distinct List.perm_middle success
      apply Record.read_permute fits.distinct List.perm_middle.symm
      exact Record.read_cons_exchange fits.distinct membership (kept _) inFront

end Form

end TableReport.Json
