import TableReport.Proofs.Json.Record

/-!
Records in arrays. An array with an item for every member of a record is read as the
object that has the same items under the names of the members, with the same faults at
the same places: an array is filled in as it is read, an object is collected first, and
what is collected under a name is found there when its member has its turn.
-/

namespace TableReport.Json.Record

variable {ρ : Type} {record : Record ρ} {limit : Nat}

/-- Each item under its name. -/
def named (names : List String) (items : List Draft) : List (Option String × Draft) :=
  (names.map some).zip items

theorem mem_names_of_named {names : List String} {items : List Draft} {name : String}
    (present : some name ∈ (named names items).map (·.1)) : name ∈ names := by
  obtain ⟨⟨label, draft⟩, present, rfl⟩ := List.mem_map.mp present
  obtain ⟨other, membership, same⟩ := List.mem_map.mp (List.of_mem_zip present).1
  rwa [← Option.some.inj same]

/-- A pass over an object leaves alone what was found under other names. -/
theorem lookup_of_readMembers (distinctMembers : (record.members.map (·.name)).Nodup)
    {object : List (Option String × Draft)} {before found : Found ρ} {name : String}
    (run : record.readMembers limit object before = .ok found)
    (absent : some name ∉ object.map (·.1)) : found.lookup name = before.lookup name :=
  (collects_of_readMembers distinctMembers run).2.absent name absent

/-- The items that are still to come are read as the members of their names. -/
theorem readItems_eq (distinctMembers : (record.members.map (·.name)).Nodup) {closed : Bool}
    {rest : List (Member ρ)} (subset : ∀ member ∈ rest, member ∈ record.members)
    (distinct : (rest.map (·.name)).Nodup) {items : List Draft}
    (sameLength : items.length = rest.length) (index : Nat) (value : ρ) {before : Found ρ}
    (fresh : ∀ name ∈ rest.map (·.name), before.lookup name = none) :
    record.readItems limit closed index rest items value =
      (record.readMembers limit (named (rest.map (·.name)) items) before).bind fun found =>
        if closed then assemble found rest value else .error .malformed := by
  induction rest generalizing items index value before with
  | nil =>
      obtain rfl := List.eq_nil_of_length_eq_zero sameLength
      cases closed <;> rfl
  | cons member rest inductionHypothesis =>
      obtain ⟨item, items, rfl⟩ := List.exists_cons_of_length_eq_add_one sameLength
      obtain ⟨membership, subset⟩ := List.forall_mem_cons.mp subset
      obtain ⟨nameFresh, distinct⟩ := List.nodup_cons.mp distinct
      obtain ⟨headFresh, tailFresh⟩ := List.forall_mem_cons.mp fresh
      rw [show named ((member :: rest).map (·.name)) (item :: items) =
          (some member.name, item) :: named (rest.map (·.name)) items from rfl,
        readMembers_cons distinctMembers membership headFresh, readItems]
      cases read : member.read limit item with
      | error => rfl
      | ok put =>
          have putFresh := lookup_cons_of_fresh nameFresh tailFresh put
          have tail := inductionHypothesis subset distinct (Nat.succ.inj sameLength) (index + 1)
            (put value) putFresh
          simp only [bind, Except.bind] at tail ⊢
          rw [tail]
          cases run : record.readMembers limit (named (rest.map (·.name)) items)
            ((member.name, put) :: before) with
          | error => rfl
          | ok found =>
              have kept := lookup_of_readMembers distinctMembers run
                (mt mem_names_of_named nameFresh)
              rw [List.lookup_cons_self] at kept
              dsimp only
              rw [assemble, kept]

/-- An array of all members in order is read as the object that has the same items under
the names of the members. -/
theorem read_array (distinctMembers : (record.members.map (·.name)).Nodup) {items : List Draft}
    (sameLength : items.length = record.members.length) (closed : Bool) :
    record.read limit (.array items closed) =
      record.read limit (.object (named (record.members.map (·.name)) items) closed) :=
  readItems_eq distinctMembers (fun _ membership => membership) distinctMembers sameLength 0
    record.blank fun _ _ => rfl

end TableReport.Json.Record
