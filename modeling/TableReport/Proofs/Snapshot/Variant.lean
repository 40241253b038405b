import Mathlib.Logic.Relation
import TableReport.Proofs.Json.Document
import TableReport.Proofs.Table.Variant
import TableReport.Snapshot

/-!
Snapshots in other words. The members of a snapshot, of its keyspaces and of their
tables may stand in any order and with others between them, those that hold a default
may be left out, and a table may be an array: the text is still read as the same
snapshot, however many such changes it has seen.
-/

namespace TableReport

open Json

namespace Keyspace

/-- The total times, which are zero if they are not told. -/
def timeNames : List String := ["total_read_time_micros", "total_write_time_micros"]

def form : Form where
  names :=
    [ "name", "read_count", "write_count", "pending_flushes", "total_read_time_micros",
      "total_write_time_micros", "tables" ]
  IsDefault name draft := name ∈ timeNames ∧ ∃ n, draft = .number n ∧ n.toBinary64 = .zero
  Inside name draft draft' := name = "tables" ∧ ItemEdit Table.Variant draft draft'

/-- The values of a keyspace, each at its own place. -/
def places (keyspace : Keyspace) : List (String ⊕ Int64 ⊕ Binary64 ⊕ List Table) :=
  [ .inl keyspace.name, .inr (.inl keyspace.readCount), .inr (.inl keyspace.writeCount),
    .inr (.inl keyspace.pendingFlushes), .inr (.inr (.inl keyspace.readTime)),
    .inr (.inr (.inl keyspace.writeTime)), .inr (.inr (.inr keyspace.tables)) ]

theorem places_injective : Function.Injective places := by
  intro keyspace other same
  cases keyspace
  cases other
  simpa [places] using same

theorem members_putAt_places : ∀ entry ∈ record.members.zipIdx, entry.1.PutsAt places entry.2 := by
  simp only [record, List.zipIdx_cons, List.zipIdx_nil, List.forall_mem_cons, List.not_mem_nil,
    IsEmpty.forall_iff, implies_true, and_true]
  refine ⟨.of .inl ?name, .of (.inr ∘ .inl) ?reads, .of (.inr ∘ .inl) ?writes,
    .of (.inr ∘ .inl) ?flushes, .of (.inr ∘ .inr ∘ .inl) ?readTime,
    .of (.inr ∘ .inr ∘ .inl) ?writeTime, .of (.inr ∘ .inr ∘ .inr) ?tables⟩
  all_goals exact fun _ _ => rfl

/-- A time of zero is in the blank keyspace already. -/
theorem spares_zero {name : String} {n : Number} {get : Keyspace → Binary64}
    {set : Binary64 → Keyspace → Keyspace} (zero : n.toBinary64 = .zero)
    (membership : .of name .float get set .trailing ∈ record.members)
    (blank : set .zero record.blank = record.blank) :
    record.Spares (.of name .float get set .trailing) (.number n) where
  presence := nofun
  idle := by
    intro limit put read
    obtain ⟨time, timeRead, rfl⟩ := map_eq_ok_iff.mp read
    simp only [Codec.float] at timeRead
    split at timeRead
    next =>
      obtain rfl := Except.ok.inj timeRead
      rwa [zero]
    next => cases timeRead
  commutes other otherMembership different :=
    Member.PutsAt.commutes_of_zipIdx places_injective members_putAt_places membership
      otherMembership different

theorem form_fits : form.Fits record where
  distinct := by decide
  names := rfl
  defaults := by
    rintro name draft ⟨known, n, rfl, zero⟩
    simp only [timeNames, List.mem_cons, List.not_mem_nil, or_false] at known
    rcases known with rfl | rfl
    · have membership : record.members[4] ∈ record.members := List.getElem_mem _
      exact ⟨record.members[4], membership, rfl, spares_zero zero membership rfl⟩
    · have membership : record.members[5] ∈ record.members := List.getElem_mem _
      exact ⟨record.members[5], membership, rfl, spares_zero zero membership rfl⟩
  inside := by
    rintro name draft draft' ⟨rfl, inner⟩
    refine ⟨record.members[6], List.getElem_mem _, rfl, ?_⟩
    intro limit put
    exact Member.read_of_overlooks (Codec.list_overlooks Table.codec_overlooks) inner limit put

end Keyspace

namespace Snapshot

def form : Form where
  names := ["table_count", "keyspaces"]
  IsDefault _ _ := False
  Inside name draft draft' := name = "keyspaces" ∧ ItemEdit Keyspace.form.Edit draft draft'

theorem form_fits : form.Fits record where
  distinct := by decide
  names := rfl
  defaults := by
    intro name draft isDefault
    cases isDefault
  inside := by
    rintro name draft draft' ⟨rfl, inner⟩
    refine ⟨record.members[1], List.getElem_mem _, rfl, ?_⟩
    exact Member.read_of_overlooks (Codec.list_overlooks Keyspace.form_fits.overlooks) inner

theorem read_edits {limit : Nat} {draft edited : Draft} {snapshot : Snapshot}
    (edits : Relation.ReflTransGen form.Edit draft edited)
    (read : codec.read limit draft = .ok snapshot) : codec.read limit edited = .ok snapshot := by
  induction edits with
  | refl => exact read
  | tail _ edit inductionHypothesis => exact form_fits.overlooks edit inductionHypothesis

/-- A text that is decoded spells out a document, and every text that spells out edits of
the document is decoded as the same snapshot, whatever the reading of decimals is. The
tables in it may be arrays of the values of all fields, which are read as the objects with
the same values. -/
theorem decode_edits (reading : FloatReading) :
    (∀ text snapshot, codec.decodeUnder reading text = .ok snapshot →
      (∃ draft : Draft, draft.SpelledBy reading text) ∧
        ∀ (draft edited : Draft) (text' : String), draft.SpelledBy reading text →
          Relation.ReflTransGen form.Edit draft edited → edited.SpelledBy reading text' →
            codec.decodeUnder reading text' = .ok snapshot) ∧
      ∀ (limit : Nat) (values : List Draft) (closed : Bool), values.length = 38 →
        Table.codec.read limit (.array values closed) =
          Table.codec.read limit (.object (Record.named Table.fieldNames values) closed) := by
  refine ⟨?_, fun limit values closed complete => Table.read_array limit complete closed⟩
  intro text snapshot decoded
  obtain ⟨root, spelled, read⟩ := Codec.decodeUnder_eq_ok_iff.mp decoded
  refine ⟨⟨root, spelled⟩, ?_⟩
  intro draft edited text' spelled' edits spelledEdited
  obtain rfl : draft = root := spelled'.unique spelled
  exact Codec.decodeUnder_eq_ok_iff.mpr ⟨edited, spelledEdited, read_edits edits read⟩

/-- A table with the members that must be there. -/
def requiredMembers : List (String × Value) :=
  [ ("keyspace_name", .string "k"), ("table_name", .string "t"), ("space_used_live", .string "1"),
    ("space_used_total", .string "2"), ("space_used_by_snapshots_total", .string "0"),
    ("memtable_data_size", .string "3"), ("local_read_count", .integer 4),
    ("local_read_latency_ms", .null), ("local_write_count", .integer 5),
    ("local_write_latency_ms", .null), ("percent_repaired", .integer 100),
    ("bloom_filter_space_used", .string "6"), ("compacted_partition_minimum_bytes", .integer 7),
    ("compacted_partition_maximum_bytes", .integer 8),
    ("compacted_partition_mean_bytes", .integer 9),
    ("average_live_cells_per_slice_last_five_minutes", .null),
    ("maximum_live_cells_per_slice_last_five_minutes", .integer 1),
    ("average_tombstones_per_slice_last_five_minutes", .null),
    ("maximum_tombstones_per_slice_last_five_minutes", .integer 2),
    ("dropped_mutations", .string "0") ]

/-- The members of a keyspace up to its times. -/
def totalMembers : List (String × Value) :=
  [ ("name", .string "k"), ("read_count", .integer 4), ("write_count", .integer 5),
    ("pending_flushes", .integer 0) ]

def keyspaceOf (times table : List (String × Value)) : Value :=
  .object (totalMembers ++ times ++ [("tables", .array [.object table])])

def snapshotOf (keyspace : Value) : Value :=
  .object [("table_count", .integer 1), ("keyspaces", .array [keyspace])]

def noReadTime : String × Value := ("total_read_time_micros", .number (.real .zero))

def told : Value :=
  snapshotOf (keyspaceOf [noReadTime] (("is_index", .boolean false) :: requiredMembers))

/-- The same in other words. -/
def retold : Value :=
  .object [("note", .array []), ("keyspaces", .array [keyspaceOf [] requiredMembers]),
    ("table_count", .integer 1)]

theorem edits_told :
    Relation.ReflTransGen form.Edit (told.draft .bestEffort) (retold.draft .bestEffort) := by
  have ofKeyspace : ∀ {keyspace keyspace' : Value},
      Keyspace.form.Edit (keyspace.draft .bestEffort) (keyspace'.draft .bestEffort) →
        form.Edit ((snapshotOf keyspace).draft .bestEffort)
          ((snapshotOf keyspace').draft .bestEffort) := fun edit =>
    @Form.Edit.inside _ [_] [] _ _ _ ⟨rfl, @ItemEdit.item _ [] [] _ _ edit⟩
  have flag : form.Edit (told.draft .bestEffort)
      ((snapshotOf (keyspaceOf [noReadTime] requiredMembers)).draft .bestEffort) := by
    apply ofKeyspace
    have table : Table.Variant
        ((Value.object (("is_index", .boolean false) :: requiredMembers)).draft .bestEffort)
        ((Value.object requiredMembers).draft .bestEffort) :=
      .edit (@Form.Edit.remove _ [] _ _ _ .flag)
    exact @Form.Edit.inside _ (Value.memberDrafts .bestEffort (totalMembers ++ [noReadTime])) []
      "tables" _ _
      ⟨rfl, @ItemEdit.item _ [] [] _ _ table⟩
  have time : form.Edit
      ((snapshotOf (keyspaceOf [noReadTime] requiredMembers)).draft .bestEffort)
      ((snapshotOf (keyspaceOf [] requiredMembers)).draft .bestEffort) := by
    apply ofKeyspace
    exact @Form.Edit.remove _ (Value.memberDrafts .bestEffort totalMembers) _ _ _
      ⟨List.mem_cons_self, _, rfl, by decide +kernel⟩
  let swapped : Value := .object
    [("keyspaces", .array [keyspaceOf [] requiredMembers]), ("table_count", .integer 1)]
  have order : form.Edit ((snapshotOf (keyspaceOf [] requiredMembers)).draft .bestEffort)
      (swapped.draft .bestEffort) :=
    .permute (.swap _ _ _)
  have note : form.Edit (swapped.draft .bestEffort) (retold.draft .bestEffort) :=
    @Form.Edit.insert _ [] _ "note" (.array [] true) (by decide) rfl
  exact .head flag (.head time (.head order (.single note)))

theorem writable_totals : ∀ member ∈ totalMembers, member.2.Writable := by
  simp [totalMembers, Value.Writable, Value.integer, Number.writable_integer]

theorem writable_required : ∀ member ∈ requiredMembers, member.2.Writable := by
  simp [requiredMembers, Value.Writable, Value.integer, Number.writable_integer]

theorem writable_keyspaceOf {times table : List (String × Value)}
    (timesWritable : ∀ member ∈ times, member.2.Writable)
    (tableWritable : ∀ member ∈ table, member.2.Writable) : (keyspaceOf times table).Writable := by
  apply Value.membersWritable_iff.mpr
  rw [List.forall_mem_append, List.forall_mem_append]
  refine ⟨⟨writable_totals, timesWritable⟩, List.forall_mem_singleton.mpr ?_⟩
  exact ⟨Value.membersWritable_iff.mpr tableWritable, trivial⟩

theorem told_writable : told.Writable := by
  have times : ∀ member ∈ [noReadTime], member.2.Writable :=
    List.forall_mem_singleton.mpr ⟨trivial, rfl⟩
  have table : ∀ member ∈ ("is_index", .boolean false) :: requiredMembers, member.2.Writable :=
    List.forall_mem_cons.mpr ⟨trivial, writable_required⟩
  have count := @Number.writable_integer 1 (by decide) (by decide)
  exact ⟨count, ⟨writable_keyspaceOf times table, trivial⟩, trivial⟩

theorem retold_writable : retold.Writable := by
  have keyspace := writable_keyspaceOf (List.forall_mem_nil _) writable_required
  have count := @Number.writable_integer 1 (by decide) (by decide)
  exact ⟨trivial, ⟨keyspace, trivial⟩, count, trivial⟩

/-- What both of them hold. -/
def toldSnapshot : Snapshot where
  tableCount := 1
  keyspaces :=
    [ { name := "k", readCount := 4, writeCount := 5, pendingFlushes := 0
        readTime := .zero, writeTime := .zero
        tables :=
          [ { Table.blank with
              keyspace := "k", name := "t", spaceLive := "1", spaceTotal := "2"
              spaceSnapshots := "0", memtable := { Table.blank.memtable with dataSize := "3" }
              reads := { count := 4, latency := .nan }, writes := { count := 5, latency := .nan }
              repair := { Table.blank.repair with percent := .ofInt 100 }
              bloom := { Table.blank.bloom with space := "6" }
              compacted := { minimum := 7, maximum := 8, mean := 9 }
              liveCells := { average := .nan, maximum := 1 }
              tombstones := { average := .nan, maximum := 2 }, droppedMutations := "0" } ] } ]

theorem decode_told : codec.decode told.compact = .ok toldSnapshot := by
  refine Codec.decodeUnder_eq_ok_iff.mpr ⟨told.draft .bestEffort, .compact told_writable, ?_⟩
  apply eq_ok_of_toOption
  decide +kernel

theorem decode_edits_told :
    codec.decode told.compact = .ok toldSnapshot ∧ codec.decode retold.pretty = .ok toldSnapshot ∧
      Table.codec.read 2 (.array (List.replicate 38 .null) true) = Table.codec.read 2
        (.object (Record.named Table.fieldNames (List.replicate 38 .null)) true) :=
  ⟨decode_told,
    ((decode_edits .bestEffort).1 told.compact toldSnapshot decode_told).2
      (told.draft .bestEffort) (retold.draft .bestEffort) retold.pretty
      (.compact told_writable) edits_told (.pretty retold_writable),
    (decode_edits .bestEffort).2 2 (List.replicate 38 .null) true List.length_replicate⟩

end Snapshot

end TableReport
