import TableReport.Proofs.Json.Edit
import TableReport.Proofs.Json.Items
import TableReport.Table.Field

/-!
Tables in other words. A table is all in its fields, and each member of its record sets
the field of its own name, so the members can be put into a table in any order. Those
that have a default may be left out of an object that holds it, and an array of the
values of all fields stands for the object.
-/

namespace TableReport.Table

open Json

theorem fields_injective : Function.Injective fields := by
  intro table other same
  obtain ⟨_, _, _, _, _, _, _, _, _, _, _, ⟨⟩, ⟨⟩, ⟨⟩, _, ⟨⟩, ⟨⟩, _, _, ⟨⟩, ⟨⟩, ⟨⟩, _⟩ := table
  obtain ⟨_, _, _, _, _, _, _, _, _, _, _, ⟨⟩, ⟨⟩, ⟨⟩, _, ⟨⟩, ⟨⟩, _, _, ⟨⟩, ⟨⟩, ⟨⟩, _⟩ := other
  simp only [fields, List.cons.injEq, Prod.mk.injEq, FieldValue.text.injEq, FieldValue.flag.injEq,
    FieldValue.levels.injEq, FieldValue.quantity.injEq, FieldValue.offHeap.injEq,
    FieldValue.count.injEq, FieldValue.float.injEq, true_and, and_true] at same
  simpa only [mk.injEq, Memtable.mk.injEq, Traffic.mk.injEq, Repair.mk.injEq, BloomFilter.mk.injEq,
    PartitionSizes.mk.injEq, SliceCells.mk.injEq, and_assoc] using same

/-- Each member sets the field at its own place. -/
theorem members_putAt_fields : ∀ entry ∈ members.zipIdx, entry.1.PutsAt fields entry.2 := by
  simp only [members, List.zipIdx_cons, List.zipIdx_nil, List.forall_mem_cons, List.not_mem_nil,
    IsEmpty.forall_iff, implies_true, and_true]
  and_intros
  all_goals
    first
    | exact .of (fun x => (_, .text x)) fun _ _ => rfl
    | exact .of (fun x => (_, .flag x)) fun _ _ => rfl
    | exact .of (fun x => (_, .levels x)) fun _ _ => rfl
    | exact .of (fun x => (_, .quantity x)) fun _ _ => rfl
    | exact .of (fun x => (_, .offHeap x)) fun _ _ => rfl
    | exact .of (fun x => (_, .count x)) fun _ _ => rfl
    | exact .of (fun x => (_, .float x)) fun _ _ => rfl

/-- The names of all fields in order. -/
def fieldNames : List String := (fresh "" "").fields.map (·.1)

theorem fieldNames_eq : fieldNames = members.map (·.name) := rfl

/-- The fields that need not be reported. -/
def optionNames : List String :=
  [ "sstables_in_each_level", "sstable_count", "off_heap_memory_used_total",
    "sstable_compression_ratio", "number_of_partitions_estimate", "memtable_cell_count",
    "memtable_off_heap_memory_used", "memtable_switch_count", "pending_flushes",
    "bloom_filter_false_positives", "bloom_filter_false_ratio",
    "bloom_filter_off_heap_memory_used", "index_summary_off_heap_memory_used",
    "compression_metadata_off_heap_memory_used" ]

/-- The sizes that are zero if they are not reported. -/
def repairNames : List String := ["bytes_repaired", "bytes_unrepaired", "bytes_pending_repair"]

/-- What the field of a name holds if it is left out. -/
inductive IsDefault : String → Draft → Prop
  | null {name : String} (option : name ∈ optionNames) : IsDefault name .null
  | flag : IsDefault "is_index" (.boolean false)
  | zero {name : String} (size : name ∈ repairNames) : IsDefault name (.number (.integer 0))

def form : Form where
  names := fieldNames
  IsDefault := IsDefault
  Inside _ _ _ := False

theorem spares_of_find? {name : String} {draft : Draft} {member : Member Table}
    (search : members.find? (·.name == name) = some member) (presence : member.presence ≠ .required)
    (idle : ∀ limit, (member.read limit draft).map (· blank) = .ok blank) :
    ∃ member ∈ members, member.name = name ∧ record.Spares member draft := by
  have membership := List.mem_of_find?_eq_some search
  refine ⟨member, membership, by simpa using List.find?_some search, presence, ?idle, ?commutes⟩
  case idle =>
    intro limit put read
    have kept := idle limit
    rw [read] at kept
    exact Except.ok.inj kept
  case commutes =>
    intro other otherMembership different
    exact Member.PutsAt.commutes_of_zipIdx fields_injective members_putAt_fields membership
      otherMembership different

theorem spares_null : ∀ name ∈ optionNames,
    ∃ member ∈ members, member.name = name ∧ record.Spares member .null := by
  simp only [optionNames, List.forall_mem_cons, List.not_mem_nil, IsEmpty.forall_iff, implies_true,
    and_true]
  and_intros
  all_goals exact spares_of_find? rfl (by decide) fun _ => rfl

theorem spares_zero : ∀ name ∈ repairNames,
    ∃ member ∈ members, member.name = name ∧ record.Spares member (.number (.integer 0)) := by
  simp only [repairNames, List.forall_mem_cons, List.not_mem_nil, IsEmpty.forall_iff, implies_true,
    and_true]
  and_intros
  all_goals exact spares_of_find? rfl (by decide) fun _ => rfl

theorem form_fits : form.Fits record where
  distinct := distinct_names
  names := fieldNames_eq
  defaults := by
    intro name draft isDefault
    cases isDefault with
    | null option => exact spares_null name option
    | flag => exact spares_of_find? rfl (by decide) fun _ => rfl
    | zero size => exact spares_zero name size
  inside := by
    intro name draft draft' inner
    cases inner

/-- An array of the values of all fields in order is read as the object that holds the same
values under the names of the fields. -/
theorem read_array (limit : Nat) {values : List Draft} (complete : values.length = 38)
    (closed : Bool) :
    codec.read limit (.array values closed) =
      codec.read limit (.object (Record.named fieldNames values) closed) :=
  Record.read_array distinct_names complete closed

/-- One change of how a table is told. -/
inductive Variant : Draft → Draft → Prop
  | edit {draft draft' : Draft} (edit : form.Edit draft draft') : Variant draft draft'
  | listed {values : List Draft} (complete : values.length = 38) :
      Variant (.object (Record.named fieldNames values) true) (.array values true)
  | named {values : List Draft} (complete : values.length = 38) :
      Variant (.array values true) (.object (Record.named fieldNames values) true)

theorem codec_overlooks : codec.Overlooks Variant := by
  intro limit draft draft' table change read
  cases change with
  | edit edit => exact form_fits.overlooks edit read
  | listed complete => rwa [read_array limit complete]
  | named complete => rwa [← read_array limit complete]

end TableReport.Table
