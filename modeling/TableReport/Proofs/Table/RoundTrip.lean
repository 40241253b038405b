import TableReport.Proofs.Json.BestEffort
import TableReport.Proofs.Json.Record
import TableReport.Table.Record

/-!
Tables through JSON. What is written of a table is read as the same table, except
for floats. Those that JSON has no number for are lost: a latency or average that is no
finite double becomes the NaN, and such a quantity becomes absent; a table that was
read has none of them. All others come back as the reading of decimals has them.
-/

namespace TableReport

open Json Json.Codec

variable {reading : FloatReading} {change : Binary64 → Binary64}

namespace Quantity

/-- The quantity is a number and not an infinity. -/
def isFinite : Quantity → Bool
  | .integer _ => true
  | .float x => x.isFinite

theorem codec_refusesNull : codec.RefusesNull := by
  intro limit q
  simp [codec, Draft.soundBelow]

def float? : Quantity → Option Binary64
  | .integer _ => none
  | .float x => some x

/-- The quantity with its float changed, if it is one. -/
def mapFloat (change : Binary64 → Binary64) : Quantity → Quantity
  | .integer n => .integer n
  | .float x => .float (change x)

theorem map_mapFloat_eq_self {quantity : Option Quantity}
    (same : ∀ x ∈ quantity.bind float?, change x = x) :
    quantity.map (·.mapFloat change) = quantity := by
  cases quantity with
  | none => rfl
  | some q =>
      cases q with
      | integer => rfl
      | float x => rw [Option.map_some, mapFloat, same x rfl]

theorem codec_readsBack (keeps : reading.KeepsFinite) {q : Quantity} (finite : q.isFinite = true) :
    codec.ReadsBack reading q (q.mapFloat reading.reread) := by
  cases q with
  | integer n =>
      refine ⟨.integer n.toInt, rfl, Value.writable_toInt n, fun _ => ?_⟩
      exact congrArg Except.ok
        ((if_pos ⟨n.le_toInt, n.toInt_lt⟩).trans (congrArg integer n.ofInt_toInt))
  | float x =>
      refine ⟨.real x, rfl, Value.writable_real x, fun _ => ?_⟩
      rw [real_of_isFinite finite]
      exact if_pos (keeps x finite)

/-- A float that is no finite double is written as `null`, and so becomes absent. -/
theorem optional_readsBack (keeps : reading.KeepsFinite) (quantity : Option Quantity) :
    (optional codec).ReadsBack reading quantity
      ((quantity.filter (·.isFinite)).map (·.mapFloat reading.reread)) := by
  cases quantity with
  | none => exact ⟨.null, rfl, null_readsAs_none codec⟩
  | some q =>
      by_cases finite : q.isFinite = true
      · obtain ⟨value, writes, reads⟩ := codec_readsBack keeps finite
        rw [Option.filter_some_pos finite]
        exact ⟨value, writes, reads.optional codec_refusesNull⟩
      · have filtered : (some q).filter (·.isFinite) = none := by simp [finite]
        cases q with
        | integer => exact absurd rfl finite
        | float x =>
            rw [filtered]
            have notFinite : x.isFinite = false := by simpa [isFinite] using finite
            exact ⟨.null, by simp [Codec.optional, codec, Value.real, notFinite],
              null_readsAs_none codec⟩

theorem codec_yields : codec.Yields fun q => q.isFinite = true := by
  intro limit draft q inRange read
  unfold codec at read
  dsimp only at read
  split at read
  next sound =>
    split at read
    next n =>
      cases inRange with
      | number inRange =>
          have finite := Number.Writable.isFinite_toBinary64 ⟨inRange, sound⟩
          cases read
          cases n with
          | integer n =>
              unfold ofNumber
              dsimp only
              split
              · rfl
              · exact finite
          | real x => exact finite
    next => cases read
  next => cases read

end Quantity

namespace Table

/-- What is left of a table when it is written: the floats that JSON has no number for
are lost. -/
def restored (table : Table) : Table := { table with
  sstables := table.sstables.filter (·.isFinite)
  compressionRatio := table.compressionRatio.filter (·.isFinite)
  partitions := table.partitions.filter (·.isFinite)
  memtable.cells := table.memtable.cells.filter (·.isFinite)
  memtable.switches := table.memtable.switches.filter (·.isFinite)
  reads.latency := table.reads.latency.orNaN
  writes.latency := table.writes.latency.orNaN
  pendingFlushes := table.pendingFlushes.filter (·.isFinite)
  bloom.falsePositives := table.bloom.falsePositives.filter (·.isFinite)
  bloom.falseRatio := table.bloom.falseRatio.filter (·.isFinite)
  liveCells.average := table.liveCells.average.orNaN
  tombstones.average := table.tombstones.average.orNaN }

/-- The floats of a table. -/
def floats (table : Table) : List Binary64 :=
  [table.reads.latency, table.writes.latency, table.repair.percent, table.liveCells.average,
    table.tombstones.average] ++
  [table.sstables, table.compressionRatio, table.partitions, table.memtable.cells,
    table.memtable.switches, table.pendingFlushes, table.bloom.falsePositives,
    table.bloom.falseRatio].filterMap fun quantity => quantity.bind Quantity.float?

/-- The same table with other floats. -/
def mapFloats (change : Binary64 → Binary64) (table : Table) : Table := { table with
  sstables := table.sstables.map (·.mapFloat change)
  compressionRatio := table.compressionRatio.map (·.mapFloat change)
  partitions := table.partitions.map (·.mapFloat change)
  memtable.cells := table.memtable.cells.map (·.mapFloat change)
  memtable.switches := table.memtable.switches.map (·.mapFloat change)
  reads.latency := change table.reads.latency
  writes.latency := change table.writes.latency
  pendingFlushes := table.pendingFlushes.map (·.mapFloat change)
  repair.percent := change table.repair.percent
  bloom.falsePositives := table.bloom.falsePositives.map (·.mapFloat change)
  bloom.falseRatio := table.bloom.falseRatio.map (·.mapFloat change)
  liveCells.average := change table.liveCells.average
  tombstones.average := change table.tombstones.average }

theorem mapFloats_eq_self {table : Table} (same : ∀ x ∈ table.floats, change x = x) :
    table.mapFloats change = table := by
  obtain ⟨means, quantities⟩ := List.forall_mem_append.mp same
  have quantities : ∀ quantity ∈ [table.sstables, table.compressionRatio, table.partitions,
      table.memtable.cells, table.memtable.switches, table.pendingFlushes,
      table.bloom.falsePositives, table.bloom.falseRatio],
      quantity.map (·.mapFloat change) = quantity := fun quantity membership =>
    Quantity.map_mapFloat_eq_self fun x present =>
      quantities x (List.mem_filterMap.mpr ⟨quantity, membership, present⟩)
  simp only [List.forall_mem_cons] at means quantities
  obtain ⟨reads, writes, percent, live, tombstones, -⟩ := means
  obtain ⟨sstables, ratio, partitions, cells, switches, flushes, positives, falseRatio, -⟩ :=
    quantities
  simp only [mapFloats, reads, writes, percent, live, tombstones, sstables, ratio, partitions,
    cells, switches, flushes, positives, falseRatio]

/-- What comes back of a table whose decimals are read in the quick way: the same table with
other floats. A finite one is near to what it was, and any other one is unchanged. -/
def ComesBackAs (table back : Table) : Prop :=
  ∃ change : Binary64 → Binary64, back = table.mapFloats change ∧
    ∀ x ∈ table.floats, if x.isFinite then FloatReading.ComesBackAs x (change x) else change x = x

theorem comesBackAs_reread (table : Table) :
    table.ComesBackAs (table.mapFloats FloatReading.bestEffort.reread) := by
  refine ⟨_, rfl, fun x _ => ?_⟩
  split
  next finite => exact FloatReading.comesBackAs_reread finite
  next notFinite => exact FloatReading.reread_of_not_isFinite notFinite

/-- The table that comes back when a table is written and read. -/
def reread (reading : FloatReading) (table : Table) : Table :=
  table.restored.mapFloats reading.reread

theorem optionalText_readsBack (text : Option String) :
    (optional .text).ReadsBack reading text text :=
  optional_readsBack text_refusesNull fun _ _ => text_readsBack _

theorem texts_readsBack (texts : List String) : (list .text).ReadsBack reading texts texts := by
  have back := @list_readsBack _ reading _ texts id fun _ _ => text_readsBack _
  rwa [List.map_id] at back

theorem restores (keeps : reading.KeepsFinite) {table : Table}
    (finite : table.repair.percent.isFinite = true) :
    Restores reading table members blank (table.reread reading) :=
  .of (text_readsBack _) <| .of (text_readsBack _) <| .of (flag_readsBack _) <|
  .omittable (list_refusesNull _) (fun _ _ => texts_readsBack _)
    (by decide) (fun _ => rfl) <|
  .of (Quantity.optional_readsBack keeps _) <| .of (text_readsBack _) <| .of (text_readsBack _) <|
  .of (text_readsBack _) <| .of (optionalText_readsBack _) <|
  .of (Quantity.optional_readsBack keeps _) <| .of (Quantity.optional_readsBack keeps _) <|
  .of (Quantity.optional_readsBack keeps _) <|
  .of (text_readsBack _) <| .of (optionalText_readsBack _) <|
  .of (Quantity.optional_readsBack keeps _) <|
  .of (signed_readsBack _) <| .of (floatOrNaN_readsBack keeps _) <| .of (signed_readsBack _) <|
  .of (floatOrNaN_readsBack keeps _) <| .of (Quantity.optional_readsBack keeps _) <|
  .of (float_readsBack keeps finite) <| .of (signed_readsBack _) <| .of (signed_readsBack _) <|
  .of (signed_readsBack _) <| .of (Quantity.optional_readsBack keeps _) <|
  .of (Quantity.optional_readsBack keeps _) <| .of (text_readsBack _) <|
  .of (optionalText_readsBack _) <|
  .of (optionalText_readsBack _) <| .of (optionalText_readsBack _) <| .of (signed_readsBack _) <|
  .of (signed_readsBack _) <| .of (signed_readsBack _) <| .of (floatOrNaN_readsBack keeps _) <|
  .of (signed_readsBack _) <| .of (floatOrNaN_readsBack keeps _) <| .of (signed_readsBack _) <|
  .of (text_readsBack _) <| .done _

theorem codec_readsBack (keeps : reading.KeepsFinite) {table : Table}
    (finite : table.repair.percent.isFinite = true) :
    codec.ReadsBack reading table (table.reread reading) :=
  Record.codec_readsBack distinct_names (restores keeps finite)

/-- Every float of the table is one that JSON has a number for, or the NaN that
stands where `null` is read. -/
structure Representable (table : Table) : Prop where
  percent : table.repair.percent.isFinite = true
  means : ∀ x ∈ [table.reads.latency, table.writes.latency, table.liveCells.average,
    table.tombstones.average], x.orNaN = x
  quantities : ∀ quantity ∈ [table.sstables, table.compressionRatio, table.partitions,
    table.memtable.cells, table.memtable.switches, table.pendingFlushes,
    table.bloom.falsePositives, table.bloom.falseRatio], ∀ q ∈ quantity, q.isFinite = true

theorem filter_isFinite_eq_self {quantity : Option Quantity}
    (finite : ∀ q ∈ quantity, q.isFinite = true) : quantity.filter (·.isFinite) = quantity := by
  cases quantity with
  | none => rfl
  | some q => exact Option.filter_some_pos (finite q rfl)

/-- Such a table has no float to lose. -/
theorem Representable.restored_eq {table : Table} (representable : table.Representable) :
    table.restored = table := by
  have means := representable.means
  simp only [List.forall_mem_cons] at means
  obtain ⟨reads, writes, live, tombstones, -⟩ := means
  have quantities : ∀ quantity ∈ [table.sstables, table.compressionRatio, table.partitions,
      table.memtable.cells, table.memtable.switches, table.pendingFlushes,
      table.bloom.falsePositives, table.bloom.falseRatio],
      quantity.filter (·.isFinite) = quantity := fun quantity membership =>
    filter_isFinite_eq_self (representable.quantities quantity membership)
  simp only [List.forall_mem_cons] at quantities
  obtain ⟨sstables, ratio, partitions, cells, switches, flushes, positives, falseRatio, -⟩ :=
    quantities
  simp only [restored, reads, writes, live, tombstones, sstables, ratio, partitions, cells,
    switches, flushes, positives, falseRatio]

theorem members_keep : ∀ member ∈ members, member.Keeps Representable := by
  simp only [members, List.forall_mem_cons]
  and_intros
  -- Most members are no floats; then come the percentage, the means and the quantities.
  all_goals first
    | refine Member.of_keeps (yields_any _) ?_
      intro _ _ _ kept
      exact ⟨kept.percent, kept.means, kept.quantities⟩
    | refine Member.of_keeps float_yields ?_
      intro _ finite _ kept
      exact ⟨finite, kept.means, kept.quantities⟩
    | refine Member.of_keeps floatOrNaN_yields ?_
      intro _ isMean _ kept
      refine ⟨kept.percent, ?_, kept.quantities⟩
      have others := kept.means
      simp only [List.forall_mem_cons] at others ⊢
      obtain ⟨_, _, _, _, _⟩ := others
      and_intros <;> assumption
    | refine Member.of_keeps (optional_yields Quantity.codec_yields) ?_
      intro _ finite _ kept
      refine ⟨kept.percent, kept.means, ?_⟩
      have others := kept.quantities
      simp only [List.forall_mem_cons] at others ⊢
      obtain ⟨_, _, _, _, _, _, _, _, _⟩ := others
      and_intros <;> assumption
    | exact List.forall_mem_nil _

theorem representable_blank : blank.Representable where
  percent := Binary64.isFinite_ofInt (by decide)
  means := by simp [blank, fresh]
  quantities := by simp [blank, fresh]

/-- A table that is read has no float that JSON has no number for. -/
theorem codec_yields : codec.Yields Representable :=
  Record.codec_yields representable_blank members_keep

end Table

end TableReport
