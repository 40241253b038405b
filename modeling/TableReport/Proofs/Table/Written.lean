import TableReport.Proofs.Table.RoundTrip
import TableReport.Table.Field

/-!
Whatever a table holds, JSON is written of it: floats that JSON has no number for
become `null`. Read again, such a `null` stands for the lack of a value, except in
place of the percentage, which has to be there. So a table comes back with these
floats lost, or not at all. The other floats are as the reading of decimals has them,
and unchanged if it rounds correctly.
-/

namespace TableReport

open Json Json.Codec

theorem FieldValue.writable_write {value : FieldValue} {json : Value}
    (writes : value.write = some json) : json.Writable := by
  cases value with
  | text s =>
      cases writes
      trivial
  | flag b =>
      cases writes
      trivial
  | levels names =>
      cases names with
      | none => cases writes
      | some names =>
          cases writes
          have back := fun name (_ : name ∈ names) => @Codec.text_readsBack .nearest name
          exact @Codec.itemsWritable_filterMap _ .nearest _ names id back
  | quantity q =>
      obtain ⟨json, written, reads⟩ :=
        Quantity.optional_readsBack FloatReading.isNearest_nearest.keepsFinite q
      cases written.symm.trans writes
      exact reads.writable
  | offHeap s =>
      obtain ⟨json, written, reads⟩ := @Table.optionalText_readsBack .nearest s
      cases written.symm.trans writes
      exact reads.writable
  | count n =>
      cases writes
      exact Value.writable_toInt n
  | float x =>
      cases writes
      exact Value.writable_real x

namespace Table

variable {reading : FloatReading} {table back : Table}

theorem writable_writtenMembers (table : Table) :
    ∀ member ∈ record.writtenMembers table, member.2.Writable := by
  intro member membership
  rw [writtenMembers_eq] at membership
  obtain ⟨⟨name, value⟩, -, named⟩ := List.mem_filterMap.mp membership
  obtain ⟨json, writes, rfl⟩ := Option.map_eq_some_iff.mp named
  exact FieldValue.writable_write writes

theorem decodeUnder_encode_eq_read (table : Table) :
    codec.decodeUnder reading (codec.encode table) = record.read depthLimit
      (.object (Value.memberDrafts reading (record.writtenMembers table)) true) := by
  have writable : (Value.object (record.writtenMembers table)).Writable :=
    Value.membersWritable_iff.mpr table.writable_writtenMembers
  exact Codec.decodeUnder_encode_eq_read rfl writable

/-- In place of the percentage a `null` is refused. -/
theorem isFinite_of_decodeUnder_encode
    (decoded : codec.decodeUnder reading (codec.encode table) = .ok back) :
    table.repair.percent.isFinite = true := by
  rw [decodeUnder_encode_eq_read] at decoded
  apply Bool.of_not_eq_false
  intro notFinite
  have membership : Member.of "percent_repaired" .float (·.repair.percent)
      (fun v t => { t with repair.percent := v }) ∈ record.members := by
    simp only [record, members, List.mem_cons, true_or, or_true]
  apply Record.write_ne_null_of_read distinct_names membership float_refusesNull decoded
  simp [Codec.float, Value.real, notFinite]

/-- A table is read again after it was written if and only if its percentage is a finite
double, and then every float comes back as the reading has it. -/
theorem decodeUnder_encode_eq_ok_iff (keeps : reading.KeepsFinite) :
    codec.decodeUnder reading (codec.encode table) = .ok back ↔
      table.repair.percent.isFinite = true ∧ back = table.reread reading := by
  constructor
  · intro decoded
    have finite := isFinite_of_decodeUnder_encode decoded
    rw [decodeUnder_encode (codec_readsBack keeps finite)] at decoded
    exact ⟨finite, (Except.ok.inj decoded).symm⟩
  · rintro ⟨finite, rfl⟩
    exact decodeUnder_encode (codec_readsBack keeps finite)

theorem reread_of_isNearest (nearest : reading.IsNearest) (table : Table) :
    table.reread reading = table.restored :=
  mapFloats_eq_self fun x _ => nearest.reread_eq x

/-- A table is read again after it was written if and only if its percentage is a
finite double. Then only floats that JSON has no number for have changed, where decimals
are read as the nearest double: a latency or an average became the NaN, and a quantity
became absent. -/
theorem decode_encode_eq_ok_iff (nearest : reading.IsNearest) (table back : Table) :
    codec.decodeUnder reading (codec.encode table) = .ok back ↔
      table.repair.percent.isFinite = true ∧ back = table.restored := by
  rw [decodeUnder_encode_eq_ok_iff nearest.keepsFinite, reread_of_isNearest nearest]

/-- A table with one float of each kind that JSON has no number for. -/
def lossy : Table := { fresh "ks" "t" with
  levels := some []
  sstables := some (.float (.infinity true))
  reads := { count := 1, latency := .infinity false }
  repair.percent := { Binary64.zero with negative := true } }

theorem decode_encode_eq_ok_iff_lossy :
    FloatReading.nearest.IsNearest ∧ codec.decodeUnder .nearest (codec.encode lossy) = .ok
      { lossy with sstables := none, reads := { count := 1, latency := .nan } } :=
  ⟨FloatReading.isNearest_nearest,
    (decode_encode_eq_ok_iff FloatReading.isNearest_nearest lossy _).mpr (by decide +kernel)⟩

end Table

end TableReport
