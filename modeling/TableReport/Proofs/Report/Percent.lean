import TableReport.Proofs.Report.Block
import TableReport.Proofs.Report.Hundredths
import TableReport.Proofs.Snapshot.RoundTrip

/-!
The repaired percentage in a report. A snapshot may hold any finite double there, and what
is shown comes near to it unless a hundred times the percentage overflows; such a percentage
is shown as an infinity.
-/

namespace TableReport

open Json Numeral

/-- The text is a numeral, and the double that it is read as differs from the given one by
half of a hundredth and a rounding error at most. -/
def ShowsNearly (text : String) (x : Binary64) : Prop :=
  ∃ n, Spells text.toList n ∧ n.toBinary64.isFinite = true ∧
    |n.toBinary64.value - x.value| ≤ 1 / 200 + |x.value| / 2 ^ 51

variable {x : Binary64}

theorem hundredthsText_showsNearly (finite : x.isFinite) (inRange : (x * .ofInt 100).isFinite) :
    ShowsNearly (hundredthsText x) x := by
  have finiteResult := Binary64.isFinite_hundredths finite inRange
  obtain ⟨n, spells, read, -⟩ := reportStyle.spells_chars (Or.inr rfl) finiteResult
  refine ⟨n, ?_, ?_, ?_⟩
  · rw [hundredthsText, FloatStyle.text, String.toList_ofList]
    exact spells
  · rwa [read]
  · rw [read]
    exact Binary64.abs_hundredths_sub finite inRange

theorem not_showsNearly_infinity (negative : Bool) (x : Binary64) :
    ¬ShowsNearly (if negative then "-Infinity" else "Infinity") x := by
  rintro ⟨n, spells, -⟩
  have scanned := Numeral.scan?_eq_some spells
  have unscanned : scan? (if negative then "-Infinity" else "Infinity").toList = none := by
    cases negative <;> decide
  rw [unscanned] at scanned
  cases scanned

theorem text_infinity (negative : Bool) :
    reportStyle.text (.infinity negative) = if negative then "-Infinity" else "Infinity" := by
  cases negative <;> rfl

namespace Table

theorem percent_mem_lines (table : Table) (name indent : String) :
    labelled indent "Percent repaired" (hundredthsText table.repair.percent) ∈
      table.lines name indent := by
  apply List.mem_append_left
  refine List.mem_map.mpr ⟨("Percent repaired", hundredthsText table.repair.percent), ?_, rfl⟩
  simp [entries]

/-- A table with a percentage and nothing else to tell. -/
def repairedBy (percent : Binary64) : Table :=
  { fresh "ks" "t" with repair.percent := percent }

theorem representable_repairedBy (finite : x.isFinite) : (repairedBy x).Representable where
  percent := finite
  means := by simp [repairedBy, fresh]
  quantities := by
    have ratios : (Binary64.ofInt (-1)).isFinite = true ∧ Binary64.zero.isFinite = true := by
      decide +kernel
    simp [repairedBy, fresh, Quantity.isFinite, ratios]

end Table

namespace Snapshot

/-- The percentages that snapshots are read with, under a reading of decimals. -/
def Reads (reading : FloatReading) (percent : Binary64) : Prop :=
  ∃ text snapshot, codec.decodeUnder reading text = .ok snapshot ∧
    ∃ table ∈ snapshot.tables, table.repair.percent = percent

variable {reading : FloatReading}

theorem Reads.isFinite (reads : Reads reading x) : x.isFinite = true := by
  obtain ⟨text, snapshot, decoded, table, membership, rfl⟩ := reads
  obtain ⟨keyspace, keyspaceListed, tableListed⟩ := List.mem_flatMap.mp membership
  have representable := codec_yields.of_decodeUnder decoded
  exact ((representable keyspace keyspaceListed).tables table tableListed).percent

/-- A finite percentage that comes back as it was is read where it was written. -/
theorem reads_of_reread_eq (keeps : reading.KeepsFinite) (same : reading.reread x = x)
    (finite : x.isFinite) : Reads reading x := by
  let keyspace : Keyspace :=
    { name := "ks", readCount := 0, writeCount := 0, pendingFlushes := 0, readTime := .zero
      writeTime := .zero, tables := [.repairedBy x] }
  have tablesRepresentable : ∀ table ∈ keyspace.tables, table.Representable := by
    intro table membership
    rw [List.mem_singleton.mp membership]
    exact Table.representable_repairedBy finite
  have representable : (ofKeyspaces [keyspace]).Representable := by
    intro listed membership
    rw [List.mem_singleton.mp membership]
    exact ⟨rfl, rfl, tablesRepresentable⟩
  refine ⟨_, _, Codec.decodeUnder_encode (codec_readsBack keeps representable),
    (Table.repairedBy x).mapFloats reading.reread, ?_, same⟩
  exact List.mem_flatMap.mpr
    ⟨keyspace.mapFloats reading.reread, List.mem_singleton_self _, List.mem_singleton_self _⟩

end Snapshot

theorem isFinite_mul_hundred_iff (finite : x.isFinite) :
    (x * .ofInt 100).isFinite = true ↔ ¬Binary64.Overflows (x.value * 100) := by
  have inRange := Binary64.isFinite_mul_iff finite Binary64.hundred.1
  rwa [Binary64.value_hundred] at inRange

theorem hundredthsText_of_overflows (finite : x.isFinite)
    (overflows : Binary64.Overflows (x.value * 100)) :
    hundredthsText x = if x.negative then "-Infinity" else "Infinity" := by
  have outOfRange := mt (isFinite_mul_hundred_iff finite).mp (not_not.mpr overflows)
  have text_eq : hundredthsText x = reportStyle.text x.hundredths := rfl
  rw [text_eq, Binary64.hundredths_of_overflow finite outOfRange, text_infinity]

/-- The repaired percentage of a table that is read is finite, and where decimals are read as
the nearest double it may be any finite one. Its line shows it nearly if and only if the
product with a hundred does not overflow; then the product is finite. Else the line shows an
infinity. -/
theorem percent_shown (x : Binary64) :
    (∀ reading, Snapshot.Reads reading x → x.isFinite = true) ∧
    (∀ reading : FloatReading, reading.IsNearest →
      (Snapshot.Reads reading x ↔ x.isFinite = true)) ∧
    (∀ (table : Table) (name indent : String), table.repair.percent = x →
      labelled indent "Percent repaired" (hundredthsText x) ∈ table.lines name indent) ∧
    (x.isFinite →
      ((x * .ofInt 100).isFinite = true ↔ ¬Binary64.Overflows (x.value * 100)) ∧
      (ShowsNearly (hundredthsText x) x ↔ ¬Binary64.Overflows (x.value * 100)) ∧
      (Binary64.Overflows (x.value * 100) →
        hundredthsText x = if x.negative then "-Infinity" else "Infinity")) := by
  refine ⟨fun _ => Snapshot.Reads.isFinite, fun reading nearest => ⟨Snapshot.Reads.isFinite,
    Snapshot.reads_of_reread_eq nearest.keepsFinite (nearest.reread_eq x)⟩, ?_,
    fun finite => ⟨isFinite_mul_hundred_iff finite, ⟨?_, ?_⟩, hundredthsText_of_overflows finite⟩⟩
  · rintro table name indent rfl
    exact table.percent_mem_lines name indent
  · intro shown overflows
    rw [hundredthsText_of_overflows finite overflows] at shown
    exact not_showsNearly_infinity x.negative x shown
  · intro inRange
    exact hundredthsText_showsNearly finite ((isFinite_mul_hundred_iff finite).mpr inRange)

/-- A percentage that is far too large for the product. -/
def hugePercent : Binary64 := .ofDecimal false ⟨1, 308⟩

/-- One that is large, but not too large. -/
def largePercent : Binary64 := .ofDecimal false ⟨1, 306⟩

theorem percent_shown_huge :
    (Snapshot.Reads .nearest hugePercent ∧ hundredthsText hugePercent = "Infinity") ∧
      Snapshot.Reads .nearest largePercent ∧
      ShowsNearly (hundredthsText largePercent) largePercent := by
  have finite : hugePercent.isFinite = true ∧ largePercent.isFinite = true := by decide +kernel
  have product : ¬(hugePercent * .ofInt 100).isFinite = true ∧
      (largePercent * .ofInt 100).isFinite = true := by decide +kernel
  obtain ⟨-, readsHuge, -, huge⟩ := percent_shown hugePercent
  obtain ⟨inRangeHuge, -, infinite⟩ := huge finite.1
  obtain ⟨-, readsLarge, -, large⟩ := percent_shown largePercent
  obtain ⟨inRangeLarge, shown, -⟩ := large finite.2
  rw [inRangeHuge, inRangeLarge, not_not] at product
  exact ⟨⟨(readsHuge .nearest FloatReading.isNearest_nearest).mpr finite.1, infinite product.1⟩,
    (readsLarge .nearest FloatReading.isNearest_nearest).mpr finite.2, shown.mpr product.2⟩

/-- Not every percentage that is read is shown nearly. -/
theorem not_every_percent_shown :
    ¬∀ x, Snapshot.Reads .bestEffort x →
      (x * .ofInt 100).isFinite = true ∧ ShowsNearly (hundredthsText x) x := by
  intro shown
  have reads : Snapshot.Reads .bestEffort hugePercent :=
    Snapshot.reads_of_reread_eq FloatReading.keepsFinite_bestEffort (by decide +kernel)
      (by decide +kernel)
  have near := (shown hugePercent reads).2
  have infinite : hundredthsText hugePercent = "Infinity" := by decide +kernel
  rw [infinite] at near
  exact not_showsNearly_infinity false hugePercent near

end TableReport
