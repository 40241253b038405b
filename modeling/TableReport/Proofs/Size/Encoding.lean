import TableReport.Proofs.Size.Magnitude
import TableReport.Proofs.TableOrder.Field

/-!
The two encodings of sizes. Digits alone hold no blank and a size with a unit does,
so no text is a size in both. In front of the unit `bytes` digits count what they
count alone, up to the largest count and beyond it. So the plain sizes of a list can
be given that unit without a change of its order, and a list with a size in it is
sorted in one encoding at most.
-/

namespace TableReport

namespace Metric

/-- Rewrites the size that a metric is about, if the table has one. -/
def mapSize (rewrite : String → String) (metric : Metric) (table : Table) : Table :=
  match metric with
  | .bloomOffHeap => { table with bloom.offHeap := table.bloom.offHeap.map rewrite }
  | .bloomSpace => { table with bloom.space := rewrite table.bloom.space }
  | .compressionOffHeap =>
    { table with compressionOffHeap := table.compressionOffHeap.map rewrite }
  | .droppedMutations => { table with droppedMutations := rewrite table.droppedMutations }
  | .indexSummaryOffHeap =>
    { table with indexSummaryOffHeap := table.indexSummaryOffHeap.map rewrite }
  | .memtableDataSize => { table with memtable.dataSize := rewrite table.memtable.dataSize }
  | .memtableOffHeap => { table with memtable.offHeap := table.memtable.offHeap.map rewrite }
  | .offHeapTotal => { table with offHeapTotal := table.offHeapTotal.map rewrite }
  | .spaceLive => { table with spaceLive := rewrite table.spaceLive }
  | .spaceSnapshots => { table with spaceSnapshots := rewrite table.spaceSnapshots }
  | .spaceTotal => { table with spaceTotal := rewrite table.spaceTotal }
  | _ => table

/-- Appends the unit `bytes` to the size that a metric is about. -/
def inBytes : Metric → Table → Table := mapSize (· ++ " bytes")

theorem field?_mapSize {rewrite : String → String} {metric : Metric} {name : String}
    (other : name ≠ metric.name) (table : Table) :
    (metric.mapSize rewrite table).field? name = table.field? name := by
  have differs : (name == metric.name) = false := beq_eq_false_iff_ne.mpr other
  cases metric
  all_goals
    first
    | rfl
    | simp only [Metric.name, Metric.entry] at differs
      simp only [Table.field?, Table.fields, mapSize, List.lookup_cons, differs]

end Metric

namespace Size

variable {text digits : String} {n m : ℕ}

theorem readable?_of_noBlank {chars : List Char} (noBlank : ' ' ∉ chars) :
    readable? chars = none := by
  rw [readable?, span_of_absent noBlank]

/-- A size with a unit has a blank in it, which no row of digits has. -/
theorem not_readable_of_plain (plain : bytes .plain text = .ok n) :
    bytes .readable text ≠ .ok m := by
  intro readable
  have plain := bytes?_of_bytes plain
  have readable := bytes?_of_bytes readable
  obtain ⟨row, -, -⟩ := plain?_eq_some_iff.mp plain
  rw [bytes?, readable?_of_noBlank (row.notMem (by decide))] at readable
  contradiction

theorem bytes?_append_unit (allDigits : ∀ c ∈ digits.toList, c.isDigit) :
    bytes? .readable (digits ++ " bytes") = bytes? .plain digits := by
  have split : (digits ++ " bytes").toList = digits.toList ++ ' ' :: SizeUnit.bytes.name.toList :=
    String.toList_append
  have noBlank : ' ' ∉ digits.toList := fun membership =>
    absurd (allDigits ' ' membership) (by decide)
  rw [bytes?, bytes?, split, readable?, span_append_mark noBlank]
  dsimp only
  rw [SizeUnit.ofName?_eq_some_iff.mpr rfl, Option.bind_some, plain?]
  by_cases row : isDigits digits.toList = true
  · rw [ofAmount?_whole (isDigits_iff.mp row), if_pos row, SizeUnit.factor, Nat.mul_one]
  · -- Nothing but the lack of any digit can be wrong here.
    have empty : digits.toList = [] := by
      by_contra nonempty
      exact row (isDigits_iff.mpr ⟨nonempty, allDigits⟩)
    rw [if_neg row, empty]
    rfl

theorem toOption_bytes (encoding : SizeEncoding) (text : String) :
    (bytes encoding text).toOption = bytes? encoding text := by
  unfold bytes
  cases bytes? encoding text <;> rfl

theorem toOption_bytes_append_unit (allDigits : ∀ c ∈ digits.toList, c.isDigit) :
    (bytes .plain digits).toOption = (bytes .readable (digits ++ " bytes")).toOption := by
  rw [toOption_bytes, toOption_bytes, bytes?_append_unit allDigits]

theorem bytes_append_unit (counted : bytes .plain text = .ok n) :
    bytes .readable (text ++ " bytes") = .ok n := by
  have plain := bytes?_of_bytes counted
  obtain ⟨row, -, -⟩ := plain?_eq_some_iff.mp plain
  have same := toOption_bytes_append_unit row.allDigits
  rw [counted] at same
  exact eq_ok_of_toOption same.symm

end Size

namespace TableOrder

variable {order : TableOrder} {metric : Metric} {ascending ascending' : Bool}
  {encoding encoding' : SizeEncoding} {table : Table} {tables sorted : List Table}

/-- The order by a metric. -/
def ofMetric (metric : Metric) (ascending : Bool) (encoding : SizeEncoding) : TableOrder :=
  { metric := some metric, ascending, encoding }

theorem sizeText?_ofMetric :
    (ofMetric metric ascending encoding).sizeText? table =
      (ofMetric metric ascending' encoding').sizeText? table := rfl

theorem sizeText?_inBytes (metric : Metric) (ascending : Bool) (encoding : SizeEncoding)
    (table : Table) :
    (ofMetric metric ascending encoding).sizeText? (metric.inBytes table) =
      ((ofMetric metric ascending encoding).sizeText? table).map (· ++ " bytes") := by
  cases metric <;> rfl

theorem rank_of_noSizeText (sizes : metric.reading.parsesSizes = true)
    (absent : (ofMetric metric ascending encoding).sizeText? table = none) :
    (ofMetric metric ascending encoding).rank table = .ok .missing := by
  simp only [sizeText?, ofMetric, Option.map_some] at absent
  simp only [rank, ofMetric]
  cases reading : metric.reading with
  | offHeap get =>
      rw [reading] at absent
      dsimp only at absent ⊢
      rw [absent]
  | size get => simp [reading] at absent
  | _ => simp [reading, Reading.parsesSizes] at sizes

theorem exists_rank_of_sort (success : order.sort tables = .ok sorted)
    (membership : table ∈ tables) : ∃ r, order.rank table = .ok r :=
  readable_of_comparesAll (comparesAll_of_sortOn success) table membership

/-- A table keeps its rank when the plain size in it is given the unit `bytes`. -/
theorem rank_inBytes (sizes : metric.reading.parsesSizes = true) {r : Rank}
    (ranked : (ofMetric metric ascending .plain).rank table = .ok r) :
    (ofMetric metric ascending' .readable).rank (metric.inBytes table) = .ok r := by
  have rewritten := sizeText?_inBytes metric ascending' .readable table
  cases read : (ofMetric metric ascending .plain).sizeText? table with
  | none =>
      rw [sizeText?_ofMetric.trans read] at rewritten
      rw [rank_of_noSizeText sizes rewritten, ← rank_of_noSizeText sizes read, ranked]
  | some text =>
      rw [sizeText?_ofMetric.trans read] at rewritten
      obtain ⟨n, counted⟩ := exists_bytes_of_rank read ranked
      calc (ofMetric metric ascending' .readable).rank (metric.inBytes table)
          _ = (Size.bytes .readable (text ++ " bytes")).map .bytes := rank_of_sizeText? rewritten
          _ = (Size.bytes .plain text).map .bytes := by
            rw [Size.bytes_append_unit counted, ← counted]
            rfl
          _ = (ofMetric metric ascending .plain).rank table := (rank_of_sizeText? read).symm
          _ = .ok r := ranked

/-- A list keeps its order when the plain sizes in it are given the unit `bytes`. -/
theorem sort_inBytes (sizes : metric.reading.parsesSizes = true)
    (success : (ofMetric metric ascending .plain).sort tables = .ok sorted) :
    (ofMetric metric ascending .readable).sort (tables.map metric.inBytes) =
        .ok (sorted.map metric.inBytes) ∧
      ∃ moved, (ofMetric metric ascending .plain).places tables = .ok moved ∧
        (ofMetric metric ascending .readable).places (tables.map metric.inBytes) = .ok moved := by
  have sameRanks : ∀ table ∈ tables,
      ((ofMetric metric ascending .plain).rank (id table)).toOption =
        ((ofMetric metric ascending .readable).rank (metric.inBytes table)).toOption := by
    intro table membership
    obtain ⟨r, ranked⟩ := exists_rank_of_sort success membership
    rw [rank_inBytes sizes ranked, id, ranked]
  have sameDirection : (ofMetric metric ascending .plain).smallestFirst =
      (ofMetric metric ascending .readable).smallestFirst := rfl
  obtain ⟨moved, moves⟩ := places_of_sort success
  have moves' : (ofMetric metric ascending .readable).places (tables.map metric.inBytes) =
      .ok moved := by
    refine (places_congr sameDirection sameRanks).mp ?_
    rwa [List.map_id]
  have success' := (sortOn_eq_ok_congr sameRanks sameDirection).mp success
  exact ⟨sortOn_map_eq_ok_iff.mpr ⟨sorted, success', rfl⟩, moved, moves, moves'⟩

/-- A list with a size in it is not sorted in both encodings. -/
theorem sort_readable_ne_ok {sorted' : List Table} (membership : table ∈ tables)
    (present : (ofMetric metric ascending .plain).sizeText? table ≠ none)
    (success : (ofMetric metric ascending .plain).sort tables = .ok sorted) :
    (ofMetric metric ascending' .readable).sort tables ≠ .ok sorted' := by
  intro success'
  obtain ⟨text, read⟩ := Option.ne_none_iff_exists'.mp present
  obtain ⟨r, ranked⟩ := exists_rank_of_sort success membership
  obtain ⟨r', ranked'⟩ := exists_rank_of_sort success' membership
  obtain ⟨n, counted⟩ := exists_bytes_of_rank read ranked
  obtain ⟨m, counted'⟩ := exists_bytes_of_rank (sizeText?_ofMetric.trans read) ranked'
  exact Size.not_readable_of_plain counted counted'

/-- No text is a size in both encodings, and a row of digits counts the same alone and
with the unit `bytes` behind it, if it counts at all. So a list that is sorted by plain
sizes keeps its order when they are given that unit and read with it; but a list that
has a size in it is not sorted in both encodings. -/
theorem encodings_agree_and_exclude :
    (∀ text n m, Size.bytes .plain text = .ok n → Size.bytes .readable text ≠ .ok m) ∧
    (∀ digits : String, (∀ c ∈ digits.toList, c.isDigit) →
      (Size.bytes .plain digits).toOption = (Size.bytes .readable (digits ++ " bytes")).toOption) ∧
    ∀ (metric : Metric) (ascending : Bool), metric.reading.parsesSizes = true →
      (∀ tables sorted, (ofMetric metric ascending .plain).sort tables = .ok sorted →
        (ofMetric metric ascending .readable).sort (tables.map metric.inBytes) =
            .ok (sorted.map metric.inBytes) ∧
          ∃ moved, (ofMetric metric ascending .plain).places tables = .ok moved ∧
            (ofMetric metric ascending .readable).places (tables.map metric.inBytes) = .ok moved) ∧
      (∀ table name, name ≠ metric.name →
        (metric.inBytes table).field? name = table.field? name) ∧
      ∀ tables sorted sorted', ∀ table ∈ tables,
        (ofMetric metric ascending .plain).sizeText? table ≠ none →
        (ofMetric metric ascending .plain).sort tables = .ok sorted →
        ∀ ascending', (ofMetric metric ascending' .readable).sort tables ≠ .ok sorted' := by
  refine ⟨?apart, ?agree, fun metric ascending sizes => ⟨?order, ?rewrite, ?exclude⟩⟩
  case apart => exact fun _ _ _ plain => Size.not_readable_of_plain plain
  case agree => exact fun _ allDigits => Size.toOption_bytes_append_unit allDigits
  case order => exact fun _ _ success => sort_inBytes sizes success
  case rewrite => exact fun table _ other => Metric.field?_mapSize other table
  case exclude =>
    intro tables sorted sorted' table membership present success ascending'
    exact sort_readable_ne_ok membership present success

/-- A fresh table but for its off-heap size. -/
def ofOffHeap (size : Option String) : Table := { Table.fresh "ks" "t" with offHeapTotal := size }

theorem sort_offHeap :
    (ofMetric .offHeapTotal false .plain).sort [ofOffHeap none, ofOffHeap "30", ofOffHeap "2048"] =
      .ok [ofOffHeap "2048", ofOffHeap "30", ofOffHeap none] := by
  let entries (a b c : Table) : List (Rank × Table) :=
    [(.missing, a), (.bytes 30, b), (.bytes 2048, c)]
  have noClash (a b c : Table) :
      (ofMetric .offHeapTotal false .plain).clash? id (entries a b c) = none := by cbv
  have merged (a b c : Table) :
      ((entries a b c).mergeSort (ofMetric .offHeapTotal false .plain).inOrder).map (·.2) =
        [c, b, a] := by cbv
  have ranks : (ofMetric .offHeapTotal false .plain).ranked id
      [ofOffHeap none, ofOffHeap "30", ofOffHeap "2048"] =
        .ok (entries (ofOffHeap none) (ofOffHeap "30") (ofOffHeap "2048")) := by
    decide +kernel
  simp only [sort, sortOn, ranks, bind, Except.bind, noClash, merged]

theorem inBytes_ofOffHeap (size : Option String) :
    Metric.offHeapTotal.inBytes (ofOffHeap size) = ofOffHeap (size.map (· ++ " bytes")) := rfl

theorem encodings_agree_and_exclude_offHeap :
    (ofMetric .offHeapTotal false .readable).sort
        [ofOffHeap none, ofOffHeap "30 bytes", ofOffHeap "2048 bytes"] =
      .ok [ofOffHeap "2048 bytes", ofOffHeap "30 bytes", ofOffHeap none] ∧
    (∀ sorted, (ofMetric .offHeapTotal true .readable).sort
      [ofOffHeap none, ofOffHeap "30", ofOffHeap "2048"] ≠ .ok sorted) ∧
    (∀ n, Size.bytes .readable "30" ≠ .ok n) ∧
    (Size.bytes .plain "18446744073709551616").toOption =
      (Size.bytes .readable "18446744073709551616 bytes").toOption := by
  obtain ⟨apart, agree, lift⟩ := encodings_agree_and_exclude
  obtain ⟨sameOrder, -, notBoth⟩ := lift .offHeapTotal false rfl
  have sorted := (sameOrder _ _ sort_offHeap).1
  have texts : "30" ++ " bytes" = "30 bytes" ∧ "2048" ++ " bytes" = "2048 bytes" := by
    decide +kernel
  simp only [List.map_cons, List.map_nil, inBytes_ofOffHeap, Option.map_some, Option.map_none,
    texts.1, texts.2] at sorted
  have counted : Size.bytes .plain "30" = .ok 30 := by decide +kernel
  have allDigits : ∀ c ∈ "18446744073709551616".toList, c.isDigit := by simp
  have present : (ofMetric .offHeapTotal false .plain).sizeText? (ofOffHeap "30") ≠ none :=
    Option.some_ne_none "30"
  exact ⟨sorted,
    fun sorted => notBoth _ _ sorted (ofOffHeap "30") (by simp) present sort_offHeap true,
    fun n => apart "30" 30 n counted, agree "18446744073709551616" allDigits⟩

end TableOrder

end TableReport
