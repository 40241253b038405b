import TableReport.Proofs.Outcome
import TableReport.Proofs.TableOrder.Sort
import TableReport.Table.Field

/-!
What sorting reads. A metric reads the field that it is named for and no other,
and sorting sees of a table nothing but its rank. So two lists whose tables agree
on this field are sorted alike, table by table, or are both refused; what else
they hold has no say, be it malformed, absent or no number.
-/

namespace TableReport

/-- What a reading takes from a table. -/
def Reading.value (reading : Reading) (table : Table) : FieldValue :=
  match reading with
  | .count get => .count (get table)
  | .ratio get | .latency get => .float (get table)
  | .quantity get => .quantity (get table)
  | .size get | .name get => .text (get table)
  | .offHeap get => .offHeap (get table)

/-- The reading has to make a count of bytes out of a text. -/
def Reading.parsesSizes : Reading → Bool
  | .size _ | .offHeap _ => true
  | _ => false

namespace Metric

variable {metric : Metric} {x y : Table}

/-- The names of the fields that a metric is about. -/
def fieldNames : Metric → List String
  | .reads => ["local_read_count"]
  | .writes => ["local_write_count"]
  | .readLatency => ["local_read_latency_ms"]
  | .writeLatency => ["local_write_latency_ms"]
  | .fullName => ["keyspace_name", "table_name"]
  | metric => [metric.name]

/-- Two tables hold the same in the fields that a metric is about. -/
def Agrees (metric : Metric) (x y : Table) : Prop :=
  ∀ name ∈ metric.fieldNames, x.field? name = y.field? name

/-- A full name is made of two fields; every other metric reads its own field. -/
theorem field?_fieldNames (single : metric ≠ .fullName) (table : Table) :
    ∃ name, metric.fieldNames = [name] ∧ table.field? name = some (metric.reading.value table) := by
  cases metric
  case fullName => exact absurd rfl single
  all_goals exact ⟨_, rfl, rfl⟩

theorem fullName_eq_of_agrees (agree : fullName.Agrees x y) : x.fullName = y.fullName := by
  obtain ⟨keyspaces, names, -⟩ : x.field? "keyspace_name" = y.field? "keyspace_name" ∧
      x.field? "table_name" = y.field? "table_name" ∧ True := by
    simpa [Agrees, fieldNames] using agree
  have sameKeyspace : x.keyspace = y.keyspace :=
    FieldValue.text.inj (Option.some.inj keyspaces)
  have sameName : x.name = y.name := FieldValue.text.inj (Option.some.inj names)
  rw [Table.fullName, Table.fullName, sameKeyspace, sameName]

theorem value_eq_of_agrees (agree : metric.Agrees x y) :
    metric.reading.value x = metric.reading.value y := by
  by_cases single : metric ≠ .fullName
  · obtain ⟨name, named, readX⟩ := field?_fieldNames single x
    obtain ⟨name', named', readY⟩ := field?_fieldNames single y
    obtain rfl : name = name' := List.singleton_inj.mp (named.symm.trans named')
    have sameField : x.field? name = y.field? name := agree name (by simp [named])
    rw [readX, readY] at sameField
    exact Option.some.inj sameField
  · obtain rfl : metric = .fullName := Classical.not_not.mp single
    exact congrArg FieldValue.text (fullName_eq_of_agrees agree)

end Metric

namespace TableOrder

variable {α β : Type} {order order' : TableOrder} {metric : Metric} {x y : Table}
  {f g : α → Table} {items : List α}

/-- The rank of a table depends on what is read of it, and on the encoding of
sizes only where sizes are read. -/
theorem rank_congr (byMetric : order.metric = some metric) (byMetric' : order'.metric = some metric)
    (sameEncoding : metric.reading.parsesSizes = true → order.encoding = order'.encoding)
    (sameValue : metric.reading.value x = metric.reading.value y) :
    (order.rank x).toOption = (order'.rank y).toOption := by
  cases reading : metric.reading <;>
    rw [reading] at sameValue sameEncoding <;>
    simp only [rank, byMetric, byMetric', reading]
  case count get => rw [FieldValue.count.inj sameValue]
  case ratio get => rw [FieldValue.float.inj sameValue]
  case quantity get =>
    rw [FieldValue.quantity.inj sameValue]
    cases get y with
    | none => rfl
    | some q => cases q <;> rfl
  case size get => rw [sizeRank, sizeRank, FieldValue.text.inj sameValue, sameEncoding rfl]
  case latency get => rw [FieldValue.float.inj sameValue]
  case offHeap get =>
    rw [FieldValue.offHeap.inj sameValue]
    cases get y with
    | none => rfl
    | some text => simp only [sizeRank, sameEncoding rfl]
  case name get => rw [FieldValue.text.inj sameValue]

section Congruence

variable (sameRanks : ∀ item ∈ items,
  (order.rank (f item)).toOption = (order'.rank (g item)).toOption)
include sameRanks

theorem rank_eq_ok_congr {item : α} (membership : item ∈ items) {r : Rank} :
    order.rank (f item) = .ok r ↔ order'.rank (g item) = .ok r := by
  have same := sameRanks item membership
  cases rankF : order.rank (f item) <;> cases rankG : order'.rank (g item) <;>
    simp_all [Except.toOption]

theorem comparesAll_congr : order.ComparesAll f items ↔ order'.ComparesAll g items := by
  constructor
  · intro comparable x memberX y memberY
    obtain ⟨r, s, rankX, rankY, comparable⟩ := comparable x memberX y memberY
    exact ⟨r, s, (rank_eq_ok_congr sameRanks memberX).mp rankX,
      (rank_eq_ok_congr sameRanks memberY).mp rankY, comparable⟩
  · intro comparable x memberX y memberY
    obtain ⟨r, s, rankX, rankY, comparable⟩ := comparable x memberX y memberY
    exact ⟨r, s, (rank_eq_ok_congr sameRanks memberX).mpr rankX,
      (rank_eq_ok_congr sameRanks memberY).mpr rankY, comparable⟩

theorem mergeSort_notBehind_congr (sameDirection : order.smallestFirst = order'.smallestFirst) :
    items.mergeSort (order.notBehind f) = items.mergeSort (order'.notBehind g) := by
  have agree : ∀ x ∈ items, ∀ y ∈ items,
      order.notBehind f x y = order'.notBehind g (id x) (id y) := by
    intro x memberX y memberY
    simp only [notBehind, compareAllOn, compareAll, compareRanks, directed, rankOrMissing,
      sameRanks x memberX, sameRanks y memberY, sameDirection, id]
  simpa using List.map_mergeSort agree

/-- Sorting sees of a table nothing but its rank. -/
theorem sortOn_eq_ok_congr (sameDirection : order.smallestFirst = order'.smallestFirst)
    {sorted : List α} : order.sortOn f items = .ok sorted ↔ order'.sortOn g items = .ok sorted := by
  rw [sortOn_eq_ok_iff, sortOn_eq_ok_iff, comparesAll_congr sameRanks,
    mergeSort_notBehind_congr sameRanks sameDirection]

end Congruence

/-- Items are moved about whatever they carry beside their tables. -/
theorem sortOn_map_eq_ok_iff {table : β → Table} {h : α → β} {sorted : List β} :
    order.sortOn table (items.map h) = .ok sorted ↔
      ∃ placed, order.sortOn (table ∘ h) items = .ok placed ∧ placed.map h = sorted := by
  have comparable : order.ComparesAll table (items.map h) ↔
      order.ComparesAll (table ∘ h) items := by
    simp only [ComparesAll, List.forall_mem_map, Function.comp_apply]
  have moved : (items.map h).mergeSort (order.notBehind table) =
      (items.mergeSort (order.notBehind (table ∘ h))).map h := by
    have agree : ∀ x ∈ items, ∀ y ∈ items,
        order.notBehind (table ∘ h) x y = order.notBehind table (h x) (h y) :=
      fun _ _ _ _ => rfl
    exact (List.map_mergeSort agree).symm
  simp only [sortOn_eq_ok_iff, comparable, moved]
  constructor
  · rintro ⟨compares, rfl⟩
    exact ⟨_, ⟨compares, rfl⟩, rfl⟩
  · rintro ⟨_, ⟨compares, rfl⟩, rfl⟩
    exact ⟨compares, rfl⟩

section Places

/-- The places of tables in a list, in the order that sorting puts the tables in. -/
def places (order : TableOrder) (tables : List Table) : Except OrderFault (List Nat) :=
  (order.sortOn (·.1) tables.zipIdx).map (·.map (·.2))

variable {tables : List Table} {moved : List Nat}

theorem places_map_eq_ok_iff :
    order.places (items.map f) = .ok moved ↔
      ∃ placed, order.sortOn (fun p : α × Nat => f p.1) items.zipIdx = .ok placed ∧
        placed.map (·.2) = moved := by
  rw [places, List.zipIdx_map, map_eq_ok_iff]
  constructor
  · rintro ⟨_, success, rfl⟩
    obtain ⟨placed, sorted, rfl⟩ := sortOn_map_eq_ok_iff.mp success
    exact ⟨placed, sorted, by simp⟩
  · rintro ⟨placed, sorted, rfl⟩
    exact ⟨_, sortOn_map_eq_ok_iff.mpr ⟨placed, sorted, rfl⟩, by simp⟩

theorem places_congr (sameDirection : order.smallestFirst = order'.smallestFirst)
    (sameRanks : ∀ item ∈ items,
      (order.rank (f item)).toOption = (order'.rank (g item)).toOption) :
    order.places (items.map f) = .ok moved ↔ order'.places (items.map g) = .ok moved := by
  have sameRanks : ∀ p ∈ items.zipIdx,
      (order.rank (f p.1)).toOption = (order'.rank (g p.1)).toOption :=
    fun _ membership => sameRanks _ (List.fst_mem_of_mem_zipIdx membership)
  simp only [places_map_eq_ok_iff, sortOn_eq_ok_congr sameRanks sameDirection]

theorem sort_of_places (places : order.places tables = .ok moved) :
    moved.Perm (List.range tables.length) ∧
      order.sort tables = .ok (moved.filterMap (tables[·]?)) := by
  obtain ⟨placed, sorted, rfl⟩ := map_eq_ok_iff.mp places
  have permutation : placed.Perm tables.zipIdx := (stableSort_of_sortOn sorted).perm
  constructor
  · have sameNumbers := permutation.map (·.2)
    rwa [List.zipIdx_map_snd, ← List.range_eq_range'] at sameNumbers
  · have found : ∀ p ∈ placed, ((tables[·]?) ∘ (·.2)) p = some p.1 :=
      fun _ membership => mem_zipIdx_of_perm permutation membership
    have tablesAt : (placed.map (·.2)).filterMap (tables[·]?) = placed.map (·.1) := by
      rw [List.filterMap_map, List.filterMap_congr found, List.filterMap_eq_map']
    have sortedTables : order.sortOn id (tables.zipIdx.map (·.1)) = .ok (placed.map (·.1)) :=
      sortOn_map_eq_ok_iff.mpr ⟨placed, sorted, rfl⟩
    rwa [List.zipIdx_map_fst, ← tablesAt] at sortedTables

theorem places_of_sort {sorted : List Table} (success : order.sort tables = .ok sorted) :
    ∃ moved, order.places tables = .ok moved := by
  rw [sort, ← List.zipIdx_map_fst 0 tables] at success
  obtain ⟨placed, sortedPlaces, -⟩ := sortOn_map_eq_ok_iff.mp success
  exact ⟨_, map_eq_ok_iff.mpr ⟨placed, sortedPlaces, rfl⟩⟩

theorem sort_fails_of_places {fault : OrderFault} (failed : order.places tables = .error fault) :
    ∃ fault, order.sort tables = .error fault := by
  cases result : order.sort tables with
  | error fault => exact ⟨fault, rfl⟩
  | ok sorted =>
      obtain ⟨moved, places⟩ := places_of_sort result
      cases failed.symm.trans places

end Places

/-- Sorting by a metric reads the fields that the metric is named for and no
others. Lists whose tables agree on these, one by one, are both refused, or in
both the same places are moved to the same places. How sizes are written matters
only if the metric is one of sizes. -/
theorem sort_reads_named_fields (metric : Metric) (ascending : Bool)
    (encoding encoding' : SizeEncoding) (xs ys : List Table)
    (agree : List.Forall₂ metric.Agrees xs ys)
    (sameEncoding : metric.reading.parsesSizes = true → encoding = encoding') :
    let order : TableOrder := { metric := some metric, ascending, encoding }
    let order' : TableOrder := { metric := some metric, ascending, encoding := encoding' }
    (∃ fault fault', order.sort xs = .error fault ∧ order'.sort ys = .error fault') ∨
      ∃ moved, moved.Perm (List.range xs.length) ∧
        order.places xs = .ok moved ∧ order.sort xs = .ok (moved.filterMap (xs[·]?)) ∧
        order'.places ys = .ok moved ∧ order'.sort ys = .ok (moved.filterMap (ys[·]?)) := by
  intro order order'
  obtain ⟨sameLength, agree⟩ := List.forall₂_iff_zip.mp agree
  have firsts : (xs.zip ys).map (·.1) = xs := List.map_fst_zip (Nat.le_of_eq sameLength)
  have seconds : (xs.zip ys).map (·.2) = ys := List.map_snd_zip (Nat.le_of_eq sameLength.symm)
  have sameRanks : ∀ pair ∈ xs.zip ys,
      (order.rank pair.1).toOption = (order'.rank pair.2).toOption := by
    intro pair paired
    exact rank_congr rfl rfl sameEncoding (Metric.value_eq_of_agrees (agree paired))
  have samePlaces (moved : List Nat) :
      order.places xs = .ok moved ↔ order'.places ys = .ok moved := by
    have samePlaces := @places_congr _ order order' _ _ _ moved rfl sameRanks
    rwa [firsts, seconds] at samePlaces
  cases moves : order.places xs with
  | error fault =>
      cases moves' : order'.places ys with
      | error fault' =>
          obtain ⟨first, failed⟩ := sort_fails_of_places moves
          obtain ⟨second, failed'⟩ := sort_fails_of_places moves'
          exact .inl ⟨first, second, failed, failed'⟩
      | ok moved => cases moves.symm.trans ((samePlaces moved).mpr moves')
  | ok moved =>
      have moves' : order'.places ys = .ok moved := (samePlaces moved).mp moves
      obtain ⟨permutation, sorted⟩ := sort_of_places moves
      obtain ⟨-, sorted'⟩ := sort_of_places moves'
      exact .inr ⟨moved, permutation, rfl, sorted, moves', sorted'⟩

def mostReads (encoding : SizeEncoding) : TableOrder :=
  { metric := some .reads, ascending := false, encoding }

def withReads (table : Table) (reads : Int64) : Table :=
  { table with reads := { count := reads, latency := .nan } }

/-- A table with a malformed size, an absent quantity and a share that is no number. -/
def damaged : Table := { Table.fresh "ks" "t" with
  spaceLive := "much"
  sstables := none
  repair := { percent := .nan, repaired := 0, unrepaired := 0, pending := 0 } }

theorem agrees_withReads (x y : Table) (reads : Int64) :
    Metric.reads.Agrees (withReads x reads) (withReads y reads) := by
  intro name membership
  obtain rfl : name = "local_read_count" := by simpa [Metric.fieldNames] using membership
  rfl

theorem places_withReads (table : Table) :
    (mostReads .plain).places [withReads table 1, withReads table 2] = .ok [1, 0] := by
  let entries (a b : Table) : List (Rank × Table × Nat) :=
    [(.integer 1, a, 0), (.integer 2, b, 1)]
  have noClash (a b : Table) : (mostReads .plain).clash? (·.1) (entries a b) = none := by cbv
  have merged (a b : Table) :
      ((entries a b).mergeSort (mostReads .plain).inOrder).map (·.2) = [(b, 1), (a, 0)] := by cbv
  have ranks : (mostReads .plain).ranked (·.1) [(withReads table 1, 0), (withReads table 2, 1)] =
      .ok (entries (withReads table 1) (withReads table 2)) := rfl
  have indexed : [withReads table 1, withReads table 2].zipIdx =
      [(withReads table 1, 0), (withReads table 2, 1)] := rfl
  rw [places, indexed, sortOn]
  simp only [ranks, bind, Except.bind, noClash, merged]
  rfl

theorem sort_reads_named_fields_damaged :
    (mostReads .plain).places [withReads (.fresh "ks" "t") 1, withReads (.fresh "ks" "t") 2] =
      .ok [1, 0] ∧
    (mostReads .readable).sort [withReads damaged 1, withReads damaged 2] =
      .ok [withReads damaged 2, withReads damaged 1] := by
  have moves := places_withReads (.fresh "ks" "t")
  refine ⟨moves, ?_⟩
  rcases sort_reads_named_fields .reads false .plain .readable _ _
      (.cons (agrees_withReads (.fresh "ks" "t") damaged 1)
        (.cons (agrees_withReads (.fresh "ks" "t") damaged 2) .nil))
      (fun sizes => nomatch sizes) with
    ⟨fault, -, failed, -⟩ | ⟨moved, -, moves', -, -, sorted⟩
  · obtain ⟨-, success⟩ := sort_of_places moves
    cases failed.symm.trans success
  · obtain rfl : [1, 0] = moved := Except.ok.inj (moves.symm.trans moves')
    exact sorted

end TableOrder

end TableReport
