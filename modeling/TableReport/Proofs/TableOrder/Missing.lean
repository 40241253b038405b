import TableReport.Proofs.TableOrder.Direction

/-!
Tables without a value. They are left out of every check, rank below all others
and are level with each other. So they stand at one end of a sorted list, as they
were, and the rest is sorted as if they were not there.
-/

namespace TableReport

/-- The table has no value that it could be sorted by, and is sorted all the same. -/
def Reading.isMissing (reading : Reading) (table : Table) : Bool :=
  match reading with
  | .latency get => (get table).isNaN
  | .offHeap get => (get table).isNone
  | _ => false

namespace TableOrder

variable {α : Type} {metric : Metric} {encoding : SizeEncoding} {order : TableOrder}
  {table : α → Table} {items : List α} {entries : List (Rank × α)} {fault : OrderFault} {x y : α}

theorem sizeRank_ne_missing {text : String} : order.sizeRank text ≠ .ok .missing := by
  intro ranked
  have kind := sizeRank_kind ranked
  simp [Rank.kind] at kind

theorem rank_eq_missing_iff (named : order.metric = some metric) (x : Table) :
    order.rank x = .ok .missing ↔ metric.reading.isMissing x = true := by
  cases reading : metric.reading with
  | latency get =>
      simp only [rank, named, reading, Reading.isMissing]
      cases (get x).isNaN <;> simp
  | offHeap get =>
      simp only [rank, named, reading, Reading.isMissing]
      cases get x <;> simp [sizeRank_ne_missing]
  | size get => simp [rank, named, reading, Reading.isMissing, sizeRank_ne_missing]
  | quantity get =>
      simp only [rank, named, reading, Reading.isMissing]
      split <;> simp
  | _ => simp [rank, named, reading, Reading.isMissing]

/-- Leaving out tables without a value leaves out the missing ranks. -/
theorem ranked_present (named : order.metric = some metric) (items : List α) :
    order.ranked table (items.filter fun item => !metric.reading.isMissing (table item)) =
      (order.ranked table items).map fun entries => entries.filter (·.1 ≠ .missing) := by
  induction items with
  | nil => rfl
  | cons item rest inductionHypothesis =>
      by_cases missing : metric.reading.isMissing (table item) = true
      · have rankItem := (rank_eq_missing_iff named (table item)).mpr missing
        rw [List.filter_cons_of_neg (by simp [missing]), inductionHypothesis, ranked, rankItem]
        cases order.ranked table rest <;> simp [bind, Except.bind, Except.map]
      · rw [List.filter_cons_of_pos (by simpa using missing), ranked, ranked, inductionHypothesis]
        cases rankItem : order.rank (table item) with
        | error fault => rfl
        | ok r =>
            have present : r ≠ .missing := by
              rintro rfl
              exact missing ((rank_eq_missing_iff named (table item)).mp rankItem)
            cases order.ranked table rest <;> simp [bind, Except.bind, Except.map, present]

theorem clash?_present (entries : List (Rank × α)) :
    order.clash? table (entries.filter (·.1 ≠ .missing)) = order.clash? table entries := by
  unfold clash?
  rw [List.filter_filter]
  simp only [Bool.and_self]

theorem sortOn_present_eq_error (named : order.metric = some metric)
    (failed : order.sortOn table items = .error fault) :
    order.sortOn table (items.filter fun item => !metric.reading.isMissing (table item)) =
      .error fault := by
  unfold sortOn at failed ⊢
  rw [ranked_present named]
  cases ranks : order.ranked table items with
  | error other => simpa [ranks, bind, Except.bind, Except.map] using failed
  | ok entries =>
      simp only [ranks, bind, Except.bind, Except.map, clash?_present] at failed ⊢
      cases clash : order.clash? table entries with
      | some other => simpa [clash] using failed
      | none => simp [clash] at failed

theorem compareAllOn_of_missing (missing : metric.reading.isMissing (table x) = true)
    (present : metric.reading.isMissing (table y) = false)
    (readable : ∃ r, (ascendingBy metric encoding).rank (table y) = .ok r) :
    (ascendingBy metric encoding).compareAllOn table x y = .lt := by
  obtain ⟨r, rankY⟩ := readable
  have named : (ascendingBy metric encoding).metric = some metric := rfl
  have rankX := (rank_eq_missing_iff named (table x)).mpr missing
  have notMissing : r ≠ .missing := by
    rintro rfl
    simp [(rank_eq_missing_iff named (table y)).mp rankY] at present
  have below : Rank.compareAll .missing r = .lt := by
    cases r <;> first | rfl | exact absurd rfl notMissing
  rw [compareAllOn, compareAll, rankOrMissing_of_rank rankX, rankOrMissing_of_rank rankY]
  exact below

theorem compareAllOn_of_both_missing (named : order.metric = some metric)
    (missingX : metric.reading.isMissing (table x) = true)
    (missingY : metric.reading.isMissing (table y) = true) :
    order.compareAllOn table x y = .eq := by
  have rankX := (rank_eq_missing_iff named (table x)).mpr missingX
  have rankY := (rank_eq_missing_iff named (table y)).mpr missingY
  have level : order.compareAllOn table y y = .eq := Std.ReflCmp.compare_self
  rw [compareAllOn, compareAll, rankOrMissing_of_rank rankX, ← rankOrMissing_of_rank rankY]
  exact level

/-- Tables without a value stay as they are. -/
theorem mergeSort_missing (named : order.metric = some metric) (items : List α) :
    (items.filter fun item => metric.reading.isMissing (table item)).mergeSort
        (order.notBehind table) =
      items.filter fun item => metric.reading.isMissing (table item) := by
  apply List.mergeSort_of_pairwise
  apply List.pairwise_of_forall_mem_list
  intro x memberX y memberY
  have level := compareAllOn_of_both_missing named
    (List.mem_filter.mp memberX).2 (List.mem_filter.mp memberY).2
  rw [notBehind, level]
  rfl

/-- A sort is known once it is known that the present tables can be sorted with the
missing ones put to one end. -/
theorem sortOn_eq_map (named : order.metric = some metric) (place : List α → List α)
    (sorts : order.ComparesAll table items →
      items.mergeSort (order.notBehind table) =
        place ((items.filter fun item => !metric.reading.isMissing (table item)).mergeSort
          (order.notBehind table))) :
    order.sortOn table items =
      (order.sortOn table (items.filter fun item => !metric.reading.isMissing (table item))).map
        place := by
  cases result : order.sortOn table items with
  | error fault =>
      rw [sortOn_present_eq_error named result]
      rfl
  | ok sorted =>
      obtain ⟨comparable, rfl⟩ := sortOn_eq_ok_iff.mp result
      have presentComparable : order.ComparesAll table
          (items.filter fun item => !metric.reading.isMissing (table item)) :=
        fun x memberX y memberY =>
          comparable x (List.mem_of_mem_filter memberX) y (List.mem_of_mem_filter memberY)
      rw [sortOn_of_comparesAll presentComparable, sorts comparable]
      rfl

/-- Tables without a latency or an off-heap size, whichever is sorted by, stand
behind all others in descending order and in front of them in ascending order, as
they stood in the list. The others are sorted as if they were alone, and it is they
alone that sorting can fail for. -/
theorem sortOn_sets_missing_apart (metric : Metric) (encoding : SizeEncoding)
    (table : α → Table) (items : List α) :
    let missing := items.filter fun item => metric.reading.isMissing (table item)
    let present := items.filter fun item => !metric.reading.isMissing (table item)
    (descendingBy metric encoding).sortOn table items =
        ((descendingBy metric encoding).sortOn table present).map (· ++ missing) ∧
      (ascendingBy metric encoding).sortOn table items =
        ((ascendingBy metric encoding).sortOn table present).map (missing ++ ·) := by
  intro missing present
  constructor
  · apply sortOn_eq_map rfl
    intro comparable
    have below : ∀ x ∈ items, ∀ y ∈ items, (!metric.reading.isMissing (table x)) = true →
        (!metric.reading.isMissing (table y)) = false →
        (descendingBy metric encoding).compareAllOn table x y = .lt := by
      intro x memberX y memberY presentX missingY
      rw [compareAllOn_descendingBy]
      exact compareAllOn_of_missing (by simpa using missingY) (by simpa using presentX)
        (readable_of_comparesAll comparable x memberX)
    have apart := mergeSort_eq_append (fun item => !metric.reading.isMissing (table item)) below
    simp only [Bool.not_not] at apart
    exact apart.trans (congrArg _ (mergeSort_missing rfl items))
  · apply sortOn_eq_map rfl
    intro comparable
    have below : ∀ x ∈ items, ∀ y ∈ items, metric.reading.isMissing (table x) = true →
        metric.reading.isMissing (table y) = false →
        (ascendingBy metric encoding).compareAllOn table x y = .lt := by
      intro x _ y memberY missingX presentY
      exact compareAllOn_of_missing missingX presentY (readable_of_comparesAll comparable y memberY)
    have apart := mergeSort_eq_append (fun item => metric.reading.isMissing (table item)) below
    exact apart.trans (congrArg (· ++ _) (mergeSort_missing rfl items))

end TableOrder

end TableReport
