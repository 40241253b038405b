import TableReport.Proofs.StableSort.Levels
import TableReport.Proofs.TableOrder.Sort

/-!
The two directions of an order. They compare the same ranks and so sort the same
lists. What they sort differs in the order of the groups of equal tables; inside a
group both keep the order of the list, so neither result is the other one read
backwards. An order by full name has no direction.
-/

namespace TableReport.TableOrder

variable {α : Type} {metric : Metric} {encoding : SizeEncoding} {order : TableOrder}
  {table : α → Table} {items sorted : List α}

/-- By a metric, smallest first. -/
def ascendingBy (metric : Metric) (encoding : SizeEncoding) : TableOrder :=
  { metric := some metric, ascending := true, encoding }

/-- By a metric, largest first. -/
def descendingBy (metric : Metric) (encoding : SizeEncoding) : TableOrder :=
  { metric := some metric, ascending := false, encoding }

theorem compareAllOn_descendingBy (metric : Metric) (encoding : SizeEncoding) (table : α → Table)
    (x y : α) :
    (descendingBy metric encoding).compareAllOn table x y =
      (ascendingBy metric encoding).compareAllOn table y x :=
  (Rank.compareAll_eq_swap _ _).symm

/-- Whether tables can be compared is not a matter of direction. -/
theorem comparesAll_descendingBy :
    (descendingBy metric encoding).ComparesAll table items ↔
      (ascendingBy metric encoding).ComparesAll table items :=
  Iff.rfl

theorem comparesAll_reverse : order.ComparesAll table items.reverse ↔ order.ComparesAll table items := by
  simp [ComparesAll]

theorem sortOn_ascendingBy_eq_ok_iff :
    (ascendingBy metric encoding).sortOn table items = .ok sorted ↔
      (ascendingBy metric encoding).ComparesAll table items ∧
        items.mergeSort (fun x y => ((ascendingBy metric encoding).compareAllOn table x y).isLE) =
          sorted :=
  sortOn_eq_ok_iff

theorem sortOn_descendingBy_eq_ok_iff :
    (descendingBy metric encoding).sortOn table items = .ok sorted ↔
      (ascendingBy metric encoding).ComparesAll table items ∧
        items.mergeSort (fun x y => ((ascendingBy metric encoding).compareAllOn table y x).isLE) =
          sorted := by
  rw [sortOn_eq_ok_iff, comparesAll_descendingBy]
  simp only [← compareAllOn_descendingBy]
  rfl

theorem sortOn_descendingBy_eq_reverse :
    (descendingBy metric encoding).sortOn table items = .ok sorted ↔
      (ascendingBy metric encoding).sortOn table items.reverse = .ok sorted.reverse := by
  rw [sortOn_descendingBy_eq_ok_iff, sortOn_ascendingBy_eq_ok_iff, comparesAll_reverse,
    mergeSort_opposite, List.reverse_eq_iff]

theorem ranked_withDirection (order : TableOrder) (ascending : Bool) (table : α → Table)
    (items : List α) :
    ({ order with ascending } : TableOrder).ranked table items = order.ranked table items := by
  induction items with
  | nil => rfl
  | cons item rest inductionHypothesis =>
      rw [ranked, ranked, inductionHypothesis]
      rfl

/-- Without a metric the direction is not looked at. -/
theorem sortOn_withoutMetric (ascending : Bool) :
    ({ metric := none, ascending, encoding } : TableOrder).sortOn table items =
      ({ metric := none, ascending := true, encoding } : TableOrder).sortOn table items := by
  unfold sortOn
  rw [ranked_withDirection { metric := none, ascending := true, encoding } ascending]
  rfl

/-- The items of a list in groups of equal tables. A group holds all items of the
list that its tables are equal to, as they stand there; lesser groups come first. -/
structure Groups (order : TableOrder) (table : α → Table) (items : List α)
    (groups : List (List α)) : Prop where
  nonempty : ∀ group ∈ groups, group ≠ []
  whole : ∀ group ∈ groups, ∀ x ∈ group,
    group = items.filter fun y => order.compare (table x) (table y) = .ok .eq
  rising : groups.Pairwise fun lower upper =>
    ∀ x ∈ lower, ∀ y ∈ upper, order.compare (table x) (table y) = .ok .lt

theorem groups_of_staggered {groups : List (List α)} (comparable : order.ComparesAll table items)
    (staggered : Staggered (order.compareAllOn table) groups)
    (sorts : items.mergeSort (fun x y => (order.compareAllOn table x y).isLE) = groups.flatten) :
    order.Groups table items groups := by
  have inItems : ∀ group ∈ groups, ∀ x ∈ group, x ∈ items := by
    intro group memberGroup x memberX
    have fromItems : groups.flatten.Perm items := sorts ▸ List.mergeSort_perm ..
    exact fromItems.mem_iff.mp (List.mem_flatten_of_mem memberGroup memberX)
  have compared : ∀ x ∈ items, ∀ y ∈ items,
      order.compare (table x) (table y) = .ok (order.compareAllOn table x y) :=
    fun x memberX y memberY => compare_of_compares (comparable x memberX y memberY)
  constructor
  case nonempty => exact staggered.nonempty
  case whole =>
    intro group memberGroup x memberX
    rw [staggered.eq_levelOf sorts memberGroup memberX]
    apply List.filter_congr
    intro y memberY
    rw [compared x (inItems group memberGroup x memberX) y memberY, Bool.eq_iff_iff]
    simp
  case rising =>
    apply staggered.rising.imp_of_mem
    intro lower upper memberLower memberUpper below x memberX y memberY
    rw [compared x (inItems lower memberLower x memberX) y (inItems upper memberUpper y memberY),
      below x memberX y memberY]

/-- Both directions put the same groups of equal tables one behind the other, in
opposite order. -/
theorem exists_groups (success : (ascendingBy metric encoding).sortOn table items = .ok sorted) :
    ∃ groups, (ascendingBy metric encoding).Groups table items groups ∧
      sorted = groups.flatten ∧
      (descendingBy metric encoding).sortOn table items = .ok groups.reverse.flatten := by
  obtain ⟨comparable, sorts⟩ := sortOn_ascendingBy_eq_ok_iff.mp success
  have ascends : Ascends ((ascendingBy metric encoding).compareAllOn table) sorted :=
    sorts ▸ ascends_mergeSort items
  obtain ⟨groups, staggered, rfl⟩ := ascends.exists_staggered
  refine ⟨groups, groups_of_staggered comparable staggered sorts, rfl, ?_⟩
  exact sortOn_descendingBy_eq_ok_iff.mpr ⟨comparable, staggered.mergeSort_opposite sorts⟩

/-- Sorting in descending order succeeds if and only if sorting in ascending order
does, and then it is the ascending sort of the list turned round, turned round: the
groups of equal tables change places, and inside of a group nothing does. An order
without a metric is the same in both directions. -/
theorem sortOn_in_both_directions (metric : Metric) (encoding : SizeEncoding) (table : α → Table)
    (items : List α) :
    ((∃ sorted, (descendingBy metric encoding).sortOn table items = .ok sorted) ↔
      ∃ sorted, (ascendingBy metric encoding).sortOn table items = .ok sorted) ∧
    (∀ sorted, (descendingBy metric encoding).sortOn table items = .ok sorted ↔
      (ascendingBy metric encoding).sortOn table items.reverse = .ok sorted.reverse) ∧
    (∀ sorted, (ascendingBy metric encoding).sortOn table items = .ok sorted →
      ∃ groups, (ascendingBy metric encoding).Groups table items groups ∧
        sorted = groups.flatten ∧
        (descendingBy metric encoding).sortOn table items = .ok groups.reverse.flatten) ∧
    ∀ ascending ascending' : Bool,
      sortOn { metric := none, ascending, encoding } table items =
        sortOn { metric := none, ascending := ascending', encoding } table items := by
  refine ⟨?success, fun _ => sortOn_descendingBy_eq_reverse, fun _ => exists_groups, ?byName⟩
  case success =>
    constructor
    · rintro ⟨sorted, success⟩
      have comparable := (sortOn_descendingBy_eq_ok_iff.mp success).1
      exact ⟨_, sortOn_of_comparesAll comparable⟩
    · rintro ⟨sorted, success⟩
      obtain ⟨groups, -, -, success⟩ := exists_groups success
      exact ⟨_, success⟩
  case byName =>
    intro ascending ascending'
    exact (sortOn_withoutMetric ascending).trans (sortOn_withoutMetric ascending').symm

/-- Four tables by their places. The second and the fourth one are level, and the
first one has no latency. -/
def latencyAt (place : Nat) : Table :=
  ofReadLatency ([.nan, .zero, .infinity false, .zero].getD place .nan)

theorem sortOn_latencyAt :
    (ascendingBy .readLatency .plain).sortOn latencyAt [0, 1, 2, 3] = .ok [0, 1, 3, 2] := by
  let entries : List (Rank × Nat) :=
    [(.missing, 0), (.float .zero, 1), (.float (.infinity false), 2), (.float .zero, 3)]
  have ranks : (ascendingBy .readLatency .plain).ranked latencyAt [0, 1, 2, 3] = .ok entries := rfl
  have noClash : (ascendingBy .readLatency .plain).clash? latencyAt entries = none := rfl
  have merged : (entries.mergeSort (ascendingBy .readLatency .plain).inOrder).map (·.2) =
      [0, 1, 3, 2] := by cbv
  simp only [sortOn, ranks, bind, Except.bind, noClash, merged]

theorem sortOn_in_both_directions_latencies :
    (ascendingBy .readLatency .plain).sortOn latencyAt [0, 1, 2, 3] = .ok [0, 1, 3, 2] ∧
    ∃ groups, (ascendingBy .readLatency .plain).Groups latencyAt [0, 1, 2, 3] groups ∧
      [0, 1, 3, 2] = groups.flatten ∧
      (descendingBy .readLatency .plain).sortOn latencyAt [0, 1, 2, 3] =
        .ok groups.reverse.flatten :=
  ⟨sortOn_latencyAt, (sortOn_in_both_directions _ _ _ _).2.2.1 _ sortOn_latencyAt⟩

end TableReport.TableOrder
