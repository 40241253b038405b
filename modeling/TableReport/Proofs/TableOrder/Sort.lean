import Mathlib
import TableReport.Proofs.StableSort
import TableReport.Proofs.TableOrder.Compare

/-!
Sorting tables. Reading all ranks first and checking the present ones against the
first of them settles every pair of tables, so sorting succeeds if and only if
`compare` does for all pairs, and its result is the stable sort by `compare`.
-/

namespace TableReport.TableOrder

variable {α : Type} {order : TableOrder} {table : α → Table} {items sorted : List α}
  {entries : List (Rank × α)}

def compareOn (order : TableOrder) (table : α → Table) (x y : α) : Except OrderFault Ordering :=
  order.compare (table x) (table y)

def compareAllOn (order : TableOrder) (table : α → Table) (x y : α) : Ordering :=
  order.compareAll (table x) (table y)

instance : Std.TransCmp (order.compareAllOn table) where
  eq_swap := compareAll_eq_swap _ _
  isLE_trans := compareRanks_isLE_trans

def notBehind (order : TableOrder) (table : α → Table) (x y : α) : Bool :=
  (order.compareAllOn table x y).isLE

def ComparesAll (order : TableOrder) (table : α → Table) (items : List α) : Prop :=
  ∀ x ∈ items, ∀ y ∈ items, order.Compares (table x) (table y)

def withRank (order : TableOrder) (table : α → Table) (item : α) : Rank × α :=
  (order.rankOrMissing (table item), item)

theorem oriented_compareOn : Oriented (order.compareOn table) :=
  fun _ _ _ => compare_swap_iff.mp

theorem ranked_of_readable (readable : ∀ item ∈ items, ∃ r, order.rank (table item) = .ok r) :
    order.ranked table items = .ok (items.map (order.withRank table)) := by
  induction items with
  | nil => rfl
  | cons item rest inductionHypothesis =>
      obtain ⟨⟨r, rankItem⟩, readableRest⟩ := List.forall_mem_cons.mp readable
      simp [ranked, rankItem, inductionHypothesis readableRest, bind, Except.bind, withRank,
        rankOrMissing_of_rank rankItem]

theorem readable_of_ranked (success : order.ranked table items = .ok entries) :
    ∀ item ∈ items, ∃ r, order.rank (table item) = .ok r := by
  induction items generalizing entries with
  | nil => simp
  | cons item rest inductionHypothesis =>
      cases rankItem : order.rank (table item) with
      | error fault => simp [ranked, rankItem, bind, Except.bind] at success
      | ok r =>
          cases rankRest : order.ranked table rest with
          | error fault => simp [ranked, rankItem, rankRest, bind, Except.bind] at success
          | ok others =>
              exact List.forall_mem_cons.mpr ⟨⟨r, rankItem⟩, inductionHypothesis rankRest⟩

/-- The first present rank speaks for all: ranks that agree with it agree with each other. -/
theorem clash?_eq_none_iff :
    order.clash? table entries = none ↔ ∀ p ∈ entries, ∀ q ∈ entries, p.1.Comparable q.1 := by
  unfold clash?
  split
  next nonePresent =>
    have missing : ∀ p ∈ entries, p.1 = .missing := by simpa using nonePresent
    exact ⟨fun _ p membership _ _ => .inl (missing p membership), fun _ => rfl⟩
  next first rest present =>
    have mem_present (p : Rank × α) : p ∈ first :: rest ↔ p ∈ entries ∧ p.1 ≠ .missing := by
      rw [← present]
      simp
    have firstPresent := (mem_present first).mp List.mem_cons_self
    simp only [Option.map_eq_none_iff, List.find?_eq_none, Option.isNone_iff_eq_none,
      Rank.compare?_eq_none_iff, Classical.not_not]
    constructor
    · intro comparable p memberP q memberQ
      have comparableToFirst (p : Rank × α) (membership : p ∈ entries) :
          first.1.Comparable p.1 := by
        by_cases missing : p.1 = .missing
        · exact .inr (.inl missing)
        · rcases List.mem_cons.mp ((mem_present p).mpr ⟨membership, missing⟩) with rfl | inRest
          · exact .inr (.inr rfl)
          · exact comparable p inRest
      exact Rank.comparable_trans firstPresent.2
        (Rank.comparable_comm.mp (comparableToFirst p memberP)) (comparableToFirst q memberQ)
    · intro comparable other membership
      exact comparable first firstPresent.1 other
        ((mem_present other).mp (List.mem_cons_of_mem first membership)).1

theorem inOrder_of_comparable {p q : Rank × α} (comparable : p.1.Comparable q.1)
    (fallback : Ordering) :
    decide (order.directed ((p.1.compare? q.1).getD fallback) ≠ .gt) =
      (order.compareRanks p.1 q.1).isLE := by
  rw [Rank.compare?_of_comparable comparable, Option.getD_some, Bool.eq_iff_iff,
    decide_eq_true_iff, Ordering.isLE_iff_ne_gt]
  rfl

theorem readable_of_comparesAll (comparable : order.ComparesAll table items) :
    ∀ item ∈ items, ∃ r, order.rank (table item) = .ok r := by
  intro item membership
  obtain ⟨r, -, rankItem, -, -⟩ := comparable item membership item membership
  exact ⟨r, rankItem⟩

theorem comparesAll_iff_comparable
    (readable : ∀ item ∈ items, ∃ r, order.rank (table item) = .ok r) :
    order.ComparesAll table items ↔
      ∀ p ∈ items.map (order.withRank table), ∀ q ∈ items.map (order.withRank table),
        p.1.Comparable q.1 := by
  simp only [List.forall_mem_map, withRank]
  constructor
  · intro comparable x memberX y memberY
    exact (compares_iff_comparable (readable x memberX) (readable y memberY)).mp
      (comparable x memberX y memberY)
  · intro comparable x memberX y memberY
    exact (compares_iff_comparable (readable x memberX) (readable y memberY)).mpr
      (comparable x memberX y memberY)

theorem comparesAll_of_ranked (ranks : order.ranked table items = .ok entries)
    (noClash : order.clash? table entries = none) : order.ComparesAll table items := by
  have readable := readable_of_ranked ranks
  cases ranks.symm.trans (ranked_of_readable readable)
  exact (comparesAll_iff_comparable readable).mpr (clash?_eq_none_iff.mp noClash)

theorem comparable_withRank (comparable : order.ComparesAll table items) :
    ∀ p ∈ items.map (order.withRank table), ∀ q ∈ items.map (order.withRank table),
      p.1.Comparable q.1 :=
  (comparesAll_iff_comparable (readable_of_comparesAll comparable)).mp comparable

theorem mergeSort_withRank (comparable : order.ComparesAll table items) :
    ((items.map (order.withRank table)).mergeSort order.inOrder).map (·.2) =
      items.mergeSort (order.notBehind table) := by
  have agree : ∀ p ∈ items.map (order.withRank table), ∀ q ∈ items.map (order.withRank table),
      order.inOrder p q = order.notBehind table p.2 q.2 := by
    intro p memberP q memberQ
    have sameAsRanks : order.inOrder p q = (order.compareRanks p.1 q.1).isLE :=
      inOrder_of_comparable (comparable_withRank comparable p memberP q memberQ) .eq
    obtain ⟨x, -, rfl⟩ := List.mem_map.mp memberP
    obtain ⟨y, -, rfl⟩ := List.mem_map.mp memberQ
    exact sameAsRanks
  rw [List.map_mergeSort agree, List.map_map]
  congr 1
  exact List.map_id items

theorem sortOn_of_comparesAll (comparable : order.ComparesAll table items) :
    order.sortOn table items = .ok (items.mergeSort (order.notBehind table)) := by
  have noClash : order.clash? table (items.map (order.withRank table)) = none :=
    clash?_eq_none_iff.mpr (comparable_withRank comparable)
  have ranks := ranked_of_readable (readable_of_comparesAll comparable)
  simp [sortOn, ranks, noClash, mergeSort_withRank comparable, bind, Except.bind]

theorem comparesAll_of_sortOn (success : order.sortOn table items = .ok sorted) :
    order.ComparesAll table items := by
  unfold sortOn at success
  cases ranks : order.ranked table items with
  | error fault => simp [ranks, bind, Except.bind] at success
  | ok entries =>
      cases noClash : order.clash? table entries with
      | some fault => simp [ranks, noClash, bind, Except.bind] at success
      | none => exact comparesAll_of_ranked ranks noClash

/-- What sorting does: it merges by the total order of tables, provided that
`compare` succeeds for all pairs. -/
theorem sortOn_eq_ok_iff :
    order.sortOn table items = .ok sorted ↔
      order.ComparesAll table items ∧ items.mergeSort (order.notBehind table) = sorted := by
  constructor
  · intro success
    have comparable := comparesAll_of_sortOn success
    rw [sortOn_of_comparesAll comparable] at success
    exact ⟨comparable, Except.ok.inj success⟩
  · rintro ⟨comparable, rfl⟩
    exact sortOn_of_comparesAll comparable

theorem stableSort_of_sortOn (success : order.sortOn table items = .ok sorted) :
    StableSort (order.compareOn table) items sorted := by
  obtain ⟨comparable, rfl⟩ := sortOn_eq_ok_iff.mp success
  exact stableSort_mergeSort (order.compareAllOn table)
    fun x memberX y memberY => compare_of_compares (comparable x memberX y memberY)

/-- A successful sort is the stable sort by `compare`. -/
theorem sortOn_is_stable_sort (order : TableOrder) (table : α → Table) (items sorted : List α)
    (success : order.sortOn table items = .ok sorted) :
    StableSort (order.compareOn table) items sorted ∧
      ∀ other, StableSort (order.compareOn table) items other → other = sorted := by
  have stable := stableSort_of_sortOn success
  exact ⟨stable, fun other stable' => stable'.unique oriented_compareOn stable⟩

theorem sortOn_latencies :
    byReadLatency.sortOn ofReadLatency [.nan, .zero, .infinity false, .zero] =
      .ok [.infinity false, .zero, .zero, .nan] := by
  let entries : List (Rank × Binary64) :=
    [(.missing, .nan), (.float .zero, .zero), (.float (.infinity false), .infinity false),
      (.float .zero, .zero)]
  have ranks :
      byReadLatency.ranked ofReadLatency [.nan, .zero, .infinity false, .zero] = .ok entries := rfl
  have noClash : byReadLatency.clash? ofReadLatency entries = none := rfl
  have merged : (entries.mergeSort byReadLatency.inOrder).map (·.2) =
      [.infinity false, .zero, .zero, .nan] := by cbv
  simp only [sortOn, ranks, bind, Except.bind, noClash, merged]

theorem sortOn_is_stable_sort_latencies :
    byReadLatency.sortOn ofReadLatency [.nan, .zero, .infinity false, .zero] =
      .ok [.infinity false, .zero, .zero, .nan] ∧
    StableSort (byReadLatency.compareOn ofReadLatency) [.nan, .zero, .infinity false, .zero]
      [.infinity false, .zero, .zero, .nan] :=
  ⟨sortOn_latencies, (sortOn_is_stable_sort _ _ _ _ sortOn_latencies).1⟩

/-- Sorting succeeds if and only if every table can be compared with every other
and with itself. Once its check has passed, no two ranks are incomparable, and
the order that stands in for such pairs has no say in the result. -/
theorem sortOn_succeeds_iff (order : TableOrder) (table : α → Table) (items : List α) :
    ((∃ sorted, order.sortOn table items = .ok sorted) ↔
      ∀ x ∈ items, ∀ y ∈ items, ∃ ordering, order.compare (table x) (table y) = .ok ordering) ∧
    ∀ entries, order.ranked table items = .ok entries → order.clash? table entries = none →
      (∀ p ∈ entries, ∀ q ∈ entries, p.1.compare? q.1 ≠ none) ∧
      ∀ fallback : Ordering,
        (entries.mergeSort fun p q =>
          order.directed ((p.1.compare? q.1).getD fallback) ≠ .gt) =
        entries.mergeSort order.inOrder := by
  constructor
  · simp only [← compares_iff_exists_compare]
    exact ⟨fun ⟨_, success⟩ => comparesAll_of_sortOn success,
      fun comparable => ⟨_, sortOn_of_comparesAll comparable⟩⟩
  · intro entries ranks noClash
    have comparable := clash?_eq_none_iff.mp noClash
    refine ⟨fun p memberP q memberQ incomparable => ?_, fun fallback => ?_⟩
    · exact Rank.compare?_eq_none_iff.mp incomparable (comparable p memberP q memberQ)
    · have agree : ∀ p ∈ entries, ∀ q ∈ entries,
          decide (order.directed ((p.1.compare? q.1).getD fallback) ≠ .gt) =
            order.inOrder (id p) (id q) := by
        intro p memberP q memberQ
        rw [inOrder_of_comparable (comparable p memberP q memberQ) fallback]
        exact (inOrder_of_comparable (comparable p memberP q memberQ) .eq).symm
      simpa using List.map_mergeSort agree

theorem sortOn_succeeds_iff_latencies :
    byReadLatency.ranked ofReadLatency [.nan, .zero] =
      .ok [(.missing, .nan), (.float .zero, .zero)] ∧
    byReadLatency.clash? ofReadLatency [(.missing, .nan), (.float .zero, .zero)] = none ∧
    Rank.compare? .missing (.float .zero) ≠ none := by
  have ranks : byReadLatency.ranked ofReadLatency [.nan, .zero] =
      .ok [(.missing, .nan), (.float .zero, .zero)] := rfl
  have noClash :
      byReadLatency.clash? ofReadLatency [(.missing, .nan), (.float .zero, .zero)] = none := rfl
  have ⟨comparable, _⟩ :=
    (sortOn_succeeds_iff byReadLatency ofReadLatency [.nan, .zero]).2 _ ranks noClash
  exact ⟨ranks, noClash,
    comparable (.missing, .nan) (by simp) (.float .zero, .zero) (by simp)⟩

end TableReport.TableOrder
