import TableReport.Proofs.TableOrder.Direction
import TableReport.Proofs.Text.Lines
import TableReport.Proofs.Text.Order

/-!
Tables in the order of their full names. As long as no keyspace has a dot in its name,
full names are compared by the keyspace with the dot behind it first, and then by the
name of the table. So the tables of a keyspace stand next to each other, also if its
name begins that of another keyspace, and among themselves they are in the order of
their own names.
-/

namespace TableReport

namespace Table

variable {x y : Table}

/-- The keyspace has no dot in its name. -/
def IsDotless (table : Table) : Prop := '.' ∉ table.keyspace.toList

instance (table : Table) : Decidable table.IsDotless := inferInstanceAs (Decidable (¬ _))

/-- What a full name has in front of the table's own name. -/
def front (table : Table) : String := table.keyspace ++ "."

theorem front_inj : x.front = y.front ↔ x.keyspace = y.keyspace := String.append_left_inj "."

theorem toList_fullName (table : Table) :
    table.fullName.toList = table.keyspace.toList ++ '.' :: table.name.toList := by
  simp [fullName]

theorem eq_of_fullName_eq (dotlessX : x.IsDotless) (dotlessY : y.IsDotless)
    (same : x.fullName = y.fullName) : x.keyspace = y.keyspace ∧ x.name = y.name := by
  have sameChars := congrArg String.toList same
  rw [toList_fullName, toList_fullName] at sameChars
  obtain ⟨keyspaces, names⟩ := append_mark_inj dotlessX dotlessY sameChars
  exact ⟨String.toList_inj.mp keyspaces, String.toList_inj.mp names⟩

/-- With dots in the names of keyspaces, different tables can have one full name. -/
example : (fresh "a" "b.c").fullName = (fresh "a.b" "c").fullName := by rfl

theorem compare_fullName (dotlessX : x.IsDotless) (dotlessY : y.IsDotless) :
    compare x.fullName y.fullName = (compare x.front y.front).then (compare x.name y.name) := by
  simp only [← compare_toList, toList_fullName, front, String.toList_append]
  exact compare_append_mark dotlessX dotlessY x.name.toList y.name.toList

end Table

namespace TableOrder

variable {α : Type} {order : TableOrder} {table : α → Table} {items : List α}

theorem isLE_of_directed_then {first second : Ordering}
    (notAbove : (order.directed (first.then second)).isLE) : (order.directed first).isLE := by
  unfold directed at *
  cases direction : order.smallestFirst <;> simp only [direction] at *
  · rw [Ordering.swap_then] at notAbove
    exact Ordering.isLE_left_of_isLE_then notAbove
  · exact Ordering.isLE_left_of_isLE_then notAbove

theorem eq_of_directed_isLE {natural : Ordering} (notAbove : (order.directed natural).isLE)
    (notBelow : (order.directed natural.swap).isLE) : natural = .eq := by
  unfold directed at *
  cases direction : order.smallestFirst <;> simp only [direction] at *
  · rw [Ordering.swap_swap] at notBelow
    exact Ordering.eq_eq_of_isLE_of_isLE_swap notBelow notAbove
  · exact Ordering.eq_eq_of_isLE_of_isLE_swap notAbove notBelow

/-- Nothing lies between a keyspace and itself. -/
theorem keyspace_eq_of_between {x y z : Table} (same : z.keyspace = x.keyspace)
    (lower : (order.directed (Ord.compare x.front y.front)).isLE)
    (upper : (order.directed (Ord.compare y.front z.front)).isLE) : y.keyspace = x.keyspace := by
  have swapped : Ord.compare y.front x.front = (Ord.compare x.front y.front).swap :=
    Std.OrientedCmp.eq_swap
  rw [Table.front_inj.mpr same, swapped] at upper
  have level : Ord.compare x.front y.front = .eq := eq_of_directed_isLE lower upper
  exact (Table.front_inj.mp (Std.LawfulEqCmp.eq_of_compare level)).symm

def isInKeyspace (table : α → Table) (keyspace : String) (item : α) : Bool :=
  (table item).keyspace == keyspace

/-- The items are sorted keyspace by keyspace, the keyspaces in the order of their names with
the dot behind them. The tables of each one stand next to each other, stably sorted by their
own names. -/
structure SortedByKeyspace (table : α → Table) (compareTexts : String → String → Ordering)
    (items sorted : List α) : Prop where
  rising : sorted.Pairwise fun x y => (compareTexts (table x).front (table y).front).isLE
  /-- What the list holds of one keyspace is one stretch of it. -/
  together : ∀ keyspace, sorted.filter (isInKeyspace table keyspace) <:+: sorted
  arranged : ∀ keyspace,
    StableSort
      (fun x y => (.ok (compareTexts (table x).name (table y).name) : Except OrderFault Ordering))
      (items.filter (isInKeyspace table keyspace)) (sorted.filter (isInKeyspace table keyspace))

section FullNames

variable (ranks : ∀ table, order.rank table = .ok (.text table.fullName))
include ranks

theorem compares_fullNames (x y : Table) : order.Compares x y :=
  ⟨_, _, ranks x, ranks y, .inr (.inr rfl)⟩

theorem compareAll_fullNames {x y : Table} (dotlessX : x.IsDotless) (dotlessY : y.IsDotless) :
    order.compareAll x y =
      order.directed ((Ord.compare x.front y.front).then (Ord.compare x.name y.name)) := by
  have compared := compare_of_compares (compares_fullNames ranks x y)
  rw [compare_of_ranks (ranks x) (ranks y) rfl,
    Table.compare_fullName dotlessX dotlessY] at compared
  exact (Except.ok.inj compared).symm

theorem compareAll_of_keyspace_eq {x y : Table} (dotlessX : x.IsDotless) (dotlessY : y.IsDotless)
    (same : x.keyspace = y.keyspace) :
    order.compareAll x y = order.directed (Ord.compare x.name y.name) := by
  have level : Ord.compare x.front y.front = .eq :=
    Std.LawfulEqCmp.compare_eq_iff_eq.mpr (Table.front_inj.mpr same)
  rw [compareAll_fullNames ranks dotlessX dotlessY, level, Ordering.eq_then]

theorem exists_sortedByKeyspace (dotless : ∀ item ∈ items, (table item).IsDotless) :
    ∃ sorted, order.sortOn table items = .ok sorted ∧
      SortedByKeyspace table (fun text text' => order.directed (Ord.compare text text'))
        items sorted := by
  let sorted := items.mergeSort (order.notBehind table)
  have rising : Ascends (fun x y => order.directed (Ord.compare (table x).front (table y).front))
      sorted := by
    have ascends : Ascends (order.compareAllOn table) sorted := ascends_mergeSort items
    apply List.Pairwise.imp_of_mem _ ascends
    intro x y memberX memberY notAbove
    have dotlessX := dotless x (List.mem_mergeSort.mp memberX)
    have dotlessY := dotless y (List.mem_mergeSort.mp memberY)
    rw [compareAllOn, compareAll_fullNames ranks dotlessX dotlessY] at notAbove
    exact isLE_of_directed_then notAbove
  refine ⟨sorted, sortOn_of_comparesAll fun x _ y _ => compares_fullNames ranks _ _, rising,
    fun keyspace => ?together, fun keyspace => ?arranged⟩
  case together =>
    apply rising.filter_infix
    intro x _ y _ z _ lower upper insideX insideZ
    simp only [isInKeyspace, beq_iff_eq] at *
    exact (keyspace_eq_of_between (insideZ.trans insideX.symm) lower upper).trans insideX
  case arranged =>
    have chosen : sorted.filter (isInKeyspace table keyspace) =
        (items.filter (isInKeyspace table keyspace)).mergeSort (order.notBehind table) :=
      (mergeSort_filter _ items).symm
    rw [chosen]
    apply stableSort_mergeSort (order.compareAllOn table)
    intro x memberX y memberY
    simp only [List.mem_filter, isInKeyspace, beq_iff_eq] at memberX memberY
    rw [compareAllOn, compareAll_of_keyspace_eq ranks (dotless x memberX.1) (dotless y memberY.1)
      (memberX.2.trans memberY.2.symm)]

end FullNames

/-- Tables of keyspaces without a dot in their names have the same full name only if they
have the same keyspace and the same name. Sorting them by full name succeeds, and puts all
tables of a keyspace next to each other, in the order of their own names in the direction
of the sort; those of the same name stay as they stood. Without a metric it is the same,
and the direction is always the ascending one. -/
theorem fullNames_gather_keyspaces (encoding : SizeEncoding) (table : α → Table) (items : List α)
    (dotless : ∀ item ∈ items, (table item).IsDotless) :
    (∀ x ∈ items, ∀ y ∈ items, (table x).fullName = (table y).fullName →
      (table x).keyspace = (table y).keyspace ∧ (table x).name = (table y).name) ∧
    (∃ sorted, (ascendingBy .fullName encoding).sortOn table items = .ok sorted ∧
      SortedByKeyspace table Ord.compare items sorted) ∧
    (∃ sorted, (descendingBy .fullName encoding).sortOn table items = .ok sorted ∧
      SortedByKeyspace table (fun text text' => Ord.compare text' text) items sorted) ∧
    ∀ ascending, ∃ sorted, sortOn { metric := none, ascending, encoding } table items = .ok sorted ∧
      SortedByKeyspace table Ord.compare items sorted := by
  refine ⟨?identity, ?ascending, ?descending, fun ascending => ?byName⟩
  case identity =>
    intro x memberX y memberY
    exact Table.eq_of_fullName_eq (dotless x memberX) (dotless y memberY)
  case ascending => exact exists_sortedByKeyspace (fun _ => rfl) dotless
  case descending =>
    have turned : (fun text text' : String => Ord.compare text' text) =
        fun text text' => (descendingBy .fullName encoding).directed (Ord.compare text text') := by
      funext text text'
      exact Std.OrientedCmp.eq_swap
    rw [turned]
    exact exists_sortedByKeyspace (fun _ => rfl) dotless
  case byName => exact exists_sortedByKeyspace (fun _ => rfl) dotless

/-- Five tables by their places. The name of the first one's keyspace begins those of the
other keyspaces, and the first and the last one are level. -/
def namedAt (place : Nat) : Table :=
  [.fresh "ks" "b", .fresh "ks-" "x.y", .fresh "ks1" "a", .fresh "ks" "a.z"].getD place
    (.fresh "ks" "b")

theorem sortOn_namedAt :
    (descendingBy .fullName .plain).sortOn namedAt [0, 1, 2, 3, 4] = .ok [2, 0, 4, 3, 1] := by
  let entries : List (Rank × Nat) :=
    [(.text "ks.b", 0), (.text "ks-.x.y", 1), (.text "ks1.a", 2), (.text "ks.a.z", 3),
      (.text "ks.b", 4)]
  have ranks : (descendingBy .fullName .plain).ranked namedAt [0, 1, 2, 3, 4] = .ok entries := rfl
  have noClash (table : Nat → Table) :
      (descendingBy .fullName .plain).clash? table entries = none := by cbv
  -- Sorting by heights is cheaper to evaluate than sorting by texts.
  let notAbove (i j : Nat) : Bool := [1, 3, 0, 2, 1].getD i 0 ≤ [1, 3, 0, 2, 1].getD j 0
  have agree : ∀ p ∈ entries, ∀ q ∈ entries,
      (descendingBy .fullName .plain).inOrder p q = notAbove p.2 q.2 := by decide +kernel
  have merged : (entries.mergeSort (descendingBy .fullName .plain).inOrder).map (·.2) =
      [2, 0, 4, 3, 1] := by
    rw [List.map_mergeSort agree]
    cbv
  simp only [sortOn, ranks, bind, Except.bind, noClash, merged]

theorem fullNames_gather_keyspaces_namedAt :
    (∀ place ∈ [0, 1, 2, 3, 4], (namedAt place).IsDotless) ∧
    (descendingBy .fullName .plain).sortOn namedAt [0, 1, 2, 3, 4] = .ok [2, 0, 4, 3, 1] ∧
    [0, 4, 3] <:+: [2, 0, 4, 3, 1] ∧
    StableSort
      (fun i j => (.ok (Ord.compare (namedAt j).name (namedAt i).name) : Except OrderFault Ordering))
      [0, 3, 4] [0, 4, 3] := by
  have dotless : ∀ place ∈ [0, 1, 2, 3, 4], (namedAt place).IsDotless := by decide
  obtain ⟨sorted, success, gathered⟩ :=
    (fullNames_gather_keyspaces .plain namedAt [0, 1, 2, 3, 4] dotless).2.2.1
  obtain rfl : [2, 0, 4, 3, 1] = sorted := Except.ok.inj (sortOn_namedAt.symm.trans success)
  exact ⟨dotless, success, gathered.together "ks", gathered.arranged "ks"⟩

end TableOrder

end TableReport
