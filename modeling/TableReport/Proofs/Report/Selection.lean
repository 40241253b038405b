import TableReport.Proofs.TableOrder.Sort
import TableReport.Report.Basic

/-!
Selections. A selection sorts all tables of a snapshot and only then cuts the
list, so how many tables are kept has no say in whether it succeeds. The cut goes
through the tables in the order of the stable sort, each with its place in the
snapshot: whatever is listed precedes whatever is left out.
-/

namespace TableReport

theorem pairwise_take_drop {α : Type} {R : α → α → Prop} {entries : List α}
    (ordered : entries.Pairwise R) (place : Nat) :
    ∀ x ∈ entries.take place, ∀ y ∈ entries.drop place, R x y := by
  rw [← List.take_append_drop place entries, List.pairwise_append] at ordered
  exact ordered.2.2

theorem ReportOptions.kept_le_kept {options : ReportOptions} {shorter longer : Nat}
    (positive : 0 < shorter) (bound : shorter ≤ longer) (count : Nat) :
    kept { options with top := shorter } count ≤ kept { options with top := longer } count := by
  simp only [kept]
  split <;> split <;> omega

namespace Snapshot

variable {snapshot : Snapshot} {sorted : List Table}

/-- What is told on the way of a selection has no say in it. -/
theorem select_result (snapshot : Snapshot) (options : ReportOptions) :
    (snapshot.select options).result =
      (options.order.sort snapshot.tables).map fun sorted =>
        sorted.take (options.kept sorted.length) := by
  unfold select TableOrder.sortOnLogged TableOrder.sort
  cases options.order.sortOn id snapshot.tables with
  | error fault => simp [Except.bind, Except.map]
  | ok sorted =>
      simp only [Logged.result_bind, Logged.result_ofExcept, Logged.result_tell,
        Except.bind, Except.map, Logged.result_pure]
      split <;> rfl

theorem select_eq_error_iff (options : ReportOptions) (fault : OrderFault) :
    (snapshot.select options).result = .error fault ↔
      options.order.sort snapshot.tables = .error fault := by
  rw [select_result]
  cases options.order.sort snapshot.tables <;> simp [Except.map]

theorem select_of_sort (options : ReportOptions)
    (sortedAll : options.order.sort snapshot.tables = .ok sorted) :
    (snapshot.select options).result = .ok (sorted.take (options.kept sorted.length)) := by
  rw [select_result, sortedAll]
  rfl

/-- A selection fails as sorting all tables fails, however many it keeps, and else
lists the first tables of their stable sort. So one that keeps fewer tables is the
beginning of one that keeps more, and every table that is listed is less than
every table that is left out, or level with it and in front of it in the
snapshot. -/
theorem select_is_first_of_stable_sort (snapshot : Snapshot) (options : ReportOptions) :
    (∀ top fault,
      (snapshot.select { options with top }).result = .error fault ↔
        options.order.sort snapshot.tables = .error fault) ∧
    ∀ sorted, options.order.sort snapshot.tables = .ok sorted →
      StableSort options.order.compare snapshot.tables sorted ∧
      ∃ placed : List (Table × Nat),
        placed.Perm snapshot.tables.zipIdx ∧ placed.map (·.1) = sorted ∧
        (∀ top kept,
          kept = (if top = 0 then snapshot.tables.length else min top snapshot.tables.length) →
          (snapshot.select { options with top }).result = .ok ((placed.take kept).map (·.1)) ∧
          ∀ listed ∈ placed.take kept, ∀ omitted ∈ placed.drop kept,
            options.order.compare listed.1 omitted.1 = .ok .lt ∨
            options.order.compare listed.1 omitted.1 = .ok .eq ∧ listed.2 < omitted.2) ∧
        ∀ fewer more, 0 < fewer → fewer ≤ more →
          ∃ shorter longer,
            (snapshot.select { options with top := fewer }).result = .ok shorter ∧
            (snapshot.select { options with top := more }).result = .ok longer ∧
            shorter <+: longer := by
  refine ⟨fun top fault => select_eq_error_iff { options with top } fault, ?_⟩
  intro sorted sortedAll
  have selected (top : Nat) := select_of_sort { options with top } sortedAll
  have stable : StableSort options.order.compare snapshot.tables sorted :=
    TableOrder.stableSort_of_sortOn sortedAll
  have ⟨placed, permutation, sameItems, ordered⟩ := stable
  subst sameItems
  refine ⟨stable, placed, permutation, rfl, ?_, ?_⟩
  · rintro top kept rfl
    have sameLength : (placed.map (·.1)).length = snapshot.tables.length := stable.perm.length_eq
    refine ⟨?_, pairwise_take_drop ordered _⟩
    rw [selected, sameLength, List.map_take]
    rfl
  · intro fewer more positive bound
    exact ⟨_, _, selected fewer, selected more,
      List.take_prefix_take_left (ReportOptions.kept_le_kept positive bound _)⟩

def ofReads (keyspace name : String) (reads : Int64) : Table :=
  { Table.fresh keyspace name with reads := { count := reads, latency := .nan } }

/-- The two most read tables lie in different keyspaces and are read equally often. -/
def threeTables : Snapshot :=
  ofKeyspaces
    [ .ofTables "ks1" [ofReads "ks1" "a" 5, ofReads "ks1" "b" 9],
      .ofTables "ks2" [ofReads "ks2" "c" 9] ]

def mostRead : ReportOptions :=
  { metric := some .reads, ascending := false, top := 0, encoding := .plain }

theorem sort_threeTables :
    mostRead.order.sort threeTables.tables =
      .ok [ofReads "ks1" "b" 9, ofReads "ks2" "c" 9, ofReads "ks1" "a" 5] := by
  -- Only the ranks are evaluated; what else the tables hold is left as it is.
  let entries (a b c : Table) : List (Rank × Table) :=
    [(.integer 5, a), (.integer 9, b), (.integer 9, c)]
  have noClash (a b c : Table) : mostRead.order.clash? id (entries a b c) = none := by cbv
  have merged (a b c : Table) :
      ((entries a b c).mergeSort mostRead.order.inOrder).map (·.2) = [b, c, a] := by cbv
  have ranks : mostRead.order.ranked id threeTables.tables =
      .ok (entries (ofReads "ks1" "a" 5) (ofReads "ks1" "b" 9) (ofReads "ks2" "c" 9)) := rfl
  simp only [TableOrder.sort, TableOrder.sortOn, ranks, bind, Except.bind, noClash, merged]

theorem select_is_first_of_stable_sort_threeTables :
    mostRead.order.sort threeTables.tables =
      .ok [ofReads "ks1" "b" 9, ofReads "ks2" "c" 9, ofReads "ks1" "a" 5] ∧
    ∃ shorter longer,
      (threeTables.select { mostRead with top := 1 }).result = .ok shorter ∧
      (threeTables.select { mostRead with top := 2 }).result = .ok longer ∧
      shorter <+: longer := by
  obtain ⟨-, placed, -, -, -, cuts⟩ :=
    (select_is_first_of_stable_sort threeTables mostRead).2 _ sort_threeTables
  exact ⟨sort_threeTables, cuts 1 2 (by decide) (by decide)⟩

end Snapshot

end TableReport
