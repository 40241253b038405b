import TableReport.Proofs.Rank
import TableReport.TableOrder

/-!
Comparing tables. Which kinds of rank can meet under an order is settled by the
reading of its metric: only quantities have two kinds that are not comparable,
and they are never missing. So comparability is transitive, and `compare` is a
total preorder on the tables for which it succeeds.
-/

namespace TableReport

/-- The kinds of rank that a reading can give. -/
def Reading.kinds : Reading → List String
  | .count _ => ["integer"]
  | .ratio _ => ["float"]
  | .quantity _ => ["integer", "float"]
  | .size _ => ["size"]
  | .latency _ => ["missing", "float"]
  | .offHeap _ => ["missing", "size"]
  | .name _ => ["text"]

namespace TableOrder

variable {order : TableOrder} {x y z : Table} {r s : Rank}

def kinds (order : TableOrder) : List String :=
  (order.metric.map (·.reading.kinds)).getD ["text"]

theorem sizeRank_kind {text : String} (ranked : order.sizeRank text = .ok r) :
    r.kind = "size" := by
  unfold sizeRank at ranked
  cases size : Size.bytes order.encoding text <;> simp [size, Except.map] at ranked
  subst r
  rfl

theorem kind_mem_kinds (ranked : order.rank x = .ok r) : r.kind ∈ order.kinds := by
  cases named : order.metric with
  | none =>
      simp only [rank, named, Except.ok.injEq] at ranked
      simp [kinds, named, ← ranked, Rank.kind]
  | some metric =>
      cases reading : metric.reading <;>
        simp only [rank, named, reading] at ranked <;>
        simp only [kinds, named, reading, Option.map_some, Option.getD_some, Reading.kinds]
      case quantity get =>
        split at ranked <;> cases ranked <;> simp [Rank.kind]
      case size get => simp [sizeRank_kind ranked]
      case latency get =>
        cases ranked
        split <;> simp [Rank.kind]
      case offHeap get =>
        split at ranked
        · simp [sizeRank_kind ranked]
        · cases ranked
          simp [Rank.kind]
      all_goals
        cases ranked
        simp [Rank.kind]

/-- An order that knows missing ranks knows only one kind beside them. -/
theorem comparable_of_rank_missing (missing : order.rank x = .ok .missing)
    (first : order.rank y = .ok r) (second : order.rank z = .ok s) : r.Comparable s := by
  have missingKind : "missing" ∈ order.kinds := kind_mem_kinds missing
  have firstKind := kind_mem_kinds first
  have secondKind := kind_mem_kinds second
  unfold kinds at *
  cases named : order.metric with
  | none => simp [named] at missingKind
  | some metric =>
      cases reading : metric.reading <;>
        simp [named, reading, Reading.kinds] at missingKind firstKind secondKind
      all_goals
        rw [Rank.kind_eq_missing_iff] at firstKind secondKind
        grind [Rank.Comparable]

def compareRanks (order : TableOrder) (r s : Rank) : Ordering := order.directed (r.compareAll s)

theorem compareRanks_eq_swap (r s : Rank) :
    order.compareRanks r s = (order.compareRanks s r).swap := by
  unfold compareRanks directed
  rw [Rank.compareAll_eq_swap r s]
  split <;> rfl

theorem compareRanks_isLE_trans {t : Rank} (first : (order.compareRanks r s).isLE)
    (second : (order.compareRanks s t).isLE) : (order.compareRanks r t).isLE := by
  unfold compareRanks directed at *
  cases direction : order.smallestFirst <;> simp only [direction] at *
  · rw [← Rank.compareAll_eq_swap] at *
    exact Rank.compareAll_isLE_trans second first
  · exact Rank.compareAll_isLE_trans first second

def rankOrMissing (order : TableOrder) (table : Table) : Rank :=
  (order.rank table).toOption.getD .missing

/-- The order of any two tables; that of `compare` where `compare` succeeds. -/
def compareAll (order : TableOrder) (x y : Table) : Ordering :=
  order.compareRanks (order.rankOrMissing x) (order.rankOrMissing y)

instance : Std.TransCmp order.compareAll where
  eq_swap := compareRanks_eq_swap _ _
  isLE_trans := compareRanks_isLE_trans

theorem compareAll_eq_swap (x y : Table) : order.compareAll x y = (order.compareAll y x).swap :=
  compareRanks_eq_swap _ _

theorem rankOrMissing_of_rank (ranked : order.rank x = .ok r) : order.rankOrMissing x = r := by
  simp [rankOrMissing, ranked, Except.toOption]

def Compares (order : TableOrder) (x y : Table) : Prop :=
  ∃ r s, order.rank x = .ok r ∧ order.rank y = .ok s ∧ r.Comparable s

theorem compares_iff_comparable (first : ∃ r, order.rank x = .ok r)
    (second : ∃ s, order.rank y = .ok s) :
    order.Compares x y ↔ (order.rankOrMissing x).Comparable (order.rankOrMissing y) := by
  obtain ⟨r, rankX⟩ := first
  obtain ⟨s, rankY⟩ := second
  simp [Compares, rankX, rankY, rankOrMissing_of_rank rankX, rankOrMissing_of_rank rankY]

theorem compare_of_ranks {natural : Ordering} (first : order.rank x = .ok r)
    (second : order.rank y = .ok s) (compared : r.compare? s = some natural) :
    order.compare x y = .ok (order.directed natural) := by
  simp [TableOrder.compare, first, second, bind, Except.bind, compared]

theorem compare_of_compares (comparable : order.Compares x y) :
    order.compare x y = .ok (order.compareAll x y) := by
  obtain ⟨r, s, first, second, comparable⟩ := comparable
  rw [compareAll, compareRanks, rankOrMissing_of_rank first, rankOrMissing_of_rank second]
  exact compare_of_ranks first second (Rank.compare?_of_comparable comparable)

theorem compares_of_compare {ordering : Ordering} (compared : order.compare x y = .ok ordering) :
    order.Compares x y := by
  unfold TableOrder.compare at compared
  cases first : order.rank x with
  | error fault => simp [first, bind, Except.bind] at compared
  | ok r =>
      cases second : order.rank y with
      | error fault => simp [first, second, bind, Except.bind] at compared
      | ok s =>
          by_cases comparable : r.Comparable s
          · exact ⟨r, s, first, second, comparable⟩
          · simp [first, second, bind, Except.bind,
              Rank.compare?_eq_none_iff.mpr comparable] at compared

theorem compare_eq_ok_iff {ordering : Ordering} :
    order.compare x y = .ok ordering ↔ order.Compares x y ∧ order.compareAll x y = ordering := by
  constructor
  · intro compared
    have comparable := compares_of_compare compared
    rw [compare_of_compares comparable] at compared
    exact ⟨comparable, Except.ok.inj compared⟩
  · rintro ⟨comparable, rfl⟩
    exact compare_of_compares comparable

theorem compares_iff_exists_compare :
    order.Compares x y ↔ ∃ ordering, order.compare x y = .ok ordering :=
  ⟨fun comparable => ⟨_, compare_of_compares comparable⟩,
    fun ⟨_, compared⟩ => compares_of_compare compared⟩

theorem compares_comm : order.Compares x y ↔ order.Compares y x := by
  constructor <;>
    exact fun ⟨r, s, first, second, comparable⟩ =>
      ⟨s, r, second, first, Rank.comparable_comm.mp comparable⟩

theorem compares_trans (first : order.Compares x y) (second : order.Compares y z) :
    order.Compares x z := by
  obtain ⟨r, s, rankX, rankY, comparable⟩ := first
  obtain ⟨s', t, rankY', rankZ, comparable'⟩ := second
  cases rankY.symm.trans rankY'
  refine ⟨r, t, rankX, rankZ, ?_⟩
  by_cases missing : s = .missing
  · subst missing
    exact comparable_of_rank_missing rankY rankX rankZ
  · exact Rank.comparable_trans missing comparable comparable'

theorem compare_swap_iff {ordering : Ordering} :
    order.compare x y = .ok ordering ↔ order.compare y x = .ok ordering.swap := by
  rw [compare_eq_ok_iff, compare_eq_ok_iff, compares_comm, compareAll_eq_swap y x,
    Ordering.swap_inj]

theorem compareAll_eq_eq_iff (first : (order.compareAll x y).isLE)
    (second : (order.compareAll y z).isLE) :
    order.compareAll x z = .eq ↔ order.compareAll x y = .eq ∧ order.compareAll y z = .eq := by
  refine ⟨fun level => ?_, fun ⟨levelXY, levelYZ⟩ => Std.TransCmp.eq_trans levelXY levelYZ⟩
  rcases Ordering.isLE_iff_eq_lt_or_eq_eq.mp first with below | levelXY
  · have below : order.compareAll x z = .lt := Std.TransCmp.lt_of_lt_of_isLE below second
    simp [level] at below
  · refine ⟨levelXY, ?_⟩
    rwa [Std.TransCmp.congr_left levelXY] at level

/-- Where it is defined, `compare` is a total preorder. -/
theorem compare_total_preorder (order : TableOrder) (x y z : Table) :
    ((∃ fault, order.compare x x = .error fault) ∨ order.compare x x = .ok .eq) ∧
    (∀ ordering, order.compare x y = .ok ordering ↔ order.compare y x = .ok ordering.swap) ∧
    ∀ first second, order.compare x y = .ok first → order.compare y z = .ok second →
      ∃ third, order.compare x z = .ok third ∧
        (first ≠ .gt → second ≠ .gt →
          third ≠ .gt ∧ (third = .eq ↔ first = .eq ∧ second = .eq)) := by
  refine ⟨?_, fun _ => compare_swap_iff, ?_⟩
  · cases compared : order.compare x x with
    | error fault => exact .inl ⟨fault, rfl⟩
    | ok ordering =>
        obtain ⟨-, rfl⟩ := compare_eq_ok_iff.mp compared
        exact .inr (congrArg Except.ok Std.ReflCmp.compare_self)
  · intro first second comparedXY comparedYZ
    obtain ⟨comparesXY, rfl⟩ := compare_eq_ok_iff.mp comparedXY
    obtain ⟨comparesYZ, rfl⟩ := compare_eq_ok_iff.mp comparedYZ
    refine ⟨_, compare_of_compares (compares_trans comparesXY comparesYZ), ?_⟩
    intro notAboveXY notAboveYZ
    have first := Ordering.isLE_iff_ne_gt.mpr notAboveXY
    have second := Ordering.isLE_iff_ne_gt.mpr notAboveYZ
    exact ⟨Ordering.isLE_iff_ne_gt.mp (Std.TransCmp.isLE_trans first second),
      compareAll_eq_eq_iff first second⟩

/-- A fresh table but for its read latency. -/
def ofReadLatency (latency : Binary64) : Table :=
  { Table.fresh "ks" "t" with reads := { count := 1, latency } }

def byReadLatency : TableOrder :=
  { metric := some .readLatency, ascending := false, encoding := .plain }

/-- Zero comes before its negative, and that comes before the lack of a latency. -/
theorem compare_total_preorder_latencies :
    let negativeZero : Binary64 := { negative := true, magnitude := 0 }
    byReadLatency.compare (ofReadLatency .zero) (ofReadLatency negativeZero) = .ok .lt ∧
    byReadLatency.compare (ofReadLatency negativeZero) (ofReadLatency .nan) = .ok .lt ∧
    ∃ third, byReadLatency.compare (ofReadLatency .zero) (ofReadLatency .nan) = .ok third ∧
      third ≠ .gt ∧ third ≠ .eq := by
  intro negativeZero
  have first :
      byReadLatency.compare (ofReadLatency .zero) (ofReadLatency negativeZero) = .ok .lt := rfl
  have second :
      byReadLatency.compare (ofReadLatency negativeZero) (ofReadLatency .nan) = .ok .lt := rfl
  obtain ⟨third, compared, bound⟩ :=
    (compare_total_preorder byReadLatency _ _ _).2.2 _ _ first second
  obtain ⟨notAbove, level⟩ := bound (by decide) (by decide)
  exact ⟨first, second, third, compared, notAbove, by simp [level]⟩

end TableOrder

end TableReport
