import TableReport.Proofs.Binary64.Order
import TableReport.Proofs.TableOrder.Direction

/-!
Tables in the order of their floats. Ratios, latencies and quantities that are floats
are ordered alike, by the numbers they stand for, as long as all of them are numbers.
Latencies differ from the others in their NaNs only, which are no ranks but the lack
of one.
-/

namespace TableReport

/-- The double that is read off a table, if it is one. -/
def Reading.float? (reading : Reading) (table : Table) : Option Binary64 :=
  match reading with
  | .ratio get | .latency get => some (get table)
  | .quantity get =>
    match get table with
    | some (.float x) => some x
    | _ => none
  | _ => none

/-- A NaN stands for the lack of a value. -/
def Reading.isLatency : Reading → Bool
  | .latency _ => true
  | _ => false

namespace TableOrder

variable {metric : Metric} {encoding : SizeEncoding} {a b : Table} {x y : Binary64}

theorem rank_of_float? (read : metric.reading.float? a = some x) :
    (ascendingBy metric encoding).rank a =
      .ok (if metric.reading.isLatency && x.isNaN then .missing else .float x) := by
  simp only [rank, ascendingBy]
  cases reading : metric.reading with
  | ratio get =>
      rw [reading] at read
      cases read
      rfl
  | latency get =>
      rw [reading] at read
      cases read
      simp only [Reading.isLatency, Bool.true_and]
  | quantity get =>
      rw [reading, Reading.float?] at read
      split at read
      next value held =>
        cases read
        simp only [held, Reading.isLatency, Bool.false_and, Bool.false_eq_true, if_false]
      next => contradiction
  | _ => simp [reading, Reading.float?] at read

/-- Doubles that are ranks of their own are in their total order. -/
theorem compare_of_float? (readA : metric.reading.float? a = some x)
    (readB : metric.reading.float? b = some y)
    (presentA : metric.reading.isLatency = true → x.isNaN = false)
    (presentB : metric.reading.isLatency = true → y.isNaN = false) :
    (ascendingBy metric encoding).compare a b = .ok (x.compareTotal y) := by
  have rankA : (ascendingBy metric encoding).rank a = .ok (.float x) := by
    rw [rank_of_float? readA, if_neg (by simpa using presentA)]
  have rankB : (ascendingBy metric encoding).rank b = .ok (.float y) := by
    rw [rank_of_float? readB, if_neg (by simpa using presentB)]
  exact compare_of_ranks rankA rankB rfl

theorem compare_of_missing {s : Rank} (readA : metric.reading.float? a = some x)
    (rankB : (ascendingBy metric encoding).rank b = .ok s) (latency : metric.reading.isLatency = true)
    (missing : x.isNaN = true) :
    (ascendingBy metric encoding).compare a b = .ok (if s = .missing then .eq else .lt) := by
  have rankA : (ascendingBy metric encoding).rank a = .ok .missing := by
    rw [rank_of_float? readA, if_pos (by simp [latency, missing])]
  refine compare_of_ranks rankA rankB ?_
  cases s <;> rfl

/-- A NaN that is a rank of its own comes beyond the infinity of its sign. -/
theorem compare_of_isNaN (noLatency : metric.reading.isLatency = false)
    (readA : metric.reading.float? a = some x) (readB : metric.reading.float? b = some y)
    (nanX : x.isNaN = true) (numberY : y.isNaN = false) :
    (ascendingBy metric encoding).compare a b = .ok (if x.negative then .lt else .gt) := by
  have present (isNaN : Bool) : metric.reading.isLatency = true → isNaN = false := by
    simp [noLatency]
  rw [compare_of_float? readA readB (present _) (present _),
    Binary64.compareTotal_of_isNaN nanX numberY]

/-- Tables come in the order of the numbers that their ratios, latencies or floats stand
for, infinities included and the negative zero in front of the other; two of them are
level only if the doubles are the same. A NaN among ratios or floats comes beyond the
infinity of its sign. NaNs among latencies come in front of all numbers, each level with
the others. -/
theorem floats_in_numeric_order (metric : Metric) (encoding : SizeEncoding) (a b : Table)
    (x y : Binary64) (readA : metric.reading.float? a = some x)
    (readB : metric.reading.float? b = some y) :
    (x.isNaN = false → y.isNaN = false →
      (∃ result, (ascendingBy metric encoding).compare a b = .ok result ∧
        (result = .lt ↔ x.toEReal < y.toEReal ∨ x = .negativeZero ∧ y = .zero) ∧
        (result = .eq ↔ x.toBits = y.toBits)) ∧
      ∀ (other : Metric) (a' b' : Table), other.reading.float? a' = some x →
        other.reading.float? b' = some y →
        (ascendingBy other encoding).compare a' b' = (ascendingBy metric encoding).compare a b) ∧
    (metric.reading.isLatency = false →
      (x.isNaN = true → y.isNaN = false →
        (ascendingBy metric encoding).compare a b = .ok (if x.negative then .lt else .gt)) ∧
      (x.isNaN = false → y.isNaN = true →
        (ascendingBy metric encoding).compare a b = .ok (if y.negative then .gt else .lt))) ∧
    (metric.reading.isLatency = true →
      (x.isNaN = true →
        (ascendingBy metric encoding).compare a b = .ok (if y.isNaN then .eq else .lt)) ∧
      (x.isNaN = false → y.isNaN = true →
        (ascendingBy metric encoding).compare a b = .ok .gt)) := by
  refine ⟨fun numberX numberY => ⟨⟨x.compareTotal y, ?compared, ?below, ?level⟩, ?alike⟩,
    fun noLatency => ⟨?beyond, ?within⟩, fun latency => ⟨?missing, ?known⟩⟩
  case compared => exact compare_of_float? readA readB (fun _ => numberX) fun _ => numberY
  case below => exact Binary64.compareTotal_eq_lt_iff numberX numberY
  case level => rw [Binary64.compareTotal_eq_eq, Binary64.toBits_inj]
  case alike =>
    intro other a' b' readA' readB'
    rw [compare_of_float? readA readB (fun _ => numberX) fun _ => numberY,
      compare_of_float? readA' readB' (fun _ => numberX) fun _ => numberY]
  case beyond => exact compare_of_isNaN noLatency readA readB
  case within =>
    intro numberX nanY
    rw [compare_swap_iff, compare_of_isNaN noLatency readB readA nanY numberX]
    cases y.negative <;> rfl
  case missing =>
    intro nanX
    rw [compare_of_missing readA (rank_of_float? readB) latency nanX, latency, Bool.true_and]
    cases y.isNaN <;> simp
  case known =>
    intro numberX nanY
    rw [compare_swap_iff, compare_of_missing readB (rank_of_float? readA) latency nanY, numberX]
    simp

def withFloats (share latency : Binary64) : Table :=
  { Table.fresh "ks" "t" with
    repair := { percent := share, repaired := 0, unrepaired := 0, pending := 0 }
    reads := { count := 1, latency } }

/-- The zeros differ alike as shares and as latencies; a NaN comes behind one zero as a
share and in front of it as a latency. -/
theorem floats_in_numeric_order_zeros :
    let negativeZeros := withFloats .negativeZero .negativeZero
    let zeros := withFloats .zero .zero
    let nans := withFloats .nan .nan
    (ascendingBy .percentRepaired .plain).compare negativeZeros zeros = .ok .lt ∧
    (ascendingBy .readLatency .plain).compare negativeZeros zeros = .ok .lt ∧
    (ascendingBy .percentRepaired .plain).compare zeros nans = .ok .lt ∧
    (ascendingBy .readLatency .plain).compare zeros nans = .ok .gt := by
  intro negativeZeros zeros nans
  obtain ⟨result, compared, below, -⟩ :=
    ((floats_in_numeric_order .percentRepaired .plain negativeZeros zeros .negativeZero .zero
      rfl rfl).1 rfl rfl).1
  obtain rfl : result = .lt := below.mpr (.inr ⟨rfl, rfl⟩)
  have alike := ((floats_in_numeric_order .percentRepaired .plain negativeZeros zeros .negativeZero
    .zero rfl rfl).1 rfl rfl).2 .readLatency negativeZeros zeros rfl rfl
  have share := ((floats_in_numeric_order .percentRepaired .plain zeros nans .zero .nan
    rfl rfl).2.1 rfl).2 rfl rfl
  have latency := ((floats_in_numeric_order .readLatency .plain zeros nans .zero .nan
    rfl rfl).2.2 rfl).2 rfl rfl
  exact ⟨compared, alike.trans compared, share, latency⟩

end TableOrder

end TableReport
