import TableReport.Proofs.Outcome
import TableReport.Proofs.Size.Count
import TableReport.Proofs.TableOrder.Compare

/-!
Counts and magnitude. Rounding to doubles is monotone and leaves whole numbers of at
most 53 bits alone, so of two sizes that are written in the same way, or of which the
smaller one is no larger than that, the smaller one does not count more. An order by a
size does not put such a table above a larger one.
-/

namespace TableReport

open Binary64

namespace ReadableSize

variable {x y : ReadableSize} {n m : ℕ}

theorem count_le_of_bare (bareX : x.isPointed = false) (bareY : y.isPointed = false)
    (rises : x.exact ≤ y.exact) (countX : Size.bytes? .readable x.text = some n)
    (countY : Size.bytes? .readable y.text = some m) : n ≤ m := by
  obtain ⟨-, rfl⟩ := (Size.bytes?_bare_iff bareX).mp countX
  obtain ⟨-, rfl⟩ := (Size.bytes?_bare_iff bareY).mp countY
  rw [x.exact_of_bare bareX, y.exact_of_bare bareY] at rises
  exact_mod_cast rises

theorem count_le_of_pointed (pointedX : x.isPointed) (pointedY : y.isPointed)
    (rises : x.exact ≤ y.exact) (countX : Size.bytes? .readable x.text = some n)
    (countY : Size.bytes? .readable y.text = some m) : n ≤ m := by
  obtain ⟨magnitudeX, nearX⟩ := x.exists_nearestUnits
  obtain ⟨magnitudeY, nearY⟩ := y.exists_nearestUnits
  obtain ⟨-, rfl⟩ := (Size.bytes?_pointed_iff pointedX nearX).mp countX
  obtain ⟨-, rfl⟩ := (Size.bytes?_pointed_iff pointedY nearY).mp countY
  exact nearX.floor_mono nearY rises

/-- Up to `2 ^ 53` it does not matter whether an amount has a point. -/
theorem count_le_of_small (small : x.exact ≤ 2 ^ 53) (rises : x.exact ≤ y.exact)
    (countX : Size.bytes? .readable x.text = some n)
    (countY : Size.bytes? .readable y.text = some m) : n ≤ m := by
  cases formX : x.isPointed <;> cases formY : y.isPointed
  case false.false => exact count_le_of_bare formX formY rises countX countY
  case true.true => exact count_le_of_pointed formX formY rises countX countY
  case false.true =>
    obtain ⟨magnitudeY, nearY⟩ := y.exists_nearestUnits
    obtain ⟨-, rfl⟩ := (Size.bytes?_bare_iff formX).mp countX
    obtain ⟨-, rfl⟩ := (Size.bytes?_pointed_iff formY nearY).mp countY
    rw [x.exact_of_bare formX] at small rises
    obtain ⟨whole, nearWhole, floor⟩ := NearestUnits.exists_whole (by exact_mod_cast small)
    exact floor ▸ nearWhole.floor_mono nearY rises
  case true.false =>
    obtain ⟨magnitudeX, nearX⟩ := x.exists_nearestUnits
    obtain ⟨-, rfl⟩ := (Size.bytes?_pointed_iff formX nearX).mp countX
    obtain ⟨-, rfl⟩ := (Size.bytes?_bare_iff formY).mp countY
    rw [y.exact_of_bare formY] at rises
    -- The larger size may be too long for a double, but `2 ^ 53` bounds the smaller one too.
    have capped : x.exact ≤ (min (y.digits * y.unit.factor) (2 ^ 53) : ℕ) := by
      rw [Nat.cast_min]
      exact le_min rises (by exact_mod_cast small)
    obtain ⟨whole, nearWhole, floor⟩ := NearestUnits.exists_whole (Nat.min_le_right _ _)
    exact ((nearX.floor_mono nearWhole capped).trans_eq floor).trans (Nat.min_le_left _ _)

end ReadableSize

/-- The number of bytes that a size text stands for, before it is counted. -/
inductive Size.Means : SizeEncoding → String → ℚ → Prop where
  | plain {row : List Char} (isRow : IsDigitRow row) :
      Means .plain (String.ofList row) (digitsValue row)
  | readable (size : ReadableSize) : Means .readable size.text size.exact

namespace Size

variable {encoding : SizeEncoding} {textX textY : String} {valueX valueY : ℚ} {n m : ℕ}

theorem Means.count_le (meansX : Means encoding textX valueX) (meansY : Means encoding textY valueY)
    (small : valueX ≤ 2 ^ 53) (rises : valueX ≤ valueY)
    (countX : bytes? encoding textX = some n) (countY : bytes? encoding textY = some m) :
    n ≤ m := by
  cases meansX with
  | plain rowX =>
      cases meansY with
      | plain rowY =>
          rw [bytes?, String.toList_ofList] at countX countY
          obtain ⟨-, -, rfl⟩ := plain?_eq_some_iff.mp countX
          obtain ⟨-, -, rfl⟩ := plain?_eq_some_iff.mp countY
          exact_mod_cast rises
  | readable x =>
      cases meansY with
      | readable y => exact ReadableSize.count_le_of_small small rises countX countY

end Size

namespace TableOrder

variable {order : TableOrder} {x y : Table} {text textX textY : String}

/-- The size text that a table is ordered by, if there is one. -/
def sizeText? (order : TableOrder) (table : Table) : Option String :=
  match order.metric.map Metric.reading with
  | some (.size get) => some (get table)
  | some (.offHeap get) => get table
  | _ => none

/-- The first table is put on the side of the larger ones. -/
def PutsAbove (order : TableOrder) (x y : Table) : Prop :=
  order.compare x y = .ok (order.directed .gt)

theorem rank_of_sizeText? (read : order.sizeText? x = some text) :
    order.rank x = (Size.bytes order.encoding text).map .bytes := by
  unfold sizeText? at read
  unfold rank
  cases named : order.metric with
  | none => simp [named] at read
  | some metric =>
      simp only [named, Option.map_some] at read ⊢
      cases reading : metric.reading <;> simp only [reading] at read ⊢
      case size get =>
        cases read
        rfl
      case offHeap get =>
        rw [read]
        rfl
      all_goals contradiction

theorem compare_of_counts {n m : ℕ} (readX : order.sizeText? x = some textX)
    (readY : order.sizeText? y = some textY) (countX : Size.bytes order.encoding textX = .ok n)
    (countY : Size.bytes order.encoding textY = .ok m) :
    order.compare x y = .ok (order.directed (Ord.compare n m)) := by
  have rankX := rank_of_sizeText? readX
  have rankY := rank_of_sizeText? readY
  rw [countX] at rankX
  rw [countY] at rankY
  exact compare_of_ranks rankX rankY rfl

theorem exists_bytes_of_rank {r : Rank} (read : order.sizeText? x = some text)
    (ranked : order.rank x = .ok r) : ∃ n, Size.bytes order.encoding text = .ok n := by
  rw [rank_of_sizeText? read] at ranked
  obtain ⟨n, counted, -⟩ := map_eq_ok_iff.mp ranked
  exact ⟨n, counted⟩

theorem directed_injective (order : TableOrder) : Function.Injective order.directed := by
  intro first second same
  unfold directed at same
  split at same
  · exact same
  · exact Ordering.swap_inj.mp same

theorem counts_of_compare {result : Ordering} (readX : order.sizeText? x = some textX)
    (readY : order.sizeText? y = some textY) (compared : order.compare x y = .ok result) :
    ∃ n m, Size.bytes order.encoding textX = .ok n ∧ Size.bytes order.encoding textY = .ok m := by
  obtain ⟨r, s, rankX, rankY, -⟩ := compares_of_compare compared
  obtain ⟨n, countX⟩ := exists_bytes_of_rank readX rankX
  obtain ⟨m, countY⟩ := exists_bytes_of_rank readY rankY
  exact ⟨n, m, countX, countY⟩

/-- The counts of sizes that are written in the same way, or of which the smaller one
is at most `2 ^ 53`, rise with the sizes. So an order by a size does not put a table of
at most that size above a larger one. -/
theorem counts_rise_with_size :
    (∀ (x y : ReadableSize) (n m : ℕ), x.exact ≤ y.exact →
      x.isPointed = y.isPointed ∨ x.exact ≤ 2 ^ 53 →
      Size.bytes .readable x.text = .ok n → Size.bytes .readable y.text = .ok m → n ≤ m) ∧
    ∀ (order : TableOrder) (x y : Table) (textX textY : String) (valueX valueY : ℚ),
      order.sizeText? x = some textX → order.sizeText? y = some textY →
      Size.Means order.encoding textX valueX → Size.Means order.encoding textY valueY →
      valueX ≤ 2 ^ 53 → valueX < valueY →
      ¬order.PutsAbove x y ∧
        ∀ n m, Size.bytes order.encoding textX = .ok n → Size.bytes order.encoding textY = .ok m →
          ∃ result, order.compare x y = .ok result := by
  constructor
  · intro x y n m rises form countX countY
    have countX := Size.bytes?_of_bytes countX
    have countY := Size.bytes?_of_bytes countY
    by_cases small : x.exact ≤ 2 ^ 53
    · exact ReadableSize.count_le_of_small small rises countX countY
    have form := form.resolve_right small
    cases formX : x.isPointed with
    | false => exact ReadableSize.count_le_of_bare formX (form ▸ formX) rises countX countY
    | true => exact ReadableSize.count_le_of_pointed formX (form ▸ formX) rises countX countY
  · intro order x y textX textY valueX valueY readX readY meansX meansY small rises
    refine ⟨fun above => ?_, fun n m countX countY =>
      ⟨_, compare_of_counts readX readY countX countY⟩⟩
    obtain ⟨n, m, countX, countY⟩ := counts_of_compare readX readY above
    have upward := meansX.count_le meansY small rises.le (Size.bytes?_of_bytes countX)
      (Size.bytes?_of_bytes countY)
    rw [PutsAbove, compare_of_counts readX readY countX countY, Except.ok.injEq] at above
    exact Nat.not_lt.mpr upward (Nat.compare_eq_gt.mp (order.directed_injective above))

/-- A fresh table but for its live size. -/
def ofSpaceLive (text : String) : Table := { Table.fresh "ks" "t" with spaceLive := text }

def bySpaceLive : TableOrder :=
  { metric := some .spaceLive, ascending := false, encoding := .readable }

def fiveHalvesKib : ReadableSize where
  whole := ['2']
  fraction := some ['5']
  unit := .kib
  wholeRow := by decide
  fractionRow := IsDigitRow.forall_mem_some (by decide)

def threeKib : ReadableSize where
  whole := ['3']
  fraction := none
  unit := .kib
  wholeRow := by decide
  fractionRow := nofun

theorem exact_fiveHalvesKib : fiveHalvesKib.exact = 2560 := by
  have digits : fiveHalvesKib.digits = 25 := by decide
  have places : fiveHalvesKib.places = 1 := rfl
  have factor : fiveHalvesKib.unit.factor = 1024 := rfl
  rw [ReadableSize.exact, ReadableSize.amount, digits, places, factor]
  norm_num

theorem exact_threeKib : threeKib.exact = 3072 :=
  threeKib.exact_of_bare rfl

theorem counts_rise_with_size_kib :
    (2560 : ℕ) ≤ 3072 ∧ ¬bySpaceLive.PutsAbove (ofSpaceLive "2.5 KiB") (ofSpaceLive "3 KiB") ∧
      ∃ result, bySpaceLive.compare (ofSpaceLive "2.5 KiB") (ofSpaceLive "3 KiB") = .ok result := by
  have textX : fiveHalvesKib.text = "2.5 KiB" := by decide +kernel
  have textY : threeKib.text = "3 KiB" := by decide +kernel
  have countX : Size.bytes .readable "2.5 KiB" = .ok 2560 := by decide +kernel
  have countY : Size.bytes .readable "3 KiB" = .ok 3072 := by decide +kernel
  have rises : fiveHalvesKib.exact < threeKib.exact := by
    rw [exact_fiveHalvesKib, exact_threeKib]
    norm_num
  have small : fiveHalvesKib.exact ≤ 2 ^ 53 := by
    rw [exact_fiveHalvesKib]
    norm_num
  have meansX := Size.Means.readable fiveHalvesKib
  have meansY := Size.Means.readable threeKib
  rw [textX] at meansX
  rw [textY] at meansY
  obtain ⟨notAbove, compared⟩ := counts_rise_with_size.2 bySpaceLive (ofSpaceLive "2.5 KiB")
    (ofSpaceLive "3 KiB") _ _ _ _ rfl rfl meansX meansY small rises
  exact ⟨counts_rise_with_size.1 fiveHalvesKib threeKib _ _ rises.le (.inr small)
    (textX ▸ countX) (textY ▸ countY), notAbove, compared _ _ countX countY⟩

end TableOrder

end TableReport
