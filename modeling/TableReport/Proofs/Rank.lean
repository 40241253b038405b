import TableReport.Rank

/-!
The order of ranks. The partial comparison of ranks is a part of one total order
of them all, in which kinds follow each other and `compare?` decides inside a
kind. Comparability itself is no transitive relation, since a missing rank lies
below every kind; it is transitive through ranks that are present.
-/

namespace TableReport.Rank

def Comparable (r s : Rank) : Prop := r = .missing ∨ s = .missing ∨ r.kind = s.kind

/-- Where a rank stands among all ranks: by its kind, and inside its kind by the
number or the text that it holds. -/
def place : Rank → Nat × Int × String
  | .missing => (0, 0, "")
  | .integer n => (1, n.toInt, "")
  | .float x => (2, x.rank, "")
  | .bytes n => (3, n, "")
  | .text s => (4, 0, s)

def compareAll : Rank → Rank → Ordering :=
  compareLex (compareOn (·.place.1)) (compareLex (compareOn (·.place.2.1)) (compareOn (·.place.2.2)))

instance : Std.TransCmp compareAll := inferInstanceAs (Std.TransCmp (compareLex _ _))

theorem compareAll_eq_swap (r s : Rank) : r.compareAll s = (s.compareAll r).swap :=
  Std.OrientedCmp.eq_swap

theorem compareAll_isLE_trans {r s t : Rank} (first : (r.compareAll s).isLE)
    (second : (s.compareAll t).isLE) : (r.compareAll t).isLE :=
  Std.TransCmp.isLE_trans first second

theorem kind_eq_missing_iff {r : Rank} : r.kind = "missing" ↔ r = .missing := by
  cases r <;> simp [kind]

theorem comparable_comm {r s : Rank} : r.Comparable s ↔ s.Comparable r := by
  unfold Comparable
  grind

theorem comparable_trans {r s t : Rank} (present : s ≠ .missing)
    (first : r.Comparable s) (second : s.Comparable t) : r.Comparable t := by
  unfold Comparable at *
  grind

/-- Where two ranks can be compared, the total order says what `compare?` says. -/
theorem compare?_of_comparable {r s : Rank} (comparable : r.Comparable s) :
    r.compare? s = some (r.compareAll s) := by
  rcases comparable with missing | missing | sameKind
  · subst missing
    cases s <;> rfl
  · subst missing
    cases r <;> rfl
  · cases r <;> cases s <;> simp [kind] at sameKind
    case bytes.bytes n m =>
      have sameNumbers : compare n m = compare (n : Int) (m : Int) := by
        simp only [compare, compareOfLessAndEq, Int.ofNat_lt, Int.ofNat_inj]
      simp [compare?, compareAll, compareLex, compareOn, place, sameNumbers]
    all_goals
      simp [compare?, compareAll, compareLex, compareOn, place, Binary64.compareTotal]

theorem compare?_eq_none_iff {r s : Rank} : r.compare? s = none ↔ ¬ r.Comparable s := by
  cases r <;> cases s <;> simp [Comparable, compare?, kind]

end TableReport.Rank
