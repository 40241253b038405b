/-!
Stable sorting by a comparison that may fail. Items are told apart by their
places in the list that is sorted, so that equal ones still count as several.
A stable sort is settled by its comparison, and sorting a list that is already
sorted stably sorts it by both comparisons, the later one going first.
-/

namespace TableReport

variable {ε α : Type}

/-- Of two items with their places in a list, the first has to come first: it is
less than the other, or it is level with it and came before it. -/
def Precedes (compare : α → α → Except ε Ordering) (p q : α × Nat) : Prop :=
  compare p.1 q.1 = .ok .lt ∨ compare p.1 q.1 = .ok .eq ∧ p.2 < q.2

/-- The second list holds the items of the first one, each as often as it stands
there, the lesser ones first and level ones in the order of the first list. -/
def StableSort (compare : α → α → Except ε Ordering) (items sorted : List α) : Prop :=
  ∃ placed : List (α × Nat),
    placed.Perm items.zipIdx ∧ placed.map (·.1) = sorted ∧ placed.Pairwise (Precedes compare)

def Oriented (compare : α → α → Except ε Ordering) : Prop :=
  ∀ x y ordering, compare x y = .ok ordering → compare y x = .ok ordering.swap

/-- Compares by one comparison, and by another one if the first does not decide. -/
def compareThen (first second : α → α → Except ε Ordering) (x y : α) : Except ε Ordering :=
  match first x y with
  | .ok .eq => second x y
  | decided => decided

theorem oriented_compareThen {first second : α → α → Except ε Ordering}
    (orientedFirst : Oriented first) (orientedSecond : Oriented second) :
    Oriented (compareThen first second) := by
  intro x y ordering compared
  unfold compareThen at *
  cases decided : first x y with
  | error fault => simp [decided] at compared
  | ok natural =>
      have swapped := orientedFirst x y natural decided
      cases natural <;> simp only [decided, Except.ok.injEq] at compared
      case eq => simpa [swapped] using orientedSecond x y ordering compared
      all_goals simp [swapped, ← compared]

theorem Precedes.asymm {compare : α → α → Except ε Ordering} (oriented : Oriented compare)
    {p q : α × Nat} (first : Precedes compare p q) (second : Precedes compare q p) : False := by
  rcases first with less | ⟨level, before⟩ <;> rcases second with less' | ⟨level', after⟩
  · simp [oriented _ _ _ less] at less'
  · simp [oriented _ _ _ less] at level'
  · simp [oriented _ _ _ level] at less'
  · omega

/-- A list has only one stable sort. -/
theorem StableSort.unique {compare : α → α → Except ε Ordering} (oriented : Oriented compare)
    {items sorted other : List α} (first : StableSort compare items sorted)
    (second : StableSort compare items other) : sorted = other := by
  obtain ⟨placed, permutation, rfl, ordered⟩ := first
  obtain ⟨placed', permutation', rfl, ordered'⟩ := second
  have same : placed = placed' :=
    List.Perm.eq_of_pairwise
      (fun p q _ _ before after => (before.asymm oriented after).elim)
      ordered ordered' (permutation.trans permutation'.symm)
  rw [same]

theorem StableSort.perm {compare : α → α → Except ε Ordering} {items sorted : List α}
    (stable : StableSort compare items sorted) : sorted.Perm items := by
  obtain ⟨placed, permutation, rfl, -⟩ := stable
  simpa using permutation.map (·.1)

theorem zipIdx_pairwise_lt (items : List α) :
    items.zipIdx.Pairwise fun p q => p.2 < q.2 := by
  have increasing : (items.zipIdx.map (·.2)).Pairwise (· < ·) := by
    rw [List.zipIdx_map_snd]
    exact List.pairwise_lt_range'
  exact List.pairwise_map.mp increasing

theorem stableSort_self (items : List α) :
    StableSort (fun _ _ => (.ok .eq : Except ε Ordering)) items items :=
  ⟨items.zipIdx, .rfl, by simp, (zipIdx_pairwise_lt items).imp fun before => .inr ⟨rfl, before⟩⟩

theorem mem_zipIdx_of_perm {placed : List (α × Nat)} {items : List α}
    (permutation : placed.Perm items.zipIdx) {p : α × Nat} (membership : p ∈ placed) :
    items[p.2]? = some p.1 :=
  List.mem_zipIdx_iff_getElem?.mp (permutation.mem_iff.mp membership)

theorem isLE_or_isLE (cmp : α → α → Ordering) [Std.OrientedCmp cmp] (x y : α) :
    (cmp x y).isLE || (cmp y x).isLE := by
  have swapped : cmp x y = (cmp y x).swap := Std.OrientedCmp.eq_swap
  cases reversed : cmp y x <;> simp [swapped, reversed]

theorem precedes_of_zipIdxLE (cmp : α → α → Ordering) [Std.OrientedCmp cmp]
    {compare : α → α → Except ε Ordering} {p q : α × Nat}
    (compared : compare p.1 q.1 = .ok (cmp p.1 q.1))
    (notBehind : List.zipIdxLE (fun x y => (cmp x y).isLE) p q) (different : p.2 ≠ q.2) :
    Precedes compare p q := by
  have swapped : cmp q.1 p.1 = (cmp p.1 q.1).swap := Std.OrientedCmp.eq_swap
  unfold List.zipIdxLE at notBehind
  cases decided : cmp p.1 q.1 with
  | lt => exact .inl (by rw [compared, decided])
  | eq =>
      have noLater : p.2 ≤ q.2 := by simpa [decided, swapped] using notBehind
      exact .inr ⟨by rw [compared, decided], Nat.lt_of_le_of_ne noLater different⟩
  | gt => simp [decided] at notBehind

theorem stableSort_mergeSort (cmp : α → α → Ordering) [Std.TransCmp cmp]
    {compare : α → α → Except ε Ordering} {items : List α}
    (agree : ∀ x ∈ items, ∀ y ∈ items, compare x y = .ok (cmp x y)) :
    StableSort compare items (items.mergeSort fun x y => (cmp x y).isLE) := by
  let le (x y : α) : Bool := (cmp x y).isLE
  have trans : ∀ x y z, le x y → le y z → le x z := fun _ _ _ => Std.TransCmp.isLE_trans
  let placed := items.zipIdx.mergeSort (List.zipIdxLE le)
  have permutation : placed.Perm items.zipIdx := List.mergeSort_perm ..
  refine ⟨placed, permutation, List.mergeSort_zipIdx, ?_⟩
  have ordered : placed.Pairwise fun p q => List.zipIdxLE le p q :=
    List.pairwise_mergeSort (List.zipIdxLE_trans trans)
      (List.zipIdxLE_total (isLE_or_isLE cmp)) _
  -- No two entries have one place, so on level items the order by places is strict.
  have apart : placed.Pairwise fun p q => p.2 ≠ q.2 := by
    rw [permutation.pairwise_iff fun different => different.symm]
    exact (zipIdx_pairwise_lt items).imp Nat.ne_of_lt
  refine (ordered.and apart).imp_of_mem ?_
  intro p q memberP memberQ ⟨notBehind, different⟩
  have compared : compare p.1 q.1 = .ok (cmp p.1 q.1) :=
    agree _ (List.mem_of_getElem? (mem_zipIdx_of_perm permutation memberP))
      _ (List.mem_of_getElem? (mem_zipIdx_of_perm permutation memberQ))
  exact precedes_of_zipIdxLE cmp compared notBehind different

theorem pairwise_getElem? {β : Type} {entries : List β} {R : β → β → Prop}
    (ordered : entries.Pairwise R) {i j : Nat} (before : i < j) {x y : β}
    (first : entries[i]? = some x) (second : entries[j]? = some y) : R x y := by
  obtain ⟨_, rfl⟩ := List.getElem?_eq_some_iff.mp first
  obtain ⟨_, rfl⟩ := List.getElem?_eq_some_iff.mp second
  exact List.pairwise_iff_getElem.mp ordered i j _ _ before

/-- Sorting stably what is sorted stably already: the later comparison goes first,
and the earlier one decides where the later one does not. -/
theorem StableSort.andThen {first second : α → α → Except ε Ordering}
    {items middle sorted : List α} (earlier : StableSort first items middle)
    (later : StableSort second middle sorted) :
    StableSort (compareThen second first) items sorted := by
  obtain ⟨placed, permutation, rfl, ordered⟩ := earlier
  obtain ⟨moved, permutation', rfl, ordered'⟩ := later
  -- The places of `moved` are places in `placed`; there it is written where the item came from.
  let origin (p : α × Nat) : α × Nat := (placed[p.2]?).getD p
  have origin_eq {p : α × Nat} (membership : p ∈ moved) :
      placed[p.2]? = some (origin p) ∧ (origin p).1 = p.1 := by
    have found := mem_zipIdx_of_perm permutation' membership
    rw [List.getElem?_map, Option.map_eq_some_iff] at found
    obtain ⟨entry, atPlace, sameItem⟩ := found
    simp [origin, atPlace, sameItem]
  refine ⟨moved.map origin, ?_, ?_, ?_⟩
  · have restored : (placed.map (·.1)).zipIdx.map origin = placed :=
      List.ext_getElem (by simp) fun place _ inside => by simp [origin, inside]
    have permutation' := permutation'.map origin
    rw [restored] at permutation'
    exact permutation'.trans permutation
  · rw [List.map_map]
    exact List.map_congr_left fun p membership => (origin_eq membership).2
  · rw [List.pairwise_map]
    refine ordered'.imp_of_mem ?_
    intro p q memberP memberQ precedes
    obtain ⟨atP, itemP⟩ := origin_eq memberP
    obtain ⟨atQ, itemQ⟩ := origin_eq memberQ
    unfold Precedes compareThen
    rw [itemP, itemQ]
    rcases precedes with less | ⟨level, before⟩
    · simp [less]
    · have precedes : Precedes first (origin p) (origin q) :=
        pairwise_getElem? ordered before atP atQ
      simpa [level, Precedes, itemP, itemQ] using precedes

end TableReport
