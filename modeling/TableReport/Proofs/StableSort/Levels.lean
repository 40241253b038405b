import TableReport.Proofs.StableSort

/-!
Levels. Items that are level with each other keep their order when a list is
sorted, and an ascending list is settled by its levels. So a sorted list can be
recognised one level at a time, which shows what becomes of it when the comparison
is turned round, when some of the items lie below all others, or when some are
chosen from it.
-/

namespace TableReport

variable {α : Type} {cmp : α → α → Ordering} {items sorted other : List α} {x : α}

/-- The items of a list that are level with one item, as they stand in the list. -/
def levelOf (cmp : α → α → Ordering) (items : List α) (x : α) : List α :=
  items.filter fun y => cmp x y == .eq

/-- No item of the list is greater than one behind it. -/
def Ascends (cmp : α → α → Ordering) (items : List α) : Prop :=
  items.Pairwise fun x y => (cmp x y).isLE

/-- Groups of level items, in ascending order. -/
structure Staggered (cmp : α → α → Ordering) (groups : List (List α)) : Prop where
  nonempty : ∀ group ∈ groups, group ≠ []
  level : ∀ group ∈ groups, ∀ x ∈ group, ∀ y ∈ group, cmp x y = .eq
  rising : groups.Pairwise fun lower upper => ∀ x ∈ lower, ∀ y ∈ upper, cmp x y = .lt

theorem mem_levelOf {y : α} : y ∈ levelOf cmp items x ↔ y ∈ items ∧ cmp x y = .eq := by
  simp [levelOf]

theorem levelOf_append (front back : List α) :
    levelOf cmp (front ++ back) x = levelOf cmp front x ++ levelOf cmp back x :=
  List.filter_append ..

theorem levelOf_reverse (items : List α) :
    levelOf cmp items.reverse x = (levelOf cmp items x).reverse :=
  List.filter_reverse

theorem levelOf_opposite [Std.OrientedCmp cmp] (items : List α) :
    levelOf (fun x y => cmp y x) items x = levelOf cmp items x := by
  apply List.filter_congr
  intro y _
  rw [Bool.eq_iff_iff, beq_iff_eq, beq_iff_eq]
  exact Std.OrientedCmp.eq_comm

/-- A choice that is the same on a whole level keeps it or leaves nothing of it. -/
theorem levelOf_filter {keep : α → Bool} {kept : Bool}
    (uniform : ∀ y ∈ items, cmp x y = .eq → keep y = kept) :
    levelOf cmp (items.filter keep) x = if kept then levelOf cmp items x else [] := by
  have onLevel : ∀ y ∈ items, (cmp x y == .eq && keep y) = (kept && cmp x y == .eq) := by
    intro y membership
    by_cases level : cmp x y = .eq
    · simp [level, uniform y membership level]
    · simp [beq_false_of_ne level]
  rw [levelOf, List.filter_filter, List.filter_congr onLevel]
  cases kept <;> simp [levelOf]

theorem Staggered.ascends {groups : List (List α)} (staggered : Staggered cmp groups) :
    Ascends cmp groups.flatten := by
  apply List.pairwise_flatten.mpr
  constructor
  · intro group membership
    apply List.pairwise_of_forall_mem_list
    intro x memberX y memberY
    simp [staggered.level group membership x memberX y memberY]
  · apply staggered.rising.imp
    intro lower upper below x memberX y memberY
    simp [below x memberX y memberY]

theorem Staggered.reverse {groups : List (List α)} (staggered : Staggered cmp groups) :
    Staggered (fun x y => cmp y x) groups.reverse where
  nonempty group membership := staggered.nonempty group (List.mem_reverse.mp membership)
  level group membership x memberX y memberY :=
    staggered.level group (List.mem_reverse.mp membership) y memberY x memberX
  rising := by
    apply List.pairwise_reverse.mpr
    apply staggered.rising.imp
    intro lower upper below x memberX y memberY
    exact below y memberY x memberX

/-- If every item that is not above a chosen one is chosen, the chosen ones stand in
front. -/
theorem Ascends.filter_prefix {keep : α → Bool} (ascends : Ascends cmp sorted)
    (lower : ∀ x ∈ sorted, ∀ y ∈ sorted, (cmp x y).isLE → keep y = true → keep x = true) :
    sorted.filter keep <+: sorted := by
  induction sorted with
  | nil => exact List.prefix_rfl
  | cons first rest inductionHypothesis =>
      obtain ⟨least, ascendsRest⟩ := List.pairwise_cons.mp ascends
      by_cases kept : keep first = true
      · rw [List.filter_cons_of_pos kept, List.prefix_cons_inj]
        exact inductionHypothesis ascendsRest fun x memberX y memberY =>
          lower x (List.mem_cons_of_mem first memberX) y (List.mem_cons_of_mem first memberY)
      · have noneKept : (first :: rest).filter keep = [] := by
          apply List.filter_eq_nil_iff.mpr
          intro x membership keptX
          rcases List.mem_cons.mp membership with rfl | inRest
          · exact kept keptX
          · exact kept (lower first List.mem_cons_self x membership (least x inRest) keptX)
        rw [noneKept]
        exact List.nil_prefix

/-- If every item between two chosen ones is chosen, the chosen ones stand next to each
other. -/
theorem Ascends.filter_infix {keep : α → Bool} (ascends : Ascends cmp sorted)
    (between : ∀ x ∈ sorted, ∀ y ∈ sorted, ∀ z ∈ sorted, (cmp x y).isLE → (cmp y z).isLE →
      keep x = true → keep z = true → keep y = true) :
    sorted.filter keep <:+: sorted := by
  induction sorted with
  | nil => exact List.infix_rfl
  | cons first rest inductionHypothesis =>
      obtain ⟨least, ascendsRest⟩ := List.pairwise_cons.mp ascends
      by_cases kept : keep first = true
      · rw [List.filter_cons_of_pos kept]
        apply List.IsPrefix.isInfix
        rw [List.prefix_cons_inj]
        apply Ascends.filter_prefix ascendsRest
        intro x memberX y memberY notAbove keptY
        exact between first List.mem_cons_self x (List.mem_cons_of_mem first memberX)
          y (List.mem_cons_of_mem first memberY) (least x memberX) notAbove kept keptY
      · rw [List.filter_cons_of_neg kept]
        apply List.infix_cons
        exact inductionHypothesis ascendsRest fun x memberX y memberY z memberZ =>
          between x (List.mem_cons_of_mem first memberX) y (List.mem_cons_of_mem first memberY)
            z (List.mem_cons_of_mem first memberZ)

variable [Std.TransCmp cmp]

theorem ascends_mergeSort (items : List α) :
    Ascends cmp (items.mergeSort fun x y => (cmp x y).isLE) :=
  List.pairwise_mergeSort (fun _ _ _ => Std.TransCmp.isLE_trans) (isLE_or_isLE cmp) items

theorem ascends_levelOf (items : List α) : Ascends cmp (levelOf cmp items x) := by
  apply List.pairwise_of_forall_mem_list
  intro y memberY z memberZ
  have levelY := (mem_levelOf.mp memberY).2
  have levelZ := (mem_levelOf.mp memberZ).2
  rw [← Std.TransCmp.congr_left levelY, levelZ]
  rfl

/-- Sorting moves no two items of a level past each other. -/
theorem levelOf_mergeSort (items : List α) :
    levelOf cmp (items.mergeSort fun x y => (cmp x y).isLE) x = levelOf cmp items x := by
  have inSorted : (levelOf cmp items x).Sublist (items.mergeSort fun x y => (cmp x y).isLE) := by
    apply List.sublist_mergeSort (fun _ _ _ => Std.TransCmp.isLE_trans) (isLE_or_isLE cmp)
    · exact ascends_levelOf items
    · exact List.filter_sublist
  have inLevel := inSorted.filter fun y => cmp x y == .eq
  have whole : (levelOf cmp items x).filter (fun y => cmp x y == .eq) = levelOf cmp items x := by
    simp [levelOf]
  rw [whole] at inLevel
  have sameLength := ((List.mergeSort_perm items fun x y => (cmp x y).isLE).filter
    fun y => cmp x y == .eq).length_eq
  exact (inLevel.eq_of_length sameLength.symm).symm

theorem Ascends.eq_of_levels (ascends : Ascends cmp sorted) (ascends' : Ascends cmp other)
    (permutation : sorted.Perm other)
    (levels : ∀ x ∈ sorted, levelOf cmp sorted x = levelOf cmp other x) : sorted = other := by
  induction sorted generalizing other with
  | nil => exact permutation.nil_eq
  | cons first rest inductionHypothesis =>
      cases other with
      | nil => exact absurd permutation.eq_nil (List.cons_ne_nil first rest)
      | cons first' rest' =>
          obtain ⟨least, ascendsRest⟩ := List.pairwise_cons.mp ascends
          obtain ⟨least', ascendsRest'⟩ := List.pairwise_cons.mp ascends'
          have self (z : α) : (cmp z z).isLE := by simp [Std.ReflCmp.compare_self]
          have below : (cmp first first').isLE := by
            rcases List.mem_cons.mp (permutation.mem_iff.mpr List.mem_cons_self) with same | inRest
            · exact same ▸ self first
            · exact least first' inRest
          have above : (cmp first' first).isLE := by
            rcases List.mem_cons.mp (permutation.mem_iff.mp List.mem_cons_self) with same | inRest
            · exact same ▸ self first
            · exact least' first inRest
          -- Both are least, so they stand on one level, and there each of them is the first.
          have level : cmp first first' = .eq := Std.OrientedCmp.isLE_antisymm below above
          have atFirst := levels first List.mem_cons_self
          simp only [levelOf, List.filter_cons, Std.ReflCmp.compare_self, level, beq_self_eq_true,
            if_true, List.cons.injEq] at atFirst
          obtain ⟨rfl, -⟩ := atFirst
          congr 1
          apply inductionHypothesis ascendsRest ascendsRest' permutation.cons_inv
          intro x membership
          have atLevel := levels x (List.mem_cons_of_mem first membership)
          by_cases onLevel : cmp x first = .eq
          · simpa [levelOf, List.filter_cons, onLevel] using atLevel
          · simpa [levelOf, List.filter_cons, onLevel] using atLevel

/-- How a sorted list is recognised by its levels. -/
theorem mergeSort_eq_of_levels (ascends : Ascends cmp sorted) (permutation : sorted.Perm items)
    (levels : ∀ x ∈ items, levelOf cmp sorted x = levelOf cmp items x) :
    items.mergeSort (fun x y => (cmp x y).isLE) = sorted := by
  have fromItems := List.mergeSort_perm items fun x y => (cmp x y).isLE
  apply (ascends_mergeSort items).eq_of_levels ascends (fromItems.trans permutation.symm)
  intro x membership
  rw [levelOf_mergeSort, levels x (fromItems.mem_iff.mp membership)]

/-- What is chosen from a sorted list is what sorting the chosen items alone gives. -/
theorem mergeSort_filter (keep : α → Bool) (items : List α) :
    (items.filter keep).mergeSort (fun x y => (cmp x y).isLE) =
      (items.mergeSort fun x y => (cmp x y).isLE).filter keep := by
  apply mergeSort_eq_of_levels
  · exact (ascends_mergeSort items).filter keep
  · exact (List.mergeSort_perm ..).filter keep
  · intro x _
    have chosen (list : List α) :
        levelOf cmp (list.filter keep) x = (levelOf cmp list x).filter keep := by
      simp only [levelOf, List.filter_filter, Bool.and_comm]
    rw [chosen, chosen, levelOf_mergeSort]

/-- Turning the comparison round turns the sorted list round, except for the order
inside of levels. -/
theorem mergeSort_opposite (items : List α) :
    items.mergeSort (fun x y => (cmp y x).isLE) =
      (items.reverse.mergeSort fun x y => (cmp x y).isLE).reverse := by
  apply mergeSort_eq_of_levels
  · exact List.pairwise_reverse.mpr (ascends_mergeSort items.reverse)
  · exact (List.reverse_perm _).trans ((List.mergeSort_perm ..).trans (List.reverse_perm items))
  · intro x _
    have sameLevel (list : List α) : levelOf (fun x y => cmp y x) list x = levelOf cmp list x :=
      levelOf_opposite list
    rw [sameLevel, sameLevel, levelOf_reverse, levelOf_mergeSort, levelOf_reverse,
      List.reverse_reverse]

/-- Where all items of one kind are less than all others, the two kinds are sorted
apart. -/
theorem mergeSort_eq_append (lower : α → Bool)
    (below : ∀ x ∈ items, ∀ y ∈ items, lower x = true → lower y = false → cmp x y = .lt) :
    items.mergeSort (fun x y => (cmp x y).isLE) =
      (items.filter lower).mergeSort (fun x y => (cmp x y).isLE) ++
        (items.filter (!lower ·)).mergeSort fun x y => (cmp x y).isLE := by
  apply mergeSort_eq_of_levels
  · apply List.pairwise_append.mpr
    refine ⟨ascends_mergeSort _, ascends_mergeSort _, ?_⟩
    intro x memberX y memberY
    obtain ⟨memberX, lowerX⟩ := List.mem_filter.mp (List.mem_mergeSort.mp memberX)
    obtain ⟨memberY, upperY⟩ := List.mem_filter.mp (List.mem_mergeSort.mp memberY)
    rw [below x memberX y memberY lowerX (by simpa using upperY)]
    rfl
  · have apart := (List.mergeSort_perm (items.filter lower) fun x y => (cmp x y).isLE).append
      (List.mergeSort_perm (items.filter (!lower ·)) fun x y => (cmp x y).isLE)
    exact apart.trans (List.filter_append_perm lower items)
  · intro x membership
    have sameKind : ∀ y ∈ items, cmp x y = .eq → lower y = lower x := by
      intro y memberY level
      cases kindX : lower x <;> cases kindY : lower y
      case true.false => simp [below x membership y memberY kindX kindY] at level
      case false.true =>
        have less := below y memberY x membership kindY kindX
        simp [Std.OrientedCmp.gt_of_lt less] at level
      all_goals rfl
    have otherKind : ∀ y ∈ items, cmp x y = .eq → (!lower y) = !lower x :=
      fun y memberY level => congrArg _ (sameKind y memberY level)
    rw [levelOf_append, levelOf_mergeSort, levelOf_mergeSort, levelOf_filter sameKind,
      levelOf_filter otherKind]
    cases lower x <;> simp

namespace Staggered

variable {groups : List (List α)} {group : List α}

/-- An item below all groups is a group of its own. -/
theorem cons {first : α} (below : ∀ y ∈ groups.flatten, cmp first y = .lt)
    (staggered : Staggered cmp groups) : Staggered cmp ([first] :: groups) where
  nonempty := List.forall_mem_cons.mpr ⟨List.cons_ne_nil _ _, staggered.nonempty⟩
  level := by
    refine List.forall_mem_cons.mpr ⟨?_, staggered.level⟩
    intro x memberX y memberY
    rw [List.mem_singleton.mp memberX, List.mem_singleton.mp memberY]
    exact Std.ReflCmp.compare_self
  rising := by
    refine List.pairwise_cons.mpr ⟨?_, staggered.rising⟩
    intro upper memberUpper x memberX y memberY
    rw [List.mem_singleton.mp memberX]
    exact below y (List.mem_flatten_of_mem memberUpper memberY)

/-- An item that is level with the lowest group joins it. -/
theorem join {first second : α} {more : List α} (level : cmp first second = .eq)
    (staggered : Staggered cmp ((second :: more) :: groups)) :
    Staggered cmp ((first :: second :: more) :: groups) := by
  obtain ⟨-, nonempty⟩ := List.forall_mem_cons.mp staggered.nonempty
  obtain ⟨levelLowest, levels⟩ := List.forall_mem_cons.mp staggered.level
  obtain ⟨above, rising⟩ := List.pairwise_cons.mp staggered.rising
  have likeSecond : ∀ x ∈ first :: second :: more, ∀ y, cmp x y = cmp second y := by
    intro x memberX y
    rcases List.mem_cons.mp memberX with rfl | memberX
    · exact Std.TransCmp.congr_left level
    · exact Std.TransCmp.congr_left (levelLowest x memberX second List.mem_cons_self)
  refine ⟨List.forall_mem_cons.mpr ⟨List.cons_ne_nil _ _, nonempty⟩,
    List.forall_mem_cons.mpr ⟨?level, levels⟩, List.pairwise_cons.mpr ⟨?rising, rising⟩⟩
  case level =>
    intro x memberX y memberY
    rw [likeSecond x memberX]
    exact Std.OrientedCmp.eq_symm ((likeSecond y memberY second).trans Std.ReflCmp.compare_self)
  case rising =>
    intro upper memberUpper x memberX y memberY
    rw [likeSecond x memberX]
    exact above upper memberUpper second List.mem_cons_self y memberY

theorem levelOf_flatten (staggered : Staggered cmp groups) (membership : group ∈ groups)
    (memberX : x ∈ group) : levelOf cmp groups.flatten x = group := by
  obtain ⟨before, after, rfl⟩ := List.append_of_mem membership
  obtain ⟨-, risingFrom, risingInto⟩ := List.pairwise_append.mp staggered.rising
  have whole : levelOf cmp group x = group := by
    apply List.filter_eq_self.mpr
    intro y memberY
    simp [staggered.level group membership x memberX y memberY]
  have noneBefore : levelOf cmp before.flatten x = [] := by
    apply List.filter_eq_nil_iff.mpr
    intro y memberY
    obtain ⟨lower, memberLower, memberY⟩ := List.mem_flatten.mp memberY
    have less := risingInto lower memberLower group List.mem_cons_self y memberY x memberX
    simp [Std.OrientedCmp.gt_of_lt less]
  have noneAfter : levelOf cmp after.flatten x = [] := by
    apply List.filter_eq_nil_iff.mpr
    intro y memberY
    obtain ⟨upper, memberUpper, memberY⟩ := List.mem_flatten.mp memberY
    simp [(List.pairwise_cons.mp risingFrom).1 upper memberUpper x memberX y memberY]
  rw [List.flatten_append, List.flatten_cons, levelOf_append, levelOf_append, whole, noneBefore,
    noneAfter, List.nil_append, List.append_nil]

/-- Each group holds all that the sorted list has on its level. -/
theorem eq_levelOf (staggered : Staggered cmp groups)
    (sorts : items.mergeSort (fun x y => (cmp x y).isLE) = groups.flatten)
    (membership : group ∈ groups) (memberX : x ∈ group) : group = levelOf cmp items x := by
  rw [← levelOf_mergeSort, sorts, staggered.levelOf_flatten membership memberX]

/-- In the opposite direction the same groups stand in opposite order. -/
theorem mergeSort_opposite (staggered : Staggered cmp groups)
    (sorts : items.mergeSort (fun x y => (cmp x y).isLE) = groups.flatten) :
    items.mergeSort (fun x y => (cmp y x).isLE) = groups.reverse.flatten := by
  have fromItems : groups.flatten.Perm items := sorts ▸ List.mergeSort_perm ..
  apply mergeSort_eq_of_levels
  · exact staggered.reverse.ascends
  · exact (List.reverse_perm groups).flatten.trans fromItems
  · intro x membership
    obtain ⟨group, memberGroup, memberX⟩ := List.mem_flatten.mp (fromItems.mem_iff.mpr membership)
    rw [staggered.reverse.levelOf_flatten (List.mem_reverse.mpr memberGroup) memberX,
      levelOf_opposite]
    exact staggered.eq_levelOf sorts memberGroup memberX

end Staggered

theorem Ascends.exists_staggered (ascends : Ascends cmp sorted) :
    ∃ groups, Staggered cmp groups ∧ groups.flatten = sorted := by
  induction sorted with
  | nil => exact ⟨[], ⟨by simp, by simp, .nil⟩, rfl⟩
  | cons first rest inductionHypothesis =>
      obtain ⟨least, ascendsRest⟩ := List.pairwise_cons.mp ascends
      obtain ⟨groups, staggered, rfl⟩ := inductionHypothesis ascendsRest
      cases groups with
      | nil => exact ⟨[[first]], staggered.cons (by simp), rfl⟩
      | cons lowest others =>
          obtain ⟨second, more, rfl⟩ :=
            List.exists_cons_of_ne_nil (staggered.nonempty lowest List.mem_cons_self)
          have notAbove : (cmp first second).isLE := least second (by simp)
          rcases Ordering.isLE_iff_eq_lt_or_eq_eq.mp notAbove with less | level
          · refine ⟨[first] :: (second :: more) :: others, staggered.cons ?_, rfl⟩
            intro y membership
            rcases List.mem_cons.mp membership with rfl | membership
            · exact less
            · have notBelow := (List.pairwise_cons.mp staggered.ascends).1 y membership
              exact Std.TransCmp.lt_of_lt_of_isLE less notBelow
          · exact ⟨(first :: second :: more) :: others, staggered.join level, rfl⟩

end TableReport
