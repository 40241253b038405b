/-!
The order of texts is that of their characters. Where two texts are each followed by
a mark that neither of them has, what stands behind the mark decides only if they are
the same. The mark itself takes part: a text that ends early is told apart from a
longer one by it, so `ks-.` comes before `ks.`, although `ks` comes before `ks-`.
-/

namespace TableReport

theorem compare_chars (chars chars' : List Char) :
    compare chars chars' = compareOfLessAndEq chars chars' := by
  induction chars generalizing chars' with
  | nil => cases chars' <;> simp [compareOfLessAndEq, List.compare_nil_cons]
  | cons first rest inductionHypothesis =>
      cases chars' with
      | nil => simp [compareOfLessAndEq, List.compare_cons_nil]
      | cons first' rest' =>
          have less : first < first' ↔ compare first first' = .lt := compareOfLessAndEq_eq_lt.symm
          have same : first = first' ↔ compare first first' = .eq :=
            Std.LawfulEqOrd.compare_eq_iff_eq.symm
          rw [List.compare_cons_cons, inductionHypothesis]
          cases decided : compare first first' <;>
            simp [compareOfLessAndEq, List.cons_lt_cons_iff, less, same, decided]

theorem compare_toList (text text' : String) :
    compare text.toList text'.toList = compare text text' := by
  rw [compare_chars]
  simp only [compareOfLessAndEq, Ord.compare, String.compare, String.lt_iff, String.toList_inj]

theorem then_of_ne_eq : ∀ {first second : Ordering}, first ≠ .eq → first.then second = first := by
  decide

theorem compare_append_mark {mark : Char} {front : List Char} (fresh : mark ∉ front)
    {front' : List Char} (fresh' : mark ∉ front') (back back' : List Char) :
    compare (front ++ mark :: back) (front' ++ mark :: back') =
      (compare (front ++ [mark]) (front' ++ [mark])).then (compare back back') := by
  induction front generalizing front' with
  | nil =>
      cases front' with
      | nil => simp [List.compare_cons_cons]
      | cons first' more' =>
          have apart : compare mark first' ≠ .eq := by simpa using List.ne_of_not_mem_cons fresh'
          simp only [List.nil_append, List.cons_append, List.compare_cons_cons, then_of_ne_eq apart]
  | cons first more inductionHypothesis =>
      cases front' with
      | nil =>
          have apart : compare first mark ≠ .eq := by
            simpa using (List.ne_of_not_mem_cons fresh).symm
          simp only [List.nil_append, List.cons_append, List.compare_cons_cons, then_of_ne_eq apart]
      | cons first' more' =>
          have rest := inductionHypothesis (List.not_mem_of_not_mem_cons fresh)
            (List.not_mem_of_not_mem_cons fresh')
          simp only [List.cons_append, List.compare_cons_cons, rest, Ordering.then_assoc]

end TableReport
