import TableReport.Text.Lines

/-!
Lines of texts. A text is read off a longer one up to the first character that it
does not have itself; for a line this character is the line break.
-/

namespace TableReport

theorem toList_unlines (lines : List String) :
    (unlines lines).toList = lines.flatMap fun line => line.toList ++ ['\n'] := by
  induction lines with
  | nil => rfl
  | cons line rest inductionHypothesis =>
      rw [unlines, List.map_cons, String.join_cons, String.toList_append, String.toList_append,
        List.flatMap_cons, ← inductionHypothesis]
      rfl

theorem unlines_append (first second : List String) :
    unlines (first ++ second) = unlines first ++ unlines second := by
  rw [unlines, List.map_append, String.join_append]
  rfl

theorem unlines_flatMap {α : Type} (lines : α → List String) (items : List α) :
    unlines (items.flatMap lines) = String.join (items.map fun item => unlines (lines item)) := by
  induction items with
  | nil => rfl
  | cons item rest inductionHypothesis =>
      rw [List.flatMap_cons, unlines_append, inductionHypothesis, List.map_cons, String.join_cons]

theorem notMem_ofList {mark : Char} {chars : List Char} (fresh : mark ∉ chars) :
    mark ∉ (String.ofList chars).toList := by
  rwa [String.toList_ofList]

/-- A text without a line break. -/
def IsLine (text : String) : Prop := '\n' ∉ text.toList

instance (text : String) : Decidable (IsLine text) := inferInstanceAs (Decidable (¬ _))

@[simp] theorem isLine_ofList {chars : List Char} : IsLine (.ofList chars) ↔ '\n' ∉ chars := by
  rw [IsLine, String.toList_ofList]

theorem IsLine.append {first second : String} (firstLine : IsLine first)
    (secondLine : IsLine second) : IsLine (first ++ second) := by
  intro membership
  rw [String.toList_append] at membership
  exact (List.mem_append.mp membership).elim firstLine secondLine

/-- Two texts in front of a mark that neither has are the same if the whole texts are. -/
theorem append_mark_inj {mark : Char} {front back : List Char} (fresh : mark ∉ front)
    {front' back' : List Char} (fresh' : mark ∉ front')
    (same : front ++ mark :: back = front' ++ mark :: back') : front = front' ∧ back = back' := by
  induction front generalizing front' with
  | nil =>
      cases front' with
      | nil => exact ⟨rfl, (List.cons.inj same).2⟩
      | cons first more =>
          obtain ⟨rfl, -⟩ := List.cons.inj same
          exact absurd List.mem_cons_self fresh'
  | cons first more inductionHypothesis =>
      cases front' with
      | nil =>
          obtain ⟨rfl, -⟩ := List.cons.inj same
          exact absurd List.mem_cons_self fresh
      | cons first' more' =>
          obtain ⟨rfl, rest⟩ := List.cons.inj same
          have ⟨fronts, backs⟩ := inductionHypothesis (List.not_mem_of_not_mem_cons fresh)
            (List.not_mem_of_not_mem_cons fresh') rest
          exact ⟨fronts ▸ rfl, backs⟩

end TableReport
