import Mathlib.Data.List.TakeDrop
import TableReport.Folder
import TableReport.Proofs.Outcome

/-!
What reading and writing do to a folder. A path only leads to names behind which
everything above is a directory, so a text that is put there hides nothing else,
and directories stay what they are. Hence a written path still leads to the same
place, and no other place has changed.
-/

namespace TableReport

theorem splitPath_ne_nil (path : List Char) : splitPath path ≠ [] := by
  cases path with
  | nil => simp [splitPath]
  | cons c rest =>
      unfold splitPath
      split
      · simp
      · split <;> simp

theorem pathNames_ne_nil (path : String) : pathNames path ≠ [] := by
  simp [pathNames, splitPath_ne_nil]

namespace Folder

variable {folder after : Folder} {path content : String} {names outer : List String}
  {place next directory : Place} {name : String}

/-- The place that a path leads to. -/
def locate (folder : Folder) (path : String) : Except FileFault Place := do
  checkPath path
  folder.followAll (.start path) (pathNames path)

/-- The text at a place. -/
def textAt (folder : Folder) (place : Place) : Except FileFault String :=
  match folder.entry? place with
  | none => .error .notFound
  | some .directory => .error .isDirectory
  | some .garbled => .error .notText
  | some (.text content) => .ok content

theorem read_eq (folder : Folder) (path : String) :
    folder.read path = folder.locate path >>= folder.textAt := by
  unfold read locate
  rw [bind_assoc]
  rfl

theorem textAt_eq_ok_iff :
    folder.textAt place = .ok content ↔ folder.entry? place = some (.text content) := by
  unfold textAt
  split <;> simp_all

theorem read_eq_ok_iff :
    folder.read path = .ok content ↔
      ∃ place, folder.locate path = .ok place ∧ folder.entry? place = some (.text content) := by
  simp only [read_eq, bind_eq_ok_iff, textAt_eq_ok_iff]

theorem checkDirectory_eq_ok_iff :
    folder.checkDirectory place = .ok () ↔ folder.entry? place = some .directory := by
  unfold checkDirectory
  split <;> simp_all

/-- A step along a path starts in a directory; it stays there, goes up, or goes
down to the name. -/
theorem follow_cases (followed : folder.follow place name = .ok next) :
    folder.entry? place = some .directory ∧
      (next = place ∨ next = place.parent ∨ next = place.child name) := by
  unfold follow at followed
  obtain ⟨⟨⟩, isDirectory, stepped⟩ := bind_eq_ok_iff.mp followed
  refine ⟨checkDirectory_eq_ok_iff.mp isDirectory, ?_⟩
  split at stepped
  · exact .inl (Except.ok.inj stepped).symm
  · split at stepped
    · exact .inr (.inl (Except.ok.inj stepped).symm)
    · split at stepped
      · cases stepped
      · exact .inr (.inr (Except.ok.inj stepped).symm)

theorem follow_empty (followed : folder.follow place "" = .ok next) : next = place := by
  unfold follow at followed
  obtain ⟨⟨⟩, -, stepped⟩ := bind_eq_ok_iff.mp followed
  exact (Except.ok.inj stepped).symm

theorem followAll_concat :
    folder.followAll place (outer ++ [name]) =
      folder.followAll place outer >>= fun directory => folder.follow directory name := by
  simp [followAll, List.foldlM_append]

/-- Everything above the names is a directory. -/
def LeadsTo (folder : Folder) (names : List String) : Prop :=
  ∀ outer, outer <+: names → outer ≠ names → folder.entry? (.inside outer) = some .directory

/-- The place may be reached along a path. -/
def Reaches (folder : Folder) : Place → Prop
  | .inside names => folder.LeadsTo names
  | .above | .elsewhere => True

theorem LeadsTo.concat (leads : folder.LeadsTo names)
    (isDirectory : folder.entry? (.inside names) = some .directory) :
    folder.LeadsTo (names ++ [name]) := by
  intro outer above different
  by_cases last : outer = names
  · rwa [last]
  · have within : outer <+: names := (List.prefix_concat_iff.mp above).resolve_left different
    exact leads outer within last

theorem LeadsTo.dropLast (leads : folder.LeadsTo names) : folder.LeadsTo names.dropLast := by
  intro outer above different
  apply leads outer (above.trans (List.dropLast_prefix names))
  rintro rfl
  have same := above.eq_of_length_le (by simp)
  exact different same

theorem Reaches.follow (reaches : folder.Reaches place)
    (followed : folder.follow place name = .ok next) : folder.Reaches next := by
  obtain ⟨isDirectory, rfl | rfl | rfl⟩ := follow_cases followed
  · exact reaches
  · cases place with
    | above => trivial
    | elsewhere => trivial
    | inside names =>
        cases names with
        | nil => trivial
        | cons first rest => exact LeadsTo.dropLast reaches
  · cases place with
    | above => trivial
    | elsewhere => trivial
    | inside names => exact LeadsTo.concat reaches isDirectory

theorem Reaches.followAll (reaches : folder.Reaches place)
    (followed : folder.followAll place names = .ok next) : folder.Reaches next := by
  induction names generalizing place with
  | nil =>
      cases followed
      exact reaches
  | cons name rest inductionHypothesis =>
      rw [Folder.followAll, List.foldlM_cons] at followed
      obtain ⟨middle, first, others⟩ := bind_eq_ok_iff.mp followed
      exact inductionHypothesis (reaches.follow first) others

theorem reaches_start (folder : Folder) (path : String) : folder.Reaches (.start path) := by
  unfold Place.start
  split
  · trivial
  · intro outer above different
    exact absurd (List.prefix_nil.mp above) different

theorem reaches_locate (located : folder.locate path = .ok place) : folder.Reaches place := by
  obtain ⟨⟨⟩, -, followed⟩ := bind_eq_ok_iff.mp located
  exact (reaches_start folder path).followAll followed

theorem locate_eq_ok_iff (split : pathNames path = outer ++ [name]) :
    folder.locate path = .ok place ↔
      checkPath path = .ok () ∧ ∃ directory,
        folder.followAll (.start path) outer = .ok directory ∧
          folder.follow directory name = .ok place := by
  unfold locate
  rw [split, followAll_concat]
  simp only [bind_eq_ok_iff]
  constructor
  · rintro ⟨⟨⟩, checked, followed⟩
    exact ⟨checked, followed⟩
  · rintro ⟨checked, followed⟩
    exact ⟨(), checked, followed⟩

/-- A path that ends in a slash names no file. -/
theorem write_of_slash (split : pathNames path = outer ++ [""]) :
    folder.write path content ≠ .ok after := by
  have slashes : ((pathNames path).reverse.span (· == "")).1 ≠ [] := by
    simp [split, List.span_eq_takeWhile_dropWhile]
  intro written
  obtain ⟨⟨⟩, -, written⟩ := bind_eq_ok_iff.mp written
  revert slashes written
  rcases (pathNames path).reverse.span (· == "") with ⟨slashes, names⟩
  intro slashes written
  cases names with
  | nil => cases written
  | cons name rest =>
      obtain ⟨directory, -, written⟩ := bind_eq_ok_iff.mp written
      obtain ⟨⟨⟩, -, written⟩ := bind_eq_ok_iff.mp written
      rw [if_pos slashes] at written
      cases written

theorem checkDirectory_bind_follow :
    (folder.checkDirectory place >>= fun _ => folder.follow place name) =
      folder.follow place name := by
  unfold follow
  cases folder.checkDirectory place <;> rfl

/-- What writing a text makes of the place that its path leads to. -/
def putAt (folder : Folder) (content : String) (place : Place) : Except FileFault Folder :=
  match folder.entry? place, place with
  | some .directory, _ => .error .isDirectory
  | _, .inside names => .ok (folder.put names content)
  | _, _ => .error .notFound

theorem putAt_eq_ok_iff :
    folder.putAt content place = .ok after ↔
      ∃ names, place = .inside names ∧ folder.entry? place ≠ some .directory ∧
        folder.put names content = after := by
  unfold putAt
  split
  next isDirectory => simp [isDirectory]
  next names noDirectory =>
    constructor
    · intro written
      exact ⟨names, rfl, noDirectory, Except.ok.inj written⟩
    · rintro ⟨_, ⟨⟩, -, rfl⟩
      rfl
  next notInside _ =>
    refine iff_of_false (by simp) ?_
    rintro ⟨names, rfl, -⟩
    exact notInside names rfl

theorem write_of_name (split : pathNames path = outer ++ [name]) (named : name ≠ "") :
    folder.write path content = folder.locate path >>= folder.putAt content := by
  have file : (outer ++ [name]).reverse.span (· == "") = ([], name :: outer.reverse) := by
    simp [named, List.span_eq_takeWhile_dropWhile]
  unfold write locate
  rw [split, followAll_concat, bind_assoc]
  refine bind_congr fun _ => ?_
  rw [file, bind_assoc]
  show (folder.followAll _ outer.reverse.reverse >>= _) = _
  rw [List.reverse_reverse]
  refine bind_congr fun directory => ?_
  -- The step to the last name looks once more at the directory it starts in.
  rw [if_neg (by simp), ← bind_assoc, checkDirectory_bind_follow]
  rfl

/-- A text can be written where a path leads, unless a directory is there. -/
theorem write_eq_ok_iff :
    folder.write path content = .ok after ↔
      ∃ names, folder.locate path = .ok (.inside names) ∧
        folder.entry? (.inside names) ≠ some .directory ∧ folder.put names content = after := by
  obtain ⟨outer, last, split⟩ : ∃ outer last, pathNames path = outer ++ [last] :=
    ⟨_, _, (List.dropLast_concat_getLast (pathNames_ne_nil path)).symm⟩
  by_cases slash : last = ""
  · subst slash
    refine iff_of_false (write_of_slash split) ?_
    rintro ⟨names, located, noDirectory, -⟩
    obtain ⟨-, directory, -, followed⟩ := (locate_eq_ok_iff split).mp located
    obtain ⟨isDirectory, -⟩ := follow_cases followed
    rw [follow_empty followed] at noDirectory
    exact noDirectory isDirectory
  · rw [write_of_name split slash, bind_eq_ok_iff]
    simp only [putAt_eq_ok_iff]
    constructor
    · rintro ⟨_, located, names, rfl, noDirectory, written⟩
      exact ⟨names, located, noDirectory, written⟩
    · rintro ⟨names, located, noDirectory, written⟩
      exact ⟨_, located, names, rfl, noDirectory, written⟩

theorem lookup_put_of_ne (different : outer ≠ names) :
    (folder.put names content).entries.lookup outer = folder.entries.lookup outer := by
  unfold put
  rw [List.lookup_cons, beq_false_of_ne different]
  induction folder.entries with
  | nil => rfl
  | cons entry rest inductionHypothesis =>
      obtain ⟨key, value⟩ := entry
      by_cases replaced : key = names
      · subst replaced
        rw [List.filter_cons_of_neg (by simp), List.lookup_cons, beq_false_of_ne different]
        exact inductionHypothesis
      · rw [List.filter_cons_of_pos (by simp [replaced]), List.lookup_cons, List.lookup_cons]
        cases outer == key with
        | true => rfl
        | false => exact inductionHypothesis

/-- Something is stored under the names, or further down. -/
def holds (folder : Folder) (names : List String) : Bool :=
  folder.entries.any fun (other, _) => names.isPrefixOf other

theorem entry?_inside (named : names ≠ []) :
    folder.entry? (.inside names) =
      (folder.entries.lookup names).or (if folder.holds names then some .directory else none) := by
  cases names with
  | nil => contradiction
  | cons first rest =>
      unfold entry?
      dsimp only
      cases folder.entries.lookup (first :: rest) <;> rfl

theorem holds_put_iff :
    (folder.put names content).holds outer = true ↔
      outer <+: names ∨ folder.holds outer = true := by
  simp only [holds, put, List.any_cons, Bool.or_eq_true, List.isPrefixOf_iff_prefix,
    List.any_eq_true, List.mem_filter, decide_eq_true_eq]
  constructor
  · rintro (above | ⟨entry, ⟨present, -⟩, within⟩)
    · exact .inl above
    · exact .inr ⟨entry, present, within⟩
  · rintro (above | ⟨entry, present, within⟩)
    · exact .inl above
    · by_cases replaced : entry.1 = names
      · exact .inl (replaced ▸ within)
      · exact .inr ⟨entry, ⟨present, replaced⟩, within⟩

theorem entry?_put_self (folder : Folder) (content : String) (named : names ≠ []) :
    entry? (folder.put names content) (.inside names) = some (.text content) := by
  rw [entry?_inside named, put, List.lookup_cons_self]
  rfl

/-- What is put where a path may lead is seen nowhere else. A place above it was
a directory before, and only such a place could become one. -/
theorem entry?_put_of_ne (leads : folder.LeadsTo names) (content : String)
    (other : place ≠ .inside names) :
    entry? (folder.put names content) place = folder.entry? place := by
  cases place with
  | above => rfl
  | elsewhere => rfl
  | inside outer =>
      have different : outer ≠ names := fun same => other (congrArg Place.inside same)
      by_cases root : outer = []
      · subst root
        rfl
      · have above := fun within => leads outer within different
        rw [entry?_inside root] at above ⊢
        rw [entry?_inside root, lookup_put_of_ne different]
        cases found : folder.entries.lookup outer with
        | some entry => rfl
        | none =>
            have same : (folder.put names content).holds outer = folder.holds outer := by
              rw [Bool.eq_iff_iff, holds_put_iff, or_iff_right_iff_imp]
              intro within
              simpa [found] using above within
            rw [same]

/-- A text has been put into the file that a path leads to, and nothing else is
different. The file need not have been there before. -/
structure Puts (folder : Folder) (path content : String) (after : Folder) : Prop where
  file : ∃ names, folder.locate path = .ok (.inside names) ∧
    folder.entry? (.inside names) ≠ some .directory ∧
    after.entry? (.inside names) = some (.text content) ∧
    ∀ place, place ≠ .inside names → after.entry? place = folder.entry? place
  reads : after.read path = .ok content

/-- Every directory of the first folder is one of the other. -/
def DirectoriesStay (folder after : Folder) : Prop :=
  ∀ place, folder.entry? place = some .directory → after.entry? place = some .directory

theorem DirectoriesStay.follow (stay : folder.DirectoriesStay after)
    (followed : folder.follow place name = .ok next) : after.follow place name = .ok next := by
  unfold Folder.follow at followed ⊢
  obtain ⟨⟨⟩, isDirectory, stepped⟩ := bind_eq_ok_iff.mp followed
  have stillDirectory := stay place (checkDirectory_eq_ok_iff.mp isDirectory)
  exact bind_eq_ok_iff.mpr ⟨(), checkDirectory_eq_ok_iff.mpr stillDirectory, stepped⟩

theorem DirectoriesStay.followAll (stay : folder.DirectoriesStay after)
    (followed : folder.followAll place names = .ok next) :
    after.followAll place names = .ok next := by
  induction names generalizing place with
  | nil => exact followed
  | cons name rest inductionHypothesis =>
      rw [Folder.followAll, List.foldlM_cons] at followed ⊢
      obtain ⟨middle, first, others⟩ := bind_eq_ok_iff.mp followed
      exact bind_eq_ok_iff.mpr ⟨middle, stay.follow first, inductionHypothesis others⟩

theorem DirectoriesStay.locate (stay : folder.DirectoriesStay after)
    (located : folder.locate path = .ok place) : after.locate path = .ok place := by
  obtain ⟨⟨⟩, checked, followed⟩ := bind_eq_ok_iff.mp located
  exact bind_eq_ok_iff.mpr ⟨(), checked, stay.followAll followed⟩

theorem write_puts (written : folder.write path content = .ok after) :
    folder.Puts path content after := by
  obtain ⟨names, located, noDirectory, rfl⟩ := write_eq_ok_iff.mp written
  have named : names ≠ [] := by
    rintro rfl
    exact noDirectory rfl
  have stored := entry?_put_self folder content named
  have others (place : Place) (other : place ≠ .inside names) :=
    entry?_put_of_ne (reaches_locate located) content other
  have stay : folder.DirectoriesStay (folder.put names content) := by
    intro place isDirectory
    have other : place ≠ .inside names := by
      rintro rfl
      exact noDirectory isDirectory
    rw [others place other, isDirectory]
  exact ⟨⟨names, located, noDirectory, stored, others⟩,
    read_eq_ok_iff.mpr ⟨_, stay.locate located, stored⟩⟩

/-- Nothing can be put where nothing could be written. -/
theorem Puts.write (puts : folder.Puts path content after) :
    ∃ written, folder.write path content = .ok written := by
  obtain ⟨names, located, noDirectory, -⟩ := puts.file
  exact ⟨_, write_eq_ok_iff.mpr ⟨names, located, noDirectory, rfl⟩⟩

theorem write_of_read {text : String} (present : folder.read path = .ok text) (content : String) :
    ∃ after, folder.write path content = .ok after := by
  obtain ⟨place, located, stored⟩ := read_eq_ok_iff.mp present
  cases place with
  | above => cases stored
  | elsewhere => cases stored
  | inside names =>
      exact ⟨_, write_eq_ok_iff.mpr ⟨names, located, by simp [stored], rfl⟩⟩

/-- Another text in a file that was there closes and opens no way. -/
theorem Puts.locate_eq {text : String} (puts : folder.Puts path content after)
    (present : folder.read path = .ok text) : after.locate = folder.locate := by
  obtain ⟨names, located, -, stored, others⟩ := puts.file
  obtain ⟨_, found, storedBefore⟩ := read_eq_ok_iff.mp present
  obtain rfl := Except.ok.inj (located.symm.trans found)
  have check : after.checkDirectory = folder.checkDirectory := by
    funext place
    unfold checkDirectory
    by_cases other : place = .inside names
    · rw [other, stored, storedBefore]
    · rw [others place other]
  funext path
  unfold locate followAll follow
  rw [check]

theorem Puts.read_eq {text other : String} (puts : folder.Puts path content after)
    (present : folder.read path = .ok text) (apart : folder.locate other ≠ folder.locate path) :
    after.read other = folder.read other := by
  rw [Folder.read_eq, Folder.read_eq, puts.locate_eq present]
  cases found : folder.locate other with
  | error fault => rfl
  | ok place =>
      obtain ⟨names, located, -, -, others⟩ := puts.file
      have different : place ≠ .inside names := by
        rintro rfl
        exact apart (found.trans located.symm)
      show after.textAt place = folder.textAt place
      unfold textAt
      rw [others place different]

end Folder

end TableReport
