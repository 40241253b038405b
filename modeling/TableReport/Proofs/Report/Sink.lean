import TableReport.Proofs.Report.Document
import TableReport.Proofs.Text.Lines
import TableReport.Report.Sink

/-!
Reports of both kinds on the same sink. Each piece of work appends the same text
to every sink, and so do pieces one after another; only the selection of tables
can fail, and it stands in front of all of them. Both kinds select the same tables,
so they fail together, with nothing written, or show one list.
-/

namespace TableReport

namespace Writing

variable {α : Type} {work next : Writing Unit} {first second : String} {fault : OrderFault}

/-- The work succeeds on every sink and appends the same text to each. -/
def Writes (work : Writing Unit) (text : String) : Prop :=
  ∀ sink, work.into sink = (.ok (), sink ++ text)

/-- The work fails on every sink and leaves each as it was. -/
def Refuses (work : Writing Unit) (fault : OrderFault) : Prop :=
  ∀ sink, work.into sink = (.error fault, sink)

theorem into_bind (work : Writing α) (next : α → Writing Unit) (sink : String) :
    (work >>= next).into sink =
      match work.into sink with
      | (.ok value, sink) => (next value).into sink
      | (.error fault, sink) => (.error fault, sink) := by
  unfold into
  rw [ExceptT.run_bind, StateT.run_bind]
  cases ended : work.run.run sink with
  | mk outcome after => cases outcome <;> rfl

theorem writes_put (text : String) : (put text).Writes text := fun _ => rfl

theorem writes_nothing : (pure () : Writing Unit).Writes "" := by
  intro sink
  rw [String.append_empty]
  rfl

theorem Writes.bind (writes : work.Writes first) (writesNext : next.Writes second) :
    (work >>= fun _ => next).Writes (first ++ second) := by
  intro sink
  rw [into_bind, writes sink]
  show next.into (sink ++ first) = _
  rw [writesNext, String.append_assoc]

theorem Writes.forM {each : α → Writing Unit} {text : α → String}
    (writes : ∀ item, (each item).Writes (text item)) (items : List α) :
    (items.forM each).Writes (String.join (items.map text)) := by
  induction items with
  | nil => exact writes_nothing
  | cons item rest inductionHypothesis =>
      rw [List.map_cons, String.join_cons]
      exact (writes item).bind inductionHypothesis

theorem writes_putLines (lines : List String) : (putLines lines).Writes (unlines lines) :=
  .forM (fun line => writes_put (line ++ "\n")) lines

theorem ofExcept_bind (result : Except OrderFault α) (next : α → Writing Unit) (sink : String) :
    (MonadExcept.ofExcept result >>= next : Writing Unit).into sink =
      match result with
      | .ok value => (next value).into sink
      | .error fault => (.error fault, sink) := by
  rw [into_bind]
  cases result <;> rfl

end Writing

namespace Snapshot

open Writing

variable {snapshot : Snapshot} {options : ReportOptions} {tables : List Table} {fault : OrderFault}

theorem writeText_of_isGrouped (grouped : options.isGrouped = true) :
    (snapshot.writeText options).Writes (unlines snapshot.groupedLines) := by
  unfold writeText
  rw [if_pos grouped, groupedLines, unlines_append, unlines_flatMap]
  have blocks := Writes.forM (fun keyspace : Keyspace => writes_putLines keyspace.lines)
  exact (writes_putLines _).bind (blocks _)

theorem writeText_of_select (sorted : options.isGrouped = false)
    (selected : (snapshot.select options).result = .ok tables) :
    (snapshot.writeText options).Writes (unlines (snapshot.sortedLines tables)) := by
  have blocks := Writes.forM
    (fun table : Table => writes_putLines (table.lines table.fullName "\t")) tables
  intro sink
  unfold writeText
  rw [if_neg (by simp [sorted]), ofExcept_bind, selected, sortedLines, unlines_append,
    unlines_append, unlines_flatMap, String.append_assoc]
  exact (writes_putLines _).bind (blocks.bind (writes_putLines _)) sink

/-- A selection that fails does so before the first line. -/
theorem writeText_of_select_error (sorted : options.isGrouped = false)
    (failed : (snapshot.select options).result = .error fault) :
    (snapshot.writeText options).Refuses fault := by
  intro sink
  unfold writeText
  rw [if_neg (by simp [sorted]), ofExcept_bind, failed]

theorem textReport_result (snapshot : Snapshot) (options : ReportOptions) :
    (snapshot.textReport options).result =
      if options.isGrouped then .ok (unlines snapshot.groupedLines)
      else (snapshot.select options).result.map fun tables =>
        unlines (snapshot.sortedLines tables) := by
  unfold textReport
  split
  · rfl
  · cases selected : (snapshot.select options).result with
    | error fault => simp [selected, Except.bind, Except.map]
    | ok tables => simp [selected, Except.bind, Except.map]

/-- What is written line by line is what is appended of a whole report. -/
theorem into_writeText (snapshot : Snapshot) (options : ReportOptions) (sink : String) :
    (snapshot.writeText options).into sink =
      ((snapshot.textReport options).result.map fun _ => (),
        appendReport sink (snapshot.textReport options).result) := by
  rw [textReport_result]
  split
  next grouped => exact writeText_of_isGrouped grouped sink
  next sorted =>
    have sorted : options.isGrouped = false := by simpa using sorted
    cases selected : (snapshot.select options).result with
    | error fault => exact writeText_of_select_error sorted selected sink
    | ok tables => exact writeText_of_select sorted selected sink

theorem into_writeJson (snapshot : Snapshot) (options : ReportOptions) (sink : String) :
    (snapshot.writeJson options).into sink =
      ((snapshot.jsonReport options).result.map fun _ => (),
        appendReport sink (snapshot.jsonReport options).result) := by
  rw [writeJson, ofExcept_bind]
  cases (snapshot.jsonReport options).result with
  | error fault => rfl
  | ok document => exact writes_put document sink

theorem document_tableCount {reading : Json.FloatReading} {name : String} (snapshot : Snapshot)
    (listing : List Json.Value) (different : name ≠ "total_number_of_tables") :
    ((snapshot.document name listing).draft reading).member? "total_number_of_tables" =
      some ((Json.Value.integer snapshot.tableCount.toNat).draft reading) :=
  member?_sortedObject (by simp [different.symm]) (by simp)

/-- The document of a listing is read as the table count and the objects of the listing. -/
theorem document_of_tables (reading : Json.FloatReading) (snapshot : Snapshot)
    (tables : List Table) :
    ∃ root,
      Json.Document.ofTextUnder reading
        (snapshot.document "tables" (tables.map (·.document))).pretty = ⟨root, true⟩ ∧
      root.member? "total_number_of_tables" = some (.number (.integer snapshot.tableCount.toNat)) ∧
      root.member? "tables" = some (.array (tables.map (·.document.draft reading)) true) := by
  have different : "tables" ≠ "total_number_of_tables" := by decide
  refine ⟨_, Json.Document.ofTextUnder_pretty (writable_document (writable_documents tables)),
    document_tableCount snapshot _ different, ?_⟩
  rw [document_listing snapshot _ different, Json.Value.draft, Json.Value.itemDrafts_eq_map,
    List.map_map]
  rfl

theorem unlines_sortedLines (snapshot : Snapshot) (tables : List Table) :
    unlines (snapshot.sortedLines tables) =
      "Total number of tables: " ++ integerText snapshot.tableCount.toNat ++ "\n" ++
        "----------------\n" ++
        String.join (tables.map fun table => unlines (table.lines table.fullName "\t")) ++
        "----------------\n" := by
  have head : unlines snapshot.headLines =
      "Total number of tables: " ++ integerText snapshot.tableCount.toNat ++ "\n" ++
        "----------------\n" := by
    simp [unlines, headLines, labelled, separator, String.append_assoc]
  have foot : unlines [separator] = "----------------\n" := rfl
  rw [sortedLines, unlines_append, unlines_append, unlines_flatMap, head, foot]

/-- Reports of both kinds agree. Without a metric both are written, whatever the
tables hold, and none of the other options has any effect. With a metric both are
refused for the same fault before anything is written, or both show the same
tables in the same order under the same count of tables. -/
theorem writers_agree (snapshot : Snapshot) :
    (∃ text document, ∀ options : ReportOptions, options.metric = none →
      (snapshot.writeText options).Writes text ∧ (snapshot.writeJson options).Writes document) ∧
    ∀ options : ReportOptions, options.metric ≠ none →
      (∃ fault, (snapshot.writeText options).Refuses fault ∧
        (snapshot.writeJson options).Refuses fault) ∨
      ∃ tables document, (snapshot.select options).result = .ok tables ∧
        (snapshot.writeText options).Writes
          ("Total number of tables: " ++ integerText snapshot.tableCount.toNat ++ "\n" ++
            "----------------\n" ++
            String.join (tables.map fun table => unlines (table.lines table.fullName "\t")) ++
            "----------------\n") ∧
        (snapshot.writeJson options).Writes document ∧
        ∀ reading, ∃ root, Json.Document.ofTextUnder reading document = ⟨root, true⟩ ∧
          root.member? "total_number_of_tables" =
            some (.number (.integer snapshot.tableCount.toNat)) ∧
          root.member? "tables" = some (.array (tables.map (·.document.draft reading)) true) := by
  constructor
  · refine ⟨unlines snapshot.groupedLines,
      (snapshot.document "keyspaces" (snapshot.keyspaces.map (·.document))).pretty, ?_⟩
    intro options noMetric
    have grouped : options.isGrouped = true := by simp [ReportOptions.isGrouped, noMetric]
    refine ⟨writeText_of_isGrouped grouped, fun sink => ?_⟩
    rw [into_writeJson, jsonReport_result, if_pos grouped]
    rfl
  · intro options someMetric
    have sorted : options.isGrouped = false := by
      simpa [ReportOptions.isGrouped, Option.isNone_eq_false_iff, Option.isSome_iff_ne_none] using
        someMetric
    have rendered (sink : String) := into_writeJson snapshot options sink
    simp only [jsonReport_result, sorted, Bool.false_eq_true, if_false] at rendered
    cases selected : (snapshot.select options).result with
    | error fault =>
        simp only [selected] at rendered
        exact .inl ⟨fault, writeText_of_select_error sorted selected, rendered⟩
    | ok tables =>
        simp only [selected] at rendered
        have lines := writeText_of_select sorted selected
        rw [unlines_sortedLines] at lines
        exact .inr ⟨tables, _, rfl, lines, rendered, fun reading =>
          document_of_tables reading snapshot tables⟩

theorem select_threeTables :
    (threeTables.select mostRead).result =
      .ok [ofReads "ks1" "b" 9, ofReads "ks2" "c" 9, ofReads "ks1" "a" 5] :=
  select_of_sort mostRead sort_threeTables

theorem writers_agree_threeTables :
    mostRead.metric ≠ none ∧
    ∃ document root, (threeTables.writeJson mostRead).Writes document ∧
      Json.Document.ofText document = ⟨root, true⟩ ∧
      root.member? "total_number_of_tables" = some (.number (.integer 3)) ∧
      root.member? "tables" =
        some (.array
          [(ofReads "ks1" "b" 9).document.draft .bestEffort,
            (ofReads "ks2" "c" 9).document.draft .bestEffort,
            (ofReads "ks1" "a" 5).document.draft .bestEffort] true) := by
  have sorted : mostRead.metric ≠ none := by decide
  refine ⟨sorted, ?_⟩
  rcases (writers_agree threeTables).2 mostRead sorted with
    ⟨fault, refused, -⟩ | ⟨tables, document, selected, -, written, read⟩
  · have failed := (refused "").symm.trans (writeText_of_select (by decide) select_threeTables "")
    cases congrArg Prod.fst failed
  · obtain rfl := Except.ok.inj (selected.symm.trans select_threeTables)
    obtain ⟨root, readsWhole, count, listing⟩ := read .bestEffort
    exact ⟨document, root, written, readsWhole, count, listing⟩

end Snapshot

end TableReport
