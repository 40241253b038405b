import TableReport.Proofs.Report.Selection
import TableReport.Proofs.Snapshot.RoundTrip
import TableReport.Proofs.Table.Written
import TableReport.Report.Document

/-!
Reports as JSON hold all of their tables. A table of a report has its members
sorted and its full name among them; reading goes by names and passes over the
one it does not know, so the table comes back as from its own JSON form. Nothing is
lost on the way but what the reading of decimals changes.
-/

namespace TableReport

open Json

variable {reading : FloatReading} {comesBack : Table → Table → Prop}

section Sorted

variable {members : List (String × Value)} {name : String} {value : Value}

/-- Sorting members by their names only rearranges them. -/
theorem sortedObject_eq (members : List (String × Value)) :
    ∃ sorted, Value.sortedObject members = .object sorted ∧ sorted.Perm members :=
  ⟨_, rfl, List.mergeSort_perm ..⟩

theorem member?_sortedObject (distinct : (members.map (·.1)).Nodup)
    (present : (name, value) ∈ members) :
    ((Value.sortedObject members).draft reading).member? name = some (value.draft reading) := by
  obtain ⟨sorted, sorted_eq, rearranged⟩ := sortedObject_eq members
  rw [sorted_eq]
  exact Value.member?_draft ((rearranged.map _).nodup_iff.mpr distinct)
    (rearranged.mem_iff.mpr present)

theorem writable_sortedObject (writable : ∀ member ∈ members, member.2.Writable) :
    (Value.sortedObject members).Writable := by
  obtain ⟨sorted, sorted_eq, rearranged⟩ := sortedObject_eq members
  rw [sorted_eq]
  exact Value.membersWritable_iff.mpr fun member membership =>
    writable member (rearranged.mem_iff.mp membership)

end Sorted

namespace Table

variable {table : Table}

/-- The members of the object of a table, before they are sorted. -/
def shownMembers (table : Table) : List (String × Value) :=
  record.writtenMembers table ++ [("full_name", .string table.fullName)]

/-- Every table has an object in a report, whatever floats it holds. -/
theorem writable_document (table : Table) : table.document.Writable := by
  refine writable_sortedObject ?_
  intro member membership
  rcases List.mem_append.mp membership with written | fullName
  · exact table.writable_writtenMembers member written
  · rw [List.mem_singleton.mp fullName]
    trivial

theorem fullName_unknown : "full_name" ∉ members.map (·.name) := by
  decide

theorem distinct_shownMembers (table : Table) : (table.shownMembers.map (·.1)).Nodup := by
  have names := Record.names_writtenMembers_sublist record table
  rw [shownMembers, List.map_append, List.nodup_append]
  refine ⟨distinct_names.sublist names, List.pairwise_singleton .., ?_⟩
  rintro name membership fullName singleton rfl
  rw [List.mem_singleton.mp singleton] at membership
  exact fullName_unknown (names.subset membership)

/-- The object of a table in a report is read as the table is from its own JSON form. -/
theorem document_readsAs (keeps : reading.KeepsFinite)
    (finite : table.repair.percent.isFinite = true) :
    codec.ReadsAs reading table.document (table.reread reading) := by
  obtain ⟨sorted, sorted_eq, rearranged⟩ := sortedObject_eq table.shownMembers
  rw [show table.document = .object sorted from sorted_eq]
  refine Record.readsAs_object distinct_names (restores keeps finite)
    ((rearranged.map _).nodup_iff.mpr (distinct_shownMembers table)) ?_ ?_
  · intro member membership value
    have different : member.name ≠ "full_name" := fun same =>
      fullName_unknown (same ▸ List.mem_map_of_mem membership)
    rw [rearranged.mem_iff, shownMembers, List.mem_append,
      ← @Record.mem_writtenMembers _ record distinct_names table member membership value]
    simp [different]
  · intro entry present unknown
    rcases List.mem_append.mp (rearranged.mem_iff.mp present) with written | fullName
    · obtain ⟨member, membership, writes⟩ := List.mem_filterMap.mp written
      obtain ⟨_, _, rfl⟩ := Option.map_eq_some_iff.mp writes
      exact absurd rfl (unknown member membership)
    · rw [List.mem_singleton.mp fullName]
      trivial

/-- What a report shows of a table: an object that names the table in full and that is read
as the other one. -/
structure ShownBy (table back : Table) (item : Draft) : Prop where
  read : ∀ limit, codec.read limit item = .ok back
  fullName : item.member? "full_name" = some (.string (some (table.keyspace ++ "." ++ table.name)))

theorem shownBy_document (keeps : reading.KeepsFinite) (representable : table.Representable) :
    table.ShownBy (table.mapFloats reading.reread) (table.document.draft reading) where
  read limit := by
    have reads := (document_readsAs keeps representable.percent).read limit
    rwa [reread, representable.restored_eq] at reads
  fullName := member?_sortedObject (distinct_shownMembers table)
    (List.mem_append_right _ (List.mem_singleton_self _))

end Table

/-- Two lists have the same length and related items at the same places. -/
structure ItemByItem {α β : Type} (related : α → β → Prop) (xs : List α) (ys : List β) : Prop where
  length_eq : xs.length = ys.length
  related : ∀ (place : Nat), ∀ x ∈ xs[place]?, ∀ y ∈ ys[place]?, related x y

theorem itemByItem_map {α β : Type} {related : α → β → Prop} {f : β → α} {ys : List β}
    (each : ∀ y ∈ ys, related (f y) y) : ItemByItem related (ys.map f) ys where
  length_eq := List.length_map f
  related place x found y present := by
    rw [List.getElem?_map, Option.mem_def.mp present] at found
    exact Option.some.inj found ▸ each y (List.mem_of_getElem? present)

/-- A listing that shows some tables, one for each and in order. -/
def ShowsTables (comesBack : Table → Table → Prop) (listing : Option Draft) (tables : List Table) :
    Prop :=
  ∃ items, listing = some (.array items true) ∧
    ItemByItem (fun item table => ∃ back, comesBack table back ∧ table.ShownBy back item)
      items tables

/-- What comes back of each table of a listing is settled. -/
theorem ShowsTables.eq {first second : Table → Table} {listing : Option Draft} {tables : List Table}
    (shows : ShowsTables (fun table back => back = first table) listing tables)
    (again : ShowsTables (fun table back => back = second table) listing tables) :
    ∀ table ∈ tables, first table = second table := by
  intro table membership
  obtain ⟨items, rfl, shown⟩ := shows
  obtain ⟨others, same, shownAgain⟩ := again
  cases same
  obtain ⟨place, inside, present⟩ := List.getElem_of_mem membership
  have insideItems : place < items.length := shown.length_eq ▸ inside
  have item : items[place]? = some items[place] := List.getElem?_eq_getElem insideItems
  have found : tables[place]? = some table := present ▸ List.getElem?_eq_getElem inside
  obtain ⟨_, rfl, read⟩ := shown.related place _ item table found
  obtain ⟨_, rfl, readAgain⟩ := shownAgain.related place _ item table found
  exact Except.ok.inj ((read.read 0).symm.trans (readAgain.read 0))

theorem showsTables_documents (keeps : reading.KeepsFinite)
    (comes : ∀ table, comesBack table (table.mapFloats reading.reread)) {tables : List Table}
    (representable : ∀ table ∈ tables, table.Representable) :
    ShowsTables comesBack (some ((Value.array (tables.map (·.document))).draft reading))
      tables := by
  refine ⟨_, rfl, ?_⟩
  rw [Value.itemDrafts_eq_map, List.map_map]
  exact itemByItem_map fun table membership =>
    ⟨_, comes table, Table.shownBy_document keeps (representable table membership)⟩

theorem writable_documents (tables : List Table) :
    (Value.array (tables.map (·.document))).Writable := by
  refine Value.itemsWritable_iff.mpr ?_
  rintro _ membership
  obtain ⟨table, -, rfl⟩ := List.mem_map.mp membership
  exact table.writable_document

namespace Keyspace

variable {keyspace : Keyspace}

theorem document_tables (keyspace : Keyspace) :
    (keyspace.document.draft reading).member? "tables" =
      some ((Value.array (keyspace.tables.map (·.document))).draft reading) := by
  refine member?_sortedObject ?_ ?_
  · simp only [List.map_cons, List.map_nil]
    decide
  · simp

theorem writable_document (keyspace : Keyspace) : keyspace.document.Writable := by
  refine writable_sortedObject ?_
  have tables := writable_documents keyspace.tables
  simp only [List.forall_mem_cons]
  exact ⟨trivial, Value.writable_toInt _, Value.writable_real _, Value.writable_toInt _,
    Value.writable_real _, Value.writable_toInt _, tables, List.forall_mem_nil _⟩

theorem writable_documents (keyspaces : List Keyspace) :
    (Value.array (keyspaces.map (·.document))).Writable := by
  refine Value.itemsWritable_iff.mpr ?_
  rintro _ membership
  obtain ⟨keyspace, -, rfl⟩ := List.mem_map.mp membership
  exact keyspace.writable_document

theorem documents_show_tables (keeps : reading.KeepsFinite)
    (comes : ∀ table, comesBack table (table.mapFloats reading.reread)) {keyspaces : List Keyspace}
    (representable : ∀ keyspace ∈ keyspaces, keyspace.Representable) :
    ItemByItem
      (fun entry keyspace => ShowsTables comesBack (entry.member? "tables") keyspace.tables)
      (Value.itemDrafts reading (keyspaces.map (·.document))) keyspaces := by
  rw [Value.itemDrafts_eq_map, List.map_map]
  refine itemByItem_map fun keyspace membership => ?_
  simp only [Function.comp_apply, document_tables]
  exact showsTables_documents keeps comes (representable keyspace membership).tables

end Keyspace

namespace Snapshot

variable {snapshot : Snapshot} {name : String} {listing : List Value}

theorem document_listing (snapshot : Snapshot) (listing : List Value)
    (different : name ≠ "total_number_of_tables") :
    ((snapshot.document name listing).draft reading).member? name =
      some ((Value.array listing).draft reading) :=
  member?_sortedObject (by simp [different.symm]) (by simp)

theorem writable_document (writable : (Value.array listing).Writable) :
    (snapshot.document name listing).Writable := by
  refine writable_sortedObject ?_
  simp only [List.forall_mem_cons]
  exact ⟨Value.writable_toNat _, writable, List.forall_mem_nil _⟩

theorem mem_tables_of_select {options : ReportOptions} {tables : List Table}
    (selected : (snapshot.select options).result = .ok tables) :
    ∀ table ∈ tables, table ∈ snapshot.tables := by
  intro table membership
  rw [select_result] at selected
  obtain ⟨sorted, sortedAll, rfl⟩ := map_eq_ok_iff.mp selected
  exact (TableOrder.stableSort_of_sortOn sortedAll).perm.mem_iff.mp (List.mem_of_mem_take membership)

theorem Representable.of_mem_tables (representable : snapshot.Representable) :
    ∀ table ∈ snapshot.tables, table.Representable := by
  intro table membership
  obtain ⟨keyspace, keyspaceMembership, tableMembership⟩ := List.mem_flatMap.mp membership
  exact (representable keyspace keyspaceMembership).tables table tableMembership

theorem jsonReport_result (snapshot : Snapshot) (options : ReportOptions) :
    (snapshot.jsonReport options).result =
      if options.isGrouped then
        .ok (snapshot.document "keyspaces" (snapshot.keyspaces.map (·.document))).pretty
      else (snapshot.select options).result.map fun tables =>
        (snapshot.document "tables" (tables.map (·.document))).pretty := by
  unfold jsonReport
  split
  · rfl
  · cases selected : (snapshot.select options).result with
    | error fault => simp [selected, Except.bind, Except.map]
    | ok tables => simp [selected, Except.bind, Except.map]

/-- A document that holds a listing is read whole, and the listing is found in it. -/
theorem document_is_read (snapshot : Snapshot) (different : name ≠ "total_number_of_tables")
    (writable : (Value.array listing).Writable) :
    ∃ root, Document.ofTextUnder reading (snapshot.document name listing).pretty = ⟨root, true⟩ ∧
      root.wellFormed = true ∧ root.member? name = some ((Value.array listing).draft reading) :=
  ⟨_, Document.ofTextUnder_pretty (writable_document writable), Value.wellFormed_draft _,
    document_listing snapshot listing different⟩

/-- A report that shows the tables of a snapshot: those that are selected, in order, or
else those of each keyspace. -/
structure TablesShown (comesBack : Table → Table → Prop) (snapshot : Snapshot)
    (options : ReportOptions) (root : Draft) : Prop where
  selected : ∀ metric, options.metric = some metric →
    ∃ tables, (snapshot.select options).result = .ok tables ∧
      ShowsTables comesBack (root.member? "tables") tables
  grouped : options.metric = none →
    ∃ entries, root.member? "keyspaces" = some (.array entries true) ∧
      ItemByItem (fun entry keyspace =>
        ShowsTables comesBack (entry.member? "tables") keyspace.tables) entries snapshot.keyspaces

/-- The tables of a report come back as the reading of decimals has them. -/
theorem jsonReport_tablesShown (keeps : reading.KeepsFinite)
    (comes : ∀ table, comesBack table (table.mapFloats reading.reread)) {report : String}
    {options : ReportOptions} (representable : snapshot.Representable)
    (success : (snapshot.jsonReport options).result = .ok report) :
    ∃ root, Document.ofTextUnder reading report = ⟨root, true⟩ ∧ root.wellFormed = true ∧
      snapshot.TablesShown comesBack options root := by
  rw [jsonReport_result] at success
  cases chosen : options.metric with
  | none =>
      rw [if_pos (by simp [ReportOptions.isGrouped, chosen])] at success
      cases success
      obtain ⟨root, document, wellFormed, listing⟩ := @document_is_read reading _ _ snapshot
        (show "keyspaces" ≠ "total_number_of_tables" by decide)
        (Keyspace.writable_documents snapshot.keyspaces)
      refine ⟨root, document, wellFormed, fun _ other => ?_, fun _ => ⟨_, listing, ?_⟩⟩
      · exact nomatch chosen.symm.trans other
      · exact Keyspace.documents_show_tables keeps comes representable
  | some metric =>
      rw [if_neg (by simp [ReportOptions.isGrouped, chosen])] at success
      obtain ⟨tables, selected, rfl⟩ := map_eq_ok_iff.mp success
      have selectedRepresentable : ∀ table ∈ tables, table.Representable := fun table membership =>
        representable.of_mem_tables table (mem_tables_of_select selected table membership)
      obtain ⟨root, document, wellFormed, listing⟩ := @document_is_read reading _ _ snapshot
        (show "tables" ≠ "total_number_of_tables" by decide)
        (writable_documents tables)
      refine ⟨root, document, wellFormed, fun _ _ => ⟨tables, selected, ?_⟩, fun other => ?_⟩
      · rw [listing]
        exact showsTables_documents keeps comes selectedRepresentable
      · exact nomatch chosen.symm.trans other

/-- The report on a snapshot that was read is JSON and shows its tables whole, but for finite
doubles that come back as others near to them: the tables that are selected, in order, or
else those of each keyspace. -/
theorem jsonReport_shows_tables {text report : String} {options : ReportOptions}
    (decoded : codec.decode text = .ok snapshot)
    (success : (snapshot.jsonReport options).result = .ok report) :
    ∃ root, Document.ofText report = ⟨root, true⟩ ∧ root.wellFormed = true ∧
      snapshot.TablesShown Table.ComesBackAs options root :=
  jsonReport_tablesShown FloatReading.keepsFinite_bestEffort Table.comesBackAs_reread
    (codec_yields.of_decodeUnder decoded) success

theorem select_mixed : (mixed.select mostRead).result = .ok mixed.tables := by
  have selected : (mixed.select mostRead).result.toOption = some mixed.tables := by
    decide +kernel
  exact eq_ok_of_toOption selected

theorem jsonReport_shows_tables_mixed :
    ∃ report, codec.decode mixedText = .ok mixed ∧
      (mixed.jsonReport mostRead).result = .ok report ∧
      ∃ root, Document.ofText report = ⟨root, true⟩ ∧ root.wellFormed = true ∧
        ShowsTables Table.ComesBackAs (root.member? "tables") mixed.tables := by
  have success : (mixed.jsonReport mostRead).result =
      .ok (mixed.document "tables" (mixed.tables.map (·.document))).pretty := by
    rw [jsonReport_result, if_neg (by decide), select_mixed]
    rfl
  obtain ⟨root, document, wellFormed, shown⟩ :=
    jsonReport_shows_tables decodeUnder_mixedText.2 success
  obtain ⟨tables, selected, shows⟩ := shown.selected .reads rfl
  obtain rfl := Except.ok.inj (select_mixed.symm.trans selected)
  exact ⟨_, decodeUnder_mixedText.2, success, root, document, wellFormed, shows⟩

/-- A text with more digits of a latency than the latency is written with again. -/
def driftingText : String :=
  "\x7b\"table_count\":1,\"keyspaces\":[[\"ks\",1,0,0,0.0,0.0,[" ++
  "[\"ks\",\"t\",false,null,0,\"0\",\"0\",\"0\",null,-1.0,0,0,\"0\",null,0," ++
  "1,92.328872873237628,0,null,0,100.0,0,0,0,0,0.0,\"0\"," ++
  "null,null,null,0,0,0,null,0,null,0,\"0\"]" ++
  "]]]\x7d"

/-- What `driftingText` holds. -/
def drifting : Snapshot where
  tableCount := 1
  keyspaces :=
    [ { name := "ks", readCount := 1, writeCount := 0, pendingFlushes := 0
        readTime := .zero, writeTime := .zero
        tables :=
          [ { Table.fresh "ks" "t" with
              reads := { count := 1, latency := .ofBits 0x4057150C40CEC638 } } ] } ]

theorem decode_driftingText : codec.decode driftingText = .ok drifting := by
  have decoded : (codec.decode driftingText).toOption = some drifting := by
    unfold Codec.decode Codec.decodeUnder Document.ofTextUnder driftingText
    simp only [String.toList_append, -String.reduceToList]
    decide +kernel
  exact eq_ok_of_toOption decoded

theorem select_drifting : (drifting.select mostRead).result = .ok drifting.tables := by
  have selected : (drifting.select mostRead).result.toOption = some drifting.tables := by
    decide +kernel
  exact eq_ok_of_toOption selected

/-- Not every table of a report is read from it as it is. -/
theorem jsonReport_not_lossless :
    ∃ report root, codec.decode driftingText = .ok drifting ∧
      (drifting.jsonReport mostRead).result = .ok report ∧
      (drifting.select mostRead).result = .ok drifting.tables ∧
      Document.ofText report = ⟨root, true⟩ ∧
      ¬ShowsTables (fun table back => back = table) (root.member? "tables") drifting.tables := by
  have success : (drifting.jsonReport mostRead).result =
      .ok (drifting.document "tables" (drifting.tables.map (·.document))).pretty := by
    rw [jsonReport_result, if_neg (by decide), select_drifting]
    rfl
  let reread (table back : Table) : Prop := back = table.mapFloats FloatReading.bestEffort.reread
  have comes (table : Table) : reread table (table.mapFloats FloatReading.bestEffort.reread) := rfl
  obtain ⟨root, document, -, shown⟩ := jsonReport_tablesShown FloatReading.keepsFinite_bestEffort
    comes (codec_yields.of_decodeUnder decode_driftingText) success
  obtain ⟨tables, selected, shows⟩ := shown.selected .reads rfl
  obtain rfl := Except.ok.inj (select_drifting.symm.trans selected)
  refine ⟨_, root, decode_driftingText, success, select_drifting, document, fun lossless => ?_⟩
  have same := shows.eq lossless _ List.mem_cons_self
  have latency := congrArg (·.reads.latency) same
  revert latency
  decide +kernel

end Snapshot

end TableReport
