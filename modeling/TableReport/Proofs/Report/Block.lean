import TableReport.Proofs.Report.Number
import TableReport.Table.Field

/-!
Blocks of tables, read back. A line tells its label, which ends at the first colon,
and its value, which ends with the line. The labels of a block always come in one
order and are all different, so a line that is left out shows by its label, and what
the lines hold tells the table, as far as values are not rounded.
-/

namespace TableReport

section Entries

/-- An entry that can be read off its line. -/
structure Readable (entry : String × String) : Prop where
  label : ':' ∉ entry.1.toList
  value : IsLine entry.2

variable {indent : String}

theorem toList_labelled (indent label value : String) :
    (labelled indent label value).toList =
      indent.toList ++ (label.toList ++ ':' :: ' ' :: value.toList) := by
  simp [labelled]

theorem entry_eq_of_lines_eq {entry other : String × String} (readable : Readable entry)
    (otherReadable : Readable other) {rest otherRest : List Char}
    (same : (labelled indent entry.1 entry.2).toList ++ '\n' :: rest =
      (labelled indent other.1 other.2).toList ++ '\n' :: otherRest) :
    entry = other ∧ rest = otherRest := by
  simp only [toList_labelled, List.append_assoc, List.cons_append] at same
  have ⟨labels, valuesSame⟩ := append_mark_inj readable.label otherReadable.label
    (List.append_cancel_left same)
  have ⟨values, rests⟩ := append_mark_inj readable.value otherReadable.value
    (List.cons.inj valuesSame).2
  exact ⟨Prod.ext (String.toList_inj.mp labels) (String.toList_inj.mp values), rests⟩

/-- The lines of entries, with an empty one below them. -/
def blockOf (indent : String) (entries : List (String × String)) : List Char :=
  entries.flatMap (fun entry => (labelled indent entry.1 entry.2).toList ++ ['\n']) ++ ['\n']

theorem entries_eq_of_blockOf_eq {entries others : List (String × String)}
    (readable : ∀ entry ∈ entries, Readable entry)
    (othersReadable : ∀ entry ∈ others, Readable entry)
    (same : blockOf indent entries = blockOf indent others) : entries = others := by
  -- A single line break is shorter than any line of an entry.
  have longer (entry : String × String) (rest : List (String × String)) :
      blockOf indent (entry :: rest) ≠ ['\n'] := by
    intro short
    have lengths := congrArg List.length short
    simp [blockOf, labelled] at lengths
    omega
  induction entries generalizing others with
  | nil =>
      cases others with
      | nil => rfl
      | cons other rest => exact absurd same.symm (longer other rest)
  | cons entry rest inductionHypothesis =>
      cases others with
      | nil => exact absurd same (longer entry rest)
      | cons other otherRest =>
          simp only [blockOf, List.flatMap_cons, List.append_assoc, List.cons_append,
            List.nil_append] at same
          have ⟨firsts, rests⟩ := entry_eq_of_lines_eq (readable entry List.mem_cons_self)
            (othersReadable other List.mem_cons_self) same
          have tails := inductionHypothesis
            (fun e membership => readable e (List.mem_cons_of_mem entry membership))
            (fun e membership => othersReadable e (List.mem_cons_of_mem other membership)) rests
          rw [firsts, tails]

end Entries

section Slots

/-- The entries of slots: those that hold a value, under their labels. -/
def entriesOf (slots : List (String × Option String)) : List (String × String) :=
  slots.flatMap fun (label, value) => entryOf label value

theorem slot_of_mem_entriesOf {slots : List (String × Option String)} {entry : String × String}
    (membership : entry ∈ entriesOf slots) : (entry.1, some entry.2) ∈ slots := by
  obtain ⟨⟨label, value⟩, slotMembership, isEntry⟩ := List.mem_flatMap.mp membership
  obtain ⟨text, rfl, rfl⟩ := Option.map_eq_some_iff.mp (Option.mem_toList.mp isEntry)
  exact slotMembership

theorem label_mem_of_entriesOf_eq_cons {slots : List (String × Option String)}
    {label text : String} {more : List (String × String)}
    (begins : entriesOf slots = (label, text) :: more) : label ∈ slots.map (·.1) := by
  have membership : (label, text) ∈ entriesOf slots := begins ▸ List.mem_cons_self
  exact List.mem_map.mpr ⟨_, slot_of_mem_entriesOf membership, rfl⟩

/-- A slot without a value cannot be confused with the one below it. -/
theorem slots_eq_of_entriesOf_eq {slots others : List (String × Option String)}
    (labels : slots.map (·.1) = others.map (·.1)) (distinct : (slots.map (·.1)).Nodup)
    (same : entriesOf slots = entriesOf others) : slots = others := by
  induction slots generalizing others with
  | nil => exact (List.map_eq_nil_iff.mp labels.symm).symm
  | cons slot rest inductionHypothesis =>
      cases others with
      | nil => cases labels
      | cons other otherRest =>
          obtain ⟨label, value⟩ := slot
          obtain ⟨otherLabel, otherValue⟩ := other
          obtain ⟨rfl, restLabels⟩ := List.cons.inj labels
          obtain ⟨fresh, restDistinct⟩ := List.nodup_cons.mp distinct
          have recurse := inductionHypothesis restLabels restDistinct
          -- If only one of the slots holds a value, the other list would have its label
          -- again further below.
          cases value with
          | none =>
              cases otherValue with
              | none => rw [recurse same]
              | some text =>
                  have begins : entriesOf rest = (label, text) :: entriesOf otherRest := same
                  exact absurd (label_mem_of_entriesOf_eq_cons begins) fresh
          | some text =>
              cases otherValue with
              | none =>
                  have begins : entriesOf otherRest = (label, text) :: entriesOf rest := same.symm
                  rw [restLabels] at fresh
                  exact absurd (label_mem_of_entriesOf_eq_cons begins) fresh
              | some otherText =>
                  obtain ⟨texts, rests⟩ := List.cons.inj same
                  cases texts
                  rw [recurse rests]

end Slots

/-- The texts that a value holds. -/
def FieldValue.texts : FieldValue → List String
  | .text s => [s]
  | .levels names => names.getD []
  | .offHeap s => s.toList
  | .flag _ | .quantity _ | .count _ | .float _ => []

namespace Table

variable {table other : Table}

/-- The texts that the fields of a table hold. -/
def texts (table : Table) : List String := table.fields.flatMap fun (_, value) => value.texts

/-- The label of the line that names the table. -/
def heading (table : Table) : String := if table.isIndex then "Table (index)" else "Table"

/-- The lines below that one: the labels are the same for all tables. -/
def slots (table : Table) : List (String × Option String) :=
  [ ("SSTable count", some (quantityText table.sstables)),
    ("SSTables in each level",
      table.levels.map fun levels => "[" ++ ", ".intercalate levels ++ "]"),
    ("Space used (live)", some table.spaceLive),
    ("Space used (total)", some table.spaceTotal),
    ("Space used by snapshots (total)", some table.spaceSnapshots),
    ("Off heap memory used (total)", table.offHeapTotal),
    ("SSTable Compression Ratio", some (quantityText table.compressionRatio)),
    ("Number of partitions (estimate)", some (quantityText table.partitions)),
    ("Memtable cell count", some (quantityText table.memtable.cells)),
    ("Memtable data size", some table.memtable.dataSize),
    ("Memtable off heap memory used", table.memtable.offHeap),
    ("Memtable switch count", some (quantityText table.memtable.switches)),
    ("Local read count", some (integerText table.reads.count.toInt)),
    ("Local read latency", some (latencyText table.reads.latency)),
    ("Local write count", some (integerText table.writes.count.toInt)),
    ("Local write latency", some (latencyText table.writes.latency)),
    ("Pending flushes", some (quantityText table.pendingFlushes)),
    ("Percent repaired", some (hundredthsText table.repair.percent)),
    ("Bloom filter false positives", some (quantityText table.bloom.falsePositives)),
    ("Bloom filter false ratio", some (ratioText table.bloom.falseRatio)),
    ("Bloom filter space used", some table.bloom.space),
    ("Bloom filter off heap memory used", table.bloom.offHeap),
    ("Index summary off heap memory used", table.indexSummaryOffHeap),
    ("Compression metadata off heap memory used", table.compressionOffHeap),
    ("Compacted partition minimum bytes", some (integerText table.compacted.minimum.toInt)),
    ("Compacted partition maximum bytes", some (integerText table.compacted.maximum.toInt)),
    ("Compacted partition mean bytes", some (integerText table.compacted.mean.toInt)),
    ("Average live cells per slice (last five minutes)",
      some (reportStyle.text table.liveCells.average)),
    ("Maximum live cells per slice (last five minutes)",
      some (integerText table.liveCells.maximum.toInt)),
    ("Average tombstones per slice (last five minutes)",
      some (reportStyle.text table.tombstones.average)),
    ("Maximum tombstones per slice (last five minutes)",
      some (integerText table.tombstones.maximum.toInt)),
    ("Dropped Mutations", some table.droppedMutations) ]

theorem entries_eq (table : Table) (name : String) :
    table.entries name = (table.heading, name) :: entriesOf table.slots := by
  simp [entries, heading, slots, entriesOf, entryOf]

theorem slotLabels_eq (table other : Table) :
    table.slots.map (·.1) = other.slots.map (·.1) := by
  simp only [slots, List.map_cons, List.map_nil]

theorem distinct_slotLabels (table : Table) : (table.slots.map (·.1)).Nodup := by
  simp [slots]

theorem colon_notMem_slotLabels (table : Table) : ∀ slot ∈ table.slots, ':' ∉ slot.1.toList := by
  simp only [slots, List.forall_mem_cons]
  and_intros
  all_goals first
    | apply notMem_ofList
      decide
    | exact List.forall_mem_nil _

theorem isLine_intercalate {separator : String} (separatorLine : IsLine separator)
    {texts : List String} (lines : ∀ text ∈ texts, IsLine text) :
    IsLine (separator.intercalate texts) := by
  induction texts with
  | nil => exact List.not_mem_nil
  | cons text rest inductionHypothesis =>
      have ⟨first, others⟩ := List.forall_mem_cons.mp lines
      cases rest with
      | nil => rwa [String.intercalate_singleton]
      | cons next more =>
          rw [String.intercalate_cons_cons]
          exact (first.append separatorLine).append (inductionHypothesis others)

theorem isLine_slots (plain : ∀ text ∈ table.texts, IsLine text) :
    ∀ slot ∈ table.slots, ∀ text ∈ slot.2, IsLine text := by
  simp only [texts, fields, FieldValue.texts, List.flatMap_cons, List.flatMap_nil,
    List.cons_append, List.nil_append, List.append_nil, List.forall_mem_cons,
    List.forall_mem_append, Option.mem_toList] at plain
  obtain ⟨-, -, levels, live, total, snapshots, offHeap, dataSize, memtable, space, bloom,
    index, compression, dropped, -⟩ := plain
  have joined : ∀ text ∈ table.levels.map fun levels => "[" ++ ", ".intercalate levels ++ "]",
      IsLine text := by
    intro text membership
    obtain ⟨names, present, rfl⟩ := Option.map_eq_some_iff.mp membership
    rw [present] at levels
    have opening : IsLine "[" := by decide
    exact (opening.append (isLine_intercalate (by decide) levels)).append (by decide)
  simp only [slots, List.forall_mem_cons, Option.mem_some, forall_eq', isLine_quantityText,
    isLine_integerText, isLine_latencyText, isLine_floatText, hundredthsText, isLine_ratioText,
    live, total, snapshots, dataSize, space, dropped, true_and]
  exact ⟨joined, offHeap, memtable, bloom, index, compression, List.forall_mem_nil _⟩

/-- The entries of a table without line breaks can be read off their lines. -/
theorem readable_entries (plain : ∀ text ∈ table.texts, IsLine text) {name : String}
    (nameLine : IsLine name) : ∀ entry ∈ table.entries name, Readable entry := by
  rw [entries_eq]
  intro entry membership
  rcases List.mem_cons.mp membership with rfl | below
  · refine ⟨?_, nameLine⟩
    unfold heading
    split
    all_goals
      apply notMem_ofList
      decide
  · have slot := slot_of_mem_entriesOf below
    exact ⟨colon_notMem_slotLabels table _ slot, isLine_slots plain _ slot _ rfl⟩

theorem toList_unlines_lines (table : Table) (name indent : String) :
    (unlines (table.lines name indent)).toList = blockOf indent (table.entries name) := by
  rw [toList_unlines, lines, List.flatMap_append, List.flatMap_map]
  rfl

/-- The table without what its block does not tell: its names, of which only one stands over
the block; the latencies, the percentage, the ratio and the levels, which are rounded or run
together there; and the repaired sizes, which are missing. Of a NaN it tells nothing but that
it is one. -/
def shown (table : Table) : Table := { table with
  keyspace := ""
  name := ""
  levels := table.levels.map fun _ => []
  sstables := table.sstables.map (·.canonical)
  compressionRatio := table.compressionRatio.map (·.canonical)
  partitions := table.partitions.map (·.canonical)
  memtable.cells := table.memtable.cells.map (·.canonical)
  memtable.switches := table.memtable.switches.map (·.canonical)
  reads.latency := .nan
  writes.latency := .nan
  pendingFlushes := table.pendingFlushes.map (·.canonical)
  repair := { percent := .nan, repaired := 0, unrepaired := 0, pending := 0 }
  bloom.falsePositives := table.bloom.falsePositives.map (·.canonical)
  bloom.falseRatio := none
  liveCells.average := table.liveCells.average.canonical
  tombstones.average := table.tombstones.average.canonical }

theorem shown_eq_of_slots_eq (sameIndex : table.isIndex = other.isIndex)
    (same : table.slots = other.slots) : table.shown = other.shown := by
  simp only [slots, List.cons.injEq, Prod.mk.injEq, Option.some.injEq, true_and, integerText_inj]
    at same
  obtain ⟨sstables, levels, live, total, snapshots, offHeap, ratio, partitions, cells, dataSize,
    memtableOffHeap, switches, readCount, -, writeCount, -, flushes, -, positives, -, space,
    bloomOffHeap, index, compression, minimum, maximum, mean, liveAverage, liveMaximum,
    tombstoneAverage, tombstoneMaximum, dropped, -⟩ := same
  have presence : (table.levels.map fun _ => ([] : List String)) =
      other.levels.map fun _ => [] := by
    have forgotten := congrArg (Option.map fun _ => ([] : List String)) levels
    rwa [Option.map_map, Option.map_map] at forgotten
  have compacted : table.compacted = other.compacted := by
    change PartitionSizes.mk table.compacted.minimum table.compacted.maximum
      table.compacted.mean = _
    rw [minimum, maximum, mean]
  simp only [shown, sameIndex, presence, compacted, live, total, snapshots, offHeap, dataSize,
    memtableOffHeap, readCount, writeCount, space, bloomOffHeap, index, compression, liveMaximum,
    tombstoneMaximum, dropped, canonical_eq_of_quantityText_eq sstables,
    canonical_eq_of_quantityText_eq ratio, canonical_eq_of_quantityText_eq partitions,
    canonical_eq_of_quantityText_eq cells, canonical_eq_of_quantityText_eq switches,
    canonical_eq_of_quantityText_eq flushes, canonical_eq_of_quantityText_eq positives,
    canonical_eq_of_floatText_eq liveAverage, canonical_eq_of_floatText_eq tombstoneAverage]

theorem isIndex_eq_of_heading_eq (same : table.heading = other.heading) :
    table.isIndex = other.isIndex := by
  unfold heading at same
  cases left : table.isIndex <;> cases right : other.isIndex
  all_goals simp [left, right] at same ⊢

/-- The name that a table is shown by, alone or behind its keyspace. -/
def IsShownAs (table : Table) (name : String) : Prop := name = table.name ∨ name = table.fullName

theorem isLine_of_isShownAs (plain : ∀ text ∈ table.texts, IsLine text) {name : String}
    (shownAs : table.IsShownAs name) : IsLine name := by
  have keyspaceLine : IsLine table.keyspace := plain _ (by simp [texts, fields, FieldValue.texts])
  have nameLine : IsLine table.name := plain _ (by simp [texts, fields, FieldValue.texts])
  rcases shownAs with rfl | rfl
  · exact nameLine
  · exact (keyspaceLine.append (by decide)).append nameLine

/-- Two tables without line breaks in their texts that have the same block have the same name
over it, and agree in all that a block shows. -/
theorem shown_eq_of_block_eq {name otherName indent : String}
    (plain : ∀ text ∈ table.texts, IsLine text) (otherPlain : ∀ text ∈ other.texts, IsLine text)
    (shownAs : table.IsShownAs name) (otherShownAs : other.IsShownAs otherName)
    (same : unlines (table.lines name indent) = unlines (other.lines otherName indent)) :
    name = otherName ∧ table.shown = other.shown := by
  have readable := readable_entries plain (isLine_of_isShownAs plain shownAs)
  have otherReadable := readable_entries otherPlain (isLine_of_isShownAs otherPlain otherShownAs)
  have blocks := congrArg String.toList same
  rw [toList_unlines_lines, toList_unlines_lines] at blocks
  have entries := entries_eq_of_blockOf_eq readable otherReadable blocks
  rw [entries_eq, entries_eq] at entries
  obtain ⟨firsts, rest⟩ := List.cons.inj entries
  obtain ⟨headings, names⟩ := Prod.mk.inj firsts
  have slots := slots_eq_of_entriesOf_eq (slotLabels_eq table other) (distinct_slotLabels table) rest
  exact ⟨names, shown_eq_of_slots_eq (isIndex_eq_of_heading_eq headings) slots⟩

/-- A table whose full name does not tell its keyspace, with an average that may be any NaN. -/
def dotted (keyspace name : String) (repaired : Int64) (average : Binary64) : Table :=
  { fresh keyspace name with
    repair := { percent := .ofInt 100, repaired, unrepaired := 0, pending := 0 }
    tombstones := { average, maximum := 0 } }

/-- A NaN with its sign bit set and every bit of its payload. -/
def otherNaN : Binary64 := { negative := true, magnitude := 2 ^ 63 - 1 }

theorem shown_eq_of_block_eq_dotted :
    (∀ text ∈ (dotted "a.b" "c" 0 .nan).texts, IsLine text) ∧
      (∀ text ∈ (dotted "a" "b.c" 7 otherNaN).texts, IsLine text) ∧
      (dotted "a.b" "c" 0 .nan).IsShownAs "a.b.c" ∧
      (dotted "a" "b.c" 7 otherNaN).IsShownAs "a.b.c" ∧
      unlines ((dotted "a.b" "c" 0 .nan).lines "a.b.c" "\t") =
        unlines ((dotted "a" "b.c" 7 otherNaN).lines "a.b.c" "\t") ∧
      (dotted "a.b" "c" 0 .nan).shown = (dotted "a" "b.c" 7 otherNaN).shown := by
  have plain : ∀ text ∈ (dotted "a.b" "c" 0 .nan).texts, IsLine text := by decide
  have otherPlain : ∀ text ∈ (dotted "a" "b.c" 7 otherNaN).texts, IsLine text := by decide
  have shownAs : (dotted "a.b" "c" 0 .nan).IsShownAs "a.b.c" := .inr (by decide)
  have otherShownAs : (dotted "a" "b.c" 7 otherNaN).IsShownAs "a.b.c" := .inr (by decide)
  have averages : reportStyle.text otherNaN = reportStyle.text .nan := by decide
  have same : unlines ((dotted "a.b" "c" 0 .nan).lines "a.b.c" "\t") =
      unlines ((dotted "a" "b.c" 7 otherNaN).lines "a.b.c" "\t") := by
    simp only [lines, entries, dotted, fresh, averages, Bool.false_eq_true, if_false]
  exact ⟨plain, otherPlain, shownAs, otherShownAs, same,
    (shown_eq_of_block_eq plain otherPlain shownAs otherShownAs same).2⟩

end Table

end TableReport
