import TableReport.Proofs.Table.RoundTrip
import TableReport.Snapshot

/-!
Snapshots through JSON. A snapshot that was read has no infinities, and no NaN
but where `null` stands for one, at any level; so the text that is written of it
is read as the same snapshot again, but for floats that the reading of decimals
changes. Under a reading that rounds correctly there are none. Reading and writing a
text then brings it into a form that stays as it is.
-/

namespace TableReport

open Json Json.Codec

variable {reading : FloatReading} {change : Binary64 → Binary64}

namespace Keyspace

/-- Every float of the keyspace and of its tables is one that JSON has a number for, or the
NaN where `null` stands for it. -/
structure Representable (keyspace : Keyspace) : Prop where
  readTime : keyspace.readTime.isFinite = true
  writeTime : keyspace.writeTime.isFinite = true
  tables : ∀ table ∈ keyspace.tables, table.Representable

/-- The same keyspace with other floats. -/
def mapFloats (change : Binary64 → Binary64) (keyspace : Keyspace) : Keyspace := { keyspace with
  readTime := change keyspace.readTime
  writeTime := change keyspace.writeTime
  tables := keyspace.tables.map (·.mapFloats change) }

theorem mapFloats_eq_self (same : ∀ x, change x = x) (keyspace : Keyspace) :
    keyspace.mapFloats change = keyspace := by
  have tables : keyspace.tables.map (·.mapFloats change) = keyspace.tables :=
    List.map_id'' (fun table => Table.mapFloats_eq_self fun x _ => same x) _
  rw [mapFloats, same, same, tables]

theorem codec_readsBack (keeps : reading.KeepsFinite) {keyspace : Keyspace}
    (representable : keyspace.Representable) :
    codec.ReadsBack reading keyspace (keyspace.mapFloats reading.reread) := by
  have tables : ∀ table ∈ keyspace.tables,
      Table.codec.ReadsBack reading table (table.mapFloats reading.reread) := by
    intro table membership
    have tableRepresentable := representable.tables table membership
    have back := Table.codec_readsBack keeps tableRepresentable.percent
    rwa [Table.reread, tableRepresentable.restored_eq] at back
  exact Record.codec_readsBack (by decide) <|
    .of (text_readsBack _) <| .of (signed_readsBack _) <| .of (signed_readsBack _) <|
    .of (signed_readsBack _) <| .of (float_readsBack keeps representable.readTime) <|
    .of (float_readsBack keeps representable.writeTime) <| .of (list_readsBack tables) <| .done _

theorem codec_yields : codec.Yields Representable := by
  refine Record.codec_yields ⟨rfl, rfl, List.forall_mem_nil _⟩ ?_
  simp only [record, List.forall_mem_cons]
  refine ⟨?name, ?reads, ?writes, ?flushes, ?readTime, ?writeTime, ?tables, List.forall_mem_nil _⟩
  case readTime =>
    exact Member.of_keeps float_yields fun _ finite _ kept => ⟨finite, kept.writeTime, kept.tables⟩
  case writeTime =>
    exact Member.of_keeps float_yields fun _ finite _ kept => ⟨kept.readTime, finite, kept.tables⟩
  case tables =>
    exact Member.of_keeps (list_yields Table.codec_yields) fun _ tables _ kept =>
      ⟨kept.readTime, kept.writeTime, tables⟩
  all_goals
    exact Member.of_keeps (yields_any _) fun _ _ _ kept =>
      ⟨kept.readTime, kept.writeTime, kept.tables⟩

end Keyspace

namespace Snapshot

/-- Every float of the snapshot is one that JSON has a number for, or the NaN where `null`
stands for it. -/
def Representable (snapshot : Snapshot) : Prop :=
  ∀ keyspace ∈ snapshot.keyspaces, keyspace.Representable

/-- The same snapshot with other floats. -/
def mapFloats (change : Binary64 → Binary64) (snapshot : Snapshot) : Snapshot :=
  { snapshot with keyspaces := snapshot.keyspaces.map (·.mapFloats change) }

theorem mapFloats_eq_self (same : ∀ x, change x = x) (snapshot : Snapshot) :
    snapshot.mapFloats change = snapshot := by
  have keyspaces : snapshot.keyspaces.map (·.mapFloats change) = snapshot.keyspaces :=
    List.map_id'' (Keyspace.mapFloats_eq_self same) _
  rw [mapFloats, keyspaces]

theorem codec_readsBack (keeps : reading.KeepsFinite) {snapshot : Snapshot}
    (representable : snapshot.Representable) :
    codec.ReadsBack reading snapshot (snapshot.mapFloats reading.reread) :=
  Record.codec_readsBack (by decide) <|
    .of (unsigned_readsBack _) <|
    .of (list_readsBack fun keyspace membership =>
      Keyspace.codec_readsBack keeps (representable keyspace membership)) <| .done _

theorem codec_yields : codec.Yields Representable := by
  refine Record.codec_yields (List.forall_mem_nil _) ?_
  simp only [record, List.forall_mem_cons]
  refine ⟨?count, ?keyspaces, List.forall_mem_nil _⟩
  case count =>
    refine Member.of_keeps (yields_any _) ?_
    intro _ _ _ kept
    exact kept
  case keyspaces =>
    exact Member.of_keeps (list_yields Keyspace.codec_yields) fun _ keyspaces _ _ => keyspaces

/-- A text, read and written again. -/
def canonicalText (reading : FloatReading) (text : String) : Except Fault String :=
  (codec.decodeUnder reading text).map codec.encode

/-- Where decimals are read as the nearest double, the text that is written of a snapshot
that was read is read as the same snapshot, and is its own canonical form. -/
theorem decode_encode_of_decode (nearest : reading.IsNearest) {text : String} {snapshot : Snapshot}
    (decoded : codec.decodeUnder reading text = .ok snapshot) :
    codec.decodeUnder reading (codec.encode snapshot) = .ok snapshot ∧
      canonicalText reading text = .ok (codec.encode snapshot) ∧
      canonicalText reading (codec.encode snapshot) = .ok (codec.encode snapshot) := by
  have representable := codec_yields.of_decodeUnder decoded
  have again := Codec.decodeUnder_encode (codec_readsBack nearest.keepsFinite representable)
  rw [mapFloats_eq_self nearest.reread_eq] at again
  exact ⟨again, by rw [canonicalText, decoded]; rfl, by rw [canonicalText, again]; rfl⟩

/-- A text that is not canonical: with blanks, escapes, an unknown member and other
forms of numbers, and with its table in array form. -/
def mixedText : String :=
  "\x7b\"keyspaces\": [\x7b\"name\": \"k\\u0073\", \"x\": []," ++
  "\"read_count\":-9223372036854775808," ++
  "\"write_count\":2,\"pending_flushes\":1," ++
  "\"total_read_time_micros\":-0.0,\"tables\":[" ++
  "[\"ks\",\"t\",true,[],3.0,\"1\",\"2\",\"3\",null," ++
  "-1e0,9223372036854775808,null,\"4\",\"5\",3," ++
  "6,null,7,1e-7,-0,1e2,0,0,0,8,0.10,\"9\"," ++
  "null,null,null,0,0,0,null,0,2.5,0,\"0\"]" ++
  "]\x7d],\"table_count\":18446744073709551615\x7d"

/-- What `mixedText` holds. -/
def mixed : Snapshot where
  tableCount := 18446744073709551615
  keyspaces :=
    [ { name := "ks", readCount := -9223372036854775808, writeCount := 2, pendingFlushes := 1
        readTime := { Binary64.zero with negative := true }, writeTime := .zero
        tables :=
          [ { keyspace := "ks", name := "t", isIndex := true, levels := some []
              sstables := some (.float (.ofInt 3)), spaceLive := "1", spaceTotal := "2"
              spaceSnapshots := "3", offHeapTotal := none
              compressionRatio := some (.float (.ofInt (-1)))
              partitions := some (.float (.ofInt (2 ^ 63)))
              memtable :=
                { cells := none, dataSize := "4", offHeap := some "5"
                  switches := some (.integer 3) }
              reads := { count := 6, latency := .nan }
              writes := { count := 7, latency := .ofBits 0x3E7AD7F29ABCAF48 }
              pendingFlushes := some (.float { Binary64.zero with negative := true })
              repair := { percent := .ofInt 100, repaired := 0, unrepaired := 0, pending := 0 }
              bloom :=
                { falsePositives := some (.integer 8)
                  falseRatio := some (.float (.ofBits 0x3FB999999999999A))
                  space := "9", offHeap := none }
              indexSummaryOffHeap := none, compressionOffHeap := none
              compacted := { minimum := 0, maximum := 0, mean := 0 }
              liveCells := { average := .nan, maximum := 0 }
              tombstones := { average := .ofBits 0x4004000000000000, maximum := 0 }
              droppedMutations := "0" } ] } ]

/-- The decimals of this text are short enough for either reading. -/
theorem decodeUnder_mixedText :
    codec.decodeUnder .nearest mixedText = .ok mixed ∧ codec.decode mixedText = .ok mixed := by
  have decoded : (codec.decodeUnder .nearest mixedText).toOption = some mixed ∧
      (codec.decodeUnder .bestEffort mixedText).toOption = some mixed := by
    unfold Codec.decodeUnder Document.ofTextUnder mixedText
    simp only [String.toList_append, -String.reduceToList]
    decide +kernel
  exact ⟨eq_ok_of_toOption decoded.1, eq_ok_of_toOption decoded.2⟩

theorem decode_encode_of_decode_mixed :
    FloatReading.nearest.IsNearest ∧ codec.decodeUnder .nearest mixedText = .ok mixed ∧
      codec.decodeUnder .nearest (codec.encode mixed) = .ok mixed ∧
      canonicalText .nearest mixedText = .ok (codec.encode mixed) ∧
      canonicalText .nearest (codec.encode mixed) = .ok (codec.encode mixed) :=
  ⟨FloatReading.isNearest_nearest, decodeUnder_mixedText.1,
    decode_encode_of_decode FloatReading.isNearest_nearest decodeUnder_mixedText.1⟩

end Snapshot

end TableReport
