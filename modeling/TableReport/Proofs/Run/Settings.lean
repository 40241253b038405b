import TableReport.Proofs.Report.Sink
import TableReport.Proofs.Run.Outcome
import TableReport.Proofs.Settings.Lines
import TableReport.Proofs.TableOrder.Fault

/-!
Settings and command lines. What a settings file says reaches a report only through
what it is merged to with the command line, so all of it can be said there, and
the file be emptied. Both ways the file is found at the same path and is put on
record in the same words. A file that names an unknown metric is refused when it is
loaded, so behind that point only the command line can name one.
-/

namespace TableReport

variable {read other : String → Except FileFault String} {path text content : String}
  {settings : Settings} {request : RenderRequest}

namespace RenderRequest

/-- Where the settings of a report are looked for. -/
def settingsPath (request : RenderRequest) : String :=
  request.settings.getD ("./" ++ Settings.fileName)

/-- The request with all of its settings on the command line. -/
def spellOut (request : RenderRequest) (settings : Settings) : RenderRequest :=
  { request with
    sort := request.sort.or settings.sortKey
    ascending := request.ascending || settings.ascending
    top := some (request.top.getD settings.top)
    humanReadable := request.humanReadable || settings.humanReadable
    format := some (request.format.getD settings.format) }

theorem withRequest_spellOut :
    ({} : Settings).withRequest (request.spellOut settings) = settings.withRequest request := by
  simp [Settings.withRequest, spellOut]

end RenderRequest

namespace Settings

theorem parse_result_eq_ok_iff :
    (parse path text).result = .ok settings ↔
      ofText text = .ok settings ∧ ∃ metric, Metric.ofKey settings.sortKey = .ok metric := by
  simp only [parse, Logged.bind_eq_ok_iff, Logged.result_ofExcept, mapError_eq_ok_iff,
    Logged.result_tell, Logged.result_pure, Except.ok.injEq]
  constructor
  · rintro ⟨_, accepted, metric, named, -, -, rfl⟩
    exact ⟨accepted, metric, named⟩
  · rintro ⟨accepted, metric, named⟩
    exact ⟨settings, accepted, metric, named, (), trivial, rfl⟩

/-- Settings that are accepted are put on record in words that do not depend on them. -/
theorem parse_eq (accepted : (parse path text).result = .ok settings) :
    parse path text =
      { result := .ok settings
        log := [entry ("Loaded configuration from '" ++ path ++ "'")] } := by
  obtain ⟨parsed, metric, named⟩ := parse_result_eq_ok_iff.mp accepted
  unfold parse
  rw [parsed, Logged.bind_of_result rfl, named]
  rfl

theorem parse_neutral (neutral : ofText content = .ok {}) :
    (parse path content).result = .ok {} :=
  parse_result_eq_ok_iff.mpr ⟨neutral, none, rfl⟩

theorem load_of_read (present : read request.settingsPath = .ok text) :
    load read request.settings = parse request.settingsPath text := by
  unfold RenderRequest.settingsPath at present ⊢
  unfold load
  revert present
  cases request.settings with
  | none =>
      intro present
      simp only [Option.getD_none] at present ⊢
      rw [present]
  | some path =>
      intro present
      simp only [Option.getD_some] at present ⊢
      rw [present]
      exact Logged.bind_of_result rfl

/-- Loaded settings name a known metric or none, wherever they come from. -/
theorem ofKey_of_load {path : Option String} (loaded : (load read path).result = .ok settings) :
    ∃ metric, Metric.ofKey settings.sortKey = .ok metric := by
  unfold load at loaded
  split at loaded
  · obtain ⟨text, -, accepted⟩ := Logged.bind_eq_ok_iff.mp loaded
    exact (parse_result_eq_ok_iff.mp accepted).2
  · dsimp only at loaded
    split at loaded
    · obtain rfl := Except.ok.inj loaded
      exact ⟨none, rfl⟩
    · cases loaded
    · exact (parse_result_eq_ok_iff.mp loaded).2

theorem render_congr (same : other path = read path) :
    settings.render other path = settings.render read path := by
  unfold render Snapshot.load
  rw [same]

end Settings

/-- The text at the path of the settings may be replaced by one that says nothing. -/
theorem RenderRequest.render_spellOut
    (loaded : (Settings.load read request.settings).result = .ok settings)
    (present : read request.settingsPath = .ok text)
    (replaced : other request.settingsPath = .ok content)
    (neutral : Settings.ofText content = .ok {})
    (same : other request.snapshot = read request.snapshot) :
    (request.spellOut settings).render other = request.render read := by
  have found := Settings.load_of_read present
  have foundOther : Settings.load other (request.spellOut settings).settings =
      Settings.parse request.settingsPath content := Settings.load_of_read replaced
  rw [found] at loaded
  rw [Settings.parse_eq loaded] at found
  rw [Settings.parse_eq (Settings.parse_neutral neutral)] at foundOther
  -- Both loadings now differ in their settings alone, and tell the same.
  have sameReport : (settings.withRequest request).render other request.snapshot =
      (settings.withRequest request).render read request.snapshot := Settings.render_congr same
  unfold render
  rw [found, foundOther, Logged.bind_of_result rfl, Logged.bind_of_result rfl,
    withRequest_spellOut, ← sameReport]
  rfl

theorem Snapshot.report_eq_error_iff {snapshot : Snapshot} {format : ReportFormat}
    {options : ReportOptions} {fault : OrderFault} :
    (snapshot.report format options).result = .error fault ↔
      options.isGrouped = false ∧ options.order.Refuses snapshot.tables fault := by
  rw [← TableOrder.sort_eq_error_iff_refuses, ← select_eq_error_iff]
  cases format with
  | text =>
      show (snapshot.textReport options).result = _ ↔ _
      rw [textReport_result]
      cases options.isGrouped <;> simp [map_eq_error_iff]
  | json =>
      show (snapshot.jsonReport options).result = _ ↔ _
      rw [jsonReport_result]
      cases options.isGrouped <;> simp [map_eq_error_iff]

namespace RenderRequest

theorem not_fails_settingsKey (loaded : (Settings.load read request.settings).result = .ok settings)
    (cause : OrderFault) : ¬request.Fails read (.settingsKey cause) := by
  intro fails
  cases fails with
  | settings failed => cases loaded.symm.trans failed
  | snapshot _ _ failed => exact (Snapshot.load_ne_orderFault failed cause).2 rfl

/-- Behind the settings, only the command line can name an unknown metric. -/
theorem not_fails_unsupportedKey (unsaid : request.sort = none)
    (loaded : (Settings.load read request.settings).result = .ok settings) (name : String) :
    ¬request.Fails read (.order (.unsupportedKey name)) := by
  intro fails
  cases fails with
  | settings failed => cases loaded.symm.trans failed
  | key foundSettings unknown =>
      obtain ⟨metric, known⟩ := Settings.ofKey_of_load foundSettings
      rw [Settings.withRequest, unsaid, Option.none_or] at unknown
      cases known.symm.trans unknown
  | snapshot _ _ failed => exact (Snapshot.load_ne_orderFault failed _).1 rfl
  | report _ _ _ refused =>
      have told := (Snapshot.report_eq_error_iff.mp refused).2.malformed_or_absent_or_kindsDiffer
      simp at told

end RenderRequest

/-- Settings do in a file what they do on a command line. The file may be emptied,
or replaced by the one that explains the settings, once they are spelled out. And
once they are loaded, a report whose command line names no metric does not fail at
an unknown one. -/
theorem Request.run_spellOut (wording : Wording) (folder : Folder) (request : RenderRequest)
    (settings : Settings)
    (loaded : (Settings.load folder.read request.settings).result = .ok settings) :
    (∀ text, folder.read request.settingsPath = .ok text →
      folder.locate request.snapshot ≠ folder.locate request.settingsPath →
      ∀ content ∈ ["", Settings.defaultText],
        ∃ after, folder.write request.settingsPath content = .ok after ∧
          ((Request.render (request.spellOut settings)).run wording after).1 =
            ((Request.render request).run wording folder).1) ∧
    (request.sort = none → ∀ name,
      ((Request.render request).run wording folder).1.failure ≠
          some (.order (.unsupportedKey name)) ∧
        ((Request.render request).run wording folder).1.failure ≠
          some (.settingsKey (.unsupportedKey name))) := by
  constructor
  · intro text present apart content listed
    have neutral : Settings.ofText content = .ok {} := by
      rcases List.mem_pair.mp listed with rfl | rfl
      · exact Settings.ofText_empty
      · exact Settings.ofText_defaultText
    obtain ⟨after, written⟩ := Folder.write_of_read present content
    have puts := Folder.write_puts written
    have same := RenderRequest.render_spellOut loaded present puts.reads neutral
      (puts.read_eq present apart)
    refine ⟨after, written, ?_⟩
    show Outcome.ofLogged wording _ = Outcome.ofLogged wording _
    rw [same]
  · intro unsaid name
    show (Outcome.ofLogged wording _).failure ≠ _ ∧ (Outcome.ofLogged wording _).failure ≠ _
    simp only [Ne, Outcome.failure_ofLogged, RenderRequest.render_eq_error_iff]
    exact ⟨RenderRequest.not_fails_unsupportedKey unsaid loaded name,
      RenderRequest.not_fails_settingsKey loaded _⟩

/-- A snapshot without tables beside settings that sort by reads and keep one table. -/
def Folder.sortedByReads : Folder where
  entries :=
    [(["tablestats.toml"], .text "sort_key = \"reads\"\ntop = 1\n"),
      (["empty.json"], .text "\x7b\"keyspaces\":[],\"table_count\":0\x7d")]

theorem Request.run_spellOut_sortedByReads :
    (Settings.load Folder.sortedByReads.read none).result =
      .ok { sortKey := some "reads", top := 1 } ∧
    ∃ after, Folder.sortedByReads.write "./tablestats.toml" "" = .ok after ∧
      (Request.run {} after (.render
          { snapshot := "empty.json", sort := some "reads", top := some 1
            format := some .text })).1 =
        (Request.run {} Folder.sortedByReads (.render { snapshot := "empty.json" })).1 := by
  have loaded : (Settings.load Folder.sortedByReads.read none).result =
      .ok { sortKey := some "reads", top := 1 } := eq_ok_of_toOption (by decide +kernel)
  have present : Folder.sortedByReads.read "./tablestats.toml" =
      .ok "sort_key = \"reads\"\ntop = 1\n" := eq_ok_of_toOption (by decide +kernel)
  have apart : Folder.sortedByReads.locate "empty.json" ≠
      Folder.sortedByReads.locate "./tablestats.toml" := by
    decide +kernel
  exact ⟨loaded, (Request.run_spellOut {} _ { snapshot := "empty.json" } _ loaded).1 _ present apart
    "" (by simp)⟩

end TableReport
