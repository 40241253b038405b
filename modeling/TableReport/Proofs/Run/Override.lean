import TableReport.Proofs.Run.Settings

/-!
What a command line overrides. It can name another metric than the settings or none,
and give another number of tables and another format, but its two flags are only ever
raised. So the options that it can ask for under given settings are those that lower
neither flag, and the report with such options does not depend on the settings.
-/

namespace TableReport

variable {read : String → Except FileFault String} {settings : Settings} {request : RenderRequest}
  {options : ReportOptions} {format : ReportFormat}

namespace Metric

/-- The key that names a metric or none. -/
def keyOf (metric : Option Metric) : String := (metric.map name).getD ""

theorem ofKey_keyOf (metric : Option Metric) : ofKey (some (keyOf metric)) = .ok metric := by
  cases metric with
  | none => rfl
  | some metric =>
      have named : ∀ metric ∈ all, ofKey (some metric.name) = .ok (some metric) := by decide +kernel
      exact named metric (mem_all metric)

end Metric

/-- The report with some options on the snapshot at a path. -/
def Snapshot.reportAt (read : String → Except FileFault String) (path : String)
    (options : ReportOptions) (format : ReportFormat) : Except RunFault String := do
  let snapshot ← (load read path).result
  let report ← (snapshot.report format options).result.mapError .order
  .ok (report ++ if format = .json then "\n" else "")

/-- Without a metric, the other options have no effect. -/
theorem Snapshot.report_of_isGrouped (snapshot : Snapshot) (format : ReportFormat)
    {other : ReportOptions} (grouped : options.isGrouped) (otherGrouped : other.isGrouped) :
    (snapshot.report format options).result = (snapshot.report format other).result := by
  cases format with
  | text =>
      show (snapshot.textReport options).result = (snapshot.textReport other).result
      rw [textReport_result, textReport_result, if_pos grouped, if_pos otherGrouped]
  | json =>
      show (snapshot.jsonReport options).result = (snapshot.jsonReport other).result
      rw [jsonReport_result, jsonReport_result, if_pos grouped, if_pos otherGrouped]

namespace RenderRequest

/-- Under some settings, a request is for a report with these options. -/
structure Uses (request : RenderRequest) (settings : Settings) (options : ReportOptions)
    (format : ReportFormat) : Prop where
  metric : Metric.ofKey (settings.withRequest request).sortKey = .ok options.metric
  options : (settings.withRequest request).options options.metric = options
  format : (settings.withRequest request).format = format

/-- The request that leaves nothing to the settings that it can say itself. -/
def stating (settingsPath : Option String) (path : String) (options : ReportOptions)
    (format : ReportFormat) : RenderRequest where
  snapshot := path
  sort := some (Metric.keyOf options.metric)
  ascending := options.ascending
  top := some options.top
  humanReadable := options.encoding = .readable
  format := some format
  settings := settingsPath

theorem render_result_of_uses
    (loaded : (Settings.load read request.settings).result = .ok settings)
    (uses : request.Uses settings options format) :
    (request.render read).result = Snapshot.reportAt read request.snapshot options format := by
  obtain ⟨metric, sameOptions, rfl⟩ := uses
  unfold render Settings.render Snapshot.reportAt
  simp only [Logged.result_bind, loaded, Logged.result_ofExcept, metric, Except.mapError,
    Except.bind, Logged.mapError, Logged.result_tell, Logged.result_pure, sameOptions]
  cases (Snapshot.load read request.snapshot).result with
  | error fault => rfl
  | ok snapshot =>
      cases made : (snapshot.report (settings.withRequest request).format options).result with
      | error fault => simp only [made, bind, Except.bind]
      | ok report =>
          simp only [made, bind, Except.bind]
          exact congrArg Except.ok (closed_report _ _)

/-- A raised flag of the settings stays raised. -/
theorem Uses.keeps_flags (uses : request.Uses settings options format) :
    (settings.ascending = true → options.ascending = true) ∧
      (settings.humanReadable = true → options.encoding = .readable) := by
  rw [← uses.options]
  constructor <;>
    intro raised <;>
    simp [Settings.options, Settings.withRequest, raised]

theorem uses_stating (settingsPath : Option String) (path : String) (format : ReportFormat)
    (ascending : settings.ascending = true → options.ascending = true)
    (readable : settings.humanReadable = true → options.encoding = .readable) :
    (stating settingsPath path options format).Uses settings options format := by
  have flag : ∀ {said set : Bool}, (set = true → said = true) → (said || set) = said := by decide
  refine ⟨Metric.ofKey_keyOf options.metric, ?_, rfl⟩
  obtain ⟨metric, ascendingOption, top, encoding⟩ := options
  simp only [Settings.options, Settings.withRequest, stating, Option.getD_some, flag ascending]
  cases encoding with
  | readable => simp
  | plain =>
      have unset : settings.humanReadable = false := by simpa using readable
      simp [unset]

/-- Under given settings a command line can ask for exactly the options that lower no
flag. With the options, the report is settled, and a report without a metric can be
had in any case. -/
theorem overrides_all_but_flags (settingsPath : Option String)
    (loaded : (Settings.load read settingsPath).result = .ok settings) (path : String)
    (options : ReportOptions) (format : ReportFormat) :
    ((∃ request : RenderRequest, request.settings = settingsPath ∧ request.snapshot = path ∧
        request.Uses settings options format) ↔
      (settings.ascending = true → options.ascending = true) ∧
        (settings.humanReadable = true → options.encoding = .readable)) ∧
    (∀ request : RenderRequest, request.settings = settingsPath → request.snapshot = path →
      request.Uses settings options format →
        (request.render read).result = Snapshot.reportAt read path options format) ∧
    (options.isGrouped → ∃ request : RenderRequest, request.settings = settingsPath ∧
      request.snapshot = path ∧
        (request.render read).result = Snapshot.reportAt read path options format) := by
  refine ⟨⟨?_, ?_⟩, ?_, fun grouped => ?_⟩
  · rintro ⟨request, -, -, uses⟩
    exact uses.keeps_flags
  · rintro ⟨ascending, readable⟩
    exact ⟨stating settingsPath path options format, rfl, rfl,
      uses_stating settingsPath path format ascending readable⟩
  · rintro request rfl rfl uses
    exact render_result_of_uses loaded uses
  · let raised : ReportOptions := { options with ascending := true, encoding := .readable }
    have uses : (stating settingsPath path raised format).Uses settings raised format :=
      uses_stating settingsPath path format (fun _ => rfl) (fun _ => rfl)
    refine ⟨stating settingsPath path raised format, rfl, rfl, ?_⟩
    rw [render_result_of_uses loaded uses]
    unfold Snapshot.reportAt
    have same (snapshot : Snapshot) :
        (snapshot.report format raised).result = (snapshot.report format options).result :=
      snapshot.report_of_isGrouped format grouped grouped
    simp only [same, stating]

/-- Settings that sort the smallest first, and nothing else. -/
def ascendingFolder : Folder where
  entries := [(["tablestats.toml"], .text "ascending = true\n")]

theorem load_ascendingFolder :
    (Settings.load ascendingFolder.read none).result = .ok { ascending := true } :=
  eq_ok_of_toOption (by decide +kernel)

def largestReads : ReportOptions :=
  { metric := some .reads, ascending := false, top := 1, encoding := .plain }

theorem overrides_all_but_flags_ascending :
    (Settings.load ascendingFolder.read none).result = .ok { ascending := true } ∧
      ∃ request : RenderRequest, request.settings = none ∧ request.snapshot = "s.json" ∧
        request.Uses { ascending := true } { largestReads with ascending := true } .json := by
  refine ⟨load_ascendingFolder, ?_⟩
  exact (overrides_all_but_flags none load_ascendingFolder "s.json" _ .json).1.mpr
    ⟨fun _ => rfl, fun readable => absurd readable Bool.false_ne_true⟩

/-- No command line sorts the largest first under settings that ask for the smallest. -/
theorem not_every_setting_overridden :
    ¬∀ (read : String → Except FileFault String) (settingsPath : Option String)
      (settings : Settings), (Settings.load read settingsPath).result = .ok settings →
      ∀ (path : String) (options : ReportOptions) (format : ReportFormat),
        ∃ request : RenderRequest, request.settings = settingsPath ∧ request.snapshot = path ∧
          request.Uses settings options format := by
  intro overridden
  obtain ⟨request, -, -, uses⟩ :=
    overridden _ none _ load_ascendingFolder "s.json" largestReads .text
  exact absurd (uses.keeps_flags.1 rfl) Bool.false_ne_true

end RenderRequest

end TableReport
