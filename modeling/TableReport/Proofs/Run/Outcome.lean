import Mathlib.Logic.Basic
import TableReport.Proofs.Folder
import TableReport.Run

/-!
How runs end. All that a run can fail at comes before its first effect: output is
a result of work that is over, and a folder changes in the one step that ends the
work of a new settings file. So a run that fails at any stage has shown nothing
and written nothing. Paths that leave the folder are among the failures, as
`Folder` assumes that there is nothing but the folder.
-/

namespace TableReport

variable {wording : Wording} {fault : RunFault} {output : String}

/-- The text of a fault, and under it what was being done, if that is told. -/
def RunFault.text (wording : Wording) (fault : RunFault) : String :=
  fault.message wording ++
    match fault.context? with
    | some context => "\n> " ++ context
    | none => ""

theorem RunFault.complaint_eq (wording : Wording) (fault : RunFault) :
    fault.complaint wording = "❌ " ++ fault.text wording ++ "\n" := by
  unfold complaint text
  cases fault.context? with
  | none => simp only [String.append_empty]
  | some context => simp only [String.append_assoc]; rfl

namespace Outcome

variable {outcome : Outcome} {work : Logged RunFault String}

structure Succeeded (outcome : Outcome) (output : String) : Prop where
  noFailure : outcome.failure = none
  exits : outcome.exits = []
  output : outcome.output = output
  errors : outcome.errors = ""

structure Failed (outcome : Outcome) (wording : Wording) (fault : RunFault) : Prop where
  failure : outcome.failure = some fault
  exits : outcome.exits = [1]
  output : outcome.output = ""
  errors : outcome.errors = "❌ " ++ fault.text wording ++ "\n"

theorem Succeeded.not_failed (succeeded : outcome.Succeeded output) :
    ¬outcome.Failed wording fault := by
  intro failed
  cases succeeded.noFailure.symm.trans failed.failure

theorem failure_ofLogged :
    (ofLogged wording work).failure = some fault ↔ work.result = .error fault := by
  unfold ofLogged
  cases work.result <;> simp

theorem ofLogged_succeeded (ended : work.result = .ok output) :
    (ofLogged wording work).Succeeded output := by
  unfold ofLogged
  rw [ended]
  exact ⟨rfl, rfl, rfl, rfl⟩

theorem ofLogged_failed (ended : work.result = .error fault) :
    (ofLogged wording work).Failed wording fault := by
  unfold ofLogged
  rw [ended]
  exact ⟨rfl, rfl, rfl, fault.complaint_eq wording⟩

end Outcome

namespace Snapshot

variable {read : String → Except FileFault String} {path : String} {snapshot : Snapshot}

theorem load_eq_ok_iff :
    (load read path).result = .ok snapshot ↔
      ∃ text, read path = .ok text ∧ codec.decode text = .ok snapshot := by
  simp only [load, Logged.bind_eq_ok_iff, Logged.result_ofExcept, mapError_eq_ok_iff]
  simp

theorem load_eq_error_iff :
    (load read path).result = .error fault ↔
      (∃ cause, read path = .error cause ∧ fault = .readSnapshot path cause) ∨
        ∃ text cause, read path = .ok text ∧ codec.decode text = .error cause ∧
          fault = .parseSnapshot path cause := by
  simp only [load, Logged.bind_eq_error_iff, Logged.result_ofExcept, mapError_eq_ok_iff,
    mapError_eq_error_iff]
  simp [eq_comm]

/-- A snapshot that cannot be loaded is no matter of metrics. -/
theorem load_ne_orderFault (failed : (load read path).result = .error fault) (cause : OrderFault) :
    fault ≠ .order cause ∧ fault ≠ .settingsKey cause := by
  rcases load_eq_error_iff.mp failed with ⟨_, -, rfl⟩ | ⟨_, _, -, -, rfl⟩ <;> simp

end Snapshot

namespace RenderRequest

/-- The output that a request asks for, stage by stage: from the settings over the
metric and the snapshot to a whole report. -/
def Makes (request : RenderRequest) (read : String → Except FileFault String)
    (output : String) : Prop :=
  ∃ found metric text snapshot report,
    (Settings.load read request.settings).result = .ok found ∧
    Metric.ofKey (found.withRequest request).sortKey = .ok metric ∧
    read request.snapshot = .ok text ∧
    Snapshot.codec.decode text = .ok snapshot ∧
    (snapshot.report (found.withRequest request).format
      ((found.withRequest request).options metric)).result = .ok report ∧
    output = report ++ if (found.withRequest request).format = .json then "\n" else ""

/-- The first stage that cannot be gone through has the fault. -/
inductive Fails (request : RenderRequest) (read : String → Except FileFault String) :
    RunFault → Prop
  | settings {fault : RunFault}
      (failed : (Settings.load read request.settings).result = .error fault) :
      Fails request read fault
  | key {found : Settings} {cause : OrderFault}
      (loaded : (Settings.load read request.settings).result = .ok found)
      (failed : Metric.ofKey (found.withRequest request).sortKey = .error cause) :
      Fails request read (.order cause)
  | snapshot {found : Settings} {metric : Option Metric} {fault : RunFault}
      (loaded : (Settings.load read request.settings).result = .ok found)
      (named : Metric.ofKey (found.withRequest request).sortKey = .ok metric)
      (failed : (Snapshot.load read request.snapshot).result = .error fault) :
      Fails request read fault
  | report {found : Settings} {metric : Option Metric} {snapshot : Snapshot} {cause : OrderFault}
      (loaded : (Settings.load read request.settings).result = .ok found)
      (named : Metric.ofKey (found.withRequest request).sortKey = .ok metric)
      (present : (Snapshot.load read request.snapshot).result = .ok snapshot)
      (failed : (snapshot.report (found.withRequest request).format
        ((found.withRequest request).options metric)).result = .error cause) :
      Fails request read (.order cause)

theorem render_eq_error_iff {request : RenderRequest} {read : String → Except FileFault String} :
    (request.render read).result = .error fault ↔ request.Fails read fault := by
  simp only [render, Settings.render, Logged.bind_eq_error_iff, Logged.result_ofExcept,
    mapError_eq_ok_iff, mapError_eq_error_iff, Logged.mapError, Logged.result_tell,
    Logged.result_pure, reduceCtorEq, false_or, and_false, exists_const, or_false]
  constructor
  · rintro (failed | ⟨found, loaded, ⟨cause, failed, rfl⟩ | ⟨metric, named, failed |
      ⟨snapshot, present, -, cause, failed, rfl⟩⟩⟩)
    · exact .settings failed
    · exact .key loaded failed
    · exact .snapshot loaded named failed
    · exact .report loaded named present failed
  · intro fails
    cases fails with
    | settings failed => exact .inl failed
    | key loaded failed => exact .inr ⟨_, loaded, .inl ⟨_, failed, rfl⟩⟩
    | snapshot loaded named failed => exact .inr ⟨_, loaded, .inr ⟨_, named, .inl failed⟩⟩
    | report loaded named present failed =>
        exact .inr ⟨_, loaded, .inr ⟨_, named, .inr ⟨_, present, trivial, _, failed, rfl⟩⟩⟩

theorem closed_report (format : ReportFormat) (report : String) :
    (match format with
      | .text => report
      | .json => report ++ "\n") = report ++ if format = .json then "\n" else "" := by
  cases format with
  | text => exact (String.append_empty).symm
  | json => rfl

theorem render_eq_ok_iff {request : RenderRequest} {read : String → Except FileFault String} :
    (request.render read).result = .ok output ↔ request.Makes read output := by
  simp only [render, Settings.render, Logged.bind_eq_ok_iff, Logged.result_ofExcept,
    mapError_eq_ok_iff, Snapshot.load_eq_ok_iff, Logged.mapError, Logged.result_tell,
    Logged.result_pure, Except.ok.injEq]
  constructor
  · rintro ⟨found, loaded, metric, key, snapshot, ⟨text, present, decoded⟩, ⟨⟩, -, report, made,
      rfl⟩
    exact ⟨found, metric, text, snapshot, report, loaded, key, present, decoded, made,
      closed_report _ _⟩
  · rintro ⟨found, metric, text, snapshot, report, loaded, key, present, decoded, made, rfl⟩
    exact ⟨found, loaded, metric, key, snapshot, ⟨text, present, decoded⟩, (), trivial, report,
      made, closed_report _ _⟩

end RenderRequest

namespace Request

/-- What a request is for: an output, and a folder with what is to be written. -/
def Delivers (folder : Folder) (output : String) (after : Folder) : Request → Prop
  | .render request => request.Makes folder.read output ∧ after = folder
  | .keys => output = Metric.listing ∧ after = folder
  | .init path =>
    output = "Generated default configuration file: " ++ initPath path ++ "\n" ∧
      folder.Puts (initPath path) Settings.defaultText after

theorem render_delivers_or_fails (wording : Wording) (folder : Folder)
    (request : RenderRequest) :
    (∃ output, (Outcome.ofLogged wording (request.render folder.read)).Succeeded output ∧
      request.Makes folder.read output) ∨
    ∃ fault, (Outcome.ofLogged wording (request.render folder.read)).Failed wording fault ∧
      ∀ output, ¬request.Makes folder.read output := by
  cases ended : (request.render folder.read).result with
  | ok output =>
      exact .inl ⟨output, Outcome.ofLogged_succeeded ended, RenderRequest.render_eq_ok_iff.mp ended⟩
  | error fault =>
      refine .inr ⟨fault, Outcome.ofLogged_failed ended, fun output makes => ?_⟩
      cases ended.symm.trans (RenderRequest.render_eq_ok_iff.mpr makes)

theorem init_delivers_or_fails (wording : Wording) (folder : Folder) (path : Option String) :
    (∃ output, ((init path).run wording folder).1.Succeeded output ∧
      (init path).Delivers folder output ((init path).run wording folder).2) ∨
    ∃ fault, ((init path).run wording folder).1.Failed wording fault ∧
      ((init path).run wording folder).2 = folder ∧
      ∀ output after, ¬(init path).Delivers folder output after := by
  simp only [run, initWork]
  cases written : folder.write (initPath path) Settings.defaultText with
  | ok after =>
      exact .inl ⟨_, Outcome.ofLogged_succeeded rfl, rfl, Folder.write_puts written⟩
  | error fault =>
      refine .inr ⟨_, Outcome.ofLogged_failed rfl, rfl, ?_⟩
      rintro output after ⟨-, puts⟩
      obtain ⟨_, success⟩ := puts.write
      cases written.symm.trans success

/-- A run ends in exactly one of two ways: it has delivered what it is for, or it
has complained of one fault and nothing else has happened. It only fails if what
it is for cannot be had. -/
theorem run_delivers_or_fails (wording : Wording) (folder : Folder) (request : Request) :
    Xor
      (∃ output, (request.run wording folder).1.Succeeded output ∧
        request.Delivers folder output (request.run wording folder).2)
      (∃ fault, (request.run wording folder).1.Failed wording fault ∧
        (request.run wording folder).2 = folder ∧
        ∀ output after, ¬request.Delivers folder output after) := by
  rw [xor_iff_or_and_not_and]
  constructor
  · cases request with
    | render request =>
        rcases render_delivers_or_fails wording folder request with
          ⟨output, succeeded, makes⟩ | ⟨fault, failed, makesNot⟩
        · exact .inl ⟨output, succeeded, makes, rfl⟩
        · exact .inr ⟨fault, failed, rfl, fun output _ delivers => makesNot output delivers.1⟩
    | keys =>
        have succeeded : (Outcome.ofLogged wording (return Metric.listing)).Succeeded
            Metric.listing := Outcome.ofLogged_succeeded rfl
        exact .inl ⟨_, succeeded, rfl, rfl⟩
    | init path => exact init_delivers_or_fails wording folder path
  · rintro ⟨⟨output, succeeded, -⟩, fault, failed, -⟩
    exact succeeded.not_failed failed

end Request

end TableReport
