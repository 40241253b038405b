import TableReport.Log

/-!
Results and failures: how a computation that may fail comes to an end, with a log
or without.
-/

namespace TableReport

variable {ε α β : Type}

theorem bind_eq_ok_iff {outcome : Except ε α} {next : α → Except ε β} {b : β} :
    outcome >>= next = .ok b ↔ ∃ a, outcome = .ok a ∧ next a = .ok b := by
  cases outcome with
  | error fault => simp [bind, Except.bind]
  | ok a => simp [bind, Except.bind]

theorem bind_eq_error_iff {outcome : Except ε α} {next : α → Except ε β} {fault : ε} :
    outcome >>= next = .error fault ↔
      outcome = .error fault ∨ ∃ a, outcome = .ok a ∧ next a = .error fault := by
  cases outcome with
  | error fault => simp [bind, Except.bind]
  | ok a => simp [bind, Except.bind]

theorem map_eq_ok_iff {outcome : Except ε α} {f : α → β} {b : β} :
    outcome.map f = .ok b ↔ ∃ a, outcome = .ok a ∧ f a = b := by
  cases outcome with
  | error fault => simp [Except.map]
  | ok a => simp [Except.map]

theorem map_eq_error_iff {outcome : Except ε α} {f : α → β} {fault : ε} :
    outcome.map f = .error fault ↔ outcome = .error fault := by
  cases outcome with
  | error fault => simp [Except.map]
  | ok a => simp [Except.map]

theorem mapError_eq_ok_iff {ε' : Type} {outcome : Except ε α} {f : ε → ε'} {a : α} :
    outcome.mapError f = .ok a ↔ outcome = .ok a := by
  cases outcome with
  | error fault =>
      show Except.error (f fault) = Except.ok a ↔ _
      simp
  | ok b =>
      show Except.ok b = Except.ok a ↔ _
      simp

theorem mapError_eq_error_iff {ε' : Type} {outcome : Except ε α} {f : ε → ε'} {fault : ε'} :
    outcome.mapError f = .error fault ↔ ∃ cause, outcome = .error cause ∧ f cause = fault := by
  cases outcome with
  | error cause =>
      show Except.error (f cause) = Except.error fault ↔ _
      simp
  | ok a =>
      show Except.ok a = Except.error fault ↔ _
      simp

theorem eq_ok_of_toOption {outcome : Except ε α} {a : α} (present : outcome.toOption = some a) :
    outcome = .ok a := by
  cases outcome with
  | error fault => cases present
  | ok b => exact congrArg Except.ok (Option.some.inj present)

namespace Logged

variable {first : Logged ε α} {next : α → Logged ε β} {a : α} {b : β}

theorem bind_eq_ok_iff :
    (first >>= next).result = .ok b ↔ ∃ a, first.result = .ok a ∧ (next a).result = .ok b := by
  rw [result_bind]
  exact TableReport.bind_eq_ok_iff

theorem bind_eq_error_iff {fault : ε} :
    (first >>= next).result = .error fault ↔
      first.result = .error fault ∨ ∃ a, first.result = .ok a ∧ (next a).result = .error fault := by
  rw [result_bind]
  exact TableReport.bind_eq_error_iff

theorem bind_of_result (ended : first.result = .ok a) :
    first >>= next = { result := (next a).result, log := first.log ++ (next a).log } := by
  show Logged.bind first next = _
  unfold Logged.bind
  rw [ended]

end Logged

end TableReport
