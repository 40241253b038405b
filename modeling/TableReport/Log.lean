/-!
Logs. Nothing in the library prints one: what there is to tell is data beside a
result. `Logged` is a computation that may fail and tells entries on its way;
what was told before a failure stays told.
-/

namespace TableReport

inductive LogLevel where
  | debug
  | info
deriving DecidableEq, Repr

def LogLevel.name : LogLevel → String
  | .debug => "DEBUG"
  | .info => "INFO"

structure LogEntry where
  level : LogLevel
  /-- The part of the program that speaks, padded to a common width. -/
  target : String
  text : String
deriving DecidableEq, Repr

/-- A result or a failure, with what was told on the way to it. -/
structure Logged (ε α : Type) where
  result : Except ε α
  log : List LogEntry

namespace Logged

variable {ε ε' α β : Type}

/-- A result without a word. -/
def ofExcept (result : Except ε α) : Logged ε α := { result, log := [] }

def tell (entry : LogEntry) : Logged ε Unit := { result := .ok (), log := [entry] }

/-- Goes on from a result; the later entries follow the earlier ones. -/
def bind (first : Logged ε α) (next : α → Logged ε β) : Logged ε β :=
  match first.result with
  | .ok value => { result := (next value).result, log := first.log ++ (next value).log }
  | .error fault => { result := .error fault, log := first.log }

instance : Monad (Logged ε) where
  pure value := ofExcept (.ok value)
  bind := bind

/-- The same computation with its failures seen as failures of another kind. -/
def mapError (f : ε → ε') (x : Logged ε α) : Logged ε' α :=
  { result := x.result.mapError f, log := x.log }

@[simp] theorem result_pure (value : α) : (pure value : Logged ε α).result = .ok value := rfl

@[simp] theorem result_ofExcept (result : Except ε α) : (ofExcept result).result = result := rfl

@[simp] theorem result_tell (entry : LogEntry) : (tell entry : Logged ε Unit).result = .ok () := rfl

/-- The log has no say in the result. -/
@[simp] theorem result_bind (first : Logged ε α) (next : α → Logged ε β) :
    (first >>= next).result = first.result.bind fun value => (next value).result := by
  show (Logged.bind first next).result = _
  unfold Logged.bind
  cases first.result <;> rfl

end Logged

end TableReport
