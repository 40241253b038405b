import TableReport.Keyspace
import TableReport.Proofs.Binary64.Sign

/-!
The pending flushes of a keyspace. Every table is accounted for once: either it states a
whole number of flushes, which is added to the total as it is, or it adds nothing and is
told of in the log. A total of 64 bits is the sum of these numbers as long as it has room
for them.
-/

namespace TableReport

namespace Binary64

variable {x : Binary64} {n : ℤ}

/-- What a double stands for if its size is a whole number of units of one. -/
theorem value_of_units {size : ℕ} (whole : x.units = size * unitsPerOne) :
    x.value = ((if x.negative then -(size : ℤ) else size : ℤ) : ℚ) := by
  rw [value, whole, Nat.cast_mul, mul_div_cancel_right₀ _ unitsPerOne_pos.ne']
  cases x.negative with
  | false =>
      rw [if_neg Bool.false_ne_true, if_neg Bool.false_ne_true, one_mul, Int.cast_natCast]
  | true => rw [if_pos rfl, if_pos rfl, neg_one_mul, Int.cast_neg, Int.cast_natCast]

theorem units_of_value (whole : x.value = n) : x.units = n.natAbs * unitsPerOne := by
  have size : |x.value| = (n.natAbs : ℕ) := by
    rw [whole, Nat.cast_natAbs, Int.cast_abs]
  rw [abs_value, div_eq_iff unitsPerOne_pos.ne', ← Nat.cast_mul, Nat.cast_inj] at size
  exact size

/-- The whole number that is read off a double is the one that it stands for. -/
theorem whole?_eq_some_iff : x.whole? = some n ↔ x.isFinite = true ∧ x.value = n := by
  unfold whole?
  constructor
  · intro read
    split at read
    next whole =>
      simp only [Bool.and_eq_true, beq_iff_eq] at whole
      obtain ⟨finite, divides⟩ := whole
      have units := (Nat.div_mul_cancel (Nat.dvd_of_mod_eq_zero divides)).symm
      cases read
      exact ⟨finite, value_of_units units⟩
    next => cases read
  · rintro ⟨finite, whole⟩
    have units := units_of_value whole
    have signed := value_of_units units
    rw [whole, Int.cast_inj] at signed
    have positive : (unitsPerOne : ℤ) ≠ 0 := Int.natCast_ne_zero.mpr zero_lt_unitsPerOne.ne'
    rw [finite, units, Nat.mul_mod_left, Int.natCast_mul, Int.mul_ediv_cancel _ positive]
    exact congrArg some signed.symm

end Binary64

section Sum

/-- The number fits 64 signed bits. -/
def FitsInt64 (n : ℤ) : Prop := -2 ^ 63 ≤ n ∧ n < 2 ^ 63

instance (n : ℤ) : Decidable (FitsInt64 n) := inferInstanceAs (Decidable (_ ∧ _))

/-- Sums of 64 bits are sums up to multiples of `2 ^ 64`. -/
theorem toInt_sum (numbers : List Int64) :
    numbers.sum.toInt = (numbers.map Int64.toInt).sum.bmod (2 ^ 64) := by
  induction numbers with
  | nil => rfl
  | cons first rest inductionHypothesis =>
      rw [List.sum_cons, List.map_cons, List.sum_cons, Int64.toInt_add, inductionHypothesis,
        Int.add_bmod_bmod]

theorem toInt_sum_of_fits {numbers : List Int64}
    (fits : FitsInt64 (numbers.map Int64.toInt).sum) :
    numbers.sum.toInt = (numbers.map Int64.toInt).sum := by
  obtain ⟨low, high⟩ := fits
  rw [toInt_sum]
  apply Int.bmod_eq_of_le
  · norm_num
    omega
  · norm_num
    omega

end Sum

namespace Table

variable {table : Table} {n : ℤ} {x : Binary64}

/-- The table states so many pending flushes: as an integer, or as a float that is a whole
number and not too large. -/
inductive StatesFlushes (table : Table) : ℤ → Prop
  | integer {i : Int64} (held : table.pendingFlushes = some (.integer i)) :
      table.StatesFlushes i.toInt
  | whole {x : Binary64} {n : ℤ} (held : table.pendingFlushes = some (.float x))
      (finite : x.isFinite = true) (value : x.value = n) (small : |x.value| < 9 * 10 ^ 18) :
      table.StatesFlushes n

/-- What is told of a table that states no number of pending flushes. -/
def flushNote (table : Table) (finding : String) : LogEntry where
  level := .debug
  target := "     stats"
  text := "Pending flushes of " ++ table.fullName ++ finding ++
    "; leaving it out of the keyspace total"

/-- The entry tells of the table, and why its pending flushes do not count. -/
inductive NotedBy (table : Table) : LogEntry → Prop
  | unreported (held : table.pendingFlushes = none) :
      table.NotedBy (table.flushNote " not reported")
  | notWhole {x : Binary64} (held : table.pendingFlushes = some (.float x)) :
      table.NotedBy (table.flushNote (" is " ++ plainStyle.text x ++ ", not a whole count"))

theorem flushAccount_of_states (states : table.StatesFlushes n) :
    table.flushAccount = .counted (.ofInt n) ∧ FitsInt64 n := by
  cases states with
  | @integer i held =>
      rw [flushAccount, held, Int64.ofInt_toInt]
      exact ⟨rfl, i.le_toInt, i.toInt_lt⟩
  | whole held finite value small =>
      have read := Binary64.whole?_eq_some_iff.mpr ⟨finite, value⟩
      rw [value] at small
      have bound : |n| < 9 * 10 ^ 18 := by exact_mod_cast small
      obtain ⟨low, high⟩ := abs_lt.mp bound
      have below : n.natAbs < flushLimit := by
        rw [flushLimit]
        omega
      have account : table.flushAccount = .counted (.ofInt n) := by
        rw [flushAccount, held]
        simp only [read, if_pos below]
      exact ⟨account, by omega, by omega⟩

theorem toInt_flushes_of_states (states : table.StatesFlushes n) : table.flushes.toInt = n := by
  obtain ⟨account, low, high⟩ := flushAccount_of_states states
  rw [flushes, account]
  exact Int64.toInt_ofInt_of_le low high

theorem flushNotes_of_states (states : table.StatesFlushes n) : table.flushNotes = [] := by
  obtain ⟨account, -⟩ := flushAccount_of_states states
  rw [flushNotes, account]

/-- A float that is counted states the number that it is counted as. -/
theorem states_of_whole? {k : ℤ} (held : table.pendingFlushes = some (.float x))
    (read : x.whole? = some k) (below : k.natAbs < flushLimit) : table.StatesFlushes k := by
  obtain ⟨finite, value⟩ := Binary64.whole?_eq_some_iff.mp read
  refine .whole held finite value ?_
  have bound : |k| < 9 * 10 ^ 18 := by
    rw [flushLimit] at below
    apply abs_lt.mpr
    omega
  rw [value]
  exact_mod_cast bound

theorem flushAccount_of_float (held : table.pendingFlushes = some (.float x))
    (none : ∀ n, ¬table.StatesFlushes n) : table.flushAccount = .notWhole x := by
  rw [flushAccount, held]
  dsimp only
  split
  next k read => exact if_neg fun below => none k (states_of_whole? held read below)
  next => rfl

theorem flushNote_eq {finding told : String}
    (ends : finding ++ "; leaving it out of the keyspace total" = told) :
    { level := .debug, target := "     stats",
      text := "Pending flushes of " ++ table.fullName ++ told } = table.flushNote finding := by
  rw [flushNote, ← ends, ← String.append_assoc]

/-- A table that states no number adds nothing and is told of once. -/
theorem noted_of_states_none (none : ∀ n, ¬table.StatesFlushes n) :
    table.flushes = 0 ∧ ∃ entry, table.flushNotes = [entry] ∧ table.NotedBy entry := by
  cases held : table.pendingFlushes with
  | none =>
      have account : table.flushAccount = .unreported := by rw [flushAccount, held]
      rw [flushes, flushNotes, account]
      refine ⟨rfl, table.flushNote " not reported", ?_, .unreported held⟩
      exact congrArg (fun entry => [entry]) (flushNote_eq (by decide))
  | some quantity =>
      cases quantity with
      | integer i => exact absurd (.integer held) (none i.toInt)
      | float x =>
          have account := flushAccount_of_float held none
          have ends : " is " ++ plainStyle.text x ++ ", not a whole count" ++
              "; leaving it out of the keyspace total" =
              " is " ++ plainStyle.text x ++
                ", not a whole count; leaving it out of the keyspace total" := by
            rw [String.append_assoc]
            rfl
          rw [flushes, flushNotes, account]
          refine ⟨rfl, _, ?_, .notWhole held⟩
          exact congrArg (fun entry => [entry]) (flushNote_eq ends)

end Table

namespace Keyspace

/-- How tables are accounted for, one after another: what each adds to the total, and the
entries that are told. A table that states a number adds it and is not told of; any other
one adds nothing and is told of once. -/
inductive Accounts : List Table → List ℤ → List LogEntry → Prop
  | nil : Accounts [] [] []
  | stated {table : Table} {n : ℤ} {tables : List Table} {shares : List ℤ}
      {notes : List LogEntry} (states : table.StatesFlushes n)
      (rest : Accounts tables shares notes) :
      Accounts (table :: tables) (n :: shares) notes
  | noted {table : Table} {entry : LogEntry} {tables : List Table} {shares : List ℤ}
      {notes : List LogEntry} (none : ∀ n, ¬table.StatesFlushes n) (notedBy : table.NotedBy entry)
      (rest : Accounts tables shares notes) :
      Accounts (table :: tables) (0 :: shares) (entry :: notes)

theorem accounts_flushNotes (tables : List Table) :
    Accounts tables (tables.map fun table => table.flushes.toInt) (flushNotes tables) := by
  induction tables with
  | nil => exact .nil
  | cons table tables inductionHypothesis =>
      unfold flushNotes at inductionHypothesis ⊢
      rw [List.map_cons, List.flatMap_cons]
      by_cases stated : ∃ n, table.StatesFlushes n
      · obtain ⟨n, states⟩ := stated
        rw [Table.toInt_flushes_of_states states, Table.flushNotes_of_states states]
        exact .stated states inductionHypothesis
      · have none := not_exists.mp stated
        obtain ⟨nothing, entry, told, notedBy⟩ := Table.noted_of_states_none none
        rw [nothing, told]
        exact .noted none notedBy inductionHypothesis

/-- The total of a keyspace is the sum of what its tables add, as long as the sum stays
within 64 bits from table to table. Each table is accounted for once and in its turn: it
adds the number that it states, or it adds nothing and is told of. -/
theorem pendingFlushes_accounted (name : String) (tables : List Table)
    (inRange : ∀ front, front <+: tables →
      FitsInt64 (front.map fun table => table.flushes.toInt).sum) :
    Accounts tables (tables.map fun table => table.flushes.toInt) (flushNotes tables) ∧
    (ofTables name tables).pendingFlushes.toInt =
      (tables.map fun table => table.flushes.toInt).sum := by
  refine ⟨accounts_flushNotes tables, ?_⟩
  have fits := inRange tables List.prefix_rfl
  have shares : tables.map (fun table => table.flushes.toInt) =
      (tables.map Table.flushes).map Int64.toInt := by
    rw [List.map_map]
    rfl
  rw [shares] at fits ⊢
  exact toInt_sum_of_fits fits

/-- One table of each kind. -/
def mixedFlushes : List Table :=
  [ { Table.fresh "ks" "a" with pendingFlushes := some (.integer 4) },
    { Table.fresh "ks" "b" with pendingFlushes := some (.float (.ofInt (-3))) },
    { Table.fresh "ks" "c" with pendingFlushes := some (.float .nan) },
    { Table.fresh "ks" "d" with pendingFlushes := none } ]

theorem pendingFlushes_accounted_mixed :
    Accounts mixedFlushes [4, -3, 0, 0] (flushNotes mixedFlushes) ∧
    (ofTables "ks" mixedFlushes).pendingFlushes.toInt = 1 := by
  have shares : (mixedFlushes.map fun table => table.flushes.toInt) = [4, -3, 0, 0] := by
    decide +kernel
  have inRange : ∀ front ∈ mixedFlushes.inits,
      FitsInt64 (front.map fun table => table.flushes.toInt).sum := by
    decide +kernel
  have accounted := pendingFlushes_accounted "ks" mixedFlushes fun front isFront =>
    inRange front ((List.mem_inits front mixedFlushes).mpr isFront)
  rw [shares] at accounted
  exact accounted

end Keyspace

end TableReport
