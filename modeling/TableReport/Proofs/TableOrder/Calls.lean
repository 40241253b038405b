import TableReport.Proofs.TableOrder.Sort
import TableReport.TableOrder.InPlace

/-!
Calls of sorting on the same slots. A call that fails changes nothing, and since
a call that succeeds only moves items about, no call has a say in which later
ones succeed. The invariant of a run is that the slots hold the stable sort of
the items they started with, by the orders that succeeded so far, the last one
going first.
-/

namespace TableReport

variable {α : Type}

theorem refill_of_length_eq {slots items : List α} (sameLength : items.length = slots.length) :
    refill slots items = items := by
  induction items generalizing slots with
  | nil =>
      have empty : slots = [] := List.length_eq_zero_iff.mp sameLength.symm
      subst empty
      rfl
  | cons item items inductionHypothesis =>
      cases slots with
      | nil => simp at sameLength
      | cons slot slots =>
          rw [refill, inductionHypothesis (by simpa using sameLength)]

namespace TableOrder

variable {order : TableOrder} {orders done : List TableOrder} {table : α → Table}
  {start slots : List α}

/-- Compares items by several orders, each one deciding where those before it do not. -/
def compareInTurn (table : α → Table) : List TableOrder → α → α → Except OrderFault Ordering
  | [] => fun _ _ => .ok .eq
  | order :: orders => compareThen (order.compareOn table) (compareInTurn table orders)

def succeeds (order : TableOrder) (table : α → Table) (slots : List α) : Bool :=
  (order.call table slots).1.isOk

theorem oriented_compareInTurn : Oriented (compareInTurn table orders) := by
  induction orders with
  | nil =>
      intro x y ordering compared
      cases compared
      rfl
  | cons order orders inductionHypothesis =>
      exact oriented_compareThen oriented_compareOn inductionHypothesis

theorem call_eq (order : TableOrder) (table : α → Table) (slots : List α) :
    order.call table slots =
      match order.sortOn table slots with
      | .ok sorted => (.ok (), refill slots sorted)
      | .error fault => (.error fault, slots) := by
  have read : (get : ExceptT OrderFault (StateM (List α)) (List α)).run.run slots =
      (.ok slots, slots) := rfl
  unfold call sortInPlace sortOn
  rw [ExceptT.run_bind, StateT.run_bind, read]
  change StateT.run (ExceptT.run (MonadExcept.ofExcept (order.ranked table slots) >>= _)) slots = _
  cases order.ranked table slots with
  | error fault => rfl
  | ok entries =>
      have taken : (MonadExcept.ofExcept (.ok entries) :
          ExceptT OrderFault (StateM (List α)) (List (Rank × α))) = pure entries := rfl
      rw [taken, pure_bind]
      simp only [bind, Except.bind]
      cases order.clash? table entries <;> rfl

theorem call_snd_of_error {fault : OrderFault} (failed : (order.call table slots).1 = .error fault) :
    (order.call table slots).2 = slots := by
  rw [call_eq] at *
  cases sorted : order.sortOn table slots with
  | error fault => rfl
  | ok items => simp [sorted] at failed

theorem stableSort_of_succeeds (success : order.succeeds table slots) :
    StableSort (order.compareOn table) slots (order.call table slots).2 := by
  unfold succeeds at success
  rw [call_eq] at *
  cases result : order.sortOn table slots with
  | error fault => simp [result, Except.isOk, Except.toBool] at success
  | ok sorted =>
      have stable := stableSort_of_sortOn result
      have refilled := refill_of_length_eq stable.perm.length_eq
      simpa [refilled] using stable

theorem succeeds_iff : order.succeeds table slots ↔ order.ComparesAll table slots := by
  unfold succeeds
  rw [call_eq]
  cases result : order.sortOn table slots with
  | error fault =>
      have incomparable : ¬ order.ComparesAll table slots := fun comparable => by
        simp [sortOn_of_comparesAll comparable] at result
      simp [Except.isOk, Except.toBool, incomparable]
  | ok sorted => simp [Except.isOk, Except.toBool, comparesAll_of_sortOn result]

theorem succeeds_of_perm (permutation : slots.Perm start) :
    order.succeeds table slots = order.succeeds table start := by
  rw [Bool.eq_iff_iff, succeeds_iff, succeeds_iff]
  simp only [ComparesAll, permutation.mem_iff]

/-- One call keeps the invariant, whether or not it succeeds. -/
theorem call_keeps_stableSort
    (stable : StableSort (compareInTurn table done) start slots) (order : TableOrder) :
    StableSort (compareInTurn table (if order.succeeds table start then order :: done else done))
      start (order.call table slots).2 := by
  rw [← succeeds_of_perm stable.perm]
  split
  next success => exact stable.andThen (stableSort_of_succeeds success)
  next failure =>
    cases outcome : (order.call table slots).1 with
    | error fault => rwa [call_snd_of_error outcome]
    | ok => simp [succeeds, outcome, Except.isOk, Except.toBool] at failure

/-- A run of calls keeps the invariant, and each call ends as it would have ended
on the items that the run started with. -/
theorem callEach_keeps_stableSort
    (stable : StableSort (compareInTurn table done) start slots) (orders : List TableOrder) :
    (callEach table orders slots).1.map Except.isOk = orders.map (·.succeeds table start) ∧
      StableSort
        (compareInTurn table ((orders.filter (·.succeeds table start)).reverse ++ done))
        start (callEach table orders slots).2 := by
  induction orders generalizing done slots with
  | nil => exact ⟨rfl, stable⟩
  | cons order orders inductionHypothesis =>
      have outcome : (order.call table slots).1.isOk = order.succeeds table start :=
        succeeds_of_perm stable.perm
      have ⟨outcomes, stable⟩ := inductionHypothesis (call_keeps_stableSort stable order)
      refine ⟨by simp [callEach, outcome, outcomes], ?_⟩
      cases success : order.succeeds table start <;>
        simpa [callEach, success, List.filter_cons] using stable

/-- A run of calls on the same slots: a call that fails leaves them as they were;
whether a call fails depends on its order and the items alone; and in the end the
slots hold the items arranged by the orders that succeeded, the last one going
first, with those level in all of them where they stood. -/
theorem callEach_sorts_in_turn (table : α → Table) (start : List α) (orders : List TableOrder) :
    (∀ before order after, orders = before ++ order :: after →
      ∀ current, current = (callEach table before start).2 →
        ∀ fault, (order.call table current).1 = .error fault →
          (order.call table current).2 = current) ∧
    (callEach table orders start).1.map Except.isOk = orders.map (·.succeeds table start) ∧
    StableSort (compareInTurn table (orders.filter (·.succeeds table start)).reverse)
      start (callEach table orders start).2 ∧
    ∀ other,
      StableSort (compareInTurn table (orders.filter (·.succeeds table start)).reverse)
        start other →
      other = (callEach table orders start).2 := by
  have unmoved : StableSort (compareInTurn table []) start start := stableSort_self start
  have ⟨outcomes, stable⟩ := callEach_keeps_stableSort unmoved orders
  rw [List.append_nil] at stable
  exact ⟨fun _ _ _ _ _ _ _ failed => call_snd_of_error failed, outcomes, stable,
    fun other stable' => stable'.unique oriented_compareInTurn stable⟩

def bySpaceReadable : TableOrder :=
  { metric := some .spaceLive, ascending := false, encoding := .readable }

theorem callEach_sorts_in_turn_latencies :
    let start : List Binary64 := [.nan, .zero, .infinity false, .zero]
    let current := (callEach ofReadLatency [byReadLatency] start).2
    current = [.infinity false, .zero, .zero, .nan] ∧
    (bySpaceReadable.call ofReadLatency current).1 = .error (.malformedSize "0") ∧
    (bySpaceReadable.call ofReadLatency current).2 = current := by
  intro start current
  have moved : current = [.infinity false, .zero, .zero, .nan] := by
    simp only [current, start, callEach, call_eq, sortOn_latencies]
    rfl
  have failed : (bySpaceReadable.call ofReadLatency current).1 = .error (.malformedSize "0") := by
    rw [moved]
    rfl
  have kept :=
    (callEach_sorts_in_turn ofReadLatency start [byReadLatency, bySpaceReadable]).1
      [byReadLatency] bySpaceReadable [] rfl current rfl _ failed
  exact ⟨moved, failed, kept⟩

end TableOrder

end TableReport
