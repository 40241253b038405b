import TableReport.TableOrder

/-!
Sorting in place. Items stand in slots. A call reads and checks the ranks of all
of them before it writes to the first slot. Calls can follow each other on the
same slots, also after one that failed.
-/

namespace TableReport

variable {α : Type}

/-- Writes items into slots, from the first slot on. A slot that no item is left
for keeps what it holds. -/
def refill : List α → List α → List α
  | _ :: slots, item :: items => item :: refill slots items
  | slots, _ => slots

namespace TableOrder

/-- Sorts items in their slots by the tables they hold. -/
def sortInPlace (order : TableOrder) (table : α → Table) :
    ExceptT OrderFault (StateM (List α)) Unit := do
  let ranked ← MonadExcept.ofExcept (order.ranked table (← get))
  match order.clash? table ranked with
  | some fault => throw fault
  | none => modify (refill · ((ranked.mergeSort order.inOrder).map (·.2)))

/-- One call on given slots: how it ended, and what the slots hold afterwards. -/
def call (order : TableOrder) (table : α → Table) (slots : List α) :
    Except OrderFault Unit × List α :=
  (order.sortInPlace table).run.run slots

/-- Calls one after another: how each ended, and what the slots hold in the end. -/
def callEach (table : α → Table) :
    List TableOrder → List α → List (Except OrderFault Unit) × List α
  | [], slots => ([], slots)
  | order :: orders, slots =>
    let (outcome, slots) := order.call table slots
    let (outcomes, slots) := callEach table orders slots
    (outcome :: outcomes, slots)

end TableOrder

end TableReport
