import TableReport.Proofs.TableOrder.Sort

/-!
How sorting fails. Ranks are read in the order of the list, so the first table
without a rank names the fault. Once all ranks are there, only quantities can
clash, and the clash is that of the first table with the first one of the other
kind; sorting tells it in the words in which `compare` tells it.
-/

namespace TableReport

/-- The first item of a list that has a property. -/
def FirstWith {α : Type} (p : α → Prop) (items : List α) (item : α) : Prop :=
  ∃ before after, items = before ++ item :: after ∧ (∀ other ∈ before, ¬ p other) ∧ p item

theorem firstWith_cons_iff {α : Type} {p : α → Prop} {head item : α} {rest : List α} :
    FirstWith p (head :: rest) item ↔ p head ∧ item = head ∨ ¬ p head ∧ FirstWith p rest item := by
  constructor
  · rintro ⟨before, after, split, earlier, found⟩
    cases before with
    | nil =>
        obtain ⟨rfl, rfl⟩ := List.cons.inj split
        exact .inl ⟨found, rfl⟩
    | cons first before =>
        obtain ⟨rfl, rfl⟩ := List.cons.inj split
        obtain ⟨notFirst, earlier⟩ := List.forall_mem_cons.mp earlier
        exact .inr ⟨notFirst, before, after, rfl, earlier, found⟩
  · rintro (⟨found, rfl⟩ | ⟨notHead, before, after, rfl, earlier, found⟩)
    · exact ⟨[], rest, rfl, by simp, found⟩
    · exact ⟨head :: before, after, rfl, List.forall_mem_cons.mpr ⟨notHead, earlier⟩, found⟩

theorem find?_eq_some_iff_firstWith {α : Type} {p : α → Bool} {items : List α} {item : α} :
    items.find? p = some item ↔ FirstWith (fun x => p x) items item := by
  simp only [List.find?_eq_some_iff_append, FirstWith, Bool.not_eq_true', Bool.not_eq_true]
  grind

theorem FirstWith.mem {α : Type} {p : α → Prop} {items : List α} {item : α}
    (first : FirstWith p items item) : item ∈ items := by
  obtain ⟨before, after, rfl, -, -⟩ := first
  simp

theorem FirstWith.holds {α : Type} {p : α → Prop} {items : List α} {item : α}
    (first : FirstWith p items item) : p item := by
  obtain ⟨-, -, -, -, found⟩ := first
  exact found

theorem FirstWith.congr {α : Type} {p q : α → Prop} {items : List α} {item : α}
    (agree : ∀ other ∈ items, p other ↔ q other) : FirstWith p items item ↔ FirstWith q items item := by
  induction items with
  | nil => simp [FirstWith]
  | cons head rest inductionHypothesis =>
      obtain ⟨agreeHead, agreeRest⟩ := List.forall_mem_cons.mp agree
      rw [firstWith_cons_iff, firstWith_cons_iff, agreeHead, inductionHypothesis agreeRest]

namespace Quantity

def rank : Quantity → Rank
  | .integer n => .integer n
  | .float x => .float x

theorem rank_ne_missing (q : Quantity) : q.rank ≠ .missing := by
  cases q <;> simp [rank]

theorem kind_rank (q : Quantity) : q.rank.kind = q.kind := by
  cases q <;> rfl

end Quantity

namespace TableOrder

variable {order : TableOrder} {tables : List Table} {fault : OrderFault} {metric : Metric}

/-- Texts of which the first one that is no size is to blame. -/
def RefusesTexts (order : TableOrder) (texts : List String) (fault : OrderFault) : Prop :=
  ∃ text, FirstWith (fun text => Size.bytes? order.encoding text = none) texts text ∧
    fault = .malformedSize text

/-- Tables that cannot be sorted, with the fault that tells why. -/
def Refuses (order : TableOrder) (tables : List Table) (fault : OrderFault) : Prop :=
  match order.metric with
  | none => False
  | some metric =>
    match metric.reading with
    | .count _ | .ratio _ | .latency _ | .name _ => False
    | .size get => order.RefusesTexts (tables.map get) fault
    | .offHeap get => order.RefusesTexts (tables.filterMap get) fault
    | .quantity get =>
      (∃ table, FirstWith (fun t => get t = none) tables table ∧
        fault = .absentValue metric.name table.fullName) ∨
      (∀ t ∈ tables, get t ≠ none) ∧
        ∃ first rest other, tables = first :: rest ∧
          FirstWith (fun t => (get t).map (·.kind) ≠ (get first).map (·.kind)) tables other ∧
          order.compare first other = .error fault ∧
          ∃ leftKind rightKind,
            fault = .kindsDiffer metric.name first.fullName leftKind other.fullName rightKind

theorem ranked_cons_eq_error_iff {head : Table} {rest : List Table} :
    order.ranked id (head :: rest) = .error fault ↔
      order.rank head = .error fault ∨
      (∃ r, order.rank head = .ok r) ∧ order.ranked id rest = .error fault := by
  cases rankHead : order.rank head with
  | error fault' => simp [ranked, rankHead, bind, Except.bind]
  | ok r =>
      cases rankRest : order.ranked id rest <;>
        simp [ranked, rankHead, rankRest, bind, Except.bind]

theorem exists_rank_iff {x : Table} :
    (∃ r, order.rank x = .ok r) ↔ ∀ fault, order.rank x ≠ .error fault := by
  cases order.rank x <;> simp

theorem ranked_eq_error_iff {p : Table → Prop} {faultOf : Table → OrderFault}
    (unreadable : ∀ t fault, order.rank t = .error fault ↔ p t ∧ fault = faultOf t) :
    order.ranked id tables = .error fault ↔
      ∃ table, FirstWith p tables table ∧ fault = faultOf table := by
  induction tables with
  | nil => simp [ranked, FirstWith]
  | cons head rest inductionHypothesis =>
      simp only [ranked_cons_eq_error_iff, exists_rank_iff, Ne, unreadable, firstWith_cons_iff,
        inductionHypothesis]
      by_cases blamed : p head <;> simp [blamed]

theorem ranked_eq_error_iff_of_texts (get : Table → Option String)
    (unreadable : ∀ t fault, order.rank t = .error fault ↔
      ∃ text, get t = some text ∧ Size.bytes? order.encoding text = none ∧
        fault = .malformedSize text) :
    order.ranked id tables = .error fault ↔ order.RefusesTexts (tables.filterMap get) fault := by
  unfold RefusesTexts
  induction tables with
  | nil => simp [ranked, FirstWith]
  | cons head rest inductionHypothesis =>
      rw [ranked_cons_eq_error_iff, exists_rank_iff, inductionHypothesis]
      simp only [Ne, unreadable]
      cases sizeText : get head with
      | none => simp [sizeText]
      | some text =>
          by_cases malformed : Size.bytes? order.encoding text = none <;>
            simp [sizeText, malformed, firstWith_cons_iff]

theorem readable_iff_ranked :
    (∀ t ∈ tables, ∃ r, order.rank t = .ok r) ↔
      order.ranked id tables = .ok (tables.map (order.withRank id)) :=
  ⟨ranked_of_readable, readable_of_ranked⟩

/-- Sorting fails when a rank cannot be read, or else when the ranks clash. -/
theorem sort_eq_error_iff :
    order.sort tables = .error fault ↔
      order.ranked id tables = .error fault ∨
      (∀ t ∈ tables, ∃ r, order.rank t = .ok r) ∧
        order.clash? id (tables.map (order.withRank id)) = some fault := by
  rw [readable_iff_ranked]
  unfold sort sortOn
  cases ranks : order.ranked id tables with
  | error fault' => simp [bind, Except.bind]
  | ok entries =>
      cases ranks.symm.trans (ranked_of_readable (readable_of_ranked ranks))
      cases clashes : order.clash? id (tables.map (order.withRank id)) <;>
        simp [bind, Except.bind, clashes]

theorem compare_fault {x y : Table} {r s : Rank} (first : order.rank x = .ok r)
    (second : order.rank y = .ok s) (failed : order.compare x y = .error fault) :
    fault = order.clash x r y s := by
  cases compared : r.compare? s <;>
    simp [TableOrder.compare, first, second, bind, Except.bind, compared] at failed
  exact failed.symm

theorem compare_eq_clash {x y : Table} (first : ∃ r, order.rank x = .ok r)
    (second : ∃ s, order.rank y = .ok s)
    (incomparable : (order.rankOrMissing x).compare? (order.rankOrMissing y) = none) :
    order.compare x y =
      .error (order.clash x (order.rankOrMissing x) y (order.rankOrMissing y)) := by
  obtain ⟨r, first⟩ := first
  obtain ⟨s, second⟩ := second
  rw [rankOrMissing_of_rank first, rankOrMissing_of_rank second] at *
  simp [TableOrder.compare, first, second, bind, Except.bind, incomparable]

theorem compare?_eq_none_iff_not_compares {x y : Table} (first : ∃ r, order.rank x = .ok r)
    (second : ∃ s, order.rank y = .ok s) :
    (order.rankOrMissing x).compare? (order.rankOrMissing y) = none ↔ ¬ order.Compares x y := by
  rw [Rank.compare?_eq_none_iff, compares_iff_comparable first second]

theorem compares_self {x : Table} (readable : ∃ r, order.rank x = .ok r) : order.Compares x x :=
  (compares_iff_comparable readable readable).mpr (.inr (.inr rfl))

/-- Where no rank is missing, a clash is what `compare` says of the first table
and the first one that is not comparable with it. -/
theorem clash?_eq_some_iff (readable : ∀ t ∈ tables, ∃ r, order.rank t = .ok r)
    (present : ∀ t ∈ tables, order.rankOrMissing t ≠ .missing) :
    order.clash? id (tables.map (order.withRank id)) = some fault ↔
      ∃ first rest other, tables = first :: rest ∧
        FirstWith (fun t => ¬ order.Compares first t) tables other ∧
        order.compare first other = .error fault := by
  unfold clash?
  rw [List.filter_eq_self.mpr (by simpa [withRank] using present)]
  cases tables with
  | nil => simp
  | cons first rest =>
      obtain ⟨readableFirst, readableRest⟩ := List.forall_mem_cons.mp readable
      have agree : ∀ t ∈ rest,
          ((order.rankOrMissing first).compare? (order.rankOrMissing t)).isNone ↔
            ¬ order.Compares first t := by
        intro t membership
        rw [Option.isNone_iff_eq_none]
        exact compare?_eq_none_iff_not_compares readableFirst (readableRest t membership)
      have clashes : ∀ t ∈ rest, ¬ order.Compares first t →
          order.compare first t =
            .error (order.clash first (order.rankOrMissing first) t (order.rankOrMissing t)) := by
        intro t membership incomparable
        have readableT := readableRest t membership
        exact compare_eq_clash readableFirst readableT
          ((compare?_eq_none_iff_not_compares readableFirst readableT).mpr incomparable)
      simp only [List.map_cons, List.find?_map, Option.map_map, Option.map_eq_some_iff,
        find?_eq_some_iff_firstWith, Function.comp_def, withRank, id, FirstWith.congr agree]
      constructor
      · rintro ⟨other, found, rfl⟩
        have inWhole : FirstWith (fun t => ¬ order.Compares first t) (first :: rest) other :=
          firstWith_cons_iff.mpr
            (.inr ⟨not_not_intro (compares_self readableFirst), found⟩)
        exact ⟨first, rest, other, rfl, inWhole, clashes other found.mem found.holds⟩
      · rintro ⟨first', rest', other, same, found, compared⟩
        obtain ⟨rfl, rfl⟩ := List.cons.inj same
        rcases firstWith_cons_iff.mp found with ⟨notSelf, -⟩ | ⟨-, found⟩
        · exact absurd (compares_self readableFirst) notSelf
        · rw [clashes other found.mem found.holds] at compared
          exact ⟨other, found, Except.error.inj compared⟩

/-- Only quantities have ranks of two kinds that cannot be compared. -/
theorem comparable_of_rank {x y : Table} {r s : Rank}
    (noQuantity : ∀ metric ∈ order.metric, ∀ get, metric.reading ≠ .quantity get)
    (first : order.rank x = .ok r) (second : order.rank y = .ok s) : r.Comparable s := by
  have firstKind := kind_mem_kinds first
  have secondKind := kind_mem_kinds second
  unfold kinds at *
  cases named : order.metric with
  | none =>
      simp only [named, Option.map_none, Option.getD_none, List.mem_singleton] at *
      exact .inr (.inr (firstKind.trans secondKind.symm))
  | some metric =>
      have notQuantity := noQuantity metric named
      cases reading : metric.reading <;>
        simp [named, reading, Reading.kinds, Rank.kind_eq_missing_iff] at firstKind secondKind
      case quantity get => exact absurd reading (notQuantity get)
      all_goals grind [Rank.Comparable]

theorem sort_eq_error_iff_of_noQuantity
    (noQuantity : ∀ metric ∈ order.metric, ∀ get, metric.reading ≠ .quantity get) :
    order.sort tables = .error fault ↔ order.ranked id tables = .error fault := by
  have noClash (readable : ∀ t ∈ tables, ∃ r, order.rank t = .ok r) :
      order.clash? id (tables.map (order.withRank id)) = none := by
    rw [clash?_eq_none_iff]
    simp only [List.forall_mem_map, withRank]
    intro x memberX y memberY
    obtain ⟨r, rankX⟩ := readable x memberX
    obtain ⟨s, rankY⟩ := readable y memberY
    rw [id, id, rankOrMissing_of_rank rankX, rankOrMissing_of_rank rankY]
    exact comparable_of_rank noQuantity rankX rankY
  rw [sort_eq_error_iff, or_iff_left]
  rintro ⟨readable, clash⟩
  simp [noClash readable] at clash

theorem ranked_ne_error (readable : ∀ t, ∃ r, order.rank t = .ok r) :
    order.ranked id tables ≠ .error fault := by
  rw [readable_iff_ranked.mp fun t _ => readable t]
  simp

theorem sizeRank_eq_error_iff {text : String} :
    order.sizeRank text = .error fault ↔
      Size.bytes? order.encoding text = none ∧ fault = .malformedSize text := by
  unfold sizeRank Size.bytes
  cases Size.bytes? order.encoding text <;> simp [Except.map, eq_comm]

section Quantities

variable {get : Table → Option Quantity} {x y : Table}

theorem rank_quantity (named : order.metric = some metric)
    (reading : metric.reading = .quantity get) (x : Table) :
    order.rank x = match get x with
      | some q => .ok q.rank
      | none => .error (.absentValue metric.name x.fullName) := by
  simp only [rank, named, reading]
  cases get x with
  | none => rfl
  | some q => cases q <;> rfl

theorem rank_quantity_eq_error_iff (named : order.metric = some metric)
    (reading : metric.reading = .quantity get) :
    order.rank x = .error fault ↔
      get x = none ∧ fault = .absentValue metric.name x.fullName := by
  rw [rank_quantity named reading]
  cases get x <;> simp [eq_comm]

theorem exists_rank_quantity_iff (named : order.metric = some metric)
    (reading : metric.reading = .quantity get) :
    (∃ r, order.rank x = .ok r) ↔ get x ≠ none := by
  rw [rank_quantity named reading]
  cases get x <;> simp

theorem compares_quantity_iff (named : order.metric = some metric)
    (reading : metric.reading = .quantity get) (presentX : get x ≠ none) (presentY : get y ≠ none) :
    order.Compares x y ↔ (get y).map (·.kind) = (get x).map (·.kind) := by
  obtain ⟨q, quantityX⟩ := Option.ne_none_iff_exists'.mp presentX
  obtain ⟨q', quantityY⟩ := Option.ne_none_iff_exists'.mp presentY
  simp [Compares, rank_quantity named reading, quantityX, quantityY, Rank.Comparable,
    Quantity.rank_ne_missing, Quantity.kind_rank, eq_comm (a := q.kind)]

/-- Once no quantity is absent, the first table clashes with the first one whose
quantity is of the other kind. -/
theorem clash?_quantity_iff (named : order.metric = some metric)
    (reading : metric.reading = .quantity get) (present : ∀ t ∈ tables, get t ≠ none) :
    order.clash? id (tables.map (order.withRank id)) = some fault ↔
      ∃ first rest other, tables = first :: rest ∧
        FirstWith (fun t => (get t).map (·.kind) ≠ (get first).map (·.kind)) tables other ∧
        order.compare first other = .error fault ∧
        ∃ leftKind rightKind,
          fault = .kindsDiffer metric.name first.fullName leftKind other.fullName rightKind := by
  have rankOf : ∀ t ∈ tables, ∃ q : Quantity, order.rank t = .ok q.rank := by
    intro t membership
    obtain ⟨q, quantity⟩ := Option.ne_none_iff_exists'.mp (present t membership)
    exact ⟨q, by rw [rank_quantity named reading, quantity]⟩
  have notMissing : ∀ t ∈ tables, order.rankOrMissing t ≠ .missing := by
    intro t membership
    obtain ⟨q, rankT⟩ := rankOf t membership
    exact rankOrMissing_of_rank rankT ▸ q.rank_ne_missing
  have readable : ∀ t ∈ tables, ∃ r, order.rank t = .ok r :=
    fun t membership => (rankOf t membership).imp' _ fun _ => id
  rw [clash?_eq_some_iff readable notMissing]
  refine exists_congr fun first => exists_congr fun rest => exists_congr fun other =>
    and_congr_right fun split => ?_
  have memberFirst : first ∈ tables := split ▸ List.mem_cons_self
  have agree : ∀ t ∈ tables,
      ¬ order.Compares first t ↔ (get t).map (·.kind) ≠ (get first).map (·.kind) :=
    fun t membership => not_congr (compares_quantity_iff named reading
      (present first memberFirst) (present t membership))
  rw [FirstWith.congr agree]
  refine and_congr_right fun found => ⟨fun compared => ⟨compared, ?_⟩, And.left⟩
  obtain ⟨r, rankFirst⟩ := readable first memberFirst
  obtain ⟨s, rankOther⟩ := readable other found.mem
  refine ⟨r.kind, s.kind, ?_⟩
  rw [compare_fault rankFirst rankOther compared, clash, keyName, named]

theorem sort_eq_error_iff_of_quantity (named : order.metric = some metric)
    (reading : metric.reading = .quantity get) :
    order.sort tables = .error fault ↔ order.Refuses tables fault := by
  rw [sort_eq_error_iff,
    ranked_eq_error_iff fun t fault => rank_quantity_eq_error_iff named reading]
  simp only [Refuses, named, reading, exists_rank_quantity_iff named reading]
  exact or_congr Iff.rfl (and_congr_right (clash?_quantity_iff named reading))

end Quantities

theorem sort_eq_error_iff_refuses : order.sort tables = .error fault ↔ order.Refuses tables fault := by
  cases named : order.metric with
  | none =>
      rw [sort_eq_error_iff_of_noQuantity (by simp [named])]
      simpa [Refuses, named] using ranked_ne_error fun t => ⟨_, by simp only [rank, named]; rfl⟩
  | some metric =>
      cases reading : metric.reading with
      | quantity get => exact sort_eq_error_iff_of_quantity named reading
      | size get =>
          rw [sort_eq_error_iff_of_noQuantity (by simp [named, reading]),
            ranked_eq_error_iff_of_texts fun t => some (get t)]
          · simp [Refuses, named, reading]
          · simp [rank, named, reading, sizeRank_eq_error_iff]
      | offHeap get =>
          rw [sort_eq_error_iff_of_noQuantity (by simp [named, reading]),
            ranked_eq_error_iff_of_texts get]
          · simp [Refuses, named, reading]
          · intro t fault
            simp only [rank, named, reading]
            cases get t <;> simp [sizeRank_eq_error_iff]
      | _ =>
          rw [sort_eq_error_iff_of_noQuantity (by simp [named, reading])]
          simpa [Refuses, named, reading] using
            ranked_ne_error fun t => ⟨_, by simp only [rank, named, reading]; rfl⟩

theorem Refuses.malformed_or_absent_or_kindsDiffer (refused : order.Refuses tables fault) :
    (∃ text, fault = .malformedSize text) ∨ (∃ key table, fault = .absentValue key table) ∨
      ∃ key left leftKind right rightKind,
        fault = .kindsDiffer key left leftKind right rightKind := by
  unfold Refuses at refused
  split at refused
  · exact refused.elim
  · split at refused
    case h_5 get _ =>
      obtain ⟨text, -, told⟩ := refused
      exact .inl ⟨text, told⟩
    case h_6 get _ =>
      obtain ⟨text, -, told⟩ := refused
      exact .inl ⟨text, told⟩
    case h_7 get _ =>
      rcases refused with ⟨table, -, told⟩ | ⟨-, first, -, other, -, -, -, left, right, told⟩
      · exact .inr (.inl ⟨_, _, told⟩)
      · exact .inr (.inr ⟨_, _, _, _, _, told⟩)
    all_goals exact refused.elim

/-- Sorting fails in the ways of `Refuses`, and in no other. -/
theorem sort_fails_exactly (order : TableOrder) (tables : List Table) :
    (∀ fault, order.sort tables = .error fault ↔ order.Refuses tables fault) ∧
    (∀ name, order.sort tables ≠ .error (.unsupportedKey name)) ∧
    order.sort tables ≠ .error .missingTable := by
  refine ⟨fun fault => sort_eq_error_iff_refuses, fun name failed => ?_, fun failed => ?_⟩ <;>
  · have told := (sort_eq_error_iff_refuses.mp failed).malformed_or_absent_or_kindsDiffer
    simp at told

/-- An absent quantity is told of even if two tables in front of it clash. -/
example :
    ({ metric := some .sstables, ascending := false, encoding := .plain } : TableOrder).sort
      [ Table.fresh "ks" "a", { Table.fresh "ks" "b" with sstables := some (.float .zero) },
        { Table.fresh "ks" "c" with sstables := none } ] =
      .error (.absentValue "sstable_count" "ks.c") := rfl

end TableOrder

end TableReport
