import RecordQuery.Proofs.Query.SortOrder
import RecordQuery.Proofs.StableSort
import RecordQuery.Query.Execution

/-!
# Queries as a reference pipeline

A query is answered in one way only: keep the records that match, put them in the one stable
order of the sort keys, keep the positions that lie in the window, and cut every record down to
the fields asked for. Leaving out a stage whose facet is empty never changes an answer.
-/

namespace RecordQuery

/-! ## Positions of a window -/

/-- The items from a position on, with their positions. -/
theorem filter_zipIdx_from {α : Type} (items : List α) (k n : Nat) :
    (items.zipIdx k).filter (fun x => k + n ≤ x.2) = (items.drop n).zipIdx (k + n) := by
  induction items generalizing k n with
  | nil => simp
  | cons a items ih =>
    cases n with
    | zero =>
      rw [List.filter_eq_self.mpr fun x hx => by simpa using List.le_snd_of_mem_zipIdx hx]
      rfl
    | succ n =>
      rw [List.zipIdx_cons, List.filter_cons_of_neg (by simp), List.drop_succ_cons,
        show k + (n + 1) = k + 1 + n by omega, ih]

/-- The items at a number of positions, counted from the first one. -/
theorem filter_zipIdx_until {α : Type} (items : List α) (k n : Nat) :
    ((items.zipIdx k).filter fun x => x.2 < k + n).map Prod.fst = items.take n := by
  induction items generalizing k n with
  | nil => simp
  | cons a items ih =>
    cases n with
    | zero =>
      rw [List.filter_eq_nil_iff.mpr fun x hx => by
        simpa using List.le_snd_of_mem_zipIdx hx]
      rfl
    | succ n =>
      rw [List.zipIdx_cons, List.filter_cons_of_pos (by simp), List.map_cons,
        List.take_succ_cons, show k + (n + 1) = k + 1 + n by omega, ih]

namespace Window

/-- A window of two zeros leaves everything where it is. -/
theorem apply_of_not_isDefined {w : Window} (h : w.isDefined = false)
    {α : Type} (items : List α) : w.apply items = items := by
  simp only [isDefined, Bool.or_eq_false_iff, bne_eq_false_iff_eq] at h
  simp [apply, h.1, h.2]

end Window

namespace SortKey

/-- Sorting by no keys leaves every record where it is. -/
theorem sort_nil (records : List Record) : sort [] records = records :=
  List.mergeSort_of_pairwise (List.pairwise_of_forall fun _ _ => rfl)

end SortKey

namespace Query

/-- The positions that the window of a query covers: from the offset on, as many as the count
says, or all of them if there is no window or its count is zero. -/
def covers (q : Query) (position : Nat) : Bool :=
  match q.window with
  | none => true
  | some w => w.offset.toNat ≤ position &&
      (w.count == 0 || position < w.offset.toNat + w.count.toNat)

/-- The items at the positions that the window covers. -/
def windowed (q : Query) {α : Type} (items : List α) : List α :=
  (items.zipIdx.filter fun x => q.covers x.2).map Prod.fst

/-- A record as the answer shows it: in full, or the fields asked for. -/
def shown (q : Query) (record : Record) : Record :=
  if q.fields = [] then record else record.project (q.fields.map FieldPath.ofText)

/-! ## Stages -/

theorem filter_selects_of_filters_eq_nil {q : Query} (h : q.filters = []) (records : List Record) :
    records.filter q.selects = records :=
  List.filter_eq_self.mpr fun record _ => by rw [selects, h, List.all_nil]

theorem value_selectStage (q : Query) (records : List Record) :
    (q.selectStage records).value = records.filter q.selects := by
  unfold selectStage
  split
  next h =>
    rw [filter_selects_of_filters_eq_nil (List.isEmpty_iff.mp h)]
    rfl
  next => rfl

theorem value_sortStage (q : Query) (records : List Record) :
    (q.sortStage records).value = SortKey.sort q.sorting records := by
  unfold sortStage
  split
  next h =>
    rw [List.isEmpty_iff.mp h, SortKey.sort_nil]
    rfl
  next => rfl

/-- Skipping and counting gives the items at the positions of the window. -/
theorem apply_eq_windowed (q : Query) {w : Window} (hw : q.window = some w) {α : Type}
    (items : List α) : w.apply items = q.windowed items := by
  have hfrom : items.zipIdx.filter (fun x => w.offset.toNat ≤ x.2) =
      (items.drop w.offset.toNat).zipIdx w.offset.toNat := by
    simpa using filter_zipIdx_from items 0 w.offset.toNat
  unfold Window.apply windowed covers
  by_cases hc : w.count = 0
  · simp [hw, hc, hfrom]
  · have huntil := filter_zipIdx_until (items.drop w.offset.toNat) w.offset.toNat w.count.toNat
    simp only [hw, hc, if_false, beq_eq_false_iff_ne.mpr hc, Bool.false_or]
    rw [← huntil, ← hfrom, List.filter_filter]
    simp only [Bool.and_comm]

theorem windowed_of_window_none {q : Query} (hw : q.window = none) {α : Type} (items : List α) :
    q.windowed items = items := by
  have hall : ∀ x ∈ items.zipIdx, q.covers x.2 = true := fun x _ => by simp [covers, hw]
  rw [windowed, List.filter_eq_self.mpr hall, List.zipIdx_map_fst]

theorem windowed_of_not_isDefined {q : Query} (hwindow : q.window.any Window.isDefined = false)
    {α : Type} (items : List α) : q.windowed items = items := by
  cases hw : q.window with
  | none => exact windowed_of_window_none hw items
  | some w =>
    rw [hw, Option.any_some] at hwindow
    rw [← q.apply_eq_windowed hw, w.apply_of_not_isDefined hwindow]

theorem value_windowStage (q : Query) (records : List Record) :
    (q.windowStage records).value = q.windowed records := by
  unfold windowStage
  cases hw : q.window with
  | none =>
    rw [windowed_of_window_none hw]
    rfl
  | some w =>
    cases hd : w.isDefined with
    | true =>
      rw [Option.filter_some_pos hd, ← q.apply_eq_windowed hw]
      rfl
    | false =>
      rw [Option.filter_some_neg (by simp [hd]), windowed_of_not_isDefined (by rw [hw]; exact hd)]
      rfl

theorem shown_of_fields_eq_nil {q : Query} (h : q.fields = []) : q.shown = id :=
  funext fun _ => if_pos h

theorem value_projectStage (q : Query) (records : List Record) :
    (q.projectStage records).value = records.map q.shown := by
  unfold projectStage
  split
  next h =>
    rw [shown_of_fields_eq_nil (List.isEmpty_iff.mp h), List.map_id]
    rfl
  next h =>
    have hshown : q.shown = fun record => record.project (q.fields.map FieldPath.ofText) :=
      funext fun record => if_neg fun he => h (List.isEmpty_iff.mpr he)
    rw [hshown]
    rfl

/-- Every stage may be run, whether or not its facet is empty. -/
theorem execute_eq_stages (q : Query) (records : List Record) :
    q.execute records =
      (q.windowed (SortKey.sort q.sorting (records.filter q.selects))).map q.shown := by
  simp only [execute, run, Logged.value_bind, value_selectStage, value_sortStage,
    value_windowStage, value_projectStage]

/-- The answer to a query is what the reference pipeline gives: there is exactly one stable
sort of the records that match, and its records at the positions of the window are shown. -/
theorem execute_eq_reference (q : Query) (records : List Record) :
    ∃ sorted : List (Record × Nat),
      StableSort (SortKey.orderBy q.sorting) (records.filter q.selects).zipIdx sorted ∧
      (∀ other, StableSort (SortKey.orderBy q.sorting) (records.filter q.selects).zipIdx other →
        other = sorted) ∧
      q.execute records = (q.windowed (sorted.map Prod.fst)).map q.shown := by
  obtain ⟨sorted, hsorted, hrecords⟩ :=
    stableSort_mergeSort (SortKey.orderBy q.sorting) (records.filter q.selects)
  refine ⟨sorted, hsorted, fun other hother => hother.unique hsorted, ?_⟩
  rw [execute_eq_stages, hrecords]
  rfl

end Query

end RecordQuery
