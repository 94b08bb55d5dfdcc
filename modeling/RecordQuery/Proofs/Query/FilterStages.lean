import RecordQuery.Proofs.Query.Execution

/-!
# Filters in stages

Filters may be asked all at once or one part after the other, before the records are sorted or
after it: sorting stably does not mix up the records that are kept. Which filters a query has
decides, and neither their order nor how often they are repeated.
-/

namespace RecordQuery

open Std

/-- What is kept of a sorted list is in the order in which it would be sorted alone. -/
theorem filter_mergeSort {α : Type} {order : α → α → Ordering} [TransCmp order] (p : α → Bool)
    (items : List α) :
    (items.mergeSort (notAfter order)).filter p = (items.filter p).mergeSort (notAfter order) := by
  obtain ⟨sorted, hsorted, hitems⟩ := stableSort_mergeSort order items
  -- The items that are kept carry the positions that they had among all of them.
  have hkept := map_eq_mergeSort (fun _ _ => Nat.lt_asymm) (hsorted.perm.filter (p ∘ Prod.fst))
    ((pairwise_zipIdx items 0).filter (p ∘ Prod.fst))
    ((hsorted.ascending.and hsorted.stable).filter (p ∘ Prod.fst))
  rw [← List.filter_map, ← List.filter_map, List.zipIdx_map_fst, hitems] at hkept
  exact hkept

theorem SortKey.filter_sort (keys : List SortKey) (p : Record → Bool) (records : List Record) :
    (sort keys records).filter p = sort keys (records.filter p) :=
  filter_mergeSort p records

namespace Query

/-- Without a window and without fields a query filters and sorts. -/
theorem execute_eq_sort_filter {q : Query} (hwindow : q.window.any Window.isDefined = false)
    (hfields : q.fields = []) (records : List Record) :
    q.execute records = SortKey.sort q.sorting (records.filter q.selects) := by
  rw [execute_eq_stages, windowed_of_not_isDefined hwindow, shown_of_fields_eq_nil hfields,
    List.map_id]

theorem selects_append (fs gs : List Filter) (record : Record) :
    ({ filters := fs ++ gs } : Query).selects record =
      (({ filters := fs } : Query).selects record && ({ filters := gs } : Query).selects record) :=
  List.all_append

theorem selects_congr {q r : Query} (h : ∀ f, f ∈ q.filters ↔ f ∈ r.filters) :
    q.selects = r.selects := by
  funext record
  rw [Bool.eq_iff_iff, selects, selects, List.all_eq_true, List.all_eq_true]
  exact forall_congr' fun f => imp_congr_left (h f)

/-- Asking two lists of filters at once is asking the second of the answer to the first, and
filtering the sorted records by one after the other. Any other list with the same filters will
do. -/
theorem execute_append_filters (fs gs : List Filter) (keys : List SortKey)
    (records : List Record) :
    let both : Query := { filters := fs ++ gs, sorting := keys }
    let first : Query := { filters := fs, sorting := keys }
    let second : Query := { filters := gs }
    both.execute records = second.execute (first.execute records) ∧
    both.execute records =
      ((SortKey.sort keys records).filter first.selects).filter second.selects ∧
    ∀ hs : List Filter, (∀ f, f ∈ hs ↔ f ∈ fs ++ gs) →
      ({ filters := hs, sorting := keys } : Query).execute records = both.execute records := by
  intro both first second
  have hboth : both.execute records = SortKey.sort keys (records.filter both.selects) :=
    execute_eq_sort_filter rfl rfl records
  have hfirst : first.execute records = (SortKey.sort keys records).filter first.selects := by
    rw [SortKey.filter_sort]
    exact execute_eq_sort_filter rfl rfl records
  have hsecond : ∀ rs, second.execute rs = rs.filter second.selects := fun rs => by
    rw [execute_eq_sort_filter rfl rfl]
    exact SortKey.sort_nil _
  have hstages : both.execute records =
      ((SortKey.sort keys records).filter first.selects).filter second.selects := by
    rw [hboth, List.filter_filter, SortKey.filter_sort]
    congr 2
    funext record
    rw [Bool.and_comm]
    exact selects_append fs gs record
  refine ⟨?_, hstages, fun hs h => ?_⟩
  · rw [hsecond, hfirst, hstages]
  · let other : Query := { filters := hs, sorting := keys }
    have hother : other.selects = both.selects := selects_congr h
    rw [hboth, ← hother]
    exact execute_eq_sort_filter rfl rfl records

/-- The filters in the other order, one of them twice; the two records that are left tie. -/
theorem execute_append_filters_repeated :
    let above : Filter := ⟨"n", .gt, "1"⟩
    let holdsE : Filter := ⟨"s", .like, "E"⟩
    let keys : List SortKey := [⟨"n", .descending⟩]
    let record := fun (n s : String) => (Dict.empty.insert "n" (.text n)).insert "s" (.text s)
    let records : List Record :=
      [record "2" "sea", record "02" "lake", record "2" "pond", record "1" "delta"]
    (∀ f, f ∈ [holdsE, above, holdsE] ↔ f ∈ [above] ++ [holdsE]) ∧
    ({ filters := [holdsE, above, holdsE], sorting := keys } : Query).execute records =
      [record "2" "sea", record "02" "lake"] := by
  intro above holdsE keys record records
  have hmem : ∀ f, f ∈ [holdsE, above, holdsE] ↔ f ∈ [above] ++ [holdsE] := fun f => by
    simp only [List.mem_cons, List.mem_append, List.not_mem_nil, or_false]
    exact or_left_comm.trans (or_congr_right or_self_iff)
  have hsorted : SortKey.sort keys records = records :=
    List.mergeSort_of_pairwise (by decide +kernel)
  have hfirst : records.filter ({ filters := [above], sorting := keys } : Query).selects =
      [record "2" "sea", record "02" "lake", record "2" "pond"] := by
    rw [List.filter_cons_of_pos (by decide +kernel), List.filter_cons_of_pos (by decide +kernel),
      List.filter_cons_of_pos (by decide +kernel), List.filter_cons_of_neg (by decide +kernel),
      List.filter_nil]
  obtain ⟨-, hstages, hothers⟩ := execute_append_filters [above] [holdsE] keys records
  refine ⟨hmem, ?_⟩
  rw [hothers _ hmem, hstages, hsorted, hfirst, List.filter_cons_of_pos (by decide +kernel),
    List.filter_cons_of_pos (by decide +kernel), List.filter_cons_of_neg (by decide +kernel),
    List.filter_nil]

end Query

end RecordQuery
