import RecordQuery.Proofs.Query.FilterStages
import RecordQuery.Proofs.Record.Projection
import RecordQuery.Proofs.Text.Pieces

/-!
# Queries that change nothing

A query is empty exactly when it leaves every collection as it is. A facet with content changes
some collection, whatever stands in the others: a filter turns the record without fields away, a
window does not take in one record more than it counts, fields leave out a name with a point, which
no path reaches, and a sort key tells a record that holds a text under its field from one without.
-/

namespace RecordQuery

namespace Window

theorem length_apply_le {w : Window} (hdefined : w.isDefined = true) {α : Type} {items : List α}
    (hlength : items.length ≤ w.count.toNat + 1) : (w.apply items).length ≤ w.count.toNat := by
  unfold apply
  by_cases hcount : w.count = 0
  · have hoffset : w.offset ≠ 0 := by
      simpa [isDefined, hcount] using hdefined
    have hskips : w.offset.toNat ≠ 0 := fun h => hoffset (UInt64.toNat_inj.mp h)
    simp only [if_pos hcount, List.length_drop]
    omega
  · simp only [if_neg hcount, List.length_take]
    omega

end Window

namespace Record

open FieldPath

/-- A name with a point is out of reach of the paths that texts write. -/
theorem get?_put_point (record : Record) (value : Json) (text : String) :
    (record.put (.field ".") value).get? (ofText text) = record.get? (ofText text) := by
  have hpoint : "." ∉ (ofText text).names := by
    rw [names_ofText, List.mem_map]
    rintro ⟨piece, hpiece, heq⟩
    refine Text.not_mem_of_mem_splitOn hpiece ?_
    rw [← String.toList_ofList (l := piece), heq]
    decide
  refine get?_put_of_apart record value (fun h => hpoint (h.subset List.mem_cons_self)) fun h => ?_
  obtain ⟨name, hname⟩ := List.exists_mem_of_ne_nil _ (names_ne_nil (ofText text))
  exact hpoint (List.mem_singleton.mp (h.subset hname) ▸ hname)

theorem get?_project_of_absent {record : Record} {fields : List FieldPath}
    (h : ∀ f ∈ fields, record.get? f = none) (path : FieldPath) :
    (record.project fields).get? path = none := by
  have habsent : ∀ f ∈ fields, (record.get? f).isSome ≠ true := fun f hf => by
    rw [h f hf]
    exact Bool.false_ne_true
  exact (restricts_project record fields).left_out
    (fun ⟨f, hf, hpresent, _⟩ => habsent f hf hpresent)
    (fun ⟨f, hf, hpresent, _⟩ => habsent f hf hpresent)

theorem operand_empty (field : String) : operand Dict.empty field = .none := by
  rw [operand, get?_empty]
  rfl

end Record

namespace SortKey

theorem eq_nil_of_sort_eq_self {keys : List SortKey}
    (h : ∀ records, sort keys records = records) : keys = [] := by
  have hsorted : ∀ a b : Record, orderBy keys a b ≠ .gt := fun a b => by
    have hpair : (sort keys [a, b]).Pairwise fun a b => orderBy keys a b ≠ .gt :=
      ascending_mergeSort [a, b]
    rw [h] at hpair
    exact List.rel_of_pairwise_cons hpair List.mem_cons_self
  cases keys with
  | nil => rfl
  | cons k keys =>
    let holder : Record := Record.put Dict.empty (FieldPath.ofText k.field) (.text "")
    have hholder : holder.operand k.field = .text "" := by
      rw [Record.operand, Record.get?_put_self]
      rfl
    have htie := eq_of_ne_gt (hsorted Dict.empty holder) (hsorted holder Dict.empty)
    have hfirst : k.order Dict.empty holder = .eq := (Ordering.then_eq_eq.mp htie).1
    rw [order, Record.operand_empty, hholder] at hfirst
    cases hd : k.direction <;> rw [hd] at hfirst <;> cases hfirst

end SortKey

namespace Query

theorem isEmpty_iff {q : Query} : q.isEmpty = true ↔ q.filters = [] ∧ q.sorting = [] ∧
    q.fields = [] ∧ q.window.any Window.isDefined = false := by
  simp only [isEmpty, Bool.and_eq_true, List.isEmpty_iff, Bool.not_eq_true', and_assoc]

section

variable {q : Query} (hidle : ∀ records, q.execute records = records)
include hidle

theorem filters_eq_nil_of_idle : q.filters = [] := by
  cases hfilters : q.filters with
  | nil => rfl
  | cons f filters =>
    have hrejected : ¬ q.selects Dict.empty = true := by
      rw [selects, hfilters, List.all_cons, Record.operand_empty]
      exact Bool.false_ne_true
    have hanswer : q.execute [Dict.empty] = [] := by
      rw [execute_eq_stages, List.filter_cons_of_neg hrejected, List.filter_nil, SortKey.sort,
        List.mergeSort_nil]
      rfl
    rw [hidle] at hanswer
    exact absurd hanswer (List.cons_ne_nil _ _)

theorem not_isDefined_of_idle : q.window.any Window.isDefined = false := by
  cases hwindow : q.window with
  | none => rfl
  | some w =>
    refine Bool.eq_false_iff.mpr fun hdefined => ?_
    let records : List Record := List.replicate (w.count.toNat + 1) Dict.empty
    let sorted := SortKey.sort q.sorting (records.filter q.selects)
    have hsorted : sorted.length ≤ w.count.toNat + 1 :=
      calc sorted.length = (records.filter q.selects).length := List.length_mergeSort _
        _ ≤ records.length := List.length_filter_le _ _
        _ = w.count.toNat + 1 := List.length_replicate
    have hanswer : (q.execute records).length = (w.apply sorted).length := by
      rw [execute_eq_stages, List.length_map, q.apply_eq_windowed hwindow]
    rw [hidle, List.length_replicate] at hanswer
    have hle := Window.length_apply_le hdefined hsorted
    omega

theorem fields_eq_nil_of_idle : q.fields = [] := by
  by_contra hfields
  let record : Record := Record.put Dict.empty (.field ".") .null
  have hanswer : q.execute [record] = [q.shown record] := by
    rw [execute_eq_stages, filter_selects_of_filters_eq_nil (filters_eq_nil_of_idle hidle),
      windowed_of_not_isDefined (not_isDefined_of_idle hidle), SortKey.sort,
      List.mergeSort_singleton, List.map_singleton]
  rw [hidle, List.singleton_inj, shown, if_neg hfields] at hanswer
  have habsent : ∀ f ∈ q.fields.map FieldPath.ofText, record.get? f = none := fun f hf => by
    obtain ⟨text, -, rfl⟩ := List.mem_map.mp hf
    rw [Record.get?_put_point, Record.get?_empty]
  have hpoint : record.get? (.field ".") = none := by
    rw [hanswer]
    exact Record.get?_project_of_absent habsent _
  rw [Record.get?_put_self] at hpoint
  cases hpoint

theorem sorting_eq_nil_of_idle : q.sorting = [] := by
  refine SortKey.eq_nil_of_sort_eq_self fun records => ?_
  have hanswer := execute_eq_sort_filter (not_isDefined_of_idle hidle)
    (fields_eq_nil_of_idle hidle) records
  rw [hidle, filter_selects_of_filters_eq_nil (filters_eq_nil_of_idle hidle)] at hanswer
  exact hanswer.symm

end

/-- A query is empty exactly when it leaves every collection as it is, of whatever length. -/
theorem isEmpty_iff_execute_eq_self (q : Query) :
    q.isEmpty = true ↔ ∀ records, q.execute records = records := by
  rw [isEmpty_iff]
  constructor
  · rintro ⟨hfilters, hsorting, hfields, hwindow⟩ records
    rw [execute_eq_sort_filter hwindow hfields, filter_selects_of_filters_eq_nil hfilters, hsorting,
      SortKey.sort_nil]
  · intro hidle
    exact ⟨filters_eq_nil_of_idle hidle, sorting_eq_nil_of_idle hidle, fields_eq_nil_of_idle hidle,
      not_isDefined_of_idle hidle⟩

end Query

end RecordQuery
