import Mathlib.Data.List.Basic
import RecordQuery.Proofs.Query.Execution

/-!
# Paging through an answer

Asking for one page after the other gives the whole answer: every page is the part of the answer
without a window that lies between two multiples of the page size, so nothing is lost or shown
twice.
-/

namespace RecordQuery

/-- A list is the concatenation of its parts between multiples of a number. -/
theorem flatMap_drop_take {α : Type} (items : List α) (count parts : Nat) :
    (List.range parts).flatMap (fun k => (items.drop (k * count)).take count) =
      items.take (parts * count) := by
  induction parts with
  | zero => simp
  | succ parts ih =>
    rw [List.range_succ, List.flatMap_append, ih, List.flatMap_singleton, Nat.succ_mul,
      List.take_add]

namespace Query

/-- Without a window the answer has one record for each that matches. -/
theorem length_execute {q : Query} (hwindow : q.window = none) (records : List Record) :
    (q.execute records).length = (records.filter q.selects).length := by
  rw [execute_eq_stages, windowed_of_window_none hwindow, List.length_map, SortKey.sort,
    List.length_mergeSort]

/-- The query for one page of the answer; the pages are numbered from zero. -/
def page (q : Query) (count : UInt64) (number : Nat) : Query :=
  (q.withCount count).withOffset (UInt64.ofNat (number * count.toNat))

section

variable {q : Query} {count : UInt64} (hwindow : q.window = none) (hcount : 0 < count.toNat)
include hwindow hcount

theorem execute_page {k : Nat} (hk : k * count.toNat < UInt64.size) (records : List Record) :
    (q.page count k).execute records =
      ((q.execute records).drop (k * count.toNat)).take count.toNat := by
  have hpage : (q.page count k).window = some ⟨count, UInt64.ofNat (k * count.toNat)⟩ := by
    simp [page, withCount, withOffset]
  have hoffset : (UInt64.ofNat (k * count.toNat)).toNat = k * count.toNat :=
    UInt64.toNat_ofNat_of_lt hk
  have hne : count ≠ 0 := by
    rintro rfl
    exact absurd hcount (by decide)
  have hwindowed : ∀ items : List Record, (q.page count k).windowed items =
      (items.drop (k * count.toNat)).take count.toNat := by
    intro items
    rw [← apply_eq_windowed _ hpage, Window.apply, hoffset, if_neg hne]
  have hshown : (q.page count k).shown = q.shown := rfl
  have hselects : (q.page count k).selects = q.selects := rfl
  have hsorting : (q.page count k).sorting = q.sorting := rfl
  rw [execute_eq_stages, execute_eq_stages, hwindowed, windowed_of_window_none hwindow, hshown,
    hselects, hsorting, List.map_take, List.map_drop]

theorem length_execute_page {k : Nat} (hk : k * count.toNat < UInt64.size)
    (records : List Record) :
    ((q.page count k).execute records).length =
      min count.toNat ((q.execute records).length - k * count.toNat) := by
  rw [execute_page hwindow hcount hk, List.length_take, List.length_drop]

/-- As many pages as cover the answer make up the answer. A page before one that is not empty is
full, and pages after the answer are empty. -/
theorem execute_pages (records : List Record) {pages : Nat}
    (hcovers : (q.execute records).length ≤ pages * count.toNat)
    (hfits : ∀ k < pages, k * count.toNat < UInt64.size) :
    (List.range pages).flatMap (fun k => (q.page count k).execute records) = q.execute records ∧
    (∀ k later, k < later → later * count.toNat < UInt64.size →
      (q.page count later).execute records ≠ [] →
      ((q.page count k).execute records).length = count.toNat) ∧
    (∀ k, pages ≤ k → k * count.toNat < UInt64.size → (q.page count k).execute records = []) := by
  refine ⟨?_, fun k later hlater hfit hne => ?_, fun k hk hfit => ?_⟩
  · have hparts : (List.range pages).flatMap (fun k => (q.page count k).execute records) =
        (List.range pages).flatMap fun k =>
          ((q.execute records).drop (k * count.toNat)).take count.toNat :=
      List.flatMap_congr fun k hk =>
        execute_page hwindow hcount (hfits k (List.mem_range.mp hk)) records
    rw [hparts, flatMap_drop_take, List.take_of_length_le hcovers]
  · -- The next page begins no later than the one that is not empty.
    have hnext : (k + 1) * count.toNat ≤ later * count.toNat := Nat.mul_le_mul_right _ hlater
    rw [Nat.succ_mul] at hnext
    have hpos : 0 < ((q.page count later).execute records).length :=
      List.length_pos_iff.mpr hne
    rw [length_execute_page hwindow hcount hfit] at hpos
    rw [length_execute_page hwindow hcount (by omega)]
    omega
  · have hbeyond : pages * count.toNat ≤ k * count.toNat := Nat.mul_le_mul_right _ hk
    rw [← List.length_eq_zero_iff, length_execute_page hwindow hcount hfit]
    omega

end

/-- Three of four records in two pages; the records that are level keep their order, also over the
end of a page. -/
theorem execute_pages_of_two :
    let q : Query := ⟨[⟨"n", .gt, "1"⟩], [⟨"n", .descending⟩], ["n", "id"], none⟩
    let records : List Record := [("a", "2"), ("b", "1"), ("c", "02"), ("d", "3")].map fun r =>
      (Dict.empty.insert "id" (.text r.1)).insert "n" (.text r.2)
    let pages : Nat := 2
    (q.execute records).length ≤ pages * (2 : UInt64).toNat ∧
    ((q.page 2 0).execute records ++ (q.page 2 1).execute records = q.execute records ∧
      ((q.page 2 0).execute records).length = 2 ∧ (q.page 2 1).execute records ≠ [] ∧
      (q.page 2 2).execute records = []) := by
  intro q records pages
  have hlength : (q.execute records).length = 3 := by
    rw [length_execute rfl]
    decide +kernel
  have hcovers : (q.execute records).length ≤ pages * (2 : UInt64).toNat := by
    rw [hlength]
    decide
  have hfits : ∀ k < pages, k * (2 : UInt64).toNat < UInt64.size := by decide
  have hlast : ((q.page 2 1).execute records).length = 1 := by
    rw [length_execute_page rfl (by decide) (by decide), hlength]
    rfl
  have hne : (q.page 2 1).execute records ≠ [] := List.ne_nil_of_length_eq_add_one hlast
  obtain ⟨hparts, hfull, hbeyond⟩ :=
    @execute_pages q 2 rfl (by decide) records pages hcovers hfits
  refine ⟨hcovers, ?_, hfull 0 1 (by decide) (by decide) hne, hne,
    hbeyond 2 (by decide) (by decide)⟩
  rw [← hparts]
  simp [pages, List.range_succ]

end Query

end RecordQuery
