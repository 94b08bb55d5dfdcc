import RecordQuery.Proofs.Query.Execution

/-!
# Sorting in passes

Sorting by several keys at once is sorting by one key after the other, the last key first. A pass
leaves records that tie on its key as it found them, that is in the order of the keys after it.
-/

namespace RecordQuery

open Std

/-- Sorting by one order what is sorted by another is sorting by both, the later order first. -/
theorem mergeSort_compareLex {α : Type} (first second : α → α → Ordering) [TransCmp first]
    [TransCmp second] (items : List α) :
    items.mergeSort (notAfter (compareLex first second)) =
      (items.mergeSort (notAfter second)).mergeSort (notAfter first) := by
  obtain ⟨inner, hinner, hsecond⟩ := stableSort_mergeSort second items
  obtain ⟨whole, hwhole, hboth⟩ := stableSort_mergeSort (compareLex first second) items
  -- The last pass finds its ties in the second order, and the ties of both by position.
  let before : α × Nat → α × Nat → Prop := fun x y =>
    second x.1 y.1 ≠ .gt ∧ (second x.1 y.1 = .eq → x.2 < y.2)
  have hasymm : ∀ x y, before x y → ¬ before y x := fun _ _ =>
    not_before_each_other Nat.lt_asymm
  have hpairs : whole.Pairwise fun x y =>
      first x.1 y.1 ≠ .gt ∧ (first x.1 y.1 = .eq → before x y) := by
    refine (hwhole.ascending.and hwhole.stable).imp ?_
    intro x y ⟨hne, hties⟩
    refine ⟨fun hgt => hne (Ordering.then_eq_gt.mpr (.inl hgt)), fun heq => ⟨fun hgt => ?_, ?_⟩⟩
    · exact hne (Ordering.then_eq_gt.mpr (.inr ⟨heq, hgt⟩))
    · exact fun hsecond => hties (Ordering.then_eq_eq.mpr ⟨heq, hsecond⟩)
  have hlast : whole.map Prod.fst = (inner.map Prod.fst).mergeSort (notAfter first) :=
    map_eq_mergeSort hasymm (hwhole.perm.trans hinner.perm.symm)
      (hinner.ascending.and hinner.stable) hpairs
  rw [hboth, hsecond] at hlast
  exact hlast

namespace SortKey

/-- The first of several keys sorts what the others have sorted. -/
theorem sort_cons (k : SortKey) (keys : List SortKey) (records : List Record) :
    sort (k :: keys) records = sort [k] (sort keys records) := by
  have hone : orderBy [k] = k.order := funext fun a => funext fun b => Ordering.then_eq
  have hsort : ∀ keys records, sort keys records = records.mergeSort (notAfter (orderBy keys)) :=
    fun _ _ => rfl
  rw [hsort [k], hone]
  exact mergeSort_compareLex k.order (orderBy keys) records

/-- Sorting by a list of keys is sorting by each of them alone, from the last key to the first. -/
theorem sort_eq_foldr (keys : List SortKey) (records : List Record) :
    sort keys records = keys.foldr (fun k sorted => sort [k] sorted) records := by
  induction keys with
  | nil => exact sort_nil records
  | cons k keys ih => rw [sort_cons, ih, List.foldr_cons]

end SortKey

end RecordQuery
