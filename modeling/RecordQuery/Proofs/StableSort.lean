import RecordQuery.Proofs.Comparison

/-!
# Stable sorting

Items carry their positions. A stable sort puts them in an order in which no item comes before
a lesser one and equal items keep the order of their positions. Under a total preorder there is
exactly one, and merge sort gives its items.
-/

namespace RecordQuery

open Std

variable {α : Type} {order : α → α → Ordering}

/-- `sorted` holds the items with their positions, ascending and with ties by position. -/
structure StableSort (order : α → α → Ordering) (items sorted : List (α × Nat)) : Prop where
  perm : sorted.Perm items
  ascending : sorted.Pairwise fun x y => order x.1 y.1 ≠ .gt
  stable : sorted.Pairwise fun x y => order x.1 y.1 = .eq → x.2 < y.2

/-- Where ties are broken one way only, no two items come before each other. -/
theorem not_before_each_other [OrientedCmp order] {a b : α} {p q : Prop} (hpq : p → ¬ q)
    (hab : order a b ≠ .gt ∧ (order a b = .eq → p)) :
    ¬ (order b a ≠ .gt ∧ (order b a = .eq → q)) := by
  intro hba
  have htie : order a b = .eq := eq_of_ne_gt hab.1 hba.1
  exact hpq (hab.2 htie) (hba.2 (OrientedCmp.eq_symm htie))

/-- Two stable sorts of the same items are the same list. -/
theorem StableSort.unique [OrientedCmp order] {items s t : List (α × Nat)}
    (hs : StableSort order items s) (ht : StableSort order items t) : s = t := by
  have hs' := hs.ascending.and hs.stable
  have ht' := ht.ascending.and ht.stable
  refine List.Perm.eq_of_pairwise (fun x y _ _ hxy hyx => ?_) hs' ht' (hs.perm.trans ht.perm.symm)
  exact absurd hyx (not_before_each_other Nat.lt_asymm hxy)

/-- The test by which merge sort keeps two items in place. -/
def notAfter (order : α → α → Ordering) (a b : α) : Bool := order a b != .gt

theorem notAfter_iff {a b : α} : notAfter order a b = true ↔ (order a b).isLE = true := by
  rw [notAfter, bne_iff_ne]
  exact Ordering.ne_gt_iff_isLE

theorem notAfter_trans [TransCmp order] (a b c : α) (hab : notAfter order a b = true)
    (hbc : notAfter order b c = true) : notAfter order a c = true := by
  rw [notAfter_iff] at *
  exact TransCmp.isLE_trans hab hbc

theorem notAfter_total [OrientedCmp order] (a b : α) :
    (notAfter order a b || notAfter order b a) = true := by
  have h : order b a = (order a b).swap := OrientedCmp.eq_swap
  rw [notAfter, notAfter, h]
  cases order a b <;> rfl

theorem ascending_mergeSort [TransCmp order] (items : List α) :
    (items.mergeSort (notAfter order)).Pairwise fun a b => order a b ≠ .gt :=
  (List.pairwise_mergeSort notAfter_trans notAfter_total items).imp bne_iff_ne.mp

/-- Merge sort's own order of items with positions, in terms of the order of the items. -/
theorem zipIdxLE_notAfter_iff [OrientedCmp order] {x y : α × Nat} :
    List.zipIdxLE (notAfter order) x y = true ↔
      order x.1 y.1 ≠ .gt ∧ (order x.1 y.1 = .eq → x.2 ≤ y.2) := by
  have h : order y.1 x.1 = (order x.1 y.1).swap := OrientedCmp.eq_swap
  rw [List.zipIdxLE, notAfter, notAfter, h]
  cases order x.1 y.1 <;> simp

theorem pairwise_zipIdx (items : List α) (k : Nat) :
    (items.zipIdx k).Pairwise fun x y => x.2 < y.2 := by
  refine List.pairwise_map.mp ?_
  rw [List.zipIdx_map_snd]
  exact List.pairwise_lt_range'

/-- Merge sort gives the items of the stable sort. -/
theorem stableSort_mergeSort (order : α → α → Ordering) [TransCmp order] (items : List α) :
    ∃ sorted, StableSort order items.zipIdx sorted ∧
      sorted.map Prod.fst = items.mergeSort (notAfter order) := by
  have hperm := List.mergeSort_perm items.zipIdx (List.zipIdxLE (notAfter order))
  have hsorted : (items.zipIdx.mergeSort (List.zipIdxLE (notAfter order))).Pairwise
      (List.zipIdxLE (notAfter order) · ·) :=
    List.pairwise_mergeSort (List.zipIdxLE_trans notAfter_trans)
      (List.zipIdxLE_total notAfter_total) _
  have hpositions : (items.zipIdx.mergeSort (List.zipIdxLE (notAfter order))).Pairwise
      fun x y => x.2 ≠ y.2 := by
    have hnodup : (items.zipIdx.map Prod.snd).Nodup :=
      List.pairwise_map.mpr ((pairwise_zipIdx items 0).imp Nat.ne_of_lt)
    exact List.pairwise_map.mp ((hperm.map Prod.snd).nodup_iff.mpr hnodup)
  refine ⟨_, ⟨hperm, ?_, ?_⟩, List.mergeSort_zipIdx⟩
  · exact hsorted.imp fun h => (zipIdxLE_notAfter_iff.mp h).1
  · exact (hsorted.and hpositions).imp fun ⟨h, hne⟩ heq =>
      Nat.lt_of_le_of_ne ((zipIdxLE_notAfter_iff.mp h).2 heq) hne

/-- Items that tie keep any relation in which they stood, each to those after it. -/
theorem pairwise_mergeSort_of_pairwise [TransCmp order] {R : α → α → Prop} {items : List α}
    (h : items.Pairwise R) : (items.mergeSort (notAfter order)).Pairwise fun a b =>
      order a b ≠ .gt ∧ (order a b = .eq → R a b) := by
  obtain ⟨sorted, hsorted, hitems⟩ := stableSort_mergeSort order items
  have hrelated : ∀ x ∈ sorted, ∀ y ∈ sorted, x.2 < y.2 → R x.1 y.1 := by
    intro x hx y hy hlt
    obtain ⟨hi, hx⟩ := List.getElem?_eq_some_iff.mp
      (List.mem_zipIdx_iff_getElem?.mp (hsorted.perm.mem_iff.mp hx))
    obtain ⟨hj, hy⟩ := List.getElem?_eq_some_iff.mp
      (List.mem_zipIdx_iff_getElem?.mp (hsorted.perm.mem_iff.mp hy))
    rw [← hx, ← hy]
    exact List.pairwise_iff_getElem.mp h _ _ hi hj hlt
  rw [← hitems, List.pairwise_map]
  exact (hsorted.ascending.and hsorted.stable).imp_of_mem fun hx hy ⟨hne, hstable⟩ =>
    ⟨hne, fun heq => hrelated _ hx _ hy (hstable heq)⟩

/-- Items with something by which they can be told apart: an ascending order of them in which ties
stand as in a list is the sort of this list. -/
theorem map_eq_mergeSort {β : Type} [TransCmp order] {item : β → α} {before : β → β → Prop}
    (hasymm : ∀ x y, before x y → ¬ before y x) {tagged sorted : List β}
    (hperm : sorted.Perm tagged) (htagged : tagged.Pairwise before)
    (hsorted : sorted.Pairwise fun x y => order (item x) (item y) ≠ .gt ∧
      (order (item x) (item y) = .eq → before x y)) :
    sorted.map item = (tagged.map item).mergeSort (notAfter order) := by
  let byItem : β → β → Ordering := fun x y => order (item x) (item y)
  have : TransCmp byItem := transCmp_comap order item
  have hmerged : (tagged.mergeSort (notAfter byItem)).Pairwise fun x y =>
      order (item x) (item y) ≠ .gt ∧ (order (item x) (item y) = .eq → before x y) :=
    pairwise_mergeSort_of_pairwise htagged
  have heq : sorted = tagged.mergeSort (notAfter byItem) := by
    refine List.Perm.eq_of_pairwise (fun x y _ _ hxy hyx => ?_) hsorted hmerged
      (hperm.trans (List.mergeSort_perm _ _).symm)
    exact absurd hyx (not_before_each_other (hasymm x y) hxy)
  rw [heq]
  exact List.map_mergeSort fun _ _ _ _ => rfl

end RecordQuery
