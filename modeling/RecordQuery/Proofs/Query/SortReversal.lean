import Mathlib.Data.List.Pairwise
import RecordQuery.Proofs.Query.SortOrder
import RecordQuery.Proofs.StableSort

/-!
# Sorting the other way round

A collection read backwards and sorted with every direction turned round is the sorted collection
read backwards. Ties are no exception: they stand in the order of the collection, which is turned
round as well. Where there are no ties the order of the collection does not matter.
-/

namespace RecordQuery

open Std

variable {α : Type} {order : α → α → Ordering} [TransCmp order]

theorem mergeSort_reverse (items : List α) :
    items.reverse.mergeSort (notAfter fun a b => (order a b).swap) =
      (items.mergeSort (notAfter order)).reverse := by
  obtain ⟨sorted, hsorted, hitems⟩ := stableSort_mergeSort order items
  have : TransCmp fun a b => (order a b).swap := transCmp_swap order
  -- Read backwards, an item comes before another one when its position is the later one.
  have hperm : sorted.reverse.Perm items.zipIdx.reverse :=
    (sorted.reverse_perm.trans hsorted.perm).trans items.zipIdx.reverse_perm.symm
  have htagged : items.zipIdx.reverse.Pairwise fun x y => x.2 > y.2 :=
    List.pairwise_reverse.mpr (pairwise_zipIdx items 0)
  have hpairs : sorted.reverse.Pairwise fun x y => (order x.1 y.1).swap ≠ .gt ∧
      ((order x.1 y.1).swap = .eq → x.2 > y.2) := by
    refine List.pairwise_reverse.mpr ((hsorted.ascending.and hsorted.stable).imp ?_)
    intro x y ⟨hne, hties⟩
    rw [← OrientedCmp.eq_swap]
    exact ⟨hne, hties⟩
  have hsort : sorted.reverse.map Prod.fst = (items.zipIdx.reverse.map Prod.fst).mergeSort
      (notAfter fun a b => (order a b).swap) :=
      map_eq_mergeSort (fun _ _ => Nat.lt_asymm) hperm htagged hpairs
  rw [List.map_reverse, List.map_reverse, List.zipIdx_map_fst, hitems] at hsort
  exact hsort.symm

/-- Items no two of which tie are sorted in one way, whatever the order they come in. -/
theorem mergeSort_eq_of_perm {items others : List α} (hperm : items.Perm others)
    (hapart : items.Pairwise fun a b => order a b ≠ .eq) :
    items.mergeSort (notAfter order) = others.mergeSort (notAfter order) := by
  have : Symm fun a b => order a b ≠ .eq := ⟨fun _ _ hne heq => hne (OrientedCmp.eq_symm heq)⟩
  refine List.Perm.eq_of_pairwise (fun a b ha hb hab hba => ?_) (ascending_mergeSort items)
    (ascending_mergeSort others)
    ((List.mergeSort_perm _ _).trans (hperm.trans (List.mergeSort_perm _ _).symm))
  refine by_contra fun hne => hapart.forall (List.mem_mergeSort.mp ha) ?_ hne (eq_of_ne_gt hab hba)
  exact hperm.mem_iff.mpr (List.mem_mergeSort.mp hb)

def Direction.opposite : Direction → Direction
  | .ascending => .descending
  | .descending => .ascending

theorem Direction.apply_opposite (d : Direction) (o : Ordering) :
    d.opposite.apply o = (d.apply o).swap := by
  cases d with
  | ascending => rfl
  | descending => exact Ordering.swap_swap.symm

namespace SortKey

def opposite (k : SortKey) : SortKey := { k with direction := k.direction.opposite }

theorem orderBy_opposite (keys : List SortKey) (a b : Record) :
    orderBy (keys.map opposite) a b = (orderBy keys a b).swap := by
  induction keys with
  | nil => rfl
  | cons k keys ih =>
    have hfirst : k.opposite.order a b = (k.order a b).swap := k.direction.apply_opposite _
    rw [List.map_cons, orderBy, orderBy, Ordering.swap_then, hfirst, ih]

/-- Turning every direction round mirrors the sorted collection, once the collection itself is
turned round or when no two records of it tie. -/
theorem sort_opposite (keys : List SortKey) (records : List Record) :
    sort (keys.map opposite) records.reverse = (sort keys records).reverse ∧
    (records.Pairwise (fun a b => orderBy keys a b ≠ .eq) →
      sort (keys.map opposite) records = (sort keys records).reverse) := by
  have horder : orderBy (keys.map opposite) = fun a b => (orderBy keys a b).swap :=
    funext fun a => funext fun b => orderBy_opposite keys a b
  have hmirror : sort (keys.map opposite) records.reverse = (sort keys records).reverse := by
    rw [sort, horder]
    exact mergeSort_reverse records
  refine ⟨hmirror, fun hapart => ?_⟩
  rw [← hmirror]
  refine mergeSort_eq_of_perm records.reverse_perm.symm (hapart.imp fun hne heq => hne ?_)
  rw [orderBy_opposite] at heq
  exact Ordering.swap_inj.mp heq

/-- Digits count by value and case does not count, so the second key decides about two of these; a
record without the field stands at the other end when the directions are turned round. -/
theorem sort_opposite_of_texts :
    let keys : List SortKey := [⟨"a", .ascending⟩, ⟨"b", .descending⟩]
    let missing : Record := Dict.empty
    let early : Record := (Dict.empty.insert "a" (.text "V007")).insert "b" (.text "later")
    let late : Record := (Dict.empty.insert "a" (.text "v7")).insert "b" (.text "B")
    let last : Record := Dict.empty.insert "a" (.text "v10")
    let records := [missing, early, late, last]
    records.Pairwise (fun a b => orderBy keys a b ≠ .eq) ∧
    sort (keys.map opposite) records = [last, late, early, missing] := by
  intro keys missing early late last records
  have hapart : records.Pairwise fun a b => orderBy keys a b ≠ .eq := by decide +kernel
  have hsorted : sort keys records = records := List.mergeSort_of_pairwise (by decide +kernel)
  refine ⟨hapart, ?_⟩
  rw [(sort_opposite keys records).2 hapart, hsorted]
  rfl

end SortKey

end RecordQuery
