/-!
# Lawful comparisons

Whether a comparison is a total preorder does not depend on what it is called through: comparing
the values of a function keeps its laws, and so does turning every answer round.
-/

namespace RecordQuery

open Std

/-- Comparing through a function is as lawful as the comparison of its values. -/
theorem transCmp_comap {α β : Type} (order : β → β → Ordering) [TransCmp order] (f : α → β) :
    TransCmp fun a b => order (f a) (f b) where
  eq_swap := OrientedCmp.eq_swap
  isLE_trans := TransCmp.isLE_trans

/-- Turning every answer round keeps an order lawful. -/
theorem transCmp_swap {α : Type} (order : α → α → Ordering) [TransCmp order] :
    TransCmp fun a b => (order a b).swap := by
  have h : (fun a b => (order a b).swap) = fun a b => order b a :=
    funext fun a => funext fun b => OrientedCmp.eq_swap.symm
  rw [h]
  infer_instance

variable {α : Type} {order : α → α → Ordering}

/-- Of two items neither of which is greater, none is lesser either. -/
theorem eq_of_ne_gt [OrientedCmp order] {a b : α} (hab : order a b ≠ .gt) (hba : order b a ≠ .gt) :
    order a b = .eq :=
  OrientedCmp.isLE_antisymm (Ordering.ne_gt_iff_isLE.mp hab) (Ordering.ne_gt_iff_isLE.mp hba)

end RecordQuery
