import RecordQuery.Proofs.Binary64.Numeral
import RecordQuery.Proofs.Text.NaturalOrder
import RecordQuery.Query.SortKey

/-!
# The order of records under sort keys

Operands of records have a place each: first their kind decides, then the value of numbers and
the natural order of texts. The places are totally preordered, because no number of a record is
a NaN. Turning a direction round and asking several keys in turn keep that.
-/

namespace RecordQuery

open Std

theorem Json.Number.isNaN_toBinary64 (n : Json.Number) : n.toBinary64.isNaN = false := by
  cases n with
  | int value fits => exact Binary64.isNaN_ofRatio _ _ _
  | float value finite => exact Binary64.isNaN_of_isFinite finite

namespace Operand

/-- The operand is comparable with itself: it is not the number that equals nothing. -/
def IsOrdered : Operand → Prop
  | .number x => x.isNaN = false
  | _ => True

theorem isOrdered_ofJson? (v : Option Json) : (ofJson? v).IsOrdered := by
  unfold ofJson?
  split
  next n => exact n.isNaN_toBinary64
  all_goals trivial

/-- Where a number stands among the numbers. -/
def numberRank : Operand → Int
  | .number x => x.rank
  | _ => 0

/-- The characters of a text. -/
def chars : Operand → List Char
  | .text s => s.toList
  | _ => []

/-- The order of places: kinds first, then numbers by value and texts in natural order. -/
def placeOrder : Operand → Operand → Ordering :=
  compareLex (compareOn kindRank)
    (compareLex (compareOn numberRank) fun a b => Text.naturalOrder a.chars b.chars)

instance : TransCmp placeOrder := by
  have h := transCmp_comap Text.naturalOrder chars
  unfold placeOrder
  infer_instance

/-- Ordered operands are sorted by their places. -/
theorem order_eq_placeOrder {a b : Operand} (ha : a.IsOrdered) (hb : b.IsOrdered) :
    a.order b = placeOrder a b := by
  have hnil : Text.naturalOrder [] [] = .eq := by rw [Text.naturalOrder]
  cases a <;> cases b
  case number.number x y =>
    have hcompare := Binary64.compare?_of_not_isNaN (show x.isNaN = false from ha)
      (show y.isNaN = false from hb)
    simp [order, placeOrder, compareLex, compareOn, kindRank, numberRank, chars, hcompare, hnil]
  case list.list | list.none | none.list | none.none => exact hnil.symm
  all_goals rfl

end Operand

namespace SortKey

theorem order_eq_placeOrder (k : SortKey) (a b : Record) :
    k.order a b =
      k.direction.apply (Operand.placeOrder (a.operand k.field) (b.operand k.field)) := by
  exact congrArg k.direction.apply (Operand.order_eq_placeOrder
    (Operand.isOrdered_ofJson? _) (Operand.isOrdered_ofJson? _))

/-- One key totally preorders the records, in either direction. -/
instance (k : SortKey) : TransCmp k.order := by
  have hplace := transCmp_comap Operand.placeOrder (Record.operand · k.field)
  have h : k.order = fun a b => k.direction.apply
      (Operand.placeOrder (a.operand k.field) (b.operand k.field)) :=
    funext fun a => funext fun b => k.order_eq_placeOrder a b
  rw [h]
  cases k.direction with
  | ascending => exact hplace
  | descending => exact transCmp_swap _

/-- A list of keys totally preorders the records: by the first key, and among equals by the
others. -/
instance (keys : List SortKey) : TransCmp (orderBy keys) := by
  induction keys with
  | nil =>
    have h : orderBy [] = fun _ _ => .eq := rfl
    rw [h]
    exact { eq_swap := rfl, isLE_trans := fun _ _ => rfl }
  | cons k ks ih =>
    have h : orderBy (k :: ks) = compareLex k.order (orderBy ks) := rfl
    rw [h]
    infer_instance

/-- Whatever the keys, and whatever the records hold under them, comparing records is a total
preorder. -/
theorem orderBy_totalPreorder (keys : List SortKey) (a b c : Record) :
    orderBy keys a b = (orderBy keys b a).swap ∧
    orderBy keys a a = .eq ∧
    (orderBy keys a b ≠ .gt → orderBy keys b c ≠ .gt → orderBy keys a c ≠ .gt) ∧
    (orderBy keys a b = .eq → orderBy keys a c = orderBy keys b c) := by
  refine ⟨OrientedCmp.eq_swap, ReflCmp.compare_self, fun hab hbc => ?_, TransCmp.congr_left⟩
  have hab := Ordering.ne_gt_iff_isLE.mp hab
  have hbc := Ordering.ne_gt_iff_isLE.mp hbc
  exact Ordering.ne_gt_iff_isLE.mpr (TransCmp.isLE_trans hab hbc)

/-- A field that is absent comes before a number and a number before a text, and texts stand
level that differ in leading zeros and in case. -/
theorem orderBy_totalPreorder_kinds :
    let keys : List SortKey := [⟨"a", .ascending⟩, ⟨"b.c", .descending⟩, ⟨"a", .descending⟩]
    let number : Record := Dict.empty.insert "a" (.number (.int 7 (by decide)))
    let text : Record := Dict.empty.insert "a" (.text "v007 \u212a")
    let spelled : Record := Dict.empty.insert "a" (.text "V7 k")
    (orderBy keys Dict.empty number ≠ .gt ∧ orderBy keys number text ≠ .gt ∧
      orderBy keys Dict.empty text ≠ .gt) ∧
    (orderBy keys text spelled = .eq ∧ orderBy keys text number = orderBy keys spelled number) := by
  intro keys number text spelled
  have hnumber : orderBy keys Dict.empty number ≠ .gt := by decide +kernel
  have htext : orderBy keys number text ≠ .gt := by decide +kernel
  have hlevel : orderBy keys text spelled = .eq := by decide +kernel
  exact ⟨⟨hnumber, htext,
      (orderBy_totalPreorder keys Dict.empty number text).2.2.1 hnumber htext⟩,
    hlevel, (orderBy_totalPreorder keys text spelled number).2.2.2 hlevel⟩

end SortKey

end RecordQuery
