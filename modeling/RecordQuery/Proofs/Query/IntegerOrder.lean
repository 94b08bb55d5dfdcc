import RecordQuery.Proofs.Json.Number
import RecordQuery.Proofs.Query.FilterOrder
import RecordQuery.Proofs.Query.Membership

/-!
# Integers in filters, lists and sorting

Whatever compares integers compares the integers nearest to them among the double precision
numbers. Up to `2 ^ 53` that is the order of the integers themselves. Beyond that integers that
share their nearest number count as equal, and no two integers change places.
-/

namespace RecordQuery

open Binary64

/-- The relation of two integers that an operator asks for. -/
def Operator.Relates : Operator → Int → Int → Prop
  | .eq, a, b => a = b
  | .ne, a, b => a ≠ b
  | .gt, a, b => b < a
  | .ge, a, b => b ≤ a
  | .lt, a, b => a < b
  | .le, a, b => a ≤ b
  | .anyOf, _, _ => False
  | .allOf, _, _ => False
  | .like, _, _ => False

theorem Operator.holds_compare_iff (o : Operator) (a b : Int) :
    o.holds (compare a b) ↔ o.Relates a b := by
  rcases Int.lt_trichotomy a b with h | h | h
  · rw [Int.compare_eq_lt.mpr h]
    cases o <;> simp [holds, Relates] <;> omega
  · rw [Int.compare_eq_eq.mpr h]
    cases o <;> simp [holds, Relates] <;> omega
  · rw [Int.compare_eq_gt.mpr h]
    cases o <;> simp [holds, Relates] <;> omega

/-- Only ordering operators hold of an order. -/
theorem Operator.isOrdering_and_holds (o : Operator) (p : Ordering) :
    (o.isOrdering && o.holds p) = o.holds p := by
  cases o <;> rfl

namespace Filter

theorem accepts_number (field : String) (op : Operator) (value : String) (x : Binary64) :
    (Filter.mk field op value).accepts (.number x) =
      (op.isOrdering && match x.compare? (coerce value) with
        | some o => op.holds o
        | none => false) := rfl

theorem accepts_integer_iff (field : String) (op : Operator) (n m : Json.Integer) :
    (Filter.mk field op m.toText).accepts (.number n.toNumber.toBinary64) ↔
      op.Relates (nearest n) (nearest m) := by
  rw [accepts_number, Json.Integer.coerce_toText, Json.Integer.compare?_toBinary64]
  dsimp only
  rw [Operator.isOrdering_and_holds, Operator.holds_compare_iff]

theorem elementEquals_integer_iff (n m : Json.Integer) :
    elementEquals m.toText (.number n.toNumber) ↔ nearest n = nearest m := by
  rw [elementEquals, Json.Integer.ofToken?_toText]
  dsimp only
  rw [equals, Json.Integer.compare?_toBinary64, decide_eq_true_eq, Option.some.injEq,
    Int.compare_eq_eq]

theorem holdsToken_integers_iff (ns : List Json.Integer) (m : Json.Integer) :
    holdsToken (ns.map fun n => .number n.toNumber) m.toText ↔
      ∃ n ∈ ns, nearest n = nearest m := by
  rw [holdsToken, List.any_map, List.any_eq_true]
  simp only [Function.comp_apply, elementEquals_integer_iff]

/-- The text of an integer is one token. -/
theorem accepts_integers_iff (field : String) (ns : List Json.Integer) (m : Json.Integer) :
    (Filter.mk field .anyOf m.toText).accepts (.list (ns.map fun n => .number n.toNumber)) ↔
      ∃ n ∈ ns, nearest n = nearest m := by
  rw [accepts_list_of_not_mem field rfl _ (separator_not_in_number m.ofToken?_toText),
    holdsToken_integers_iff]

end Filter

namespace SortKey

theorem orderBy_integer {field : String} {a b : Record} {n m : Json.Integer}
    (ha : a.get? (.ofText field) = some (.number n.toNumber))
    (hb : b.get? (.ofText field) = some (.number m.toNumber)) :
    orderBy [⟨field, .ascending⟩] a b = compare (nearest n) (nearest m) := by
  rw [orderBy, orderBy, Ordering.then_eq, order, Record.operand, Record.operand, ha, hb,
    Direction.apply, Operand.ofJson?, Operand.ofJson?, Operand.order]
  exact congrArg (·.getD .eq) (Json.Integer.compare?_toBinary64 n m)

/-- Filters on an integer, membership in a list of integers and sorting by integers go by the
nearest double precision numbers, of two as near the even one. Their values are integers again: the
integers themselves up to `2 ^ 53`, and beyond it in an order that never contradicts that of the
integers. -/
theorem integers_compare_as_nearest (field : String) :
    (∀ (op : Operator) (n m : Json.Integer) (record : Record),
      record.get? (.ofText field) = some (.number n.toNumber) →
      ((Filter.mk field op m.toText).accepts (record.operand field) ↔
        op.Relates (nearest n) (nearest m))) ∧
    (∀ (ns : List Json.Integer) (m : Json.Integer) (record : Record),
      record.get? (.ofText field) = some (.array (ns.map fun n => .number n.toNumber)) →
      ((Filter.mk field .anyOf m.toText).accepts (record.operand field) ↔
        ∃ n ∈ ns, nearest n = nearest m)) ∧
    (∀ (records : List Record) (held : Record → Json.Integer),
      (∀ r ∈ records, r.get? (.ofText field) = some (.number (held r).toNumber)) →
      (sort [⟨field, .ascending⟩] records).Pairwise fun a b =>
        nearest (held a) ≤ nearest (held b)) ∧
    (∀ i : Json.Integer, IsNearest i i.toNumber.toBinary64 ∧
      i.toNumber.toBinary64.value = nearest i * (2 ^ smallest : Nat)) ∧
    (∀ i : Int, i.natAbs ≤ 2 ^ 53 → nearest i = i) ∧
    (∀ i j : Int, i ≤ j → nearest i ≤ nearest j) := by
  refine ⟨fun op n m record h => ?_, fun ns m record h => ?_, fun records held h => ?_,
    fun i => ⟨i.isNearest_toBinary64, i.value_toBinary64⟩, fun i => nearest_of_natAbs_le,
    fun i j => nearest_mono⟩
  · rw [Record.operand, h]
    exact Filter.accepts_integer_iff field op n m
  · rw [Record.operand, h]
    exact Filter.accepts_integers_iff field ns m
  · refine (pairwise_sort _ records).imp_of_mem fun {a b} ha hb hle => ?_
    have ha := h a (List.mem_mergeSort.mp ha)
    have hb := h b (List.mem_mergeSort.mp hb)
    rw [orderBy_integer ha hb] at hle
    exact Int.isLE_compare.mp hle

/-- Two integers that are no numbers themselves are told apart by the numbers nearest to them. -/
theorem integers_compare_as_nearest_apart :
    let low : Json.Integer := ⟨-9007199254740999, by decide⟩
    let high : Json.Integer := ⟨-9007199254740993, by decide⟩
    let record (i : Json.Integer) : Record := Dict.empty.insert "a" (.number i.toNumber)
    let both : Record :=
      Dict.empty.insert "a" (.array [.number low.toNumber, .number high.toNumber])
    ((record low).get? (.ofText "a") = some (.number low.toNumber) ∧
      (Filter.mk "a" .lt high.toText).accepts ((record low).operand "a") = true) ∧
    (both.get? (.ofText "a") = some (.array ([low, high].map fun n => .number n.toNumber)) ∧
      (Filter.mk "a" .anyOf high.toText).accepts (both.operand "a") = true) := by
  intro low high record both
  obtain ⟨hfilter, hlist, -⟩ := integers_compare_as_nearest "a"
  have hrecord : (record low).get? (.ofText "a") = some (.number low.toNumber) := rfl
  have hboth : both.get? (.ofText "a") =
      some (.array ([low, high].map fun n => .number n.toNumber)) := rfl
  refine ⟨⟨hrecord, (hfilter .lt low high _ hrecord).mpr ?_⟩, hboth, (hlist _ high _ hboth).mpr ?_⟩
  · exact (by decide : nearest low < nearest high)
  · exact ⟨high, by simp, rfl⟩

/-- Beyond `2 ^ 53` an integer can count as its neighbour: a filter and a list take the one for the
other, and sorting leaves them in descending order. -/
theorem integers_not_told_apart :
    let odd : Json.Integer := ⟨9007199254740993, by decide⟩
    let even : Json.Integer := ⟨9007199254740992, by decide⟩
    let record (i : Json.Integer) : Record := Dict.empty.insert "a" (.number i.toNumber)
    even.toText = "9007199254740992" ∧ even.val < odd.val ∧
    (Filter.mk "a" .eq even.toText).accepts ((record odd).operand "a") = true ∧
    (Filter.mk "a" .anyOf even.toText).accepts (.list [.number odd.toNumber]) = true ∧
    sort [⟨"a", .ascending⟩] [record odd, record even] = [record odd, record even] := by
  intro odd even record
  refine ⟨by decide +kernel, by decide, by decide +kernel, by decide +kernel, ?_⟩
  exact List.mergeSort_of_pairwise (by decide +kernel)

end SortKey

end RecordQuery
