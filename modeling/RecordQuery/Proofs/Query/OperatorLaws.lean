import Mathlib.Logic.ExistsUnique
import RecordQuery.Proofs.Query.FilterOrder

/-!
# Operators agree with one another

At a number or a text a filter finds one order, that of the operand and the value, and each of the
six ordering operators asks for some of the orders. The value has an order with every operand of
these kinds, because neither a number of a record nor a loose reading is a NaN. At anything else
the six operators find nothing, and each of the other three has a kind of its own.
-/

namespace RecordQuery

/-- A number or a text, which has an order among its kind. -/
def Json.isComparable : Json → Bool
  | .number _ | .text _ => true
  | _ => false

theorem Operand.kindRank_ofJson?_ne_zero_iff (v : Option Json) :
    (ofJson? v).kindRank ≠ 0 ↔ v.any Json.isComparable = true := by
  cases v with
  | none => simp [ofJson?, kindRank]
  | some v => cases v <;> simp [ofJson?, kindRank, Json.isComparable]

namespace Operator

/-- The operator that asks for one order and no other. -/
def asking : Ordering → Operator
  | .lt => .lt
  | .eq => .eq
  | .gt => .gt

theorem holds_iff_eq_asking (o : Ordering) (op : Operator) :
    op ∈ [Operator.lt, .eq, .gt] ∧ op.holds o = true ↔ op = asking o := by
  cases o <;> cases op <;> decide

theorem isOrdering_of_mem {op : Operator} (h : op ∈ [Operator.lt, .eq, .gt]) :
    op.isOrdering = true := by
  revert op
  decide

theorem isOrdering_of_isMembership {op : Operator} (h : op.isMembership = true) :
    op.isOrdering = false := by
  cases op with
  | anyOf | allOf => rfl
  | _ => cases h

theorem holds_negated (o : Ordering) :
    ne.holds o = !eq.holds o ∧ ge.holds o = !lt.holds o ∧ le.holds o = !gt.holds o := by
  cases o <;> decide

end Operator

namespace Filter

section

variable (field value : String)

/-- At an operand with an order the ordering operators are asked of one and the same order. -/
theorem exists_order {a : Operand} (ha : a.IsOrdered) (hkind : a.kindRank ≠ 0) :
    ∃ o, ∀ op : Operator, op.isOrdering = true →
      (Filter.mk field op value).accepts a = op.holds o := by
  refine ⟨Operand.placeOrder a (pivot value a.kindRank), fun op hop => ?_⟩
  rw [Bool.eq_iff_iff, accepts_iff hop ha, and_iff_right hkind]

theorem accepts_of_kindRank_eq_zero {a : Operand} (ha : a.IsOrdered) (hkind : a.kindRank = 0)
    {op : Operator} (hop : op.isOrdering = true) :
    (Filter.mk field op value).accepts a = false :=
  Bool.eq_false_iff.mpr fun h => ((accepts_iff hop ha).mp h).1 hkind

theorem exists_list_of_accepts {a : Operand} {op : Operator} (hop : op.isMembership = true)
    (h : (Filter.mk field op value).accepts a = true) : ∃ items, a = .list items := by
  cases a with
  | number x =>
    rw [accepts, matchesNumber, Operator.isOrdering_of_isMembership hop, Bool.false_and] at h
    cases h
  | text s =>
    cases op <;> simp [accepts, matchesText, Operator.holds, Operator.isMembership] at h hop
  | list items => exact ⟨items, rfl⟩
  | none => cases h

theorem exists_text_of_accepts_like {a : Operand}
    (h : (Filter.mk field .like value).accepts a = true) : ∃ s, a = .text s := by
  cases a with
  | text s => exact ⟨s, rfl⟩
  | number x => cases h
  | list items => cases h
  | none => cases h

end

end Filter

namespace Operand

theorem eq_some_of_ofJson?_eq_list {v : Option Json} {items : List Json}
    (h : ofJson? v = .list items) : v = some (.array items) := by
  unfold ofJson? at h
  split at h
  all_goals cases h
  rfl

theorem eq_some_of_ofJson?_eq_text {v : Option Json} {s : String}
    (h : ofJson? v = .text s) : v = some (.text s) := by
  unfold ofJson? at h
  split at h
  all_goals cases h
  rfl

end Operand

namespace Record

/-- Where a field holds a number or a text, exactly one of less, equal and greater is found, and
the other three ordering operators are their negations. Where it holds anything else, or nothing,
none of the six finds anything. Membership is found in lists only, and a part of a text in texts
only. -/
theorem operators_consistent (record : Record) (field value : String) :
    let held := record.get? (.ofText field)
    let passes := fun op : Operator => (Filter.mk field op value).accepts (record.operand field)
    (held.any Json.isComparable = true →
      (∃! op, op ∈ [Operator.lt, .eq, .gt] ∧ passes op = true) ∧
      passes .ne = !passes .eq ∧ passes .ge = !passes .lt ∧ passes .le = !passes .gt) ∧
    (held.any Json.isComparable = false → ∀ op, op.isOrdering = true → passes op = false) ∧
    (∀ op, op.isMembership = true → passes op = true → ∃ items, held = some (.array items)) ∧
    (passes .like = true → ∃ s, held = some (.text s)) := by
  intro held passes
  have hordered : (record.operand field).IsOrdered := Operand.isOrdered_ofJson? held
  have hkind : (record.operand field).kindRank ≠ 0 ↔ held.any Json.isComparable = true :=
    Operand.kindRank_ofJson?_ne_zero_iff held
  refine ⟨fun hheld => ?_, fun hheld op hop => ?_, fun op hop h => ?_, fun h => ?_⟩
  · obtain ⟨o, ho⟩ := Filter.exists_order field value hordered (hkind.mpr hheld)
    have hholds : ∀ op, op ∈ [Operator.lt, .eq, .gt] ∧ passes op = true ↔ op = .asking o :=
      fun op => by
        rw [← Operator.holds_iff_eq_asking]
        exact and_congr_right fun hop => by rw [← ho op (Operator.isOrdering_of_mem hop)]
    obtain ⟨hne, hge, hle⟩ := Operator.holds_negated o
    refine ⟨⟨.asking o, (hholds _).mpr rfl, fun op => (hholds op).mp⟩, ?_, ?_, ?_⟩
    · exact (ho .ne rfl).trans (hne.trans (congrArg _ (ho .eq rfl).symm))
    · exact (ho .ge rfl).trans (hge.trans (congrArg _ (ho .lt rfl).symm))
    · exact (ho .le rfl).trans (hle.trans (congrArg _ (ho .gt rfl).symm))
  · have hzero : (record.operand field).kindRank = 0 := by
      rw [← Bool.not_eq_true, ← hkind, Decidable.not_not] at hheld
      exact hheld
    exact Filter.accepts_of_kindRank_eq_zero field value hordered hzero hop
  · obtain ⟨items, hitems⟩ := Filter.exists_list_of_accepts field value hop h
    exact ⟨items, Operand.eq_some_of_ofJson?_eq_list hitems⟩
  · obtain ⟨s, hs⟩ := Filter.exists_text_of_accepts_like field value h
    exact ⟨s, Operand.eq_some_of_ofJson?_eq_text hs⟩

/-- A value that names no number has an order with a number all the same. -/
theorem operators_consistent_kinds :
    let record : Record := ((Dict.empty.insert "n" (.number (.int 7 (by decide)))).insert
      "t" (.text "v007")).insert "l" (.array [.text "x|Y", .null])
    let passes := fun field op value => (Filter.mk field op value).accepts (record.operand field)
    ((record.get? (.ofText "n")).any Json.isComparable = true ∧
      (∃! op, op ∈ [Operator.lt, .eq, .gt] ∧ passes "n" op "nan" = true) ∧
      passes "n" .ne "nan" = !passes "n" .eq "nan") ∧
    ((record.get? (.ofText "n.gone")).any Json.isComparable = false ∧
      Operator.ne.isOrdering = true ∧ passes "n.gone" .ne "7" = false) ∧
    (Operator.allOf.isMembership = true ∧ passes "l" .allOf "X|y" = true ∧
      ∃ items, record.get? (.ofText "l") = some (.array items)) ∧
    (passes "t" .like "V00" = true ∧ ∃ s, record.get? (.ofText "t") = some (.text s)) := by
  intro record passes
  have hnumber : (record.get? (.ofText "n")).any Json.isComparable = true := by decide +kernel
  have hgone : (record.get? (.ofText "n.gone")).any Json.isComparable = false := by decide +kernel
  have hlist : passes "l" .allOf "X|y" = true := by decide +kernel
  have htext : passes "t" .like "V00" = true := by decide +kernel
  obtain ⟨hone, hne, -⟩ := (operators_consistent record "n" "nan").1 hnumber
  exact ⟨⟨hnumber, hone, hne⟩,
    ⟨hgone, rfl, (operators_consistent record "n.gone" "7").2.1 hgone .ne rfl⟩,
    ⟨rfl, hlist, (operators_consistent record "l" "X|y").2.2.1 .allOf rfl hlist⟩,
    htext, (operators_consistent record "t" "V00").2.2.2 htext⟩

end Record

end RecordQuery
