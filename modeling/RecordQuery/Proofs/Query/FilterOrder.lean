import RecordQuery.Proofs.Binary64.LongestNumeral
import RecordQuery.Proofs.Query.SortOrder
import RecordQuery.Proofs.StableSort
import RecordQuery.Query.Filter

/-!
# Filters and sorting agree on one order

A filter reads its value once for numbers and once for texts, and compares on a path of its own.
What it finds is nevertheless the place of the record's operand relative to one fixed operand, the
pivot. In a sorted collection the places only grow, so they pass the pivot of each kind once.
-/

namespace RecordQuery

open Std

/-- In a list along which a function grows, the items with a lesser value come before those with
the next one. -/
theorem filter_lt_succ {α : Type} {f : α → Nat} {items : List α}
    (h : items.Pairwise fun a b => f a ≤ f b) (n : Nat) :
    items.filter (fun a => f a < n + 1) =
      items.filter (fun a => f a < n) ++ items.filter (fun a => f a = n) := by
  induction items with
  | nil => rfl
  | cons a items ih =>
    obtain ⟨ha, hitems⟩ := List.pairwise_cons.mp h
    specialize ih hitems
    by_cases hlt : f a < n
    · simp only [List.filter_cons, ih, hlt, Nat.lt_succ_of_lt hlt, Nat.ne_of_lt hlt, decide_true,
        decide_false, Bool.false_eq_true, if_true, if_false, List.cons_append]
    · -- Nothing that follows is below the number either.
      have hnone : items.filter (fun b => f b < n) = [] :=
        List.filter_eq_nil_iff.mpr fun b hb => by
          have := ha b hb
          simp only [decide_eq_true_eq]
          omega
      rw [hnone, List.nil_append] at ih
      have hiff : f a < n + 1 ↔ f a = n := by omega
      simp only [List.filter_cons, ih, hnone, hlt, hiff, decide_false, Bool.false_eq_true,
        if_false, List.nil_append]

/-- A list along which a function grows, up to four, is the concatenation of its levels. -/
theorem eq_append_levels {α : Type} {f : α → Nat} {items : List α}
    (h : items.Pairwise fun a b => f a ≤ f b) (hfour : ∀ a ∈ items, f a ≤ 4) :
    items = items.filter (fun a => f a < 1) ++
      (items.filter (fun a => f a = 1) ++ items.filter (fun a => f a = 2) ++
        items.filter (fun a => f a = 3)) ++ items.filter (fun a => f a = 4) := by
  calc items = items.filter (fun a => f a < 5) :=
        (List.filter_eq_self.mpr fun a ha =>
          decide_eq_true (Nat.lt_succ_of_le (hfour a ha))).symm
    _ = _ := by
        rw [filter_lt_succ h 4, filter_lt_succ h 3, filter_lt_succ h 2, filter_lt_succ h 1]
        simp only [List.append_assoc]

namespace Operand

theorem kindRank_le_of_isLE {a b : Operand} (h : (placeOrder a b).isLE) :
    a.kindRank ≤ b.kindRank := by
  refine Nat.le_of_not_lt fun hlt => ?_
  have hkind : compare a.kindRank b.kindRank = .gt := Nat.compare_eq_gt.mpr hlt
  simp [placeOrder, compareLex, compareOn, hkind] at h

/-- The sides of a pivot on which operands of its own kind stand. -/
def level : Ordering → Nat
  | .lt => 1
  | .eq => 2
  | .gt => 3

/-- Where an operand stands around the pivot of a kind: with the kinds before it, on one of the
levels of the kind, or with the kinds after it. -/
def side (kind : Nat) (pivot a : Operand) : Nat :=
  match compare a.kindRank kind with
  | .lt => 0
  | .eq => level (placeOrder a pivot)
  | .gt => 4

section

variable {kind : Nat} {a b : Operand} (pivot : Operand)

theorem side_of_kindRank_lt (h : a.kindRank < kind) : side kind pivot a = 0 := by
  rw [side, Nat.compare_eq_lt.mpr h]

theorem side_of_kindRank_eq (h : a.kindRank = kind) :
    side kind pivot a = level (placeOrder a pivot) := by
  rw [side, Nat.compare_eq_eq.mpr h]

theorem side_of_lt_kindRank (h : kind < a.kindRank) : side kind pivot a = 4 := by
  rw [side, Nat.compare_eq_gt.mpr h]

theorem side_between (h : a.kindRank = kind) :
    1 ≤ side kind pivot a ∧ side kind pivot a ≤ 3 := by
  rw [side_of_kindRank_eq pivot h]
  cases placeOrder a pivot <;> decide

theorem side_le_four (kind : Nat) (a : Operand) : side kind pivot a ≤ 4 := by
  obtain ha | ha | ha := Nat.lt_trichotomy a.kindRank kind
  · rw [side_of_kindRank_lt pivot ha]
    decide
  · exact Nat.le_succ_of_le (side_between pivot ha).2
  · exact Nat.le_of_eq (side_of_lt_kindRank pivot ha)

theorem side_eq_level_iff {o : Ordering} :
    side kind pivot a = level o ↔ a.kindRank = kind ∧ placeOrder a pivot = o := by
  obtain ha | ha | ha := Nat.lt_trichotomy a.kindRank kind
  · rw [side_of_kindRank_lt pivot ha]
    cases o <;> simp [level, Nat.ne_of_lt ha]
  · rw [side_of_kindRank_eq pivot ha]
    cases placeOrder a pivot <;> cases o <;> simp [level, ha]
  · rw [side_of_lt_kindRank pivot ha]
    cases o <;> simp [level, Nat.ne_of_gt ha]

theorem placeOrder_of_isLE (h : (placeOrder a b).isLE) :
    (placeOrder b pivot = .lt → placeOrder a pivot = .lt) ∧
    (placeOrder b pivot ≠ .gt → placeOrder a pivot ≠ .gt) := by
  simp only [Ordering.ne_gt_iff_isLE]
  exact ⟨TransCmp.lt_of_isLE_of_lt h, TransCmp.isLE_trans h⟩

theorem side_mono (h : (placeOrder a b).isLE) : side kind pivot a ≤ side kind pivot b := by
  have hrank := kindRank_le_of_isLE h
  obtain ha | ha | ha := Nat.lt_trichotomy a.kindRank kind
  · rw [side_of_kindRank_lt pivot ha]
    exact Nat.zero_le _
  · obtain hb | hb := Nat.eq_or_lt_of_le (ha ▸ hrank)
    · have hup := placeOrder_of_isLE pivot h
      rw [side_of_kindRank_eq pivot ha, side_of_kindRank_eq pivot hb.symm]
      revert hup
      cases placeOrder a pivot <;> cases placeOrder b pivot <;> decide
    · rw [side_of_lt_kindRank pivot hb]
      exact side_le_four pivot kind a
  · rw [side_of_lt_kindRank pivot (Nat.lt_of_lt_of_le ha hrank)]
    exact side_le_four pivot kind a

end

end Operand

namespace Filter

/-- What the value of a filter is among the operands of a kind. -/
def pivot (value : String) : Nat → Operand
  | 1 => .number (Binary64.coerce value)
  | 2 => .text value
  | _ => .none

/-- Ordering operators accept numbers and texts only, by the places of the operand and of the pivot
of its kind. -/
theorem accepts_iff {f : Filter} (hop : f.operator.isOrdering) {a : Operand} (ha : a.IsOrdered) :
    f.accepts a ↔ a.kindRank ≠ 0 ∧
      f.operator.holds (Operand.placeOrder a (pivot f.value a.kindRank)) := by
  cases a with
  | number x =>
    have hvalue := Binary64.isNaN_coerce f.value
    have hplace := Operand.order_eq_placeOrder ha (b := .number (Binary64.coerce f.value)) hvalue
    have hcompare := Binary64.compare?_of_not_isNaN ha hvalue
    simp [accepts, matchesNumber, Operand.kindRank, pivot, hop, ← hplace, Operand.order, hcompare]
  | text s =>
    have hplace := Operand.order_eq_placeOrder ha (b := .text f.value) trivial
    have hlike : f.operator ≠ .like := fun h => by simp [h, Operator.isOrdering] at hop
    simp [accepts, matchesText, Operand.kindRank, pivot, ← hplace, Operand.order]
  | list items =>
    have hany : f.operator ≠ .anyOf := fun h => by simp [h, Operator.isOrdering] at hop
    have hall : f.operator ≠ .allOf := fun h => by simp [h, Operator.isOrdering] at hop
    simp [accepts, matchesList, Operand.kindRank]
  | none => simp [accepts, Operand.kindRank]

section

variable {field value : String}

theorem accepts_of_holds {op : Operator} (hop : op.isOrdering) {a b : Operand} (ha : a.IsOrdered)
    (hb : b.IsOrdered) {kind : Nat} (hakind : a.kindRank = kind) (hbkind : b.kindRank = kind)
    (h : op.holds (Operand.placeOrder a (pivot value kind)) →
      op.holds (Operand.placeOrder b (pivot value kind))) :
    (Filter.mk field op value).accepts a → (Filter.mk field op value).accepts b := by
  rw [accepts_iff hop ha, accepts_iff hop hb, hakind, hbkind]
  exact And.imp_right h

/-- Of two operands of one kind, what accepts the greater one from above accepts the lesser one,
and what accepts the lesser one from below accepts the greater one. -/
theorem accepts_of_isLE {a b : Operand} (ha : a.IsOrdered) (hb : b.IsOrdered)
    (h : (Operand.placeOrder a b).isLE) (hkind : a.kindRank = b.kindRank) :
    ((Filter.mk field .le value).accepts b → (Filter.mk field .le value).accepts a) ∧
    ((Filter.mk field .lt value).accepts b → (Filter.mk field .lt value).accepts a) ∧
    ((Filter.mk field .ge value).accepts a → (Filter.mk field .ge value).accepts b) ∧
    ((Filter.mk field .gt value).accepts a → (Filter.mk field .gt value).accepts b) := by
  obtain ⟨hlt, hle⟩ := Operand.placeOrder_of_isLE (pivot value b.kindRank) h
  have hge := mt hlt
  have hgt := Decidable.not_imp_not.mp hle
  refine ⟨accepts_of_holds rfl hb ha rfl hkind ?_, accepts_of_holds rfl hb ha rfl hkind ?_,
    accepts_of_holds rfl ha hb hkind rfl ?_, accepts_of_holds rfl ha hb hkind rfl ?_⟩
  all_goals simpa only [Operator.holds, bne_iff_ne, beq_iff_eq]

/-- An operator that asks for one order accepts the operands of one level of a kind. -/
theorem side_eq_level_iff {kind : Nat} (hkind : 0 < kind) {a : Operand} (ha : a.IsOrdered)
    {op : Operator} (hop : op.isOrdering) {o : Ordering} (hholds : ∀ p, op.holds p = (p == o)) :
    Operand.side kind (pivot value kind) a = Operand.level o ↔
      a.kindRank = kind ∧ (Filter.mk field op value).accepts a := by
  rw [Operand.side_eq_level_iff]
  refine and_congr_right fun h => ?_
  subst h
  rw [accepts_iff hop ha, hholds, beq_iff_eq, and_iff_right (Nat.ne_of_gt hkind)]

end

end Filter

namespace SortKey

theorem pairwise_sort (keys : List SortKey) (records : List Record) :
    (sort keys records).Pairwise fun a b => (orderBy keys a b).isLE :=
  (ascending_mergeSort records).imp Ordering.ne_gt_iff_isLE.mp

theorem pairwise_sort_ascending (field : String) (records : List Record) :
    (sort [⟨field, .ascending⟩] records).Pairwise fun a b =>
      (Operand.placeOrder (a.operand field) (b.operand field)).isLE := by
  refine (pairwise_sort _ _).imp fun {a b} h => ?_
  rwa [orderBy, orderBy, Ordering.then_eq, order_eq_placeOrder] at h

/-- Sorting by a field puts the records in the order that filters on the field ask for: operators
that look for lesser records accept an initial part of the records of a kind, and those that look
for greater records a final part. The records of a kind before the value, level with it and after
it are three blocks that follow one another, and a record of no such kind is accepted by none of
these operators. -/
theorem sort_blocks (field value : String) (records : List Record) :
    let sorted := sort [⟨field, .ascending⟩] records
    let kind := fun record : Record => (record.operand field).kindRank
    let passes := fun (op : Operator) (record : Record) =>
      (Filter.mk field op value).accepts (record.operand field)
    sorted.Perm records ∧
    (sorted.Pairwise fun a b => kind a = kind b →
      (passes .le b → passes .le a) ∧ (passes .lt b → passes .lt a) ∧
      (passes .ge a → passes .ge b) ∧ (passes .gt a → passes .gt b)) ∧
    (∀ k, 0 < k → ∃ before after,
      sorted = before ++
        (sorted.filter (fun r => kind r = k ∧ passes .lt r) ++
          sorted.filter (fun r => kind r = k ∧ passes .eq r) ++
          sorted.filter (fun r => kind r = k ∧ passes .gt r)) ++ after ∧
      ∀ r ∈ before ++ after, kind r ≠ k) ∧
    (∀ record op, kind record = 0 → op.isOrdering → passes op record = false) := by
  intro sorted kind passes
  have hsorted := pairwise_sort_ascending field records
  have hordered : ∀ r : Record, (r.operand field).IsOrdered := fun r =>
    Operand.isOrdered_ofJson? _
  refine ⟨List.mergeSort_perm _ _, ?_, fun k hk => ?_, fun record op hkind hop => ?_⟩
  · exact hsorted.imp fun h hkind => Filter.accepts_of_isLE (hordered _) (hordered _) h hkind
  · let side := fun r : Record => Operand.side k (Filter.pivot value k) (r.operand field)
    have hside : sorted.Pairwise fun a b => side a ≤ side b :=
      hsorted.imp fun h => Operand.side_mono _ h
    have hlevel : ∀ {op : Operator} {o : Ordering}, op.isOrdering → (∀ p, op.holds p = (p == o)) →
        sorted.filter (fun r => kind r = k ∧ passes op r) =
          sorted.filter fun r => side r = Operand.level o := fun hop hholds =>
      List.filter_congr fun r _ =>
        decide_eq_decide.mpr (Filter.side_eq_level_iff hk (hordered r) hop hholds).symm
    have hparts := eq_append_levels hside fun r _ => Operand.side_le_four _ _ _
    refine ⟨sorted.filter fun r => side r < 1, sorted.filter fun r => side r = 4, ?_, ?_⟩
    · rw [hlevel (o := .lt) rfl fun _ => rfl, hlevel (o := .eq) rfl fun _ => rfl,
        hlevel (o := .gt) rfl fun _ => rfl]
      exact hparts
    · intro r hr hkind
      have hbetween : 1 ≤ side r ∧ side r ≤ 3 := Operand.side_between _ hkind
      rw [List.mem_append, List.mem_filter, List.mem_filter, decide_eq_true_iff,
        decide_eq_true_iff] at hr
      omega
  · exact Bool.eq_false_iff.mpr fun h => ((Filter.accepts_iff hop (hordered record)).mp h).1 hkind

/-- A value that is an infinite number and also a text, among whose texts one is level with it. -/
theorem sort_blocks_of_texts :
    let missing : Record := Dict.empty
    let number : Record := Dict.empty.insert "a" (.number (.int 7 (by decide)))
    let spelled : Record := Dict.empty.insert "a" (.text "1E0999")
    let later : Record := Dict.empty.insert "a" (.text "2")
    let kind := fun record : Record => (record.operand "a").kindRank
    (0 < 2 ∧ ∃ before after,
      sort [⟨"a", .ascending⟩] [later, spelled, number] =
        before ++ ([] ++ [spelled] ++ [later]) ++ after ∧
      ∀ r ∈ before ++ after, kind r ≠ 2) ∧
    (kind missing = 0 ∧ Operator.ne.isOrdering ∧
      (Filter.mk "a" .ne "1e999").accepts (missing.operand "a") = false) := by
  intro missing number spelled later kind
  obtain ⟨hperm, -, hblocks, hnone⟩ := sort_blocks "a" "1e999" [later, spelled, number]
  refine ⟨⟨by decide, ?_⟩, by decide +kernel, rfl, hnone missing .ne (by decide +kernel) rfl⟩
  obtain ⟨before, after, hparts, hothers⟩ := hblocks 2 (by decide)
  refine ⟨before, after, ?_, hothers⟩
  -- The blocks have the same records as before sorting, none or one each.
  let block := fun (op : Operator) (r : Record) =>
    decide (kind r = 2 ∧ (Filter.mk "a" op "1e999").accepts (r.operand "a"))
  have hless : [later, spelled, number].filter (block .lt) = [] := by decide +kernel
  have hlevel : [later, spelled, number].filter (block .eq) = [spelled] := by
    rw [List.filter_cons_of_neg (by decide +kernel), List.filter_cons_of_pos (by decide +kernel),
      List.filter_cons_of_neg (by decide +kernel), List.filter_nil]
  have hgreater : [later, spelled, number].filter (block .gt) = [later] := by
    rw [List.filter_cons_of_pos (by decide +kernel), List.filter_cons_of_neg (by decide +kernel),
      List.filter_cons_of_neg (by decide +kernel), List.filter_nil]
  have hsorted := fun op => hperm.filter (block op)
  have hless := List.perm_nil.mp (hless ▸ hsorted .lt)
  have hlevel := List.perm_singleton.mp (hlevel ▸ hsorted .eq)
  have hgreater := List.perm_singleton.mp (hgreater ▸ hsorted .gt)
  rwa [hless, hlevel, hgreater] at hparts

end SortKey

end RecordQuery
