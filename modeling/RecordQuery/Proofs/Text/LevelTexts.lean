import RecordQuery.Proofs.Text.NaturalOrder

/-!
# Texts on one level

Natural order puts two texts on one level when their pieces stand level one by one. So a character
that is no digit and has no other case is in both texts or in neither.
-/

namespace RecordQuery.Text

open Std

theorem eq_of_compareChars {as bs : List Char} (h : compareChars as bs = .eq) : as = bs := by
  induction as generalizing bs with
  | nil => cases bs with
    | nil => rfl
    | cons b bs => cases h
  | cons a as ih => cases bs with
    | nil => cases h
    | cons b bs =>
      rw [compareChars, Ordering.then_eq_eq] at h
      rw [Char.toNat_inj.mp (Nat.compare_eq_eq.mp h.1), ih h.2]

/-- In lists on one level every item stands level with one of the other list. -/
theorem exists_level_of_mem {α : Type} {order : α → α → Ordering} {as bs : List α}
    (h : List.compareLex order as bs = .eq) {b : α} (hb : b ∈ bs) :
    ∃ a ∈ as, order a b = .eq := by
  induction as generalizing bs with
  | nil => cases bs with
    | nil => cases hb
    | cons c cs => cases h
  | cons a as ih => cases bs with
    | nil => cases h
    | cons c cs =>
      rw [List.compareLex_cons_cons, Ordering.then_eq_eq] at h
      obtain rfl | hb := List.mem_cons.mp hb
      · exact ⟨a, List.mem_cons_self, h.1⟩
      · obtain ⟨d, hd, hlevel⟩ := ih h.2 hb
        exact ⟨d, List.mem_cons_of_mem a hd, hlevel⟩

/-! ## Characters without another case -/

/-- No other character has the same lower case. -/
def Uncased (d : Char) : Prop := ∀ c, lowercaseChar c = lowercaseChar d → c = d

/-- A code point that no run of the lower case table leads to is the lower case of its own
character only. -/
theorem uncased_of_miss {d : Char} (hself : lowercaseChar d = [d]) (hzero : d.toNat ≠ 0)
    (hmiss : ∀ r ∈ lowercaseRuns, (r.last + r.offset : Int) < d.toNat ∨
      (d.toNat : Int) < r.first + r.offset) : Uncased d := by
  intro c hc
  rw [hself] at hc
  unfold lowercaseChar at hc
  split at hc
  · cases hc
  split at hc
  next run hrun =>
    exfalso
    have hin := List.find?_some hrun
    simp only [CaseRun.contains, Bool.and_eq_true, decide_eq_true_eq] at hin
    have hrange := hmiss run (List.mem_of_find?_eq_some hrun)
    have hcode : Char.ofNat (c.toNat + run.offset).toNat = d := List.singleton_inj.mp hc
    obtain hvalue | hvalue := toNat_ofNat_or (c.toNat + run.offset).toNat
    · rw [hcode] at hvalue
      omega
    · rw [← hcode, hvalue] at hzero
      exact hzero rfl
  next => exact List.singleton_inj.mp hc

theorem mem_pieces_iff {d : Char} (hd : d.isDigit = false) (cs : List Char) :
    .letter d hd ∈ pieces cs ↔ d ∈ cs := by
  induction cs using pieces.induct with
  | case1 => simp [pieces]
  | case2 c cs h ih =>
    have hrun : d ∉ c :: cs.takeWhile Char.isDigit := fun hmem =>
      Bool.eq_false_iff.mp hd (digits_of_run cs h d hmem)
    have hsplit : d ∈ c :: cs ↔
        d ∈ (c :: cs.takeWhile Char.isDigit) ++ cs.dropWhile Char.isDigit := by
      rw [List.cons_append, List.takeWhile_append_dropWhile]
    rw [pieces_digit cs h, List.mem_cons, ih, hsplit, List.mem_append, or_iff_right hrun]
    exact or_iff_right (by simp only [reduceCtorEq, not_false_eq_true])
  | case3 c cs h ih =>
    rw [Bool.not_eq_true] at h
    rw [pieces_letter cs h, List.mem_cons, ih, List.mem_cons]
    simp

/-- Level with a character that has no other case is that character only. -/
theorem eq_letter_of_level {d : Char} (hd : d.isDigit = false) (hcase : Uncased d) {x : Piece}
    (h : x.order (.letter d hd) = .eq) : x = .letter d hd := by
  cases x with
  | number value => exact absurd h (compareCaseless_digit (by decide : '0'.isDigit = true) hd).2
  | letter c hc =>
    obtain rfl := hcase c (eq_of_compareChars h)
    rfl

/-- Texts on one level have the same characters among those that are no digits and have no other
case. -/
theorem mem_iff_of_level {d : Char} (hd : d.isDigit = false) (hcase : Uncased d)
    {as bs : List Char} (h : naturalOrder as bs = .eq) : d ∈ as ↔ d ∈ bs := by
  have hmem : ∀ {as bs : List Char}, naturalOrder as bs = .eq → d ∈ bs → d ∈ as := by
    intro as bs h hb
    rw [naturalOrder_eq_compareLex] at h
    obtain ⟨x, hx, hlevel⟩ := exists_level_of_mem h ((mem_pieces_iff hd bs).mpr hb)
    rw [eq_letter_of_level hd hcase hlevel] at hx
    exact (mem_pieces_iff hd as).mp hx
  exact ⟨hmem (OrientedCmp.eq_symm h), hmem h⟩

end RecordQuery.Text
