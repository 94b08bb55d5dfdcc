import RecordQuery.Proofs.Comparison
import RecordQuery.Proofs.Text.DigitRun

/-!
# Natural order piece by piece

A text falls into pieces: whole runs of digits, and single other characters. Natural order is
the lexicographic order of the pieces, with a run of digits placed among the other characters
where a zero stands. The order of pieces is a total preorder, so natural order is one too.
-/

namespace RecordQuery

open Std

namespace Text

theorem compareChars_eq_compareLex (as bs : List Char) :
    compareChars as bs = List.compareLex (compareOn Char.toNat) as bs := by
  induction as generalizing bs with
  | nil => cases bs <;> rfl
  | cons a as ih =>
    cases bs with
    | nil => rfl
    | cons b bs =>
      rw [compareChars, List.compareLex_cons_cons, ih]
      rfl

instance : TransCmp compareChars := by
  have h : compareChars = List.compareLex (compareOn Char.toNat) :=
    funext fun as => funext fun bs => compareChars_eq_compareLex as bs
  rw [h]
  infer_instance

instance : TransCmp compareCaseless := transCmp_comap compareChars lowercaseChar

/-! ## Digits and the lower case of characters -/

theorem isDigit_eq_false_iff {c : Char} :
    c.isDigit = false ↔ c.toNat < '0'.toNat ∨ '9'.toNat < c.toNat := by
  rw [← Bool.not_eq_true, Char.isDigit_iff_toNat]
  omega

/-- No run of the lower case table takes a digit or gives one. -/
theorem lowercaseRuns_above_digits :
    ∀ r ∈ lowercaseRuns, '9'.toNat < r.first ∧ ('9'.toNat : Int) < r.first + r.offset := by
  decide +kernel

/-- A number is the code point of its character, or no code point at all. -/
theorem toNat_ofNat_or (n : Nat) : (Char.ofNat n).toNat = n ∨ Char.ofNat n = '\x00' := by
  by_cases hvalid : n.isValidChar
  · have hchar : Char.ofNat n = Char.ofNatAux n hvalid := dif_pos hvalid
    exact .inl (by rw [hchar]; rfl)
  · exact .inr (dif_neg hvalid)

theorem ofNat_isDigit_eq_false {n : Nat} (h : '9'.toNat < n) : (Char.ofNat n).isDigit = false := by
  rw [isDigit_eq_false_iff]
  obtain hvalue | hvalue := toNat_ofNat_or n
  · exact .inr (by rw [hvalue]; exact h)
  · exact .inl (by rw [hvalue]; decide)

theorem lowercaseChar_of_isDigit {c : Char} (h : c.isDigit = true) : lowercaseChar c = [c] := by
  have hc := (Char.isDigit_iff_toNat.mp h).2
  have hi : c ≠ '\u0130' := by
    rintro rfl
    exact absurd hc (by decide)
  have hf : lowercaseRuns.find? (·.contains c.toNat) = none := by
    rw [List.find?_eq_none]
    intro r hr
    have hfirst := (lowercaseRuns_above_digits r hr).1
    have hnot : ¬ r.first ≤ c.toNat := by omega
    simp [CaseRun.contains, hnot]
  simp [lowercaseChar, hi, hf]

/-- The lower case of a character that is no digit begins with a character that is none. -/
theorem lowercaseChar_of_not_isDigit {c : Char} (h : c.isDigit = false) :
    ∃ d ds, lowercaseChar c = d :: ds ∧ d.isDigit = false := by
  unfold lowercaseChar
  split
  · exact ⟨'i', _, rfl, by decide⟩
  · split
    next run hrun =>
      have hin := List.find?_some hrun
      have hrange := lowercaseRuns_above_digits run (List.mem_of_find?_eq_some hrun)
      simp only [CaseRun.contains, Bool.and_eq_true, decide_eq_true_eq] at hin
      exact ⟨_, [], rfl, ofNat_isDigit_eq_false (by omega)⟩
    next => exact ⟨c, [], rfl, h⟩

/-- Against a character that is no digit all digits stand at one place, and never level. -/
theorem compareCaseless_digit {d c : Char} (hd : d.isDigit = true) (hc : c.isDigit = false) :
    compareCaseless d c = compareCaseless '0' c ∧ compareCaseless '0' c ≠ .eq := by
  obtain ⟨e, es, he, hne⟩ := lowercaseChar_of_not_isDigit hc
  have hd' := Char.isDigit_iff_toNat.mp hd
  unfold compareCaseless
  rw [lowercaseChar_of_isDigit hd, lowercaseChar_of_isDigit (by decide : '0'.isDigit = true), he]
  simp only [compareChars]
  rcases isDigit_eq_false_iff.mp hne with h | h
  · rw [Nat.compare_eq_gt.mpr (show e.toNat < d.toNat by omega), Nat.compare_eq_gt.mpr h,
      Ordering.gt_then]
    exact ⟨rfl, by decide⟩
  · have hz : '0'.toNat < e.toNat := Nat.lt_trans (by decide) h
    rw [Nat.compare_eq_lt.mpr (show d.toNat < e.toNat by omega), Nat.compare_eq_lt.mpr hz,
      Ordering.lt_then]
    exact ⟨rfl, by decide⟩

/-! ## Pieces -/

/-- What natural order takes from a text at once: a run of digits, by the number it writes, or
one character that is no digit. -/
inductive Piece where
  | number (value : Nat)
  | letter (c : Char) (other : c.isDigit = false)

namespace Piece

/-- Numbers compare by value and letters without regard to case; against a letter every number
stands where a zero stands. -/
def order : Piece → Piece → Ordering
  | .number m, .number n => compare m n
  | .number _, .letter c _ => compareCaseless '0' c
  | .letter c _, .number _ => compareCaseless c '0'
  | .letter a _, .letter b _ => compareCaseless a b

theorem order_swap (x y : Piece) : x.order y = (y.order x).swap := by
  cases x <;> cases y <;> dsimp only [order] <;> exact OrientedCmp.eq_swap

/-- No letter lies level with the numbers. -/
theorem not_level {c : Char} (hc : c.isDigit = false) (h : (compareCaseless '0' c).isLE = true)
    (h' : (compareCaseless c '0').isLE = true) : False :=
  (compareCaseless_digit (by decide : '0'.isDigit = true) hc).2
    (OrientedCmp.isLE_antisymm h h')

theorem order_isLE_trans {x y z : Piece} (hxy : (x.order y).isLE = true)
    (hyz : (y.order z).isLE = true) : (x.order z).isLE = true := by
  -- Only a letter between two numbers could hide their order, and it would lie level with them.
  cases x <;> cases y <;> cases z <;> dsimp only [order] at *
  case number.letter.number => exact (not_level ‹_› hxy hyz).elim
  case number.number.letter => exact hyz
  case letter.number.number => exact hxy
  all_goals exact TransCmp.isLE_trans hxy hyz

instance : OrientedCmp order where
  eq_swap := order_swap _ _

instance : TransCmp order where
  isLE_trans := order_isLE_trans

end Piece

/-- The pieces of a text. -/
def pieces : List Char → List Piece
  | [] => []
  | c :: cs =>
    if h : c.isDigit = true then
      .number (numeral (c :: cs.takeWhile Char.isDigit)) :: pieces (cs.dropWhile Char.isDigit)
    else .letter c (Bool.not_eq_true _ ▸ h) :: pieces cs
termination_by cs => cs.length
decreasing_by
  · have := (List.dropWhile_sublist Char.isDigit (l := cs)).length_le
    simp only [List.length_cons]
    omega
  · simp

theorem pieces_digit {c : Char} (cs : List Char) (h : c.isDigit = true) :
    pieces (c :: cs) =
      .number (numeral (c :: cs.takeWhile Char.isDigit)) :: pieces (cs.dropWhile Char.isDigit) := by
  rw [pieces, dif_pos h]

theorem pieces_letter {c : Char} (cs : List Char) (h : c.isDigit = false) :
    pieces (c :: cs) = .letter c h :: pieces cs := by
  rw [pieces, dif_neg (by simp [h])]

theorem digits_of_run {c : Char} (cs : List Char) (h : c.isDigit = true) :
    ∀ d ∈ c :: cs.takeWhile Char.isDigit, d.isDigit = true := by
  rw [List.forall_mem_cons]
  exact ⟨h, List.all_eq_true.mp List.all_takeWhile⟩

theorem then_of_ne_eq {o o' : Ordering} (h : o ≠ .eq) : o.then o' = o := by
  cases o with
  | lt => rfl
  | eq => exact absurd rfl h
  | gt => rfl

/-- Natural order is the lexicographic order of the pieces. -/
theorem naturalOrder_eq_compareLex (as bs : List Char) :
    naturalOrder as bs = List.compareLex Piece.order (pieces as) (pieces bs) := by
  induction as, bs using naturalOrder.induct with
  | case1 => simp [naturalOrder, pieces, List.compareLex]
  | case2 b bs =>
    rw [naturalOrder]
    cases hb : b.isDigit
    · rw [pieces_letter bs hb, pieces]
      rfl
    · rw [pieces_digit bs hb, pieces]
      rfl
  | case3 a as =>
    rw [naturalOrder]
    cases ha : a.isDigit
    · rw [pieces_letter as ha, pieces]
      rfl
    · rw [pieces_digit as ha, pieces]
      rfl
  | case4 a as b bs hdigits ih =>
    rw [Bool.and_eq_true] at hdigits
    rw [naturalOrder, if_pos (by simp [hdigits]), ih, pieces_digit as hdigits.1,
      pieces_digit bs hdigits.2, List.compareLex_cons_cons,
      compareDigits_eq_compare (digits_of_run as hdigits.1) (digits_of_run bs hdigits.2)]
    rfl
  | case5 a as b bs hdigits ih =>
    rw [naturalOrder, if_neg hdigits]
    cases ha : a.isDigit <;> cases hb : b.isDigit
    case false.false =>
      rw [ih, pieces_letter as ha, pieces_letter bs hb, List.compareLex_cons_cons]
      rfl
    case false.true =>
      have h := compareCaseless_digit hb ha
      have hba : compareCaseless a b = compareCaseless a '0' :=
        calc compareCaseless a b
          _ = (compareCaseless b a).swap := OrientedCmp.eq_swap
          _ = (compareCaseless '0' a).swap := by rw [h.1]
          _ = compareCaseless a '0' := OrientedCmp.eq_swap.symm
      have hne : compareCaseless a '0' ≠ .eq := fun he => h.2 (OrientedCmp.eq_symm he)
      rw [pieces_letter as ha, pieces_digit bs hb, List.compareLex_cons_cons, hba,
        then_of_ne_eq hne]
      exact (then_of_ne_eq hne).symm
    case true.false =>
      have h := compareCaseless_digit ha hb
      rw [pieces_digit as ha, pieces_letter bs hb, List.compareLex_cons_cons, h.1,
        then_of_ne_eq h.2]
      exact (then_of_ne_eq h.2).symm
    case true.true => simp [ha, hb] at hdigits

instance : TransCmp naturalOrder := by
  have h : naturalOrder = fun as bs => List.compareLex Piece.order (pieces as) (pieces bs) :=
    funext fun as => funext fun bs => naturalOrder_eq_compareLex as bs
  rw [h]
  exact transCmp_comap (List.compareLex Piece.order) pieces

end Text

end RecordQuery
