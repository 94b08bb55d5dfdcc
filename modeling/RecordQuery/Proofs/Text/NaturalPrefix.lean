import Mathlib.Data.List.DropRight
import RecordQuery.Proofs.Text.NaturalOrder
import RecordQuery.Proofs.Text.Span

/-!
# Texts and what they go on to

A text never comes after one that begins with it. Digits put behind a text can go on with the run of
digits it ends in, and they make the number of that run larger unless the number was zero and stays
so: only then, or where nothing is put behind it, the two texts stand level.
-/

namespace RecordQuery.Text

open Std

/-- The run of digits that a text ends in. -/
def lastRun (cs : List Char) : List Char := cs.rtakeWhile Char.isDigit

theorem isNumeral_lastRun {cs : List Char} (h : lastRun cs ≠ []) : IsNumeral (lastRun cs) :=
  ⟨h, fun _ hc => List.mem_rtakeWhile_imp hc⟩

/-- Before the last run a text is empty or has a character that is no digit. -/
theorem eq_append_lastRun (cs : List Char) :
    cs = lastRun cs ∨ ∃ before c, c.isDigit = false ∧ cs = before ++ c :: lastRun cs := by
  have hsplit : cs.rdropWhile Char.isDigit ++ lastRun cs = cs := List.rdropWhile_append_rtakeWhile
  rcases List.eq_nil_or_concat (cs.rdropWhile Char.isDigit) with hnil | ⟨before, c, hconcat⟩
  · rw [hnil, List.nil_append] at hsplit
    exact .inl hsplit.symm
  · rw [List.concat_eq_append] at hconcat
    have hlast := List.rdropWhile_last_not Char.isDigit cs (by simp [hconcat])
    rw [hconcat, List.append_assoc, List.singleton_append] at hsplit
    exact .inr ⟨before, c, by simpa [hconcat] using hlast, hsplit.symm⟩

/-! ## Texts that begin alike -/

/-- A common beginning of two lists does not decide their order. -/
theorem compareLex_append_append {α : Type} {order : α → α → Ordering} [ReflCmp order]
    (xs ys zs : List α) :
    List.compareLex order (xs ++ ys) (xs ++ zs) = List.compareLex order ys zs := by
  induction xs with
  | nil => rfl
  | cons x xs ih =>
    have hself : order x x = .eq := ReflCmp.compare_self
    rw [List.cons_append, List.cons_append, List.compareLex_cons_cons, hself, ih, Ordering.eq_then]

/-- Around a character that is no digit the pieces of a text do not depend on each other. -/
theorem pieces_append_letter {c : Char} (h : c.isDigit = false) (before after : List Char) :
    pieces (before ++ c :: after) = pieces before ++ .letter c h :: pieces after := by
  induction before using pieces.induct with
  | case1 => rw [List.nil_append, pieces_letter after h, pieces, List.nil_append]
  | case2 d ds hd ih =>
    have hrun : ∀ e ∈ ds.takeWhile Char.isDigit, e.isDigit = true :=
      fun e he => List.mem_takeWhile_imp he
    have hstops : Stops Char.isDigit (ds.dropWhile Char.isDigit ++ c :: after) :=
      (stops_dropWhile ds).append (stops_cons.mpr h)
    have hsplit : ds ++ c :: after = ds.takeWhile Char.isDigit ++
        (ds.dropWhile Char.isDigit ++ c :: after) := by
      rw [← List.append_assoc, List.takeWhile_append_dropWhile]
    rw [List.cons_append, pieces_digit _ hd, pieces_digit _ hd, hsplit, takeWhile_span hrun hstops,
      dropWhile_span hrun hstops, ih, List.cons_append]
  | case3 d ds hd ih =>
    rw [Bool.not_eq_true] at hd
    rw [List.cons_append, pieces_letter _ hd, pieces_letter _ hd, ih, List.cons_append]

theorem naturalOrder_append_letter {c : Char} (h : c.isDigit = false) (before as bs : List Char) :
    naturalOrder (before ++ c :: as) (before ++ c :: bs) = naturalOrder as bs := by
  have hself : (Piece.letter c h).order (.letter c h) = .eq := ReflCmp.compare_self
  rw [naturalOrder_eq_compareLex, naturalOrder_eq_compareLex, pieces_append_letter h,
    pieces_append_letter h, compareLex_append_append, List.compareLex_cons_cons, hself,
    Ordering.eq_then]

/-- Only the run of digits that a text ends in can go on in what is put behind the text. -/
theorem naturalOrder_lastRun (as bs : List Char) :
    naturalOrder as (as ++ bs) = naturalOrder (lastRun as) (lastRun as ++ bs) := by
  obtain hrun | ⟨before, c, hc, hsplit⟩ := eq_append_lastRun as
  · rw [← hrun]
  · calc naturalOrder as (as ++ bs)
      _ = naturalOrder (before ++ c :: lastRun as) (before ++ c :: (lastRun as ++ bs)) := by
        rw [← List.cons_append, ← List.append_assoc, ← hsplit]
      _ = naturalOrder (lastRun as) (lastRun as ++ bs) := naturalOrder_append_letter hc _ _ _

/-! ## Runs of digits -/

theorem naturalOrder_nil (bs : List Char) :
    naturalOrder [] bs ≠ .gt ∧ (naturalOrder [] bs = .eq ↔ bs = []) := by
  cases bs <;> simp [naturalOrder]

section

variable {run : List Char} (hrun : IsNumeral run)
include hrun

/-- Digits behind a run never make its number smaller. -/
theorem compareDigits_append {digits : List Char} (hdigits : ∀ c ∈ digits, c.isDigit = true) :
    compareDigits run (run ++ digits) ≠ .gt ∧ (compareDigits run (run ++ digits) = .eq ↔
      digits = [] ∨ (∀ c ∈ run, c = '0') ∧ ∀ c ∈ digits, c = '0') := by
  have hall : ∀ c ∈ run ++ digits, c.isDigit = true :=
    List.forall_mem_append.mpr ⟨hrun.digits, hdigits⟩
  rw [compareDigits_eq_compare hrun.digits hall, numeral_append]
  constructor
  · exact Nat.compare_ne_gt.mpr (le_ofDigitChars _ _)
  · rw [Nat.compare_eq_eq, eq_comm, ofDigitChars_eq_self_iff hdigits,
      numeral_eq_zero_iff hrun.digits]

/-- What is put behind a run of digits first goes on with it, then follows it. -/
theorem naturalOrder_run_append (bs : List Char) :
    naturalOrder run (run ++ bs) =
      (compareDigits run (run ++ bs.takeWhile Char.isDigit)).then
        (naturalOrder [] (bs.dropWhile Char.isDigit)) := by
  obtain ⟨c, cs, rfl⟩ := List.exists_cons_of_ne_nil hrun.ne
  obtain ⟨hc, hcs⟩ := List.forall_mem_cons.mp hrun.digits
  rw [List.cons_append, naturalOrder, if_pos (by simp [hc]), List.takeWhile_eq_self_iff.mpr hcs,
    List.dropWhile_eq_nil_iff.mpr hcs, List.takeWhile_append_of_pos hcs,
    List.dropWhile_append_of_pos hcs, List.cons_append]

end

/-! ## Any texts -/

/-- A text is never greater than one that begins with it, and level with it exactly if nothing is
put behind it, or zeros are put behind a run of zeros that it ends in. -/
theorem naturalOrder_append (as bs : List Char) :
    naturalOrder as (as ++ bs) ≠ .gt ∧
      (naturalOrder as (as ++ bs) = .eq ↔
        bs = [] ∨ (∀ c ∈ bs, c = '0') ∧ lastRun as ≠ [] ∧ ∀ c ∈ lastRun as, c = '0') := by
  rw [naturalOrder_lastRun]
  by_cases hne : lastRun as = []
  · obtain ⟨hle, heq⟩ := naturalOrder_nil bs
    rw [hne, List.nil_append]
    exact ⟨hle, heq.trans (by simp)⟩
  have hrun := isNumeral_lastRun hne
  have hdigits : ∀ c ∈ bs.takeWhile Char.isDigit, c.isDigit = true :=
    fun c hc => List.mem_takeWhile_imp hc
  obtain ⟨hdigitsLe, hdigitsEq⟩ := compareDigits_append hrun hdigits
  obtain ⟨hrestLe, hrestEq⟩ := naturalOrder_nil (bs.dropWhile Char.isDigit)
  rw [naturalOrder_run_append hrun]
  constructor
  · rw [ne_eq, Ordering.then_eq_gt]
    rintro (hgt | ⟨-, hgt⟩)
    · exact hdigitsLe hgt
    · exact hrestLe hgt
  · rw [Ordering.then_eq_eq, hdigitsEq, hrestEq, List.dropWhile_eq_nil_iff]
    constructor
    · rintro ⟨hlevel, hall⟩
      rw [List.takeWhile_eq_self_iff.mpr hall] at hlevel
      exact hlevel.imp_right fun ⟨hzeros, hmore⟩ => ⟨hmore, hne, hzeros⟩
    · rintro (rfl | ⟨hmore, -, hzeros⟩)
      · exact ⟨.inl rfl, fun _ h => nomatch h⟩
      · have hall : ∀ c ∈ bs, c.isDigit = true := fun c hc => hmore c hc ▸ (by decide)
        rw [List.takeWhile_eq_self_iff.mpr hall]
        exact ⟨.inr ⟨hzeros, hmore⟩, hall⟩

example : naturalOrder "a00".toList "a000".toList = .eq ∧
    naturalOrder "a20".toList "a200".toList = .lt := by decide +kernel

end RecordQuery.Text
