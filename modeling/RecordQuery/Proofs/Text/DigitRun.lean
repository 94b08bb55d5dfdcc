import RecordQuery.Text.NaturalOrder

/-!
# Digit runs and their values

Runs of digits are compared without reading them as numbers: leading zeros are dropped, then
the lengths decide, then the digits. This is the order of the numbers they write, of any size.
-/

namespace RecordQuery.Text

theorem numeral_eq_ofDigitChars (cs : List Char) : numeral cs = Nat.ofDigitChars 10 cs 0 := by
  rw [numeral, Nat.ofDigitChars_eq_foldl]
  rfl

/-- Reading the decimal digits of a number gives the number. -/
theorem numeral_decimal (n : Nat) : numeral (decimal n) = n := by
  rw [numeral_eq_ofDigitChars, decimal, Nat.ofDigitChars_ten_toDigits]

theorem isDigit_of_mem_decimal {n : Nat} {c : Char} (h : c ∈ decimal n) : c.isDigit = true :=
  Nat.isDigit_of_mem_toDigits (by decide) (by decide) h

/-- A text that writes a number: digits only, and at least one of them. -/
structure IsNumeral (cs : List Char) : Prop where
  ne : cs ≠ []
  digits : ∀ c ∈ cs, c.isDigit = true

instance (cs : List Char) : Decidable (IsNumeral cs) :=
  decidable_of_iff (cs ≠ [] ∧ cs.all Char.isDigit = true)
    ⟨fun ⟨h₁, h₂⟩ => ⟨h₁, List.all_eq_true.mp h₂⟩, fun ⟨h₁, h₂⟩ => ⟨h₁, List.all_eq_true.mpr h₂⟩⟩

theorem isNumeral_decimal (n : Nat) : IsNumeral (decimal n) :=
  ⟨Nat.toDigits_ne_nil, fun _ => isDigit_of_mem_decimal⟩

theorem IsNumeral.not_mem {cs : List Char} (h : IsNumeral cs) {c : Char}
    (hc : c.isDigit = false) : c ∉ cs :=
  fun hmem => Bool.eq_false_iff.mp hc (h.digits c hmem)

theorem le_ofDigitChars (n : Nat) (cs : List Char) : n ≤ Nat.ofDigitChars 10 cs n := by
  induction cs generalizing n with
  | nil => exact Nat.le_of_eq Nat.ofDigitChars_nil.symm
  | cons c cs ih =>
    have h := ih (10 * n + (c.toNat - '0'.toNat))
    rw [Nat.ofDigitChars_cons]
    omega

/-- Where each of two numbers gets one more digit, the earlier digits decide first. -/
theorem compare_append_digit (m n : Nat) {a b : Char} (ha : a.isDigit = true)
    (hb : b.isDigit = true) :
    compare (10 * m + (a.toNat - '0'.toNat)) (10 * n + (b.toNat - '0'.toNat)) =
      (compare m n).then (compare a.toNat b.toNat) := by
  have ha := Char.isDigit_iff_toNat.mp ha
  have hb := Char.isDigit_iff_toNat.mp hb
  simp only [Char.reduceToNat] at *
  rcases Nat.lt_trichotomy m n with h | rfl | h
  · rw [Nat.compare_eq_lt.mpr h]
    exact Nat.compare_eq_lt.mpr (by omega)
  · rw [Nat.compare_eq_eq.mpr rfl, Ordering.eq_then]
    rcases Nat.lt_trichotomy a.toNat b.toNat with h | h | h
    · rw [Nat.compare_eq_lt.mpr h]
      exact Nat.compare_eq_lt.mpr (by omega)
    · rw [h, Nat.compare_eq_eq.mpr rfl, Nat.compare_eq_eq.mpr rfl]
    · rw [Nat.compare_eq_gt.mpr h]
      exact Nat.compare_eq_gt.mpr (by omega)
  · rw [Nat.compare_eq_gt.mpr h]
    exact Nat.compare_eq_gt.mpr (by omega)

/-- Runs of one length compare digit by digit, unless the digits before them decide. -/
theorem compare_ofDigitChars {as bs : List Char} (ha : ∀ c ∈ as, c.isDigit = true)
    (hb : ∀ c ∈ bs, c.isDigit = true) (hl : as.length = bs.length) (m n : Nat) :
    compare (Nat.ofDigitChars 10 as m) (Nat.ofDigitChars 10 bs n) =
      (compare m n).then (compareChars as bs) := by
  induction as generalizing bs m n with
  | nil =>
    obtain rfl := List.length_eq_zero_iff.mp hl.symm
    rw [compareChars, Ordering.then_eq, Nat.ofDigitChars_nil, Nat.ofDigitChars_nil]
  | cons a as ih =>
    cases bs with
    | nil => simp at hl
    | cons b bs =>
      rw [List.forall_mem_cons] at ha hb
      rw [Nat.ofDigitChars_cons, Nat.ofDigitChars_cons, ih ha.2 hb.2 (Nat.succ.inj hl),
        compare_append_digit m n ha.1 hb.1, compareChars, Ordering.then_assoc]

/-- More digits leave a number as it is only where all of them, and the number, are zero. -/
theorem ofDigitChars_eq_self_iff {cs : List Char} (hd : ∀ c ∈ cs, c.isDigit = true) (n : Nat) :
    Nat.ofDigitChars 10 cs n = n ↔ cs = [] ∨ n = 0 ∧ ∀ c ∈ cs, c = '0' := by
  induction cs generalizing n with
  | nil => simp
  | cons c cs ih =>
    rw [List.forall_mem_cons] at hd
    have hdigit := Char.isDigit_iff_toNat.mp hd.1
    have hle := le_ofDigitChars (10 * n + (c.toNat - '0'.toNat)) cs
    rw [Nat.ofDigitChars_cons, List.forall_mem_cons]
    constructor
    · intro h
      have hn : n = 0 := by omega
      have hc : c = '0' := Char.toNat_inj.mp (by omega)
      subst hn hc
      refine .inr ⟨rfl, rfl, ?_⟩
      obtain rfl | ⟨-, hzero⟩ := (ih hd.2 0).mp h
      · exact fun _ h => nomatch h
      · exact hzero
    · rintro (hnil | ⟨rfl, rfl, hzero⟩)
      · cases hnil
      · exact (ih hd.2 0).mpr (.inr ⟨rfl, hzero⟩)

theorem numeral_eq_zero_iff {cs : List Char} (hd : ∀ c ∈ cs, c.isDigit = true) :
    numeral cs = 0 ↔ ∀ c ∈ cs, c = '0' := by
  rw [numeral_eq_ofDigitChars, ofDigitChars_eq_self_iff hd]
  constructor
  · rintro (rfl | ⟨-, hzero⟩)
    · exact fun _ h => nomatch h
    · exact hzero
  · exact fun hzero => .inr ⟨rfl, hzero⟩

theorem numeral_append (as bs : List Char) :
    numeral (as ++ bs) = Nat.ofDigitChars 10 bs (numeral as) := by
  rw [numeral_eq_ofDigitChars, numeral_eq_ofDigitChars, Nat.ofDigitChars_append]

/-- A run that does not begin with a zero writes a positive number. -/
theorem ofDigitChars_pos {cs : List Char} (hd : ∀ c ∈ cs, c.isDigit = true) (hne : cs ≠ [])
    (hz : cs.head? ≠ some '0') : 0 < Nat.ofDigitChars 10 cs 0 := by
  cases cs with
  | nil => exact absurd rfl hne
  | cons c cs =>
    have hdigit := Char.isDigit_iff_toNat.mp (hd c List.mem_cons_self)
    have hc : c.toNat ≠ '0'.toNat := fun h => hz (by rw [Char.toNat_inj.mp h]; rfl)
    rw [Nat.ofDigitChars_cons]
    exact Nat.lt_of_lt_of_le (by omega) (le_ofDigitChars _ _)

/-- Of two runs without leading zeros the shorter one writes the smaller number. -/
theorem ofDigitChars_lt_of_length_lt {as bs : List Char} (ha : ∀ c ∈ as, c.isDigit = true)
    (hb : ∀ c ∈ bs, c.isDigit = true) (hz : bs.head? ≠ some '0') (hl : as.length < bs.length) :
    Nat.ofDigitChars 10 as 0 < Nat.ofDigitChars 10 bs 0 := by
  -- The last digits of `bs`, as many as `as` has, follow a positive number.
  let k := bs.length - as.length
  have hlen : as.length = (bs.drop k).length := by simp only [k, List.length_drop]; omega
  have hpos : 0 < Nat.ofDigitChars 10 (bs.take k) 0 := by
    apply ofDigitChars_pos (fun c hc => hb c (List.mem_of_mem_take hc))
    · intro h
      have hk := congrArg List.length h
      simp only [k, List.length_take, List.length_nil] at hk
      omega
    · rwa [List.head?_take, if_neg (by omega)]
  have hsplit : Nat.ofDigitChars 10 bs 0 =
      Nat.ofDigitChars 10 (bs.drop k) (Nat.ofDigitChars 10 (bs.take k) 0) := by
    rw [← Nat.ofDigitChars_append, List.take_append_drop]
  rw [hsplit, ← Nat.compare_eq_lt,
    compare_ofDigitChars ha (fun c hc => hb c (List.mem_of_mem_drop hc)) hlen,
    Nat.compare_eq_lt.mpr hpos]
  rfl

theorem ofDigitChars_dropWhile_zero (cs : List Char) :
    Nat.ofDigitChars 10 (cs.dropWhile (· == '0')) 0 = Nat.ofDigitChars 10 cs 0 := by
  induction cs with
  | nil => rfl
  | cons c cs ih =>
    by_cases hc : c = '0'
    · subst hc
      rw [List.dropWhile_cons_of_pos (by decide), ih, Nat.ofDigitChars_cons]
      rfl
    · rw [List.dropWhile_cons_of_neg (by simpa using hc)]

theorem head?_dropWhile_zero (cs : List Char) : (cs.dropWhile (· == '0')).head? ≠ some '0' := by
  have h := List.head?_dropWhile_not (· == '0') cs
  intro hz
  rw [hz] at h
  simp at h

/-- Runs of digits compare by the numbers they write. -/
theorem compareDigits_eq_compare {as bs : List Char} (ha : ∀ c ∈ as, c.isDigit = true)
    (hb : ∀ c ∈ bs, c.isDigit = true) :
    compareDigits as bs = compare (numeral as) (numeral bs) := by
  have ha' : ∀ c ∈ as.dropWhile (· == '0'), c.isDigit = true :=
    fun c hc => ha c ((List.dropWhile_sublist _).subset hc)
  have hb' : ∀ c ∈ bs.dropWhile (· == '0'), c.isDigit = true :=
    fun c hc => hb c ((List.dropWhile_sublist _).subset hc)
  rw [numeral_eq_ofDigitChars, numeral_eq_ofDigitChars, ← ofDigitChars_dropWhile_zero as,
    ← ofDigitChars_dropWhile_zero bs]
  dsimp only [compareDigits]
  rcases Nat.lt_trichotomy (as.dropWhile (· == '0')).length (bs.dropWhile (· == '0')).length
    with h | h | h
  · rw [Nat.compare_eq_lt.mpr h,
      Nat.compare_eq_lt.mpr (ofDigitChars_lt_of_length_lt ha' hb' (head?_dropWhile_zero bs) h)]
    rfl
  · rw [Nat.compare_eq_eq.mpr h, compare_ofDigitChars ha' hb' h]
    rfl
  · rw [Nat.compare_eq_gt.mpr h,
      Nat.compare_eq_gt.mpr (ofDigitChars_lt_of_length_lt hb' ha' (head?_dropWhile_zero as) h)]
    rfl

end RecordQuery.Text
