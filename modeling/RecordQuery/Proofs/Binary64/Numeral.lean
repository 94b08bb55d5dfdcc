import RecordQuery.Binary64.Numeral

/-!
# Numbers that are no NaN

Rounding stays at or below infinity, so no numeral writes a NaN; only a word does. What begins with
a digit or a point is no word.
-/

namespace RecordQuery.Binary64

open Text

theorem magnitude_ofMagnitude (negative : Bool) {m : Nat} (h : m < signBit) :
    (ofMagnitude negative m).magnitude = m := by
  unfold signBit at h
  cases negative
  all_goals
    simp only [ofMagnitude, magnitude, signBit, UInt64.toNat_ofNat', if_true, Bool.false_eq_true,
      if_false]
    omega

theorem isNaN_ofMagnitude (negative : Bool) {m : Nat} (h : m ≤ infiniteMagnitude) :
    (ofMagnitude negative m).isNaN = false := by
  have hs : m < signBit := Nat.lt_of_le_of_lt h (by decide)
  rw [isNaN, magnitude_ofMagnitude negative hs]
  simpa using h

/-- No rounding gives a NaN. -/
theorem isNaN_ofRatio (negative : Bool) (n d : Nat) : (ofRatio negative n d).isNaN = false :=
  isNaN_ofMagnitude negative (Nat.min_le_left _ _)

theorem isNaN_of_isFinite {x : Binary64} (h : x.isFinite = true) : x.isNaN = false := by
  simp only [isFinite, isNaN, decide_eq_true_eq, decide_eq_false_iff_not] at *
  omega

theorem compare?_of_not_isNaN {x y : Binary64} (hx : x.isNaN = false) (hy : y.isNaN = false) :
    x.compare? y = some (compare x.rank y.rank) := by
  rw [compare?, hx, hy]
  rfl

theorem isNaN_ofDecimal (negative : Bool) (digits : Nat) (exponent : Int) :
    (ofDecimal negative digits exponent).isNaN = false := by
  have hzero : (ofMagnitude negative 0).isNaN = false := isNaN_ofMagnitude negative (Nat.zero_le _)
  unfold ofDecimal
  split
  · exact hzero
  split
  · exact isNaN_ofMagnitude negative (Nat.le_refl _)
  split
  · exact hzero
  · exact isNaN_ofRatio _ _ _

/-! ## How a numeral begins -/

/-- The characters that can begin the digits of a numeral. -/
def beginsNumeral (c : Char) : Bool := isDecimalDigit c || c == '.'

theorem isDecimalDigit_of_isDigit {c : Char} (h : c.isDigit = true) : isDecimalDigit c = true := by
  have hdigit := Char.isDigit_iff_toNat.mp h
  simp only [Char.reduceToNat] at hdigit
  exact (CharClass.contains_iff decimalDigits c).mpr ⟨⟨0x30, 0x39⟩, by decide, hdigit⟩

theorem decimalDigits_miss_upper :
    ∀ r ∈ decimalDigits, r.last < 'A'.toNat ∨ 'Z'.toNat < r.first := by
  decide

theorem toLower_of_beginsNumeral {c : Char} (h : beginsNumeral c = true) : c.toLower = c := by
  have hupper : c.toNat < 'A'.toNat ∨ 'Z'.toNat < c.toNat := by
    rcases (Bool.or_eq_true _ _).mp h with hdigit | hpoint
    · obtain ⟨r, hr, hfirst, hlast⟩ := (CharClass.contains_iff decimalDigits c).mp hdigit
      have hmiss := decimalDigits_miss_upper r hr
      omega
    · rw [eq_of_beq hpoint]
      decide
  simp only [Char.reduceToNat] at hupper
  unfold Char.toLower
  refine dif_neg fun ⟨hlow, hhigh⟩ => ?_
  have hlow : 65 ≤ c.toNat := UInt32.le_iff_toNat_le.mp hlow
  have hhigh : c.toNat ≤ 90 := UInt32.le_iff_toNat_le.mp hhigh
  omega

/-- A text that begins like a numeral is no word. -/
theorem ofWord?_of_beginsNumeral (negative : Bool) {c : Char} (h : beginsNumeral c = true)
    (cs : List Char) : ofWord? negative (c :: cs) = none := by
  have hword : ∀ {word : String} {d : Char}, word.toList.head? = some d →
      beginsNumeral d = false → String.ofList (c :: cs.map Char.toLower) ≠ word := by
    rintro word d hhead hd rfl
    rw [String.toList_ofList, List.head?_cons] at hhead
    rw [← Option.some.inj hhead, h] at hd
    cases hd
  unfold ofWord?
  rw [List.map_cons, toLower_of_beginsNumeral h]
  split
  next hinf => exact absurd hinf (hword rfl (by decide))
  next hinfinity => exact absurd hinfinity (hword rfl (by decide))
  next hnan => exact absurd hnan (hword rfl (by decide))
  next => rfl

end RecordQuery.Binary64
