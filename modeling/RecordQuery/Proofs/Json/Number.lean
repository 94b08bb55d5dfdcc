import RecordQuery.Json.Number
import RecordQuery.Proofs.Binary64.FullReading
import RecordQuery.Proofs.Binary64.Nearest
import RecordQuery.Proofs.Text.DigitRun

/-!
# Integers read back from their texts

The text of an integer is a minus, if the integer is negative, and its decimal digits. The loose
and the strict reading of that text both give the number nearest to the integer.
-/

namespace RecordQuery

open Text

namespace Binary64

/-- Digits without an exponent write an integer. -/
theorem ofDecimal_exponent_zero (negative : Bool) (n : Nat) :
    ofDecimal negative n 0 = ofRatio negative n 1 := by
  by_cases hn : n = 0
  · subst hn
    have hzero : magnitudeOfRatio 0 1 = 0 := by
      rw [magnitudeOfRatio_one, Nat.zero_mul]
      rfl
    rw [ofRatio, hzero]
    rfl
  · have hpower : Nat.pow 10 (0 : Int).toNat = 1 := rfl
    rw [ofDecimal, if_neg hn, if_neg (by decide), if_neg (by omega), Int.neg_zero, hpower,
      Nat.mul_one]

end Binary64

namespace Json.Number

open Binary64

/-- The sign that the text of an integer begins with. -/
def signText (value : Int) : List Char := if value < 0 then ['-'] else []

/-- The text of an integer by its parts. -/
def numeralOf (value : Int) : Numeral where
  sign := if value < 0 then .minus else .absent
  digits := ⟨decimal value.natAbs, none⟩
  exponent := none

theorem text_numeralOf (value : Int) :
    (numeralOf value).text = signText value ++ decimal value.natAbs := by
  show (numeralOf value).sign.text ++ (decimal value.natAbs ++ []) = _
  rw [List.append_nil, numeralOf, signText]
  split <;> rfl

theorem isOf_numeralOf (value : Int) : (numeralOf value).IsOf Char.isDigit where
  digits := ⟨(isNumeral_decimal _).digits, fun _ hc => absurd hc List.not_mem_nil,
    .inl (isNumeral_decimal _).ne⟩
  exponent := fun _ hx => nomatch hx

theorem value_numeralOf (value : Int) : (numeralOf value).value = ofInt value := by
  have hsign : (numeralOf value).sign.isMinus = decide (value < 0) := by
    rw [numeralOf]
    split
    next hneg => rw [decide_eq_true hneg]; rfl
    next hneg => rw [decide_eq_false hneg]; rfl
  show ofDecimal _ (Text.numeral (decimal value.natAbs ++ [])) 0 = _
  rw [List.append_nil, numeral_decimal, ofDecimal_exponent_zero, hsign]
  rfl

end Json.Number

/-- An integer of the signed or the unsigned 64 bit range. -/
abbrev Json.Integer := { value : Int // -0x8000000000000000 ≤ value ∧ value < UInt64.size }

namespace Json.Integer

open Binary64 Json.Number

/-- The integer as a number of a record. -/
def toNumber (i : Json.Integer) : Json.Number := .int i.val i.property

/-- The decimal text of the integer. -/
def toText (i : Json.Integer) : String := i.toNumber.toText

theorem toList_toText (i : Json.Integer) :
    i.toText.toList = signText i.val ++ decimal i.val.natAbs := by
  rw [toText, toNumber, Json.Number.toText, String.toList_ofList, signText]

theorem log2_natAbs_le (i : Json.Integer) : i.val.natAbs.log2 ≤ 64 := by
  have hfits := i.property
  have hlt : i.val.natAbs < 2 ^ 65 := by
    simp only [UInt64.size] at hfits
    omega
  by_cases hzero : i.val.natAbs = 0
  · rw [hzero]
    exact Nat.zero_le _
  · exact Nat.le_of_lt_succ ((Nat.log2_lt hzero).mpr hlt)

theorem ofToken?_toText (i : Json.Integer) : ofToken? i.toText = some (ofInt i) := by
  have hlog := i.log2_natAbs_le
  rw [ofToken?, toList_toText, ← text_numeralOf, trim_text (isOf_numeralOf i).decimal,
    ofText?_text (isOf_numeralOf i), value_numeralOf,
    Option.filter_some_pos (isFinite_ofInt (by omega))]

theorem coerce_toText (i : Json.Integer) : coerce i.toText = ofInt i :=
  coerce_of_ofToken? i.ofToken?_toText

/-- The number of an integer is the one nearest to it. -/
theorem isNearest_toBinary64 (i : Json.Integer) : IsNearest i i.toNumber.toBinary64 := by
  have hlog := i.log2_natAbs_le
  exact isNearest_ofInt (by omega)

theorem value_toBinary64 (i : Json.Integer) :
    i.toNumber.toBinary64.value = nearest i * (2 ^ smallest : Nat) := by
  have hlog := i.log2_natAbs_le
  exact value_ofInt (by omega)

/-- Integers of records compare as the integers nearest to them. -/
theorem compare?_toBinary64 (i j : Json.Integer) :
    i.toNumber.toBinary64.compare? (ofInt j) = some (compare (nearest i) (nearest j)) := by
  have hi := i.log2_natAbs_le
  have hj := j.log2_natAbs_le
  exact compare?_ofInt (by omega) (by omega)

end Json.Integer

end RecordQuery
