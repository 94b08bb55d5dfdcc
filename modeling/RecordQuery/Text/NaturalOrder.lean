import RecordQuery.Text.Digit
import RecordQuery.Text.Lowercase

/-!
# Natural order of texts

Two texts are compared from the left. Where both show an ASCII digit, the whole runs of
digits compare as numbers of any size; elsewhere one character of each compares by its
lower case. The first difference decides, and a text that ends first is less.
-/

namespace RecordQuery.Text

/-- Lexicographic order by code point. -/
def compareChars : List Char → List Char → Ordering
  | [], [] => .eq
  | [], _ :: _ => .lt
  | _ :: _, [] => .gt
  | a :: as, b :: bs => (compare a.toNat b.toNat).then (compareChars as bs)

/-- Order of digit runs by value: leading zeros have no weight, then a longer run is
larger, and runs of one length compare digit by digit. -/
def compareDigits (a b : List Char) : Ordering :=
  let a := a.dropWhile (· == '0')
  let b := b.dropWhile (· == '0')
  (compare a.length b.length).then (compareChars a b)

/-- Order of single characters without regard to case. -/
def compareCaseless (a b : Char) : Ordering :=
  compareChars (lowercaseChar a) (lowercaseChar b)

/-- Order of two texts: numbers by value, letters without regard to case. -/
def naturalOrder : List Char → List Char → Ordering
  | [], [] => .eq
  | [], _ :: _ => .lt
  | _ :: _, [] => .gt
  | a :: as, b :: bs =>
    if a.isDigit && b.isDigit then
      (compareDigits (a :: as.takeWhile Char.isDigit) (b :: bs.takeWhile Char.isDigit)).then
        (naturalOrder (as.dropWhile Char.isDigit) (bs.dropWhile Char.isDigit))
    else
      (compareCaseless a b).then (naturalOrder as bs)
termination_by as => as.length
decreasing_by
  · have := (List.dropWhile_sublist Char.isDigit (l := as)).length_le
    simp only [List.length_cons]
    omega
  · simp

example : naturalOrder "Item 9".toList "item 10".toList = .lt := by decide +kernel
example : naturalOrder "a007".toList "A7".toList = .eq := by decide +kernel

end RecordQuery.Text
