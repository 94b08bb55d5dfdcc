import RecordQuery.Binary64.Rounding
import RecordQuery.Text.Blank
import RecordQuery.Text.Digit

/-!
# Numbers written as text

A numeral is an optional sign, digits with at most one point among them, and an optional
exponent; at least one digit stands before the exponent. Three words name the numbers that
have no numeral. A text reads as a number in full, or by its longest numeric beginning.
-/

namespace RecordQuery.Binary64

open Text

/-- An optional sign and what follows it; the flag tells a minus. -/
def splitSign : List Char → Bool × List Char
  | '-' :: cs => (true, cs)
  | '+' :: cs => (false, cs)
  | cs => (false, cs)

/-- The number a word names, in any mixture of cases. -/
def ofWord? (negative : Bool) (cs : List Char) : Option Binary64 :=
  match String.ofList (cs.map Char.toLower) with
  | "inf" | "infinity" => some (ofMagnitude negative infiniteMagnitude)
  | "nan" => some (ofMagnitude negative nan.magnitude)
  | _ => none

/-- An exponent that ends the text: an optional sign and at least one digit. -/
def readExponent? (cs : List Char) : Option Int :=
  let (negative, ds) := splitSign cs
  if ds ≠ [] ∧ ds.all Char.isDigit then
    some (if negative then -(numeral ds : Int) else numeral ds)
  else none

/-- What follows the digits of a numeral: nothing, or an exponent. -/
def readTail? : List Char → Option Int
  | [] => some 0
  | e :: cs => if e = 'e' ∨ e = 'E' then readExponent? cs else none

/-- The number nearest to an unsigned numeral. -/
def ofDigits? (negative : Bool) (cs : List Char) : Option Binary64 :=
  let whole := cs.takeWhile Char.isDigit
  let rest := cs.dropWhile Char.isDigit
  let (places, tail) :=
    match rest with
    | '.' :: r => (r.takeWhile Char.isDigit, r.dropWhile Char.isDigit)
    | r => ([], r)
  if whole = [] ∧ places = [] then none
  else (readTail? tail).map fun exponent =>
    ofDecimal negative (numeral (whole ++ places)) (exponent - places.length)

/-- The number that a text, without blanks, writes in full. -/
def ofText? (cs : List Char) : Option Binary64 :=
  let (negative, body) := splitSign cs
  (ofWord? negative body).or (ofDigits? negative body)

/-- The finite number that a token writes in full, blanks around it aside. -/
def ofToken? (token : String) : Option Binary64 :=
  (ofText? (trim token.toList)).filter isFinite

/-- The characters that open a text: a sign if there is one. -/
def signOf : List Char → List Char
  | '-' :: _ => ['-']
  | '+' :: _ => ['+']
  | _ => []

/-- An exponent at the start of a text; empty when no digit follows the mark. -/
def leadingExponent : List Char → List Char
  | [] => []
  | e :: cs =>
    let sign := signOf cs
    let digits := (cs.drop sign.length).takeWhile isDecimalDigit
    if (e = 'e' ∨ e = 'E') ∧ digits ≠ [] then e :: (sign ++ digits) else []

/-- The digits of a numeral at the start of a text, with a point among them or before them;
`none` when there is no digit. -/
def leadingDigits? (cs : List Char) : Option (List Char) :=
  let whole := cs.takeWhile isDecimalDigit
  match cs.dropWhile isDecimalDigit with
  | '.' :: r =>
    let places := r.takeWhile isDecimalDigit
    if whole = [] ∧ places = [] then none else some (whole ++ '.' :: places)
  | _ => if whole = [] then none else some whole

/-- The longest numeric beginning of a text, with digits of any script. -/
def leadingNumeral? (cs : List Char) : Option (List Char) :=
  let sign := signOf cs
  let body := cs.drop sign.length
  (leadingDigits? body).map fun digits =>
    sign ++ digits ++ leadingExponent (body.drop digits.length)

/-- The loose reading of a token: the number that its longest numeric beginning writes, and
zero where there is none or where it writes no number. -/
def coerce (token : String) : Binary64 :=
  ((leadingNumeral? (trimStart token.toList)).bind ofText?).getD zero

example : coerce " 12abc" = ofInt 12 ∧ coerce "abc" = zero ∧ coerce "5e+x" = ofInt 5 := by
  decide +kernel
example : ofToken? " +5. " = some (ofInt 5) ∧ ofToken? "." = none ∧ ofToken? "iNf" = none := by
  decide +kernel
example : coerce "1٣" = zero := by decide +kernel

end RecordQuery.Binary64
