import RecordQuery.Json.Number

/-!
# Number literals

A literal without point and exponent is an integer where its value fits; every other one is
a float. Floats are read in working precision: the leading digits that fit an unsigned 64
bit integer are rounded once, and the result is multiplied or divided by a power of ten. A
literal beyond the finite numbers denotes none.
-/

namespace RecordQuery.Json

open Text

/-- The parts of a literal, as written. -/
structure Literal where
  negative : Bool
  whole : List Char
  places : Option (List Char)
  exponent : Option Int
deriving DecidableEq, Repr

namespace Literal

/-- A run of at least one digit at the start of a text, and the rest. -/
def digits? (cs : List Char) : Option (List Char × List Char) :=
  match cs.takeWhile Char.isDigit with
  | [] => none
  | ds => some (ds, cs.dropWhile Char.isDigit)

/-- The exponent that a text consists of. -/
def exponent? (cs : List Char) : Option Int := do
  let (sign, body) := match cs with
    | '-' :: r => (-1, r)
    | '+' :: r => (1, r)
    | r => (1, r)
  let (ds, []) ← digits? body | none
  pure (sign * numeral ds)

/-- What follows the digits before the point: places, an exponent, both or neither. -/
def tail? (negative : Bool) (whole : List Char) : List Char → Option Literal
  | [] => some ⟨negative, whole, none, none⟩
  | '.' :: cs => do
    let (places, rest) ← digits? cs
    match rest with
    | [] => pure ⟨negative, whole, some places, none⟩
    | e :: r =>
      if e = 'e' ∨ e = 'E' then pure ⟨negative, whole, some places, some (← exponent? r)⟩
      else none
  | e :: cs => do
    if e = 'e' ∨ e = 'E' then pure ⟨negative, whole, none, some (← exponent? cs)⟩ else none

/-- The literal that a text consists of. A leading zero stands alone before the point. -/
def ofChars? (cs : List Char) : Option Literal := do
  let (negative, body) := match cs with
    | '-' :: r => (true, r)
    | r => (false, r)
  let (whole, rest) ← digits? body
  if whole.head? = some '0' ∧ whole.length ≠ 1 then none else tail? negative whole rest

/-- Takes digits into a significand as long as it fits, and counts those left over. -/
def keepDigits : Nat → List Char → Nat × Nat
  | n, [] => (n, 0)
  | n, c :: cs =>
    let next := 10 * n + digitValue c
    if next < UInt64.size then keepDigits next cs else (n, (c :: cs).length)

/-- The greatest power of ten that scales a significand in one step. -/
def greatestPower : Nat := 308

/-- The magnitude nearest to a power of ten. -/
def powerOfTen (n : Nat) : Nat := (Binary64.ofDecimal false 1 n).magnitude

/-- Division by a power of ten, in steps of the greatest one. -/
def scaleDown (magnitude shift : Nat) : Nat :=
  if shift ≤ greatestPower then Binary64.divMagnitude magnitude (powerOfTen shift)
  else if magnitude = 0 then 0
  else scaleDown (Binary64.divMagnitude magnitude (powerOfTen greatestPower))
    (shift - greatestPower)
termination_by shift
decreasing_by simp only [greatestPower] at *; omega

/-- A significand times a power of ten; `none` beyond the finite numbers. -/
def scale? (significand : Nat) (exponent : Int) : Option Nat :=
  let magnitude := Binary64.magnitudeOfRatio significand 1
  if exponent < 0 then some (scaleDown magnitude exponent.natAbs)
  else if magnitude = 0 then some 0
  else if exponent ≤ greatestPower then
    some (Binary64.mulMagnitude magnitude (powerOfTen exponent.toNat))
  else none

/-- The float that a literal denotes. -/
def toFloat? (l : Literal) : Option Number := do
  let (kept, dropped) := keepDigits 0 l.whole
  let places := l.places.getD []
  let (significand, unread) := keepDigits kept places
  let exponent := (dropped : Int) - ((places.length : Int) - unread) + l.exponent.getD 0
  let magnitude ← scale? significand exponent
  Number.ofBinary64? (Binary64.ofMagnitude l.negative magnitude)

/-- The integer that a literal denotes. Zero with a minus sign is none. -/
def toInteger? (l : Literal) : Option Number :=
  match l.places, l.exponent with
  | none, none =>
    let n := numeral l.whole
    if l.negative then (if n = 0 then none else Number.ofInt? (-n)) else Number.ofInt? n
  | _, _ => none

/-- The number that a literal denotes. -/
def toNumber? (l : Literal) : Option Number := l.toInteger?.or l.toFloat?

end Literal

end RecordQuery.Json
