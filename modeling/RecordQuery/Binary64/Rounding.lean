import RecordQuery.Binary64.Basic

/-!
# Rounding to double precision

Finite magnitudes count the representable absolute values from zero upwards. They come in
rows of `2 ^ 52`: in the first two rows neighbours lie `2 ^ -1074` apart, and from there on
the distance doubles from row to row. An exact quotient of naturals rounds to the nearest
magnitude, a tie to the even one, and values too large to the magnitude of infinity.
-/

namespace RecordQuery.Binary64

/-- The smallest positive number is `2 ^ -smallest`. -/
def smallest : Nat := 1074

/-- The bits of a number below its leading one. -/
def fractionBits : Nat := 52

/-- The magnitudes of a row. -/
def rowLength : Nat := Nat.pow 2 fractionBits

/-- The absolute value of a finite magnitude, in multiples of `2 ^ -smallest`. -/
def units (magnitude : Nat) : Nat :=
  let row := magnitude / rowLength
  if row = 0 then magnitude else (rowLength + magnitude % rowLength) * Nat.pow 2 (row - 1)

/-- The quotient rounded to the nearest natural, a tie to the even one. -/
def divideToEven (n d : Nat) : Nat :=
  let q := n / d
  let r := n % d
  if d < 2 * r ∨ (2 * r = d ∧ q % 2 = 1) then q + 1 else q

/-- The magnitude nearest to `n / d`. -/
def magnitudeOfRatio (n d : Nat) : Nat :=
  let scaled := n * Nat.pow 2 smallest
  let shift := Nat.log2 (scaled / d) - fractionBits
  min infiniteMagnitude (shift * rowLength + divideToEven scaled (d * Nat.pow 2 shift))

/-- The number nearest to `± n / d`. -/
def ofRatio (negative : Bool) (n d : Nat) : Binary64 :=
  ofMagnitude negative (magnitudeOfRatio n d)

/-- The number nearest to an integer. -/
def ofInt (i : Int) : Binary64 := ofRatio (i < 0) i.natAbs 1

/-- The number nearest to `± digits * 10 ^ exponent`. Exponents beyond the reach of every
finite number are answered without forming the power. -/
def ofDecimal (negative : Bool) (digits : Nat) (exponent : Int) : Binary64 :=
  if digits = 0 then ofMagnitude negative 0
  else if 400 < exponent then ofMagnitude negative infiniteMagnitude
  else if exponent < -(400 + (Nat.log2 digits : Int)) then ofMagnitude negative 0
  else ofRatio negative (digits * Nat.pow 10 exponent.toNat) (Nat.pow 10 (-exponent).toNat)

/-- The magnitude nearest to the product of two finite magnitudes. -/
def mulMagnitude (a b : Nat) : Nat :=
  magnitudeOfRatio (units a * units b) (Nat.pow 2 (2 * smallest))

/-- The magnitude nearest to the quotient of two finite magnitudes. -/
def divMagnitude (a b : Nat) : Nat :=
  magnitudeOfRatio (units a) (units b)

example : ofInt 12 = ⟨0x4028000000000000⟩ := by decide +kernel
example : ofInt 9007199254740993 = ofInt 9007199254740992 := by decide +kernel
example : ofDecimal false 5 (-324) = ⟨1⟩ ∧ ofDecimal true 1 400 = infinity.neg := by decide +kernel
example : ofDecimal false 17976931348623157 292 = ⟨0x7FEFFFFFFFFFFFFF⟩ := by decide +kernel

end RecordQuery.Binary64
