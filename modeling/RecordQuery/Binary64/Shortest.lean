import RecordQuery.Binary64.Rounding
import RecordQuery.Text.Digit

/-!
# The shortest text of a number

A finite number prints with the fewest digits that read back as itself, and of those with
the digits nearest to its exact value. The exact value is a decimal of at most `smallest`
places, so its neighbours on every decimal grid are found with natural numbers alone.
-/

namespace RecordQuery.Binary64

open Text

/-- A decimal number `digits * 10 ^ exponent`. -/
structure Decimal where
  digits : Nat
  exponent : Int
deriving DecidableEq, Repr

/-- The exact absolute value of a finite magnitude, in multiples of `10 ^ -smallest`. -/
def exactDigits (magnitude : Nat) : Nat := units magnitude * Nat.pow 5 smallest

/-- The power of ten of the leading digit of a positive magnitude. -/
def leadingPower (magnitude : Nat) : Int :=
  ((decimal (exactDigits magnitude)).length : Int) - 1 - smallest

/-- A decimal of `count` digits that reads back as the magnitude: of the two neighbours of
the exact value the nearer one that does, and the even one of two at equal distance. A
neighbour that is a power of ten is written with one digit. -/
def nearest? (magnitude count : Nat) : Option Decimal :=
  let exponent := leadingPower magnitude + 1 - count
  let exact := exactDigits magnitude
  let grid := Nat.pow 10 (exponent + smallest).toNat
  let below := exact / grid
  let rest := exact % grid
  let readsBack (n : Nat) : Bool := (ofDecimal false n exponent).magnitude = magnitude
  let lowerFirst : Bool := 2 * rest < grid ∨ (2 * rest = grid ∧ below % 2 = 0)
  let candidates := if lowerFirst then [below, below + 1] else [below + 1, below]
  (candidates.find? readsBack).map fun n =>
    if n = Nat.pow 10 count then ⟨1, exponent + count⟩ else ⟨n, exponent⟩

/-- The fewest digits that read back, tried from one digit upwards. Seventeen always do. -/
def shortestOf (magnitude : Nat) : Decimal :=
  ((List.range 17).findSome? fun i => nearest? magnitude (i + 1)).getD ⟨0, 0⟩

/-- Where positional notation is used: the least and the greatest power of ten of the leading
digit. -/
structure PositionalRange where
  least : Int
  greatest : Int

/-- Records print numbers from a hundred-thousandth up to sixteen digits positionally. -/
def recordRange : PositionalRange := ⟨-5, 15⟩

/-- The digits with a point `places` digits from the right; at least one digit on each side. -/
def positional (digits : List Char) (exponent : Int) : List Char :=
  if 0 ≤ exponent then digits ++ List.replicate exponent.toNat '0' ++ ['.', '0']
  else
    let places := (-exponent).toNat
    let padded := List.replicate (places + 1 - digits.length) '0' ++ digits
    padded.take (padded.length - places) ++ '.' :: padded.drop (padded.length - places)

/-- One digit, the others after a point, and the power of ten with its sign. -/
def scientific (digits : List Char) (power : Int) : List Char :=
  let fraction := match digits.drop 1 with
    | [] => []
    | rest => '.' :: rest
  digits.take 1 ++ fraction ++ ['e', if power < 0 then '-' else '+'] ++ decimal power.natAbs

/-- The absolute value of a positive finite magnitude as text. -/
def magnitudeText (range : PositionalRange) (magnitude : Nat) : List Char :=
  let shortest := shortestOf magnitude
  let digits := decimal shortest.digits
  let power := shortest.exponent + digits.length - 1
  if range.least ≤ power ∧ power ≤ range.greatest then positional digits shortest.exponent
  else scientific digits power

/-- The text of a finite number: always with a point or an exponent. -/
def toText (x : Binary64) : List Char :=
  (if x.isNegative then ['-'] else []) ++
    if x.magnitude = 0 then "0.0".toList else magnitudeText recordRange x.magnitude

example : String.ofList (toText (ofDecimal false 1 (-1))) = "0.1" := by decide +kernel
example : String.ofList (toText (ofDecimal true 1 16)) = "-1e+16" := by decide +kernel
example : String.ofList (toText ⟨1⟩) = "5e-324" := by decide +kernel
example : String.ofList (toText (ofDecimal false 1 23)) = "1e+23" := by decide +kernel
example : String.ofList (toText (ofInt 1000000000000000)) = "1000000000000000.0" := by
  decide +kernel
example : String.ofList (toText (ofDecimal false 12345 (-9))) = "0.000012345" := by decide +kernel

end RecordQuery.Binary64
