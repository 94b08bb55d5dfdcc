import RecordQuery.Text.Hex

/-!
# Double precision numbers

A number is its 64 bit pattern: a sign and a magnitude of 63 bits. The magnitudes of the
finite numbers count the representable absolute values from zero upwards, so numbers are
ordered by their signed magnitudes, with one zero; a NaN has no order.
-/

namespace RecordQuery

/-- A double precision number, by its bit pattern. -/
structure Binary64 where
  bits : UInt64
deriving DecidableEq, Repr

namespace Binary64

/-- The magnitude of infinity; greater ones are NaNs. -/
def infiniteMagnitude : Nat := 0x7FF0000000000000

/-- What the sign adds to a bit pattern. -/
def signBit : Nat := 0x8000000000000000

/-- The number of a sign and a magnitude. -/
def ofMagnitude (negative : Bool) (magnitude : Nat) : Binary64 :=
  ⟨UInt64.ofNat ((if negative then signBit else 0) + magnitude)⟩

instance : Inhabited Binary64 := ⟨ofMagnitude false 0⟩

/-- The sign bit is set. -/
def isNegative (x : Binary64) : Bool := signBit ≤ x.bits.toNat

/-- The bit pattern without its sign. -/
def magnitude (x : Binary64) : Nat := x.bits.toNat % signBit

/-- Neither infinite nor a NaN. -/
def isFinite (x : Binary64) : Bool := x.magnitude < infiniteMagnitude

/-- The magnitude lies beyond that of infinity. -/
def isNaN (x : Binary64) : Bool := infiniteMagnitude < x.magnitude

/-- The number with the other sign. -/
def neg (x : Binary64) : Binary64 := ofMagnitude (!x.isNegative) x.magnitude

def zero : Binary64 := ofMagnitude false 0
def infinity : Binary64 := ofMagnitude false infiniteMagnitude
def nan : Binary64 := ofMagnitude false 0x7FF8000000000000

/-- The position of a number among all numbers but the NaNs; both zeros share one. -/
def rank (x : Binary64) : Int :=
  if x.isNegative then -(x.magnitude : Int) else x.magnitude

/-- Numerical order, undefined when a NaN takes part. -/
def compare? (x y : Binary64) : Option Ordering :=
  if x.isNaN || y.isNaN then none else some (compare x.rank y.rank)

/-- Numerical equality: the zeros are equal and a NaN equals nothing. -/
def equals (x y : Binary64) : Bool := x.compare? y = some .eq

/-- The sixteen hexadecimal digits of the bit pattern. -/
def hex (x : Binary64) : String := String.ofList (Text.hexDigits 16 x.bits.toNat)

example : (ofMagnitude true 0).equals zero = true ∧ nan.equals nan = false := by decide +kernel

end Binary64

end RecordQuery
