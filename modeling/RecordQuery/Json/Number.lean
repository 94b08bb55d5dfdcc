import RecordQuery.Binary64.Shortest

/-!
# Numbers of records

A number is an integer of the signed or the unsigned 64 bit range, or a finite double
precision number. The two classes stay apart: `1` and `1.0` are different numbers with the
same value.
-/

namespace RecordQuery.Json

/-- A number, in its class. -/
inductive Number where
  | int (value : Int) (fits : -0x8000000000000000 ≤ value ∧ value < UInt64.size)
  | float (value : Binary64) (finite : value.isFinite = true)
deriving DecidableEq, Repr

namespace Number

/-- The integer of the value, if it lies in one of the two 64 bit ranges. -/
def ofInt? (value : Int) : Option Number :=
  if h : -0x8000000000000000 ≤ value ∧ value < UInt64.size then some (.int value h) else none

/-- The number of the value, if it is finite. -/
def ofBinary64? (value : Binary64) : Option Number :=
  if h : value.isFinite = true then some (.float value h) else none

/-- The value that comparisons use: an integer counts as its nearest double. -/
def toBinary64 : Number → Binary64
  | .int value _ => Binary64.ofInt value
  | .float value _ => value

/-- The integer of a number of the integer class that is not negative. -/
def toNat? : Number → Option Nat
  | .int value _ => if 0 ≤ value then some value.toNat else none
  | .float _ _ => none

/-- Integers print their decimal digits, floats always show a point or an exponent. -/
def toText : Number → String
  | .int value _ =>
    String.ofList ((if value < 0 then ['-'] else []) ++ Text.decimal value.natAbs)
  | .float value _ => String.ofList value.toText

end Number

end RecordQuery.Json
