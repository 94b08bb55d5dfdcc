import RecordQuery.Record.FieldPath
import RecordQuery.Text.NaturalOrder

/-!
# Operands

What a record holds at a field is classified by how it can be compared: as a number, as a
text, or as a list. Everything else, a missing field included, is no operand.

For sorting, operands of different kinds follow one another by kind: those without an order
of their own first, then numbers, then texts.
-/

namespace RecordQuery

/-- A field's value, by the way it compares. -/
inductive Operand where
  | number (value : Binary64)
  | text (value : String)
  | list (items : List Json)
  | none

namespace Operand

/-- The operand that a value is; a value that is missing is none. -/
def ofJson? : Option Json → Operand
  | some (.number n) => .number n.toBinary64
  | some (.text s) => .text s
  | some (.array items) => .list items
  | _ => .none

/-- The position of a kind among the kinds. -/
def kindRank : Operand → Nat
  | .number _ => 1
  | .text _ => 2
  | .list _ => 0
  | .none => 0

/-- The order of operands that sorting uses. Numbers without an order count as equal. -/
def order : Operand → Operand → Ordering
  | .number a, .number b => (a.compare? b).getD .eq
  | .text a, .text b => Text.naturalOrder a.toList b.toList
  | a, b => compare a.kindRank b.kindRank

end Operand

namespace Record

/-- The operand that a record holds at a field. -/
def operand (record : Record) (field : String) : Operand :=
  Operand.ofJson? (record.get? (FieldPath.ofText field))

end Record

end RecordQuery
