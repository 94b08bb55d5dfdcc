import RecordQuery.Binary64.Numeral
import RecordQuery.Query.Operator
import RecordQuery.Record.Operand

/-!
# Filters

A filter compares the operand at a field with a value that is kept as written. The kind of
the operand decides how: a number is compared with the value's loose numeric reading, a text
in natural order, and a list by its elements. Every other combination of operator and kind
matches nothing.
-/

namespace RecordQuery

/-- One condition on a field. -/
structure Filter where
  field : String
  operator : Operator
  value : String
deriving DecidableEq, Repr

/-- Some part of a text is the text sought. -/
def Text.hasInfix (sought : List Char) : List Char → Bool
  | [] => sought.isEmpty
  | c :: cs => sought.isPrefixOf (c :: cs) || hasInfix sought cs

namespace Filter

/-- The character between the tokens of a membership filter. -/
def tokenSeparator : Char := '|'

/-- A list element equals a token: texts without regard to case, numbers by value. -/
def elementEquals (token : String) : Json → Bool
  | .text s => Text.naturalOrder s.toList token.toList == .eq
  | .number n =>
    match Binary64.ofToken? token with
    | some x => n.toBinary64.equals x
    | none => false
  | _ => false

/-- Some element of the list equals the token. -/
def holdsToken (items : List Json) (token : String) : Bool :=
  items.any (elementEquals token)

/-- The tokens of a membership filter. -/
def tokens (f : Filter) : List String :=
  (f.value.toList.splitOn tokenSeparator).map String.ofList

/-- Numbers are compared with the loose numeric reading of the value. -/
def matchesNumber (f : Filter) (actual : Binary64) : Bool :=
  f.operator.isOrdering &&
    match actual.compare? (Binary64.coerce f.value) with
    | some o => f.operator.holds o
    | none => false

/-- Texts are compared in natural order, or searched without regard to case. -/
def matchesText (f : Filter) (actual : String) : Bool :=
  match f.operator with
  | .like => Text.hasInfix (Text.lowercase f.value.toList) (Text.lowercase actual.toList)
  | operator => operator.holds (Text.naturalOrder actual.toList f.value.toList)

/-- The whole value is tried as one token before it is split, since an element may hold the
separator. -/
def matchesList (f : Filter) (items : List Json) : Bool :=
  match f.operator with
  | .anyOf => holdsToken items f.value || f.tokens.any (holdsToken items)
  | .allOf => holdsToken items f.value || f.tokens.all (holdsToken items)
  | _ => false

/-- The filter lets an operand pass. -/
def accepts (f : Filter) : Operand → Bool
  | .number x => f.matchesNumber x
  | .text s => f.matchesText s
  | .list items => f.matchesList items
  | .none => false

end Filter

end RecordQuery
