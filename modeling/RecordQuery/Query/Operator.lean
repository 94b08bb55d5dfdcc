/-!
# Comparison operators

Six operators ask for the order of a field's value and the value of the filter, two ask
whether a list holds given tokens, and one looks for a part of a text.
-/

namespace RecordQuery

/-- An operator of a filter. -/
inductive Operator where
  | eq
  | ne
  | gt
  | ge
  | lt
  | le
  | anyOf
  | allOf
  | like
deriving DecidableEq, Repr, Inhabited

namespace Operator

/-- Every operator, in the order of the documentation. -/
def all : List Operator := [.eq, .ne, .gt, .ge, .lt, .le, .anyOf, .allOf, .like]

/-- The word that stands for an operator in a query string. -/
def token : Operator → String
  | .eq => "eq"
  | .ne => "neq"
  | .gt => "gt"
  | .ge => "gte"
  | .lt => "lt"
  | .le => "lte"
  | .anyOf => "any"
  | .allOf => "cts"
  | .like => "lke"

/-- The operator of a token, which is matched exactly. -/
def ofToken? (token : String) : Option Operator :=
  all.find? (·.token = token)

theorem ofToken?_token (o : Operator) : ofToken? o.token = some o := by
  cases o <;> decide

/-- The operator asks for an order. -/
def isOrdering : Operator → Bool
  | .eq | .ne | .gt | .ge | .lt | .le => true
  | .anyOf | .allOf | .like => false

/-- The operator asks for membership in a list. -/
def isMembership : Operator → Bool
  | .anyOf | .allOf => true
  | _ => false

/-- The operator's answer, given the order of the field's value and the filter's value. -/
def holds : Operator → Ordering → Bool
  | .eq, o => o == .eq
  | .ne, o => o != .eq
  | .gt, o => o == .gt
  | .ge, o => o != .lt
  | .lt, o => o == .lt
  | .le, o => o != .gt
  | _, _ => false

end Operator

end RecordQuery
