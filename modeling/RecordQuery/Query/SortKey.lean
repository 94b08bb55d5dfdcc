import RecordQuery.Record.Operand

/-!
# Sorting

Records are sorted by a list of keys: the first key on which two records differ decides.
Sorting is stable, so records that agree on every key stay in the order they came in.
-/

namespace RecordQuery

/-- Which end of the order comes first. -/
inductive Direction where
  | ascending
  | descending
deriving DecidableEq, Repr, Inhabited

namespace Direction

def all : List Direction := [.ascending, .descending]

/-- The word that stands for a direction. -/
def token : Direction → String
  | .ascending => "asc"
  | .descending => "desc"

/-- The direction of a token, which is matched exactly. -/
def ofToken? (token : String) : Option Direction :=
  all.find? (·.token = token)

/-- An order, turned round when descending. -/
def apply : Direction → Ordering → Ordering
  | .ascending, o => o
  | .descending, o => o.swap

end Direction

/-- A field to sort by, and the direction. -/
structure SortKey where
  field : String
  direction : Direction
deriving DecidableEq, Repr

namespace SortKey

/-- The order of two records by one key. -/
def order (k : SortKey) (a b : Record) : Ordering :=
  k.direction.apply ((a.operand k.field).order (b.operand k.field))

/-- The order of two records by a list of keys. -/
def orderBy : List SortKey → Record → Record → Ordering
  | [], _, _ => .eq
  | k :: ks, a, b => (k.order a b).then (orderBy ks a b)

/-- The records in the order of the keys. -/
def sort (keys : List SortKey) (records : List Record) : List Record :=
  records.mergeSort fun a b => orderBy keys a b != .gt

end SortKey

end RecordQuery
