/-!
# Errors of query strings
-/

namespace RecordQuery

/-- The parts of a query, each under a key of its own in a query string. -/
inductive Facet where
  | filter
  | sort
  | fields
  | limit
deriving DecidableEq, Repr

namespace Facet

/-- The facets, in the order in which their keys are checked and written. -/
def all : List Facet := [.filter, .sort, .fields, .limit]

/-- The word for a facet in messages, which is also its usual key. -/
def name : Facet → String
  | .filter => "filter"
  | .sort => "sort"
  | .fields => "fields"
  | .limit => "limit"

end Facet

/-- What can be wrong with a query string or with the keys it is read by. -/
inductive QueryError where
  | emptyKey (facet : Facet)
  | invalidFilter (clause : String)
  | unknownOperator (token : String)
  | emptyValue (field : String)
deriving DecidableEq, Repr

namespace QueryError

/-- The text of an error. -/
def message : QueryError → String
  | .emptyKey facet => "the " ++ facet.name ++ " key must not be empty"
  | .invalidFilter clause =>
    "invalid filter clause '" ++ clause ++ "', expected <field>=[<operator>:]<value>"
  | .unknownOperator token => "unknown filter operator '" ++ token ++ "'"
  | .emptyValue field => "filter value must not be empty (field: " ++ field ++ ")"

end QueryError

end RecordQuery
