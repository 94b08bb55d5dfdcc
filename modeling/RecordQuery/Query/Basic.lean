import RecordQuery.Query.Filter
import RecordQuery.Query.SortKey
import RecordQuery.Query.Window

/-!
# Queries

A query says which records of a collection to keep, in which order, which part of them, and
which of their fields. Each facet may be missing.
-/

namespace RecordQuery

/-- All filters must match; the first sort key is the primary one; without fields whole
records are kept. -/
structure Query where
  filters : List Filter := []
  sorting : List SortKey := []
  fields : List String := []
  window : Option Window := none
deriving DecidableEq, Repr, Inhabited

namespace Query

/-- The query with one more condition. -/
def addFilter (q : Query) (f : Filter) : Query := { q with filters := q.filters ++ [f] }

/-- The query with one more sort key, after those it has. -/
def addSortKey (q : Query) (k : SortKey) : Query := { q with sorting := q.sorting ++ [k] }

/-- The query with one more field to keep. -/
def addField (q : Query) (path : String) : Query := { q with fields := q.fields ++ [path] }

/-- Sets how many records to keep; the offset stays. -/
def withCount (q : Query) (count : UInt64) : Query :=
  { q with window := some { q.window.getD ⟨0, 0⟩ with count } }

/-- Sets how many records to skip; the count stays. -/
def withOffset (q : Query) (offset : UInt64) : Query :=
  { q with window := some { q.window.getD ⟨0, 0⟩ with offset } }

/-- The query says nothing about a collection. -/
def isEmpty (q : Query) : Bool :=
  q.filters.isEmpty && q.sorting.isEmpty && q.fields.isEmpty &&
    !(q.window.any Window.isDefined)

/-- A record passes every filter. -/
def selects (q : Query) (record : Record) : Bool :=
  q.filters.all fun f => f.accepts (record.operand f.field)

end Query

end RecordQuery
