import RecordQuery.Query.Basic
import RecordQuery.Query.Keys
import RecordQuery.Text.Form

/-!
# Writing query strings

A query is written as form data with one pair per facet that has content, filters first,
then sort keys, fields and the window. Clauses are joined by commas, and nothing in them is
escaped before the form encoding.
-/

namespace RecordQuery

open Text

/-- The clause of a filter, with its operator always written out. -/
def Filter.toText (f : Filter) : String :=
  f.field ++ "=" ++ f.operator.token ++ ":" ++ f.value

/-- The clause of a sort key. -/
def SortKey.toText (k : SortKey) : String :=
  match k.direction with
  | .ascending => k.field
  | .descending => "-" ++ k.field

/-- Both numbers of a window, the offset even when it is zero. -/
def Window.toText (w : Window) : String :=
  String.ofList (decimal w.count.toNat ++ ',' :: decimal w.offset.toNat)

namespace Query

/-- The value of a facet; `none` when there is nothing to write. -/
def facetText? (q : Query) : Facet → Option String
  | .filter =>
    if q.filters.isEmpty then none else some (",".intercalate (q.filters.map Filter.toText))
  | .sort =>
    if q.sorting.isEmpty then none else some (",".intercalate (q.sorting.map SortKey.toText))
  | .fields => if q.fields.isEmpty then none else some (",".intercalate q.fields)
  | .limit => q.window.map Window.toText

/-- The query string of a query under the given keys. -/
def render (q : Query) (keys : Keys) : String :=
  String.ofList (Form.encode (Facet.all.filterMap fun facet =>
    (q.facetText? facet).map fun value => (keys.get facet, value)))

end Query

end RecordQuery
