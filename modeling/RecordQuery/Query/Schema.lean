import RecordQuery.Document.Decoder
import RecordQuery.Query.Basic
import RecordQuery.Query.Keys

/-!
# Queries as documents

Queries and their parts can be read from documents and written as JSON.
-/

namespace RecordQuery

open Document

/-- An object with the given members. -/
def Json.ofMembers (members : List (String × Json)) : Json := .object (Dict.ofList members)

/-- A natural number of 64 bits as a JSON number. -/
def Json.ofWord64 (n : UInt64) : Json :=
  .number (.int n.toNat ⟨by omega, Int.ofNat_lt.mpr n.toNat_lt_size⟩)

namespace Operator

def ofTree? : Decoder Operator := Decoder.choice ofToken?

def toJson (o : Operator) : Json := .text o.token

end Operator

namespace Direction

def ofTree? : Decoder Direction := Decoder.choice ofToken?

def toJson (d : Direction) : Json := .text d.token

end Direction

namespace Filter

/-- A filter has the members `field`, `operator` and `value`. -/
def ofTree? : Decoder Filter := fun t => do
  let members ← Decoder.members ["field", "operator", "value"] t
  let field ← Decoder.required members "field" Decoder.text
  let operator ← Decoder.required members "operator" Operator.ofTree?
  let value ← Decoder.required members "value" Decoder.text
  pure ⟨field, operator, value⟩

def toJson (f : Filter) : Json :=
  .ofMembers [("field", .text f.field), ("operator", f.operator.toJson), ("value", .text f.value)]

end Filter

namespace SortKey

/-- A sort key has the members `field` and `order`. -/
def ofTree? : Decoder SortKey := fun t => do
  let members ← Decoder.members ["field", "order"] t
  let field ← Decoder.required members "field" Decoder.text
  let direction ← Decoder.required members "order" Direction.ofTree?
  pure ⟨field, direction⟩

def toJson (k : SortKey) : Json :=
  .ofMembers [("field", .text k.field), ("order", k.direction.toJson)]

end SortKey

namespace Window

/-- A window has the members `count` and `offset`. -/
def ofTree? : Decoder Window := fun t => do
  let members ← Decoder.members ["count", "offset"] t
  let count ← Decoder.required members "count" Decoder.word64
  let offset ← Decoder.required members "offset" Decoder.word64
  pure ⟨count, offset⟩

def toJson (w : Window) : Json :=
  .ofMembers [("count", .ofWord64 w.count), ("offset", .ofWord64 w.offset)]

end Window

namespace Keys

/-- Every member is the key of a facet; one left out is the usual key. -/
def ofTree? : Decoder Keys := fun t => do
  let members ← Decoder.members ["filter", "sort", "fields", "limit"] t
  let usual : Keys := {}
  let filter ← Decoder.withDefault members "filter" Decoder.text usual.filter
  let sort ← Decoder.withDefault members "sort" Decoder.text usual.sort
  let fields ← Decoder.withDefault members "fields" Decoder.text usual.fields
  let limit ← Decoder.withDefault members "limit" Decoder.text usual.limit
  pure ⟨filter, sort, fields, limit⟩

def toJson (k : Keys) : Json :=
  .ofMembers (Facet.all.map fun f => (f.name, .text (k.get f)))

end Keys

namespace Query

/-- Every member of a query may be left out. -/
def ofTree? : Decoder Query := fun t => do
  let members ← Decoder.members ["filters", "sorting", "fields", "limit"] t
  let filters ← Decoder.withDefault members "filters" (Decoder.list Filter.ofTree?) []
  let sorting ← Decoder.withDefault members "sorting" (Decoder.list SortKey.ofTree?) []
  let fields ← Decoder.withDefault members "fields" (Decoder.list Decoder.text) []
  let window ← Decoder.withDefault members "limit" (Decoder.optional Window.ofTree?) none
  pure ⟨filters, sorting, fields, window⟩

/-- The window is written only if there is one. -/
def toJson (q : Query) : Json :=
  .ofMembers <|
    [("filters", .array (q.filters.map Filter.toJson)),
     ("sorting", .array (q.sorting.map SortKey.toJson)),
     ("fields", .array (q.fields.map .text))] ++
    (q.window.toList.map fun w => ("limit", w.toJson))

end Query

end RecordQuery
