import RecordQuery.Log
import RecordQuery.Query.Basic

/-!
# Running a query

A query runs in four stages: select, sort, cut out the window, project. A stage whose facet
is empty is left out and logs nothing.
-/

namespace RecordQuery

namespace SortKey

/-- Sorting, with a message. -/
def sortLogged (keys : List SortKey) (records : List Record) : Logged (List Record) := do
  let sorted := sort keys records
  Logged.debug s!"sort: {sorted.length} records by {keys.length} rules"
  pure sorted

end SortKey

namespace Query

/-- Keeps the records that pass every filter. -/
def selectStage (q : Query) (records : List Record) : Logged (List Record) :=
  if q.filters.isEmpty then pure records
  else do
    let kept := records.filter q.selects
    Logged.debug
      s!"filter: {kept.length} of {records.length} records passed {q.filters.length} rules"
    pure kept

/-- Sorts by the sort keys. -/
def sortStage (q : Query) (records : List Record) : Logged (List Record) :=
  if q.sorting.isEmpty then pure records else SortKey.sortLogged q.sorting records

/-- Cuts out the window. -/
def windowStage (q : Query) (records : List Record) : Logged (List Record) :=
  match q.window.filter Window.isDefined with
  | none => pure records
  | some w => do
    let kept := w.apply records
    Logged.debug
      (s!"limit: count {w.count} offset {w.offset} " ++
        s!"kept {kept.length} of {records.length} records")
    pure kept

/-- Reduces every record to the fields asked for. -/
def projectStage (q : Query) (records : List Record) : Logged (List Record) :=
  if q.fields.isEmpty then pure records
  else do
    let paths := q.fields.map FieldPath.ofText
    Logged.debug s!"project: {q.fields.length} fields"
    pure (records.map (·.project paths))

/-- The records that answer a query, with what each stage logged. -/
def run (q : Query) (records : List Record) : Logged (List Record) := do
  let selected ← q.selectStage records
  let sorted ← q.sortStage selected
  let kept ← q.windowStage sorted
  q.projectStage kept

/-- The records that answer a query. -/
def execute (q : Query) (records : List Record) : List Record := (q.run records).value

end Query

end RecordQuery
