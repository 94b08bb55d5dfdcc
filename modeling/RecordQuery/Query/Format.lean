import RecordQuery.Log
import RecordQuery.Query.Basic
import RecordQuery.Query.Keys
import RecordQuery.Text.Form

/-!
# Reading query strings

A query string is form data with one value per facet:

* filters `<field>=[<operator>:]<value>`, all of which must be well formed;
* sort keys `[-]<field>`, a minus for descending;
* field paths;
* a window `<count>[,<offset>]`.

Clauses are separated by commas and trimmed. Of several values under one key the last one
counts. Only filters can be wrong: empty sort keys and fields are skipped, and what is no
number counts as zero.
-/

namespace RecordQuery

open Text

/-- A format of query strings: its keys are usable. -/
structure QueryFormat where
  keys : Keys
  usable : keys.Usable

namespace QueryFormat

/-- The comma between clauses. -/
def clauseSeparator : Char := ','

theorem usable_default : ({} : Keys).Usable := by
  intro f
  cases f <;> decide +kernel

instance : Inhabited QueryFormat := ⟨⟨{}, usable_default⟩⟩

/-- The format with the given keys, trimmed; the first facet with a blank key is refused. -/
def ofKeys (keys : Keys) : Except QueryError QueryFormat :=
  match h : keys.blankFacet? with
  | some facet => .error (.emptyKey facet)
  | none => .ok ⟨keys.trimmed, Keys.usable_trimmed h⟩

/-- The clauses of a value, trimmed. -/
def clauses (value : String) : List (List Char) :=
  (value.toList.splitOn clauseSeparator).map trim

/-- The parts of a text before and after the first separator. -/
def splitFirst? (separator : Char) (cs : List Char) : Option (List Char × List Char) :=
  match cs.dropWhile (· != separator) with
  | [] => none
  | _ :: rest => some (cs.takeWhile (· != separator), rest)

/-- The operator and the value that follow the equals sign of a filter clause. -/
def readComparison (cs : List Char) : Except QueryError (Operator × List Char) :=
  match splitFirst? ':' cs with
  | none => .ok (.eq, cs)
  | some (token, value) =>
    match Operator.ofToken? (String.ofList token) with
    | some operator => .ok (operator, value)
    | none => .error (.unknownOperator (String.ofList token))

/-- The filter that a clause writes. -/
def readFilter (clause : List Char) : Except QueryError Filter :=
  match clause.splitOn '=' with
  | [field, comparison] =>
    if field = [] then .error (.invalidFilter (String.ofList clause))
    else
      match readComparison comparison with
      | .error e => .error e
      | .ok (operator, value) =>
        if value = [] then .error (.emptyValue (String.ofList field))
        else .ok ⟨String.ofList field, operator, String.ofList value⟩
  | _ => .error (.invalidFilter (String.ofList clause))

/-- The filters of a list of clauses; the first clause that is wrong decides. -/
def readFilters : List (List Char) → Logged (Except QueryError (List Filter))
  | [] => pure (.ok [])
  | clause :: rest =>
    match readFilter clause with
    | .error e => pure (.error e)
    | .ok f => do
      Logged.trace
        ("filter clause '" ++ String.ofList clause ++ "' -> " ++ f.field ++ " " ++
          f.operator.token ++ " '" ++ f.value ++ "'")
      let others ← readFilters rest
      pure (others.map (f :: ·))

/-- The sort key that a clause writes, unless it names no field. -/
def readSortKey? (clause : List Char) : Option SortKey :=
  match clause with
  | [] => none
  | ['-'] => none
  | '-' :: field => some ⟨String.ofList field, .descending⟩
  | field => some ⟨String.ofList field, .ascending⟩

/-- The sort keys of a value. -/
def readSorting (value : String) : List SortKey := (clauses value).filterMap readSortKey?

/-- The fields of a value. -/
def readFields (value : String) : List String :=
  ((clauses value).filter (· ≠ [])).map String.ofList

/-- A natural number of 64 bits, with or without a plus sign; zero for anything else. -/
def readNatural (clause : List Char) : UInt64 :=
  let digits := match clause with
    | '+' :: ds => ds
    | ds => ds
  if digits ≠ [] ∧ digits.all Char.isDigit ∧ numeral digits < UInt64.size then
    UInt64.ofNat (numeral digits)
  else 0

/-- The first two clauses are the count and the offset; later ones do not matter. -/
def readWindow (value : String) : Window :=
  let numbers := (clauses value).map readNatural
  ⟨numbers.getD 0 0, numbers.getD 1 0⟩

/-- How a window shows in a message. -/
def describeWindow : Option Window → String
  | none => "None"
  | some w => s!"Some(LimitRule \x7b count: {w.count}, offset: {w.offset} \x7d)"

/-- The query that a query string writes, with what was logged while reading it. -/
def parse (p : QueryFormat) (input : String) : Logged (Except QueryError Query) := do
  let pairs := Form.decode (trim input.toList)
  let valueOf (facet : Facet) : Option String := Form.lastValue? pairs (p.keys.get facet)
  match ← readFilters (((valueOf .filter).map clauses).getD []) with
  | .error e => pure (.error e)
  | .ok filters =>
    let sorting := ((valueOf .sort).map readSorting).getD []
    let fields := ((valueOf .fields).map readFields).getD []
    let window := (valueOf .limit).map readWindow
    Logged.debug
      (s!"parsed query: {filters.length} filters, {sorting.length} sort rules, " ++
        s!"{fields.length} fields, limit " ++ describeWindow window)
    pure (.ok ⟨filters, sorting, fields, window⟩)

/-- The query that a query string writes. -/
def read (p : QueryFormat) (input : String) : Except QueryError Query := (p.parse input).value

/-- Without a query string the query is empty, and nothing is logged. -/
def parseOptional (p : QueryFormat) : Option String → Logged (Except QueryError Query)
  | none => pure (.ok {})
  | some input => p.parse input

end QueryFormat

end RecordQuery
