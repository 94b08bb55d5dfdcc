import RecordQuery.Json.Basic

/-!
# Field paths

A field path addresses a value through nested objects, one name after the other. As text
the names are separated by points. Reading a path never fails: where a name is missing, or
lands on something other than an object, nothing is found. Writing makes the objects that
the path needs, in place of whatever else stood there.
-/

namespace RecordQuery

/-- A non-empty sequence of names. -/
inductive FieldPath where
  | field (name : String)
  | within (name : String) (rest : FieldPath)
deriving DecidableEq, Repr

namespace FieldPath

/-- The path of a first name and the names after it. -/
def ofNames (name : String) : List String → FieldPath
  | [] => .field name
  | next :: rest => .within name (ofNames next rest)

/-- The path that a text writes: the names between the points, empty ones included. -/
def ofText (text : String) : FieldPath :=
  match text.toList.splitOn '.' with
  | [] => .field text
  | name :: rest => ofNames (String.ofList name) (rest.map String.ofList)

/-- The names of a path. -/
def names : FieldPath → List String
  | .field name => [name]
  | .within name rest => name :: rest.names

/-- One path after the other. -/
def append : FieldPath → FieldPath → FieldPath
  | .field name, q => .within name q
  | .within name rest, q => .within name (append rest q)

instance : Append FieldPath := ⟨append⟩

end FieldPath

namespace Record

/-- The value at a path. -/
def get? (record : Record) : FieldPath → Option Json
  | .field name => Dict.Entries.get? record name
  | .within name rest => do
    let child ← (← Dict.Entries.get? record name).asObject?
    get? child rest

/-- The object under a name; empty when there is none. -/
def child (record : Record) (name : String) : Record :=
  ((Dict.Entries.get? record name).bind Json.asObject?).getD Dict.empty

/-- The record with a value put at a path. -/
def put (record : Record) : FieldPath → Json → Record
  | .field name, value => Dict.insert record name value
  | .within name rest, value =>
    Dict.insert record name (.object (put (record.child name) rest value))

/-- The record that holds only the given fields, as far as they are present. -/
def project (record : Record) (fields : List FieldPath) : Record :=
  fields.foldl
    (fun projected path =>
      match record.get? path with
      | some value => projected.put path value
      | none => projected)
    Dict.empty

end Record

end RecordQuery
