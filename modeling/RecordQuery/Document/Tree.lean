import RecordQuery.Json.Basic

/-!
# Document trees

A document tree is a text that has been parsed but not yet read as a value of any type.
Members stay in the order written, repeated ones included. A leaf that is well written but
denotes nothing, such as a number too large, is a leaf without content: whether it matters
depends on whether anyone reads it. Formats differ in what a sequence is good for, so there
are two: an `array` may stand for a list or, member by member, for a structure, and a `list`
only for a list.
-/

namespace RecordQuery.Document

/-- A parsed document. `blank` is a value left out, which some formats allow. -/
inductive Tree where
  | null
  | blank
  | bool (value : Bool)
  | number (value : Option Json.Number)
  | text (value : Option String)
  | array (items : List Tree)
  | list (items : List Tree)
  | object (members : List (Option String × Tree))

instance : Inhabited Tree := ⟨.null⟩

namespace Tree

mutual

/-- The JSON value of a tree, with at most `depth` containers one inside the other. Of
members with one name the last is kept. -/
def toJson? : Nat → Tree → Option Json
  | _, .null => some .null
  | _, .blank => none
  | _, .bool b => some (.bool b)
  | _, .number n => n.map .number
  | _, .text t => t.map .text
  | 0, .array _ => none
  | 0, .list _ => none
  | 0, .object _ => none
  | depth + 1, .array items => (itemsToJson? depth items).map .array
  | depth + 1, .list items => (itemsToJson? depth items).map .array
  | depth + 1, .object members =>
    (membersToJson? depth members).map fun entries => .object (Dict.ofList entries)

def itemsToJson? : Nat → List Tree → Option (List Json)
  | _, [] => some []
  | depth, t :: ts => do
    let v ← toJson? depth t
    let vs ← itemsToJson? depth ts
    pure (v :: vs)

def membersToJson? : Nat → List (Option String × Tree) → Option (List (String × Json))
  | _, [] => some []
  | depth, (name, t) :: ms => do
    let key ← name
    let v ← toJson? depth t
    let entries ← membersToJson? depth ms
    pure ((key, v) :: entries)

end

mutual

/-- The tree of a JSON value. -/
def ofJson : Json → Tree
  | .null => .null
  | .bool b => .bool b
  | .number n => .number (some n)
  | .text s => .text (some s)
  | .array items => .array (ofItems items)
  | .object fields => .object (ofFields fields)

def ofItems : List Json → List Tree
  | [] => []
  | v :: vs => ofJson v :: ofItems vs

def ofFields : {low : Option String} → Dict.Entries Json low → List (Option String × Tree)
  | _, .nil => []
  | _, .cons key _ v rest => (some key, ofJson v) :: ofFields rest

end

end Tree

end RecordQuery.Document
