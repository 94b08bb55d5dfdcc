import RecordQuery.Json.Token

/-!
# Reading JSON text

Tokens drive a machine with a stack of unfinished containers. A text is one value with
nothing after it. As a value, a text may nest containers to a depth of 127.
-/

namespace RecordQuery.Json

open Document (Tree)

/-- A member of an object, with its name. -/
abbrev Member := Option String × Tree

/-- A container around the value that is being read: what it holds so far, last first. -/
inductive Around where
  | array (items : List Tree)
  | object (members : List Member) (name : Option String)

/-- What may come next, inside the containers opened so far. -/
inductive Reading where
  | value (stack : List Around)
  | firstItem (stack : List Around)
  | firstMember (stack : List Around)
  | afterItem (items : List Tree) (stack : List Around)
  | afterMember (members : List Member) (stack : List Around)
  | memberName (members : List Member) (stack : List Around)
  | colon (members : List Member) (name : Option String) (stack : List Around)
  | finished (tree : Tree)

namespace Reading

/-- A value is complete. -/
def deliver (v : Tree) : List Around → Reading
  | [] => .finished v
  | .array items :: stack => .afterItem (v :: items) stack
  | .object members name :: stack => .afterMember ((name, v) :: members) stack

/-- A token at a place where a value must begin. -/
def beginValue? (stack : List Around) : Token → Option Reading
  | .leaf v => some (deliver v stack)
  | .openArray => some (.firstItem stack)
  | .openObject => some (.firstMember stack)
  | _ => none

/-- One token. -/
def next? : Reading → Token → Option Reading
  | .value stack, t => beginValue? stack t
  | .firstItem stack, .closeArray => some (deliver (.array []) stack)
  | .firstItem stack, t => beginValue? (.array [] :: stack) t
  | .firstMember stack, .closeObject => some (deliver (.object []) stack)
  | .firstMember stack, .leaf (.text name) => some (.colon [] name stack)
  | .memberName members stack, .leaf (.text name) => some (.colon members name stack)
  | .colon members name stack, .colon => some (.value (.object members name :: stack))
  | .afterItem items stack, .comma => some (.value (.array items :: stack))
  | .afterItem items stack, .closeArray => some (deliver (.array items.reverse) stack)
  | .afterMember members stack, .comma => some (.memberName members stack)
  | .afterMember members stack, .closeObject => some (deliver (.object members.reverse) stack)
  | _, _ => none

/-- The tree that the tokens complete. -/
def run? : Reading → List Token → Option Tree
  | .finished tree, [] => some tree
  | _, [] => none
  | r, t :: ts =>
    match next? r t with
    | some r' => run? r' ts
    | none => none

end Reading

/-- The document tree of a JSON text. -/
def tree? (text : String) : Option Tree :=
  (Token.scan? text.toList).bind (Reading.run? (.value []))

/-- The greatest depth of containers in a value. -/
def depthLimit : Nat := 127

/-- The JSON value that a text writes. -/
def ofText? (text : String) : Option Json :=
  (tree? text).bind (Tree.toJson? depthLimit)

end RecordQuery.Json
