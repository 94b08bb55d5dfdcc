import RecordQuery.Document.Tree

/-!
# Typed reading of documents

A structure is read from an object, whose known members may come in any order but only once
and whose unknown members are ignored, or from an array of its members in their order of
declaration. A member may have a default; an array may end before members that do.
-/

namespace RecordQuery.Document

/-- A reading of trees as values of a type. -/
abbrev Decoder (α : Type) := Tree → Option α

namespace Decoder

variable {α : Type}

/-- A text; a value left out is the empty one. -/
def text : Decoder String
  | .text t => t
  | .blank => some ""
  | _ => none

/-- A natural number of 64 bits, from an integer. -/
def word64 : Decoder UInt64
  | .number n => do
    let value ← (← n).toNat?
    if value < UInt64.size then some (UInt64.ofNat value) else none
  | _ => none

/-- A list of values; a value left out is the empty one. -/
def list (item : Decoder α) : Decoder (List α)
  | .array items => items.mapM item
  | .list items => items.mapM item
  | .blank => some []
  | _ => none

/-- A value, or `null` for none. -/
def optional (value : Decoder α) : Decoder (Option α)
  | .null => some none
  | t => (value t).map some

/-- One of the words of a closed list: the word itself, or an object that holds `null` under it. -/
def choice (ofToken? : String → Option α) : Decoder α
  | .text t => t.bind ofToken?
  | .object [(name, .null)] => name.bind ofToken?
  | _ => none

/-- Adds a member to those read so far; `none` if a known one comes again. -/
def addMember (names : List String) (members : Dict Tree) (member : Option String × Tree) :
    Option (Dict Tree) := do
  let name ← member.1
  if names.contains name then
    if (members.get? name).isSome then none else some (members.insert name member.2)
  else some members

/-- The members of a structure that a tree gives, by name. -/
def members (names : List String) : Decoder (Dict Tree)
  | .object ms => ms.foldlM (addMember names) Dict.empty
  | .array items =>
    if items.length ≤ names.length then some (Dict.ofList (names.zip items)) else none
  | .blank => some Dict.empty
  | _ => none

/-- A member that must be given. -/
def required (members : Dict Tree) (name : String) (value : Decoder α) : Option α :=
  (members.get? name).bind value

/-- A member that has a default. -/
def withDefault (members : Dict Tree) (name : String) (value : Decoder α) (absent : α) :
    Option α :=
  match members.get? name with
  | none => some absent
  | some t => value t

end Decoder

end RecordQuery.Document
