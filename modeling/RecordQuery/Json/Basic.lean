import RecordQuery.Dict
import RecordQuery.Json.Number

/-!
# JSON values and records

A record is a JSON object. Objects are ordered dictionaries, so the order in which members
were written is not part of a value.
-/

namespace RecordQuery

/-- A JSON value. -/
inductive Json where
  | null
  | bool (value : Bool)
  | number (value : Json.Number)
  | text (value : String)
  | array (items : List Json)
  | object (fields : Dict.Entries Json none)

instance : Inhabited Json := ⟨.null⟩

/-- A record of a collection. -/
abbrev Record := Dict Json

namespace Json

/-- The fields of an object. -/
def asObject? : Json → Option Record
  | .object fields => some fields
  | _ => none

mutual

/-- Equality of values. -/
def same : Json → Json → Bool
  | .null, .null => true
  | .bool a, .bool b => a == b
  | .number a, .number b => a = b
  | .text a, .text b => a == b
  | .array as, .array bs => sameItems as bs
  | .object as, .object bs => sameFields as bs
  | _, _ => false

def sameItems : List Json → List Json → Bool
  | [], [] => true
  | a :: as, b :: bs => same a b && sameItems as bs
  | _, _ => false

def sameFields : {low low' : Option String} → Dict.Entries Json low → Dict.Entries Json low' → Bool
  | _, _, .nil, .nil => true
  | _, _, .cons k _ v rest, .cons k' _ v' rest' => k == k' && same v v' && sameFields rest rest'
  | _, _, _, _ => false

end

instance : BEq Json := ⟨same⟩

end Json

end RecordQuery
