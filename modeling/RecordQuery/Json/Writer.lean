import RecordQuery.Json.Basic
import RecordQuery.Text.Hex

/-!
# Writing JSON text

Values are written without blanks, object members in key order. In strings only quotes,
backslashes and control characters are escaped.
-/

namespace RecordQuery.Json

/-- A character inside a quoted string. -/
def escapeChar (c : Char) : List Char :=
  match c with
  | '"' => ['\\', '"']
  | '\\' => ['\\', '\\']
  | '\x08' => ['\\', 'b']
  | '\x0c' => ['\\', 'f']
  | '\n' => ['\\', 'n']
  | '\r' => ['\\', 'r']
  | '\t' => ['\\', 't']
  | c => if c.toNat < 0x20 then ['\\', 'u', '0', '0'] ++ Text.hexDigits 2 c.toNat else [c]

/-- A string with its quotes. -/
def quote (s : String) : String :=
  String.ofList ('"' :: (s.toList.flatMap escapeChar ++ ['"']))

mutual

/-- The text of a value. -/
def toText : Json → String
  | .null => "null"
  | .bool true => "true"
  | .bool false => "false"
  | .number n => n.toText
  | .text s => quote s
  | .array items => "[" ++ ",".intercalate (itemTexts items) ++ "]"
  | .object fields => "\x7b" ++ ",".intercalate (fieldTexts fields) ++ "\x7d"

def itemTexts : List Json → List String
  | [] => []
  | v :: vs => toText v :: itemTexts vs

def fieldTexts : {low : Option String} → Dict.Entries Json low → List String
  | _, .nil => []
  | _, .cons key _ v rest => (quote key ++ ":" ++ toText v) :: fieldTexts rest

end

end RecordQuery.Json
