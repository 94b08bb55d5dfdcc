/-!
# Marked text

The structure of a YAML text hangs on lines and columns, so each character is marked with
its place. A carriage return, with or without a line feed, and the next line character end a
line as a line feed does and are read as one. The line and paragraph separators end a line
too, but stay what they are.
-/

namespace RecordQuery.Yaml

/-- A character and its place: its line and its column there, and how many bytes precede it. -/
structure Mark where
  char : Char
  offset : Nat
  line : Nat
  column : Nat
deriving DecidableEq, Repr

/-- Characters that end a line, once line ends are unified. -/
def isLineEnd (c : Char) : Bool := c = '\n' || c = '\u2028' || c = '\u2029'

/-- A space or a tab. -/
def isBlank (c : Char) : Bool := c = ' ' || c = '\t'

/-- The characters of a text, marked from a place on. -/
def markFrom : (offset line column : Nat) → List Char → List Mark
  | _, _, _, [] => []
  | offset, line, column, '\r' :: '\n' :: cs =>
    ⟨'\n', offset, line, column⟩ :: markFrom (offset + 2) (line + 1) 0 cs
  | offset, line, column, c :: cs =>
    let char := if c = '\r' ∨ c = '\u0085' then '\n' else c
    ⟨char, offset, line, column⟩ ::
      if isLineEnd char then markFrom (offset + c.utf8Size) (line + 1) 0 cs
      else markFrom (offset + c.utf8Size) line (column + 1) cs

/-- Characters that a text may hold: no control characters but tabs and line ends. -/
def isAllowed (c : Char) : Bool :=
  let n := c.toNat
  n = 0x9 || n = 0xA || n = 0xD || (0x20 ≤ n && n ≤ 0x7E) || n = 0x85 ||
    (0xA0 ≤ n && n ≠ 0xFFFE && n ≠ 0xFFFF)

/-- A byte order mark at the start of a line, which separates tokens as a space does. -/
def isOrderMark (m : Mark) : Bool := m.char = '\ufeff' && m.column = 0

/-- The marks of a text, unless it holds a character that is not allowed. -/
def marks? (text : String) : Option (List Mark) :=
  let cs := text.toList
  if cs.all isAllowed then some (markFrom 0 0 0 cs) else none

/-- The text ends here, or a blank or a line end comes next. -/
def endsWord : List Mark → Bool
  | [] => true
  | m :: _ => isBlank m.char || isLineEnd m.char

/-- Three equal characters at the start of a line, with nothing after them. -/
def isMarker (c : Char) : List Mark → Bool
  | a :: b :: d :: rest => a.column = 0 && a.char = c && b.char = c && d.char = c && endsWord rest
  | _ => false

/-- A line that separates documents. -/
def isDocumentMarker (ms : List Mark) : Bool := isMarker '-' ms || isMarker '.' ms

end RecordQuery.Yaml
