import RecordQuery.Document.Tree
import RecordQuery.Json.Literal
import RecordQuery.Text.Hex

/-!
# JSON tokens

A text is cut into punctuation, words and quoted strings, with spaces, tabs and line ends
between them. A word is a keyword or a number literal; a quoted string resolves its escapes,
and denotes a text unless an escaped surrogate in it lacks its other half.
-/

namespace RecordQuery.Json

open Document (Tree)

/-- Tokens: values without parts, and punctuation. -/
inductive Token where
  | leaf (value : Tree)
  | openArray
  | closeArray
  | openObject
  | closeObject
  | colon
  | comma

namespace Token

/-- The blanks of JSON. -/
def isSpace (c : Char) : Bool := c = ' ' || c = '\t' || c = '\n' || c = '\r'

/-- The characters of keywords and number literals. -/
def isWordChar (c : Char) : Bool := c.isAlphanum || c = '+' || c = '-' || c = '.'

/-- The token of a punctuation character. -/
def punctuation? : Char → Option Token
  | '[' => some .openArray
  | ']' => some .closeArray
  | '{' => some .openObject
  | '}' => some .closeObject
  | ':' => some .colon
  | ',' => some .comma
  | _ => none

/-- The token of a whole word. -/
def ofWord? (cs : List Char) : Option Token :=
  match String.ofList cs with
  | "null" => some (.leaf .null)
  | "true" => some (.leaf (.bool true))
  | "false" => some (.leaf (.bool false))
  | _ => (Literal.ofChars? cs).map fun l => .leaf (.number l.toNumber?)

/-- The value of four hexadecimal digits. -/
def hex4? (a b c d : Char) : Option Nat := do
  pure (4096 * (← Text.hexValue? a) + 256 * (← Text.hexValue? b) + 16 * (← Text.hexValue? c) +
    (← Text.hexValue? d))

/-- The character that a short escape stands for. -/
def escape? : Char → Option Char
  | '"' => some '"'
  | '\\' => some '\\'
  | '/' => some '/'
  | 'b' => some '\x08'
  | 'f' => some '\x0c'
  | 'n' => some '\n'
  | 'r' => some '\r'
  | 't' => some '\t'
  | _ => none

/-- The code units of a quoted body: characters, and the sixteen bit numbers of escapes.
`none` for a control character or an escape that is none. -/
def units? : List Char → Option (List (Char ⊕ Nat))
  | [] => some []
  | '\\' :: 'u' :: a :: b :: c :: d :: cs => do
    let unit ← hex4? a b c d
    pure (.inr unit :: (← units? cs))
  | '\\' :: e :: cs => do
    let c ← escape? e
    pure (.inl c :: (← units? cs))
  | c :: cs => if c = '\\' ∨ c.toNat < 0x20 then none else do pure (.inl c :: (← units? cs))

/-- The first half of a surrogate pair. -/
def isHighSurrogate (n : Nat) : Bool := 0xD800 ≤ n && n ≤ 0xDBFF
/-- The second half of a surrogate pair. -/
def isLowSurrogate (n : Nat) : Bool := 0xDC00 ≤ n && n ≤ 0xDFFF

/-- The characters of code units; `none` when a surrogate has no other half. -/
def characters? : List (Char ⊕ Nat) → Option (List Char)
  | [] => some []
  | .inl c :: us => (characters? us).map (c :: ·)
  | .inr h :: .inr l :: us =>
    if isHighSurrogate h && isLowSurrogate l then
      (characters? us).map (Char.ofNat (0x10000 + 1024 * (h - 0xD800) + (l - 0xDC00)) :: ·)
    else if isHighSurrogate h || isLowSurrogate h then none
    else (characters? (.inr l :: us)).map (Char.ofNat h :: ·)
  | .inr h :: us =>
    if isHighSurrogate h || isLowSurrogate h then none
    else (characters? us).map (Char.ofNat h :: ·)

/-- The token of a quoted string, given what stands between the quotes. -/
def ofQuoted? (body : List Char) : Option Token :=
  (units? body).map fun us => .leaf (.text ((characters? us).map String.ofList))

/-- What the characters since the last token belong to. Characters are kept last first. -/
inductive Pending where
  | nothing
  | word (chars : List Char)
  | quoted (chars : List Char)
  | escaped (chars : List Char)

/-- Ends a pending word. -/
def Pending.flush? : Pending → List Token → Option (List Token)
  | .nothing, done => some done
  | .word chars, done => (ofWord? chars.reverse).map (· :: done)
  | .quoted _, _ => none
  | .escaped _, _ => none

/-- Tokens of a text, given the tokens before it, last first. -/
def scanFrom : Pending → List Token → List Char → Option (List Token)
  | pending, done, [] => (pending.flush? done).map List.reverse
  | .quoted chars, done, c :: cs =>
    if c = '"' then
      match ofQuoted? chars.reverse with
      | some t => scanFrom .nothing (t :: done) cs
      | none => none
    else if c = '\\' then scanFrom (.escaped (c :: chars)) done cs
    else scanFrom (.quoted (c :: chars)) done cs
  | .escaped chars, done, c :: cs => scanFrom (.quoted (c :: chars)) done cs
  | .nothing, done, c :: cs =>
    if isSpace c then scanFrom .nothing done cs
    else if c = '"' then scanFrom (.quoted []) done cs
    else if isWordChar c then scanFrom (.word [c]) done cs
    else
      match punctuation? c with
      | some t => scanFrom .nothing (t :: done) cs
      | none => none
  | .word chars, done, c :: cs =>
    if isWordChar c then scanFrom (.word (c :: chars)) done cs
    else
      match ofWord? chars.reverse with
      | none => none
      | some w =>
        if isSpace c then scanFrom .nothing (w :: done) cs
        else if c = '"' then scanFrom (.quoted []) (w :: done) cs
        else
          match punctuation? c with
          | some t => scanFrom .nothing (t :: w :: done) cs
          | none => none

/-- The tokens of a text. -/
def scan? (text : List Char) : Option (List Token) := scanFrom .nothing [] text

end Token

end RecordQuery.Json
