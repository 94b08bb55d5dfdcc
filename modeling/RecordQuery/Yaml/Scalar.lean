import RecordQuery.Text.Hex
import RecordQuery.Yaml.Mark

/-!
# Scalars

A scalar is plain, or quoted with single or double quotes. All three may run over several
lines, which are folded: a line feed alone becomes a space, and of several line ends the
first is dropped if it is a line feed. Blanks around line ends are dropped.
-/

namespace RecordQuery.Yaml

/-- Blanks or line ends that count only if more text follows, last first. The first line end
stands apart; an escaped one is none. -/
inductive Gap where
  | blanks (chars : List Char)
  | lines (first : Option Char) (others : List Char)

namespace Gap

/-- Nothing between two characters. -/
def none : Gap := .blanks []

def isEmpty : Gap → Bool
  | .blanks [] => true
  | _ => false

def hasLines : Gap → Bool
  | .blanks _ => false
  | .lines _ _ => true

/-- One more blank. -/
def addBlank (c : Char) : Gap → Gap
  | .blanks cs => .blanks (c :: cs)
  | .lines first others => .lines first others

/-- One more line end. -/
def addLine (c : Char) : Gap → Gap
  | .blanks _ => .lines (some c) []
  | .lines first others => .lines first (c :: others)

/-- The text so far, last first, with what the gap folds to. -/
def fold (text : List Char) : Gap → List Char
  | .blanks cs => cs ++ text
  | .lines Option.none others => others ++ text
  | .lines (some c) others =>
    if c = '\n' then (if others.isEmpty then ' ' :: text else others ++ text)
    else others ++ c :: text

end Gap

/-- A scalar that has been read. -/
structure Scalar where
  text : String
  /-- A line ended between the text and the rest. -/
  endsLine : Bool
  rest : List Mark

/-- A scalar whose characters are given last first. -/
def finish (text : List Char) (endsLine : Bool) (rest : List Mark) : Option Scalar :=
  some ⟨String.ofList text.reverse, endsLine, rest⟩

/-- Characters that end a plain scalar of flow style. -/
def isFlowIndicator (c : Char) : Bool :=
  c = ',' || c = '[' || c = ']' || c = '{' || c = '}'

/-- A plain scalar goes on until a colon that ends a word, a comment, or a line that is not
indented to the column `least`. In flow style it also ends at flow indicators, and the column
does not matter. A tab does not indent. -/
def scanPlain (flow : Bool) (least : Nat) : List Char → Gap → List Mark → Option Scalar
  | text, gap, [] => finish text gap.hasLines []
  | text, gap, m :: ms =>
    if isLineEnd m.char then scanPlain flow least text (gap.addLine m.char) ms
    else if isBlank m.char then
      if m.char = '\t' ∧ gap.hasLines ∧ m.column < least then none
      else scanPlain flow least text (gap.addBlank m.char) ms
    else if !gap.isEmpty ∧ (m.char = '#' ∨ isDocumentMarker (m :: ms)) then
      finish text gap.hasLines (m :: ms)
    else if gap.hasLines ∧ !flow ∧ m.column < least then finish text true (m :: ms)
    else if flow ∧ m.char = ':' ∧
        (ms.head?.any fun x => x.char = '?' || isFlowIndicator x.char) then none
    else if m.char = ':' ∧ endsWord ms then finish text gap.hasLines (m :: ms)
    else if flow ∧ isFlowIndicator m.char then finish text gap.hasLines (m :: ms)
    else scanPlain flow least (m.char :: gap.fold text) Gap.none ms

/-- The inside of single quotes, where two quotes stand for one. -/
def scanSingle : List Char → Gap → List Mark → Option Scalar
  | _, _, [] => none
  | text, gap, m :: ms =>
    if isDocumentMarker (m :: ms) then none
    else if isLineEnd m.char then scanSingle text (gap.addLine m.char) ms
    else if isBlank m.char then scanSingle text (gap.addBlank m.char) ms
    else if m.char = '\'' then
      match ms with
      | m' :: rest =>
        if m'.char = '\'' then scanSingle ('\'' :: gap.fold text) Gap.none rest
        else finish (gap.fold text) false ms
      | [] => finish (gap.fold text) false []
    else scanSingle (m.char :: gap.fold text) Gap.none ms

/-- What a character of a double quoted scalar is part of. -/
inductive Escape where
  | none
  | begun
  | hex (digits value : Nat)

/-- The characters of escapes of one character. -/
def shortEscape? : Char → Option Char
  | '0' => some '\x00'
  | 'a' => some '\x07'
  | 'b' => some '\x08'
  | 't' => some '\t'
  | '\t' => some '\t'
  | 'n' => some '\n'
  | 'v' => some '\x0b'
  | 'f' => some '\x0c'
  | 'r' => some '\r'
  | 'e' => some '\x1b'
  | ' ' => some ' '
  | '"' => some '"'
  | '/' => some '/'
  | '\\' => some '\\'
  | 'N' => some '\u0085'
  | '_' => some '\u00a0'
  | 'L' => some '\u2028'
  | 'P' => some '\u2029'
  | _ => none

/-- The number of digits of a hexadecimal escape. -/
def hexLength? : Char → Option Nat
  | 'x' => some 2
  | 'u' => some 4
  | 'U' => some 8
  | _ => none

/-- The inside of double quotes. -/
def scanDouble : Escape → List Char → Gap → List Mark → Option Scalar
  | _, _, _, [] => none
  | .hex digits value, text, gap, m :: ms =>
    match Text.hexValue? m.char with
    | none => none
    | some d =>
      let value := 16 * value + d
      if 1 < digits then scanDouble (.hex (digits - 1) value) text gap ms
      else if Nat.isValidChar value then scanDouble .none (Char.ofNat value :: text) gap ms
      else none
  | .begun, text, gap, m :: ms =>
    if isLineEnd m.char then scanDouble .none text (.lines none []) ms
    else
      match shortEscape? m.char, hexLength? m.char with
      | some c, _ => scanDouble .none (c :: text) gap ms
      | none, some digits => scanDouble (.hex digits 0) text gap ms
      | none, none => none
  | .none, text, gap, m :: ms =>
    if isDocumentMarker (m :: ms) then none
    else if isLineEnd m.char then scanDouble .none text (gap.addLine m.char) ms
    else if isBlank m.char then scanDouble .none text (gap.addBlank m.char) ms
    else if m.char = '"' then finish (gap.fold text) false ms
    else if m.char = '\\' then scanDouble .begun (gap.fold text) Gap.none ms
    else scanDouble .none (m.char :: gap.fold text) Gap.none ms

/-- Characters that no plain scalar begins with. -/
def isIndicator (c : Char) : Bool :=
  isFlowIndicator c || "-?:#&*!|>'\"%@`".toList.contains c

/-- A plain scalar may begin here. -/
def startsPlain (flow : Bool) : List Mark → Bool
  | [] => false
  | m :: ms =>
    if isBlank m.char ∨ isLineEnd m.char then false
    else if m.char = '-' then !endsWord ms
    else if m.char = '?' ∨ m.char = ':' then !flow && !endsWord ms
    else !isIndicator m.char

/-- A scalar of any style, unless something else begins here. -/
def scanScalar (flow : Bool) (least : Nat) : List Mark → Option Scalar
  | [] => none
  | m :: ms =>
    if m.char = '\'' then scanSingle [] Gap.none ms
    else if m.char = '"' then scanDouble .none [] Gap.none ms
    else if startsPlain flow (m :: ms) then scanPlain flow least [] Gap.none (m :: ms)
    else none

end RecordQuery.Yaml
