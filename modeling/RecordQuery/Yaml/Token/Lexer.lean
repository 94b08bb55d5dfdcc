import RecordQuery.Yaml.Layout
import RecordQuery.Yaml.Scalar

/-!
# Cutting text into tokens

The layout tells what a character at its place begins. Tags, anchors, aliases, directives,
block scalars and keys with a question mark are no part of what is read here.
-/

namespace RecordQuery.Yaml

namespace Layout

/-- The token that begins here, and what follows it. -/
def next? (s : Layout) : List Mark → Option (Layout × List Mark)
  | [] => none
  | m :: ms =>
    if isMarker '-' (m :: ms) then (s.separateDocuments? .documentStart).map (·, ms.drop 2)
    else if isMarker '.' (m :: ms) then (s.separateDocuments? .documentEnd).map (·, ms.drop 2)
    else if m.char = '[' then (s.openFlow? .openSequence m).map (·, ms)
    else if m.char = '{' then (s.openFlow? .openMapping m).map (·, ms)
    else if m.char = ']' then (s.closeFlow? .closeSequence).map (·, ms)
    else if m.char = '}' then (s.closeFlow? .closeMapping).map (·, ms)
    else if m.char = ',' then s.separate?.map (·, ms)
    else if m.char = '-' ∧ endsWord ms then (s.beginEntry? m).map (·, ms)
    else if m.char = ':' ∧ (s.inFlow ∨ endsWord ms) then (s.beginValue? m).map (·, ms)
    else do
      let s ← s.noteCandidate? m
      let scalar ← scanScalar s.inFlow s.leastColumn (m :: ms)
      pure ((s.emit (.text scalar.text)).allowKey scalar.endsLine, scalar.rest)

/-- Skips blanks, line ends and comments, and tells whether a key may begin after them: one
may on a new line of block style. A tab is no blank where a key may begin, for tabs do not
indent; inside brackets it is one everywhere. A byte order mark may begin each line. -/
def skipGap (flow : Bool) : (keyAllowed comment : Bool) → List Mark → Bool × List Mark
  | keyAllowed, _, [] => (keyAllowed, [])
  | keyAllowed, comment, m :: ms =>
    if isLineEnd m.char then skipGap flow (keyAllowed || !flow) false ms
    else if comment then skipGap flow keyAllowed true ms
    else if m.char = ' ' ∨ isOrderMark m ∨ (m.char = '\t' ∧ (flow ∨ !keyAllowed)) then
      skipGap flow keyAllowed false ms
    else if m.char = '#' then skipGap flow keyAllowed true ms
    else (keyAllowed, m :: ms)

/-- All tokens of a text. Each takes at least one character of it. -/
def run? : Nat → Layout → List Mark → Option Layout
  | 0, _, _ => none
  | fuel + 1, s, ms =>
    match skipGap s.inFlow s.keyAllowed false ms with
    | (_, []) => if s.inFlow then none else (s.endBlocks fun _ => true).dropCandidate?
    | (keyAllowed, m :: rest) =>
      match ((s.allowKey keyAllowed).dedent m.column).next? (m :: rest) with
      | some (s, rest) => run? fuel s rest
      | none => none

end Layout

/-- The tokens of a text. -/
def tokens? (text : String) : Option (List Token) := do
  let ms ← marks? text
  let s ← Layout.run? (ms.length + 1) {} ms
  pure s.tokens.reverse

example : tokens? "a:\n- b\n" = some
    [.beginMapping, .key, .text "a", .value, .entry, .text "b", .endBlock] := by decide +kernel
example : tokens? "[a: b]" = some
    [.openSequence, .key, .text "a", .value, .text "b", .closeSequence] := by decide +kernel
example : tokens? "a:\n  b: c\n d: e\n" = some
    [.beginMapping, .key, .text "a", .value, .beginMapping, .key, .text "b", .value, .text "c",
     .endBlock, .beginMapping, .key, .text "d", .value, .text "e", .endBlock, .endBlock] := by
  decide +kernel

end RecordQuery.Yaml
