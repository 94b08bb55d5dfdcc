import RecordQuery.Text.Lowercase.Table

/-!
# Lower case

A character's lower case is a sequence of characters: one, but for `İ`, whose lower
case is an `i` and a combining dot. The lower case of a whole text differs from that of
its characters at one letter: a capital sigma that ends a word becomes `ς`.
-/

namespace RecordQuery.Text

/-- The lower case of one character on its own. -/
def lowercaseChar (c : Char) : List Char :=
  if c = '\u0130' then ['i', '\u0307']
  else
    match lowercaseRuns.find? (·.contains c.toNat) with
    | some run => [Char.ofNat (c.toNat + run.offset).toNat]
    | none => [c]

/-- The nearest character that is not case-ignorable is cased. -/
def nextIsCased (cs : List Char) : Bool :=
  match cs.dropWhile caseIgnorables.contains with
  | [] => false
  | c :: _ => casedLetters.contains c

/-- Lower case of a text whose earlier characters are `before`, nearest first. -/
def lowercaseAfter (before : List Char) : List Char → List Char
  | [] => []
  | c :: cs =>
    let here :=
      if c = 'Σ' then (if nextIsCased before && !nextIsCased cs then ['ς'] else ['σ'])
      else lowercaseChar c
    here ++ lowercaseAfter (c :: before) cs

/-- The lower case of a whole text. -/
def lowercase (cs : List Char) : List Char := lowercaseAfter [] cs

example : String.ofList (lowercase "ΑΣ ΣΑ Σ İ".toList) = "ας σα σ i\u0307" := by decide +kernel
example : String.ofList (lowercase "ΑΣ.Β".toList) = "ασ.β" := by decide +kernel

end RecordQuery.Text
