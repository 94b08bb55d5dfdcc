import RecordQuery.Yaml.Mark
import RecordQuery.Yaml.Token

/-!
# Layout

Block collections stand in columns: one begins where its first entry does, to the right of
the collection around it, and ends where something stands further to the left. That
something is a key shows only at the colon after it, so the place where one may begin is
kept until then. A key ends on its line, and within 1024 bytes of its beginning.
-/

namespace RecordQuery.Yaml

/-- A place where a key may begin. -/
structure Candidate where
  /-- The number of tokens before it. -/
  position : Nat
  start : Mark
  /-- Nothing but a key can stand here. -/
  required : Bool

/-- A colon at the mark is not too far away. -/
def Candidate.reaches (c : Candidate) (m : Mark) : Bool :=
  c.start.line = m.line && m.offset ≤ c.start.offset + 1024

/-- The tokens so far, and what the layout of the text has left open. -/
structure Layout where
  /-- Last first. -/
  tokens : List Token := []
  count : Nat := 0
  /-- The columns of the block collections around this place, innermost first. -/
  columns : List Nat := []
  /-- Where a key may have begun, at this level of brackets. -/
  candidate : Option Candidate := none
  /-- The same for the levels around, innermost first. -/
  outer : List (Option Candidate) := []
  keyAllowed : Bool := true

namespace Layout

/-- Inside brackets. -/
def inFlow (s : Layout) : Bool := !s.outer.isEmpty

/-- One more token. -/
def emit (t : Token) (s : Layout) : Layout :=
  { s with tokens := t :: s.tokens, count := s.count + 1 }

/-- Whether a key may begin before the next token. -/
def allowKey (allowed : Bool) (s : Layout) : Layout := { s with keyAllowed := allowed }

/-- The least column of the lines that a plain scalar goes on in. -/
def leastColumn (s : Layout) : Nat :=
  match s.columns with
  | [] => 0
  | column :: _ => column + 1

/-- Ends the block collections that the predicate picks, from the innermost outwards. -/
def endBlocks (picked : Nat → Bool) (s : Layout) : Layout :=
  let ended := (s.columns.takeWhile picked).length
  { s with
    tokens := List.replicate ended .endBlock ++ s.tokens
    count := s.count + ended
    columns := s.columns.drop ended }

/-- Block collections to the right of a column end there. -/
def dedent (column : Nat) (s : Layout) : Layout :=
  if s.inFlow then s else s.endBlocks (column < ·)

/-- A block collection in this column is open. -/
def isOpen (column : Nat) (s : Layout) : Bool := s.columns.head?.any (column ≤ ·)

/-- No key begins at the candidate; `none` if one has to. -/
def dropCandidate? (s : Layout) : Option Layout :=
  match s.candidate with
  | some c => if c.required then none else some { s with candidate := none }
  | none => some s

/-- A key may begin at the mark, and must where the keys of a block mapping stand. -/
def noteCandidate? (m : Mark) (s : Layout) : Option Layout :=
  if s.keyAllowed then
    let required := !s.inFlow && s.columns.head? = some m.column
    s.dropCandidate?.map fun s => { s with candidate := some ⟨s.count, m, required⟩ }
  else some s

/-- A bracket opens. -/
def openFlow? (t : Token) (m : Mark) (s : Layout) : Option Layout :=
  (s.noteCandidate? m).map fun s =>
    { s.emit t with candidate := none, outer := s.candidate :: s.outer, keyAllowed := true }

/-- A bracket closes; `none` if none is open. -/
def closeFlow? (t : Token) (s : Layout) : Option Layout :=
  match s.outer with
  | [] => none
  | candidate :: outer => some { s.emit t with candidate, outer, keyAllowed := false }

/-- A comma. -/
def separate? (s : Layout) : Option Layout :=
  s.dropCandidate?.map fun s => (s.emit .separator).allowKey true

/-- A dash. It begins a block sequence in its column, unless one is open there. -/
def beginEntry? (m : Mark) (s : Layout) : Option Layout :=
  if s.inFlow || !s.keyAllowed then none
  else
    let s :=
      if s.isOpen m.column then s
      else { s.emit .beginSequence with columns := m.column :: s.columns }
    s.dropCandidate?.map fun s => (s.emit .entry).allowKey true

/-- A colon, which makes a key of what the candidate began. In block style the first key of a
mapping begins the mapping. -/
def beginValue? (m : Mark) (s : Layout) : Option Layout :=
  match s.candidate with
  | none => none
  | some c =>
    if c.reaches m then
      let since := s.tokens.take (s.count - c.position)
      let before := s.tokens.drop (s.count - c.position)
      let opens := !s.inFlow && !s.isOpen c.start.column
      let marked := if opens then .key :: .beginMapping :: before else .key :: before
      some
        { s with
          tokens := .value :: since ++ marked
          count := s.count + (if opens then 3 else 2)
          columns := if opens then c.start.column :: s.columns else s.columns
          candidate := none
          keyAllowed := false }
    else none

/-- A line that separates documents. -/
def separateDocuments? (t : Token) (s : Layout) : Option Layout :=
  if s.inFlow then none
  else (s.endBlocks fun _ => true).dropCandidate?.map fun s => (s.emit t).allowKey false

end Layout

end RecordQuery.Yaml
