/-!
# Tokens

A text is cut into scalars, brackets and dashes, and into the marks that its lines and
columns stand for: where a block collection begins and ends, and where a key begins.
-/

namespace RecordQuery.Yaml

/-- A piece of YAML text, or a mark that stands for its layout. -/
inductive Token where
  | documentStart
  | documentEnd
  | openSequence
  | closeSequence
  | openMapping
  | closeMapping
  /-- A comma between brackets. -/
  | separator
  | beginSequence
  | beginMapping
  /-- The end of the innermost block collection. -/
  | endBlock
  /-- A dash before an entry of a block sequence. -/
  | entry
  /-- What follows, up to the next `value`, is a key. -/
  | key
  | value
  | text (content : String)
deriving DecidableEq, Repr

end RecordQuery.Yaml
