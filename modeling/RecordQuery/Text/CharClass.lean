/-!
# Character classes

A class of characters is a list of inclusive code point ranges, and a character
belongs to it when some range holds its code point.
-/

namespace RecordQuery.Text

/-- An inclusive range of code points. -/
structure CodeRange where
  first : Nat
  last : Nat
deriving DecidableEq, Repr

namespace CodeRange

def contains (r : CodeRange) (code : Nat) : Bool :=
  r.first ≤ code && code ≤ r.last

end CodeRange

/-- A character class, given by its ranges. -/
abbrev CharClass := List CodeRange

namespace CharClass

def contains (k : CharClass) (c : Char) : Bool :=
  k.any (·.contains c.toNat)

theorem contains_iff (k : CharClass) (c : Char) :
    k.contains c = true ↔ ∃ r ∈ k, r.first ≤ c.toNat ∧ c.toNat ≤ r.last := by
  simp [contains, CodeRange.contains]

end CharClass

end RecordQuery.Text
