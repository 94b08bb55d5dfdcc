/-!
# Windows

A window skips records and then keeps a number of them. Without a count everything after
the skipped records is kept, and a window of two zeros leaves a collection as it is.
-/

namespace RecordQuery

/-- A part of a collection; a count of zero sets no maximum. -/
structure Window where
  count : UInt64
  offset : UInt64
deriving DecidableEq, Repr, Inhabited

namespace Window

/-- The window leaves something out of some collection. -/
def isDefined (w : Window) : Bool := w.count != 0 || w.offset != 0

/-- The items of a list that lie in the window. -/
def apply {α : Type} (w : Window) (items : List α) : List α :=
  let rest := items.drop w.offset.toNat
  if w.count = 0 then rest else rest.take w.count.toNat

end Window

end RecordQuery
