/-!
# Pathnames

A pathname is text with slashes between names. It is kept as written: joining only appends,
and neither `.` nor `..` is ever resolved here. The last name and the directory that holds
it are found without regard to a trailing slash or `.`.
-/

namespace RecordQuery

/-- A pathname, by its text. -/
structure Pathname where
  text : String
deriving DecidableEq, Repr, Inhabited

namespace Pathname

/-- The names between the slashes, empty ones included. -/
def segments (p : Pathname) : List String :=
  (p.text.toList.splitOn '/').map String.ofList

/-- A pathname that begins at the root. -/
def isAbsolute (p : Pathname) : Bool := p.text.toList.head? = some '/'

/-- The pathname `p` as seen from `base`. An absolute one stands for itself; to any other
the base is put in front, with one slash between them unless the base ends in one or is
empty. -/
def join (base p : Pathname) : Pathname :=
  if p.isAbsolute then p
  else if base.text = "" ∨ base.text.toList.getLast? = some '/' then ⟨base.text ++ p.text⟩
  else ⟨base.text ++ "/" ++ p.text⟩

/-- A segment that stays in its directory. -/
def isIdle (segment : String) : Bool := segment = "" || segment = "."

/-- Segments without the idle ones at the end. -/
def dropIdleEnd (segments : List String) : List String :=
  (segments.reverse.dropWhile isIdle).reverse

/-- The last name, unless the pathname ends in `..` or has no name. -/
def fileName? (p : Pathname) : Option String :=
  (dropIdleEnd p.segments).getLast?.filter (· ≠ "..")

/-- What follows the last point of a name, unless the point comes first. -/
def extensionOf? (name : String) : Option String :=
  let cs := name.toList.reverse
  match cs.dropWhile (· ≠ '.') with
  | [] => none
  | [_] => none
  | _ => some (String.ofList (cs.takeWhile (· ≠ '.')).reverse)

/-- The extension of the last name. -/
def extension? (p : Pathname) : Option String := p.fileName?.bind extensionOf?

/-- The segments before the last one that is not idle; `none` when all are. -/
def parentSegments? (segments : List String) : Option (List String) :=
  match dropIdleEnd segments with
  | [] => none
  | kept => some (dropIdleEnd kept.dropLast)

/-- The pathname without its last segment; the empty one when there is nothing before it. -/
def parent (p : Pathname) : Pathname :=
  let slashes : List String → String := "/".intercalate
  match p.segments with
  | [] => ⟨""⟩
  | first :: rest =>
    if isIdle first then ⟨((parentSegments? rest).map fun kept =>
      if p.isAbsolute then "/" ++ slashes kept else slashes (first :: kept)).getD ""⟩
    else ⟨((parentSegments? (first :: rest)).map slashes).getD ""⟩

example : (Pathname.mk "a/b").join ⟨"c"⟩ = ⟨"a/b/c"⟩ ∧ (Pathname.mk "a").join ⟨""⟩ = ⟨"a/"⟩ ∧
    (Pathname.mk "a").join ⟨"/c"⟩ = ⟨"/c"⟩ := by decide +kernel
example : (Pathname.mk "a/.json").extension? = none ∧
    (Pathname.mk "a/b.c.d/").extension? = some "d" := by decide +kernel
example : (Pathname.mk "/a/./b.c").parent = ⟨"/a"⟩ ∧ (Pathname.mk "./x").parent = ⟨"."⟩ ∧
    (Pathname.mk "x").parent = ⟨""⟩ := by decide +kernel

end Pathname

end RecordQuery
