import RecordQuery.Dict
import RecordQuery.Store.Pathname
import RecordQuery.Text.Utf8

/-!
# File trees

A tree of directories, files and symbolic links, in which pathnames are looked up name by name. A
relative pathname starts in the working directory, `..` goes back up, and every name but the last
must be that of a directory. At a link the lookup goes on along its target, from the directory that
holds the link, and gives up when it has met too many. A name has at most 255 bytes, a pathname
fewer than 4096, and neither holds a null character. That every entry has such a name, and every
link such a target, is part of a tree.

Everything in a tree can be read, and every name in it is text: permissions, devices, pipes and
sockets, and names whose bytes are not UTF-8 are left out.
-/

namespace RecordQuery

/-- A file with its bytes, a directory with its entries, or a symbolic link with its target. -/
inductive FileNode where
  | file (content : List UInt8)
  | directory (entries : Dict.Entries FileNode none)
  | link (target : Pathname)

/-- The entries of a directory. -/
abbrev Directory := Dict FileNode

/-- What a pathname can lead to; links are followed. -/
inductive Found where
  | file (content : List UInt8)
  | directory (entries : Directory)

/-- Why a pathname could not be read. -/
inductive ReadError where
  | notFound
  | notADirectory
  | isADirectory
  | invalidData
  | nameTooLong
  | nullInName
  | tooManyLinks
deriving DecidableEq, Repr

namespace FileTree

/-- The greatest number of bytes in a name. -/
def nameLimit : Nat := 255

/-- A pathname has fewer bytes than this. -/
def pathLimit : Nat := 4096

/-- The greatest number of links that one lookup follows. -/
def linkLimit : Nat := 40

/-- A name that an entry of a directory can have. -/
def isName (name : String) : Bool :=
  !Pathname.isIdle name && name != ".." && !name.toList.contains '/' &&
    !name.toList.contains '\x00' && name.utf8ByteSize ≤ nameLimit

/-- A pathname that a link can have as its target. -/
def isTarget (target : Pathname) : Bool :=
  target.text != "" && !target.text.toList.contains '\x00' &&
    target.text.utf8ByteSize < pathLimit

mutual

/-- In a directory and below it every entry has a name that it can have, and every link a target
that it can have. -/
def isWellNamed : {low : Option String} → Dict.Entries FileNode low → Bool
  | _, .nil => true
  | _, .cons name _ node rest => isName name && nodeIsWellNamed node && isWellNamed rest

def nodeIsWellNamed : FileNode → Bool
  | .file _ => true
  | .directory entries => isWellNamed entries
  | .link target => isTarget target

end

end FileTree

/-- A file tree, with the names of the directories that lead from its root to the working
directory. -/
structure FileTree where
  root : Directory
  workingDirectory : List String := []
  wellNamed : FileTree.isWellNamed root = true

namespace FileTree

/-- The tree with another root; `none` if a name or a target in it is one that cannot be. -/
def withRoot? (t : FileTree) (root : Directory) : Option FileTree :=
  if h : isWellNamed root = true then some { t with root, wellNamed := h } else none

/-- How to go on at a link: from the directory that holds it and those above, nearest first, along
its target and the segments behind it. -/
abbrev Follow := Directory → List Directory → Pathname → List String → Except ReadError Found

/-- Follows segments from a directory, given the directories above it, nearest first, up to a
link. A name is too long only where it is looked for. -/
def walkBy (follow : Follow) (current : Directory) (above : List Directory) :
    List String → Except ReadError Found
  | [] => .ok (.directory current)
  | segment :: rest =>
    if Pathname.isIdle segment then walkBy follow current above rest
    else if segment = ".." then
      match above with
      | [] => walkBy follow current [] rest
      | parent :: grand => walkBy follow parent grand rest
    else if nameLimit < segment.utf8ByteSize then .error .nameTooLong
    else
      match current.get? segment with
      | none => .error .notFound
      | some (.directory entries) => walkBy follow entries (current :: above) rest
      | some (.file content) => if rest = [] then .ok (.file content) else .error .notADirectory
      | some (.link target) => follow current above target rest

/-- Follows segments through at most so many links. An absolute target starts at the root again. -/
def walk (root : Directory) :
    Nat → Directory → List Directory → List String → Except ReadError Found
  | 0 => walkBy fun _ _ _ _ => .error .tooManyLinks
  | links + 1 => walkBy fun current above target rest =>
    if target.isAbsolute then walk root links root [] (target.segments ++ rest)
    else walk root links current above (target.segments ++ rest)

/-- What segments lead to from the root. -/
def reach (t : FileTree) (segments : List String) : Except ReadError Found :=
  walk t.root linkLimit t.root [] segments

/-- What a pathname leads to. -/
def lookup (t : FileTree) (p : Pathname) : Except ReadError Found :=
  if p.text.toList.contains '\x00' then .error .nullInName
  else if p.text = "" then .error .notFound
  else if pathLimit ≤ p.text.utf8ByteSize then .error .nameTooLong
  else t.reach (if p.isAbsolute then p.segments else t.workingDirectory ++ p.segments)

/-- A file is at the pathname. -/
def isFile (t : FileTree) (p : Pathname) : Bool :=
  match t.lookup p with
  | .ok (.file _) => true
  | _ => false

/-- The text of a file's bytes. -/
def decodeText (content : List UInt8) : Except ReadError String :=
  match Text.Utf8.decode? content with
  | some cs => .ok (String.ofList cs)
  | none => .error .invalidData

/-- The text of the file at a pathname. -/
def readText (t : FileTree) (p : Pathname) : Except ReadError String :=
  match t.lookup p with
  | .error e => .error e
  | .ok (.directory _) => .error .isADirectory
  | .ok (.file content) => decodeText content

example :
    let inner : Directory :=
      (Dict.empty.insert "up" (.link ⟨"../a"⟩)).insert "loop" (.link ⟨"loop"⟩)
    let files : FileTree :=
      { root := (Dict.empty.insert "a" (.file [0x78])).insert "d" (.directory inner)
        wellNamed := by decide +kernel }
    files.isFile ⟨"/d/up"⟩ = true ∧ files.isFile ⟨"d/up/"⟩ = false ∧
      files.isFile ⟨"d/loop"⟩ = false := by
  decide +kernel

end FileTree

namespace Directory

/-- The directory under a name, a new one if there is none; `none` if anything else is there. -/
def child? (d : Directory) (name : String) : Option Directory :=
  match d.get? name with
  | none => some Dict.empty
  | some (.directory entries) => some entries
  | some (.file _) => none
  | some (.link _) => none

/-- Puts a file at the end of a list of names, making the directories on the way; `none` if a
directory or a link is there. -/
def write? (d : Directory) (content : List UInt8) : List String → Option Directory
  | [] => none
  | [name] =>
    match d.get? name with
    | some (.directory _) => none
    | some (.link _) => none
    | _ => some (d.insert name (.file content))
  | name :: rest => do
    let inner ← (← d.child? name).write? content rest
    pure (d.insert name (.directory inner))

/-- Makes the directories along a list of names. -/
def makeDirectory? (d : Directory) : List String → Option Directory
  | [] => some d
  | name :: rest => do
    let inner ← (← d.child? name).makeDirectory? rest
    pure (d.insert name (.directory inner))

/-- Removes the entry at the end of a list of names; `none` if there is none. -/
def remove? (d : Directory) : List String → Option Directory
  | [] => none
  | [name] => if (d.get? name).isSome then some (Dict.Entries.erase d name) else none
  | name :: rest =>
    match d.get? name with
    | some (.directory entries) =>
      (remove? entries rest).map fun inner => d.insert name (.directory inner)
    | _ => none

end Directory

end RecordQuery
