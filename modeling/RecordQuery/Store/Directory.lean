import RecordQuery.Json.Reader
import RecordQuery.Store.Repository

/-!
# Records in directories

Each resource has a directory. Every regular file directly inside it whose name has the
extension `json` holds one record, and its name without the extension is the record's id.
A link counts as the file that it leads to. Collections are read in the order of file names,
and the first file that holds no record decides. Nothing is kept between two requests.
-/

namespace RecordQuery

/-- The directory of each resource. -/
structure DirectoryStore where
  directories : Dict Pathname := Dict.empty

namespace DirectoryStore

/-- The extension of files that hold records. -/
def recordExtension : String := "json"

/-- Maps a resource to a directory, in place of any other. -/
def insert (s : DirectoryStore) (resource : String) (path : Pathname) : DirectoryStore :=
  ⟨s.directories.insert resource path⟩

/-- The directory of a resource. -/
def directory (s : DirectoryStore) (resource : String) : Except StoreError Pathname :=
  match s.directories.get? resource with
  | some path => .ok path
  | none => .error (.resourceNotConfigured resource)

/-- What a JSON value is, in words. -/
def describe : Json → String
  | .null => "null"
  | .bool _ => "a boolean"
  | .number _ => "a number"
  | .text _ => "a string"
  | .array _ => "an array"
  | .object _ => "an object"

/-- The record in the file at a pathname. -/
def readRecord (files : FileTree) (path : Pathname) : Except StoreError Record :=
  match files.readText path with
  | .error e => .error (.unreadable path e)
  | .ok text =>
    match Json.ofText? text with
    | none => .error (.malformedRecord path)
    | some (.object record) => .ok record
    | some other => .error (.notAnObject path (describe other))

/-- A file with the extension of records is at the pathname. -/
def isRecordFile (files : FileTree) (path : Pathname) : Bool :=
  files.isFile path && path.extension? == some recordExtension

/-- The names of the files that hold records among the names listed in a directory, ascending. -/
def recordNames (files : FileTree) (path : Pathname) (listed : List String) : List String :=
  (listed.filter fun name => isRecordFile files (path.join ⟨name⟩)).mergeSort (· ≤ ·)

/-- The records of a directory, given the names listed in it in any order. -/
def readListed (files : FileTree) (path : Pathname) (listed : List String) :
    Except StoreError (List Record) :=
  (recordNames files path listed).mapM fun name => readRecord files (path.join ⟨name⟩)

/-- All records of a resource, given the order in which directories are listed. A pathname that
leads to no directory is an error of its own, which is also logged. -/
def fetchListed (list : Directory → List String) (s : DirectoryStore) (files : FileTree)
    (resource : String) : Logged (Except StoreError (List Record)) :=
  match s.directory resource with
  | .error e => pure (.error e)
  | .ok path =>
    match files.lookup path with
    | .ok (.directory entries) =>
      match readListed files path (list entries) with
      | .error e => pure (.error e)
      | .ok records => do
        Logged.debug
          s!"json-dir: loaded {records.length} records of '{resource}' from {path.text}"
        pure (.ok records)
    | _ => do
      Logged.warn
        s!"json-dir: directory {path.text} for resource '{resource}' does not exist"
      pure (.error (.missingDirectory path))

/-- All records of a resource. -/
def fetchCollection (s : DirectoryStore) (files : FileTree) (resource : String) :
    Logged (Except StoreError (List Record)) :=
  fetchListed Dict.keys s files resource

/-- Somewhere in a text two points stand side by side. -/
def hasDoublePoint : List Char → Bool
  | '.' :: '.' :: _ => true
  | _ :: cs => hasDoublePoint cs
  | [] => false

/-- An id whose file can only be an entry of the directory itself. -/
def isPlainId (id : String) : Bool :=
  let cs := id.toList
  cs ≠ [] && !cs.contains '/' && !cs.contains '\\' && !hasDoublePoint cs

/-- The name of the file that holds the record with an id. -/
def recordName (id : String) : String := id ++ "." ++ recordExtension

/-- The record whose file bears the id. An id that is not plain names no record, whatever files
there are. -/
def fetchById (s : DirectoryStore) (files : FileTree) (resource id : String) :
    Except StoreError Record :=
  match s.directory resource with
  | .error e => .error e
  | .ok directory =>
    if isPlainId id then
      let path := directory.join ⟨recordName id⟩
      if files.isFile path then readRecord files path
      else .error (.recordNotFound resource id)
    else .error (.recordNotFound resource id)

/-- The store as a source of records, over the files there are. -/
def source (s : DirectoryStore) (files : FileTree) : RecordSource where
  name := "json-dir"
  fetchCollection := s.fetchCollection files
  fetchById := s.fetchById files

end DirectoryStore

end RecordQuery
