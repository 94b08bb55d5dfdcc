import RecordQuery.Json.Reader
import RecordQuery.Query.Schema
import RecordQuery.Store.Directory
import RecordQuery.Yaml.Reader

/-!
# Store configurations

A configuration names the directory of each resource and the keys of query strings. It is
read from JSON or YAML text, and a pathname in it that is relative is meant as seen from
some base, which for a configuration file is the directory it lies in. Of several mappings
of one name the last counts.
-/

namespace RecordQuery

open Document

/-- The directory of a resource. -/
structure ResourceMapping where
  name : String
  path : Pathname
deriving DecidableEq, Repr

namespace ResourceMapping

/-- Reads the members `name` and `path`, both of which are needed. -/
def ofTree? : Decoder ResourceMapping := fun t => do
  let members ← Decoder.members ["name", "path"] t
  let name ← Decoder.required members "name" Decoder.text
  let path ← Decoder.required members "path" Decoder.text
  pure ⟨name, ⟨path⟩⟩

/-- The mapping as an object with the members that it is read from. -/
def toJson (m : ResourceMapping) : Json :=
  .ofMembers [("name", .text m.name), ("path", .text m.path.text)]

/-- The mapping with its pathname as seen from a base. -/
def relativeTo (base : Pathname) (m : ResourceMapping) : ResourceMapping :=
  { m with path := base.join m.path }

end ResourceMapping

/-- The directories of the resources, in the order they are named, and the keys. -/
structure StoreConfig where
  resources : List ResourceMapping := []
  keys : Keys := {}
deriving DecidableEq, Repr

namespace StoreConfig

/-- The configuration with one more mapping. -/
def addResource (c : StoreConfig) (name : String) (path : Pathname) : StoreConfig :=
  { c with resources := c.resources ++ [⟨name, path⟩] }

/-- The configuration with its pathnames as seen from a base. -/
def relativeTo (base : Pathname) (c : StoreConfig) : StoreConfig :=
  { c with resources := c.resources.map (ResourceMapping.relativeTo base) }

/-- The directory of each resource. -/
def table (c : StoreConfig) : Dict Pathname :=
  Dict.ofList (c.resources.map fun m => (m.name, m.path))

/-- The resources as a store. -/
def store (c : StoreConfig) : DirectoryStore := ⟨c.table⟩

/-- The repository over the files there are. -/
def repository (c : StoreConfig) (files : FileTree) : Except StoreError Repository :=
  Repository.withKeys (c.store.source files) c.keys

/-- Reads the members `resources` and `keys`, each of which may be missing. -/
def ofTree? : Decoder StoreConfig := fun t => do
  let members ← Decoder.members ["resources", "keys"] t
  let resources ←
    Decoder.withDefault members "resources" (Decoder.list ResourceMapping.ofTree?) []
  let keys ← Decoder.withDefault members "keys" Keys.ofTree? {}
  pure ⟨resources, keys⟩

/-- The formats of configuration texts. -/
inductive Format where
  | json
  | yaml
deriving DecidableEq, Repr

/-- The format of files with an extension, in letters of either case. -/
def Format.ofExtension? (extension : String) : Option Format :=
  match String.ofList (extension.toList.map Char.toLower) with
  | "json" => some .json
  | "yaml" => some .yaml
  | "yml" => some .yaml
  | _ => none

/-- The document that a text of a format writes. -/
def Format.tree? : Format → String → Option Tree
  | .json => Json.tree?
  | .yaml => Yaml.tree?

/-- The configuration that a text writes. -/
def read (format : Format) (text : String) : Except StoreError StoreConfig :=
  match (format.tree? text).bind ofTree? with
  | some c => .ok c
  | none => .error .malformedConfig

/-- The configuration in a file, its pathnames as seen from the file's directory. A file
that cannot be read is an error whatever its extension. -/
def load (files : FileTree) (path : Pathname) : Except StoreError StoreConfig :=
  match files.readText path with
  | .error e => .error (.unreadable path e)
  | .ok text =>
    match path.extension?.bind Format.ofExtension? with
    | none => .error (.unsupportedFormat path)
    | some format => (read format text).map (relativeTo path.parent)

end StoreConfig

end RecordQuery
