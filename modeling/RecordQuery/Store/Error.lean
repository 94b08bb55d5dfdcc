import RecordQuery.Query.Error
import RecordQuery.Store.FileTree

/-!
# Errors of stores
-/

namespace RecordQuery

/-- What can go wrong between a request and its records. -/
inductive StoreError where
  | resourceNotConfigured (resource : String)
  | recordNotFound (resource id : String)
  | unreadable (path : Pathname) (cause : ReadError)
  | missingDirectory (path : Pathname)
  | malformedRecord (path : Pathname)
  | notAnObject (path : Pathname) (found : String)
  | malformedConfig
  | unsupportedFormat (path : Pathname)
  | invalidQuery (error : QueryError)
deriving DecidableEq, Repr

namespace StoreError

/-- The text of an error, where it is this library's own. -/
def message? : StoreError → Option String
  | .resourceNotConfigured resource => some ("resource '" ++ resource ++ "' is not configured")
  | .recordNotFound resource id =>
    some ("record '" ++ id ++ "' not found in resource '" ++ resource ++ "'")
  | .missingDirectory path => some ("failed to read " ++ path.text ++ ": directory does not exist")
  | .notAnObject path found =>
    some ("invalid record in " ++ path.text ++ ": expected a JSON object, found " ++ found)
  | .unsupportedFormat path =>
    some ("invalid store configuration: unsupported configuration format: " ++ path.text)
  | .invalidQuery error => some error.message
  | .unreadable _ _ => none
  | .malformedRecord _ => none
  | .malformedConfig => none

end StoreError

end RecordQuery
