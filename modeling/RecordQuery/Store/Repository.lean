import RecordQuery.Query.Execution
import RecordQuery.Query.Format
import RecordQuery.Store.Error

/-!
# Repositories

A source supplies whole collections and single records by resource name. A repository runs
queries over the collections of a source. A query string is read before anything is
fetched.
-/

namespace RecordQuery

/-- Where records come from. -/
structure RecordSource where
  name : String
  fetchCollection : String → Logged (Except StoreError (List Record))
  fetchById : String → String → Except StoreError Record

/-- A source, and the format in which queries to it are written. -/
structure Repository where
  source : RecordSource
  format : QueryFormat

namespace Repository

/-- The repository of a source under the given keys. -/
def withKeys (source : RecordSource) (keys : Keys) : Except StoreError Repository :=
  match QueryFormat.ofKeys keys with
  | .ok format => .ok ⟨source, format⟩
  | .error e => .error (.invalidQuery e)

/-- The records of a resource that answer a query. -/
def query (r : Repository) (resource : String) (q : Query) :
    Logged (Except StoreError (List Record)) := do
  match ← r.source.fetchCollection resource with
  | .error e => pure (.error e)
  | .ok records =>
    let results ← q.run records
    Logged.debug
      (s!"{r.source.name}: query on '{resource}' returned " ++
        s!"{results.length} of {records.length} records")
    pure (.ok results)

/-- The records of a resource that answer a query string. -/
def queryText (r : Repository) (resource input : String) :
    Logged (Except StoreError (List Record)) := do
  match ← r.format.parse input with
  | .error e => pure (.error (.invalidQuery e))
  | .ok q => r.query resource q

/-- One record of a resource, by its id. -/
def byId (r : Repository) (resource id : String) : Except StoreError Record :=
  r.source.fetchById resource id

/-- What can be asked of a repository. -/
inductive Request where
  | name
  | keys
  | fetch (resource : String)
  | byId (resource id : String)
  | query (resource : String) (query : Query)
  | queryText (resource input : String)

/-- What a request is answered with when it succeeds. -/
inductive Answer where
  | name (name : String)
  | keys (keys : Keys)
  | records (records : List Record)
  | record (record : Record)

/-- The answer to a request. No request changes the repository. -/
def answer (r : Repository) : Request → Logged (Except StoreError Answer)
  | .name => pure (.ok (.name r.source.name))
  | .keys => pure (.ok (.keys r.format.keys))
  | .fetch resource => do
    let result ← r.source.fetchCollection resource
    pure (result.map .records)
  | .byId resource id => pure ((r.byId resource id).map .record)
  | .query resource q => do
    let result ← r.query resource q
    pure (result.map .records)
  | .queryText resource input => do
    let result ← r.queryText resource input
    pure (result.map .records)

end Repository

end RecordQuery
