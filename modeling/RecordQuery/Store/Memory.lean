import RecordQuery.Store.Repository

/-!
# Collections in memory

A store of collections by resource name. Its records are identified by their `id` field,
which may be a string or a number; a number stands for the id that is its text.
-/

namespace RecordQuery

/-- The collections of all resources. -/
structure MemoryStore where
  collections : Dict (List Record) := Dict.empty

namespace MemoryStore

/-- The field that identifies a record. -/
def idField : String := "id"

/-- Sets the collection of a resource. -/
def insert (m : MemoryStore) (resource : String) (records : List Record) : MemoryStore :=
  ⟨m.collections.insert resource records⟩

/-- Appends a record to the collection of a resource, a new one if need be. -/
def push (m : MemoryStore) (resource : String) (record : Record) : MemoryStore :=
  m.insert resource ((m.collections.get? resource).getD [] ++ [record])

/-- The names of the resources, ascending. -/
def resources (m : MemoryStore) : List String := m.collections.keys

/-- A record carries an id. -/
def hasId (id : String) (record : Record) : Bool :=
  match record.get? (FieldPath.field idField) with
  | some (.text s) => s == id
  | some (.number n) => n.toText == id
  | _ => false

/-- The collection of a resource. -/
def collection (m : MemoryStore) (resource : String) : Except StoreError (List Record) :=
  match m.collections.get? resource with
  | some records => .ok records
  | none => .error (.resourceNotConfigured resource)

/-- All records of a resource, with a message. -/
def fetchCollection (m : MemoryStore) (resource : String) :
    Logged (Except StoreError (List Record)) :=
  match m.collection resource with
  | .error e => pure (.error e)
  | .ok records => do
    Logged.debug s!"memory: loaded {records.length} records of '{resource}'"
    pure (.ok records)

/-- The first record with an id. -/
def fetchById (m : MemoryStore) (resource id : String) : Except StoreError Record :=
  match m.collection resource with
  | .error e => .error e
  | .ok records =>
    match records.find? (hasId id) with
    | some record => .ok record
    | none => .error (.recordNotFound resource id)

/-- The store as a source of records. -/
def source (m : MemoryStore) : RecordSource where
  name := "memory"
  fetchCollection := m.fetchCollection
  fetchById := m.fetchById

/-- One step of a session: a change of the store, or a request to a repository over it. -/
inductive Command where
  | insert (resource : String) (records : List Record)
  | push (resource : String) (record : Record)
  | resources
  | request (request : Repository.Request)

/-- What a command replies with when it succeeds; a change is only acknowledged. -/
inductive Reply where
  | done
  | resources (names : List String)
  | answer (answer : Repository.Answer)

/-- The store after a command, and the reply. -/
def step (format : QueryFormat) (m : MemoryStore) :
    Command → MemoryStore × Logged (Except StoreError Reply)
  | .insert resource records => (m.insert resource records, pure (.ok .done))
  | .push resource record => (m.push resource record, pure (.ok .done))
  | .resources => (m, pure (.ok (.resources m.resources)))
  | .request r => (m, do
      let result ← Repository.answer ⟨m.source, format⟩ r
      pure (result.map .answer))

/-- The store after a run of commands, and their replies. -/
def run (format : QueryFormat) (m : MemoryStore) :
    List Command → MemoryStore × List (Logged (Except StoreError Reply))
  | [] => (m, [])
  | c :: cs =>
    let (m', reply) := m.step format c
    let (last, replies) := run format m' cs
    (last, reply :: replies)

end MemoryStore

end RecordQuery
