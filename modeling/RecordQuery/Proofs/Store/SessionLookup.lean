import RecordQuery.Proofs.Store.Session

/-!
# Records by id in a session

A record is looked up in the collection that its resource has at that point of the session: of
several records with the id the earliest one counts. What is pushed comes after it, so a record that
was found stays the one that is found as long as the collection is not replaced.
-/

namespace RecordQuery.MemoryStore

/-- The id of a record is a text, or a number that is written so. -/
def BearsId (id : String) (record : Record) : Prop :=
  Dict.Entries.get? record "id" = some (.text id) ∨
    ∃ n, Dict.Entries.get? record "id" = some (.number n) ∧ n.toText = id

theorem hasId_iff {id : String} {record : Record} : hasId id record = true ↔ BearsId id record := by
  have hfield : record.get? (.field idField) = Dict.Entries.get? record "id" := rfl
  rw [hasId, BearsId, hfield]
  cases Dict.Entries.get? record "id" with
  | none => simp
  | some value => cases value <;> simp

instance (id : String) (record : Record) : Decidable (BearsId id record) :=
  decidable_of_iff _ hasId_iff

variable {m : MemoryStore} {resource id : String}

/-! ## Lookup in one store -/

theorem value_fetchCollection (m : MemoryStore) (resource : String) :
    (m.fetchCollection resource).value = m.collection resource := by
  rw [fetchCollection]
  cases m.collection resource <;> rfl

theorem collection_eq_ok_iff {records : List Record} :
    m.collection resource = .ok records ↔ m.collections.get? resource = some records := by
  rw [collection]
  cases m.collections.get? resource <;> simp

theorem eq_of_collection_eq_error {e : StoreError} (h : m.collection resource = .error e) :
    e = .resourceNotConfigured resource := by
  rw [collection] at h
  cases hget : m.collections.get? resource with
  | none =>
    rw [hget] at h
    exact (Except.error.inj h).symm
  | some records =>
    rw [hget] at h
    cases h

theorem find?_hasId_eq_some_iff {records : List Record} {record : Record} :
    records.find? (hasId id) = some record ↔
      ∃ before after, records = before ++ record :: after ∧ BearsId id record ∧
        ∀ earlier ∈ before, ¬ BearsId id earlier := by
  simp only [List.find?_eq_some_iff_append, Bool.not_eq_true', ← Bool.not_eq_true, hasId_iff]
  constructor
  · rintro ⟨hid, before, after, hsplit, hbefore⟩
    exact ⟨before, after, hsplit, hid, hbefore⟩
  · rintro ⟨before, after, hsplit, hid, hbefore⟩
    exact ⟨hid, before, after, hsplit, hbefore⟩

theorem find?_hasId_eq_none_iff {records : List Record} :
    records.find? (hasId id) = none ↔ ∀ record ∈ records, ¬ BearsId id record := by
  simp only [List.find?_eq_none, hasId_iff]

theorem fetchById_eq_ok_iff {record : Record} : m.fetchById resource id = .ok record ↔
    ∃ records, m.collection resource = .ok records ∧
      records.find? (hasId id) = some record := by
  rw [fetchById]
  cases m.collection resource with
  | error e => simp
  | ok records => cases hfind : records.find? (hasId id) <;> simp [hfind]

theorem fetchById_eq_error_iff {e : StoreError} : m.fetchById resource id = .error e ↔
    m.collection resource = .error e ∨ e = .recordNotFound resource id ∧
      ∃ records, m.collection resource = .ok records ∧ records.find? (hasId id) = none := by
  rw [fetchById]
  cases m.collection resource with
  | error e' => simp
  | ok records => cases hfind : records.find? (hasId id) <;> simp [hfind, eq_comm]

/-! ## Lookup after further commands -/

variable {format : QueryFormat} {further : List Command}

/-- Without an insertion a collection is only appended to. -/
theorem collection_run_of_not_inserts (h : ∀ c ∈ further, c.inserts resource = false)
    {records : List Record} (hrecords : m.collection resource = .ok records) :
    (run format m further).1.collection resource =
      .ok (records ++ further.filterMap (Command.pushed? resource)) := by
  rw [collection_eq_ok_iff] at hrecords ⊢
  rw [get?_run, hrecords, foldl_effect_some h]

theorem fetchById_run_of_found (h : ∀ c ∈ further, c.inserts resource = false) {record : Record}
    (hfound : m.fetchById resource id = .ok record) :
    (run format m further).1.fetchById resource id = .ok record := by
  obtain ⟨records, hrecords, hfind⟩ := fetchById_eq_ok_iff.mp hfound
  refine fetchById_eq_ok_iff.mpr ⟨_, collection_run_of_not_inserts h hrecords, ?_⟩
  rw [List.find?_append, hfind, Option.some_or]

/-! ## Sessions from an empty store on -/

/-- The store that a session has come to. -/
def storeAfter (format : QueryFormat) (history : List Command) : MemoryStore :=
  (run format {} history).1

/-- What a lookup by id finds after any session:

* the earliest record of the collection that bears the id;
* no record, exactly if none of the collection bears it;
* no collection, exactly if there is none to be fetched;
* nothing else can go wrong;
* a record that was found is found again after all commands that do not replace the collection. -/
theorem fetchById_of_session (format : QueryFormat) (history : List Command)
    (resource id : String) :
    (∀ record, (storeAfter format history).fetchById resource id = .ok record ↔
      ∃ before after, ((storeAfter format history).fetchCollection resource).value =
          .ok (before ++ record :: after) ∧
        BearsId id record ∧ ∀ earlier ∈ before, ¬ BearsId id earlier) ∧
    ((storeAfter format history).fetchById resource id = .error (.recordNotFound resource id) ↔
      ∃ records, ((storeAfter format history).fetchCollection resource).value = .ok records ∧
        ∀ record ∈ records, ¬ BearsId id record) ∧
    ((storeAfter format history).fetchById resource id =
        .error (.resourceNotConfigured resource) ↔
      ((storeAfter format history).fetchCollection resource).value =
        .error (.resourceNotConfigured resource)) ∧
    (∀ e, (storeAfter format history).fetchById resource id = .error e →
      e = .recordNotFound resource id ∨ e = .resourceNotConfigured resource) ∧
    ∀ record, (storeAfter format history).fetchById resource id = .ok record →
      ∀ further : List Command, (∀ c ∈ further, c.inserts resource = false) →
        (storeAfter format (history ++ further)).fetchById resource id = .ok record := by
  simp only [value_fetchCollection]
  refine ⟨fun record => ?_, ?_, ?_, fun e he => ?_, fun record hfound further h => ?_⟩
  · rw [fetchById_eq_ok_iff]
    simp only [find?_hasId_eq_some_iff]
    constructor
    · rintro ⟨_, hrecords, before, after, rfl, hid⟩
      exact ⟨before, after, hrecords, hid⟩
    · rintro ⟨before, after, hrecords, hid⟩
      exact ⟨_, hrecords, before, after, rfl, hid⟩
  · simp only [fetchById_eq_error_iff, find?_hasId_eq_none_iff, true_and]
    refine or_iff_right fun herror => ?_
    cases eq_of_collection_eq_error herror
  · rw [fetchById_eq_error_iff]
    exact or_iff_left fun hnone => nomatch hnone.1
  · obtain herror | hnone := fetchById_eq_error_iff.mp he
    · exact .inr (eq_of_collection_eq_error herror)
    · exact .inl hnone.1
  · rw [storeAfter, run_append]
    exact fetchById_run_of_found h hfound

/-- The number 1 is found before the text 1, whatever else is pushed. -/
theorem fetchById_of_session_number :
    let numbered : Record := Dict.empty.insert "id" (.number (.int 1 (by decide)))
    let lettered : Record := Dict.empty.insert "id" (.text "1")
    let history : List Command := [.insert "books" [Dict.empty, numbered], .push "books" lettered]
    let further : List Command := [.push "books" numbered, .insert "films" [lettered],
      .request (.byId "films" "2"), .push "books" lettered]
    (storeAfter default history).fetchById "books" "1" = .ok numbered ∧
      (∀ c ∈ further, c.inserts "books" = false) ∧
      (storeAfter default (history ++ further)).fetchById "books" "1" = .ok numbered := by
  intro numbered lettered history further
  obtain ⟨hfound, -, -, -, hstays⟩ := fetchById_of_session default history "books" "1"
  have hnumbered := (hfound numbered).mpr
    ⟨[Dict.empty], [lettered], rfl, .inr ⟨_, rfl, by decide +kernel⟩, by decide⟩
  exact ⟨hnumbered, by decide, hstays numbered hnumbered further (by decide)⟩

end RecordQuery.MemoryStore
