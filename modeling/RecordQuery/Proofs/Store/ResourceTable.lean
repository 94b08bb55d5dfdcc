import RecordQuery.Dict.Lemmas
import RecordQuery.Proofs.Store.Pathname
import RecordQuery.Store.Config

/-!
# The table of resources

The directory of a resource is decided by the last mapping of its name, whether the table is made at
once or mapping by mapping. Seen from a base and then from an outer one, a configuration is the same
as seen from the base joined to the outer one, so what was resolved against an absolute base stays
as it is.
-/

namespace RecordQuery

theorem ResourceMapping.path_relativeTo (base : Pathname) (m : ResourceMapping) :
    (m.relativeTo base).path = if m.path.isAbsolute then m.path else base.join m.path := by
  split
  next h => exact Pathname.join_of_isAbsolute h base
  next => rfl

namespace StoreConfig

/-- The last mapping of a resource is `m`. -/
def LastMapping (c : StoreConfig) (resource : String) (m : ResourceMapping) : Prop :=
  ∃ before after, c.resources = before ++ m :: after ∧ m.name = resource ∧
    ∀ later ∈ after, later.name ≠ resource

variable {c : StoreConfig} {resource : String}

theorem find?_reverse_eq_some_iff {m : ResourceMapping} :
    c.resources.reverse.find? (·.name = resource) = some m ↔ c.LastMapping resource m := by
  rw [List.find?_eq_some_iff_append, decide_eq_true_iff]
  constructor
  · rintro ⟨hname, after, before, hsplit, hafter⟩
    rw [List.reverse_eq_append_iff, List.reverse_cons, List.append_assoc] at hsplit
    refine ⟨before.reverse, after.reverse, hsplit, hname, fun later hlater => ?_⟩
    simpa using hafter later (List.mem_reverse.mp hlater)
  · rintro ⟨before, after, hsplit, hname, hafter⟩
    refine ⟨hname, after.reverse, before.reverse, by simp [hsplit], fun later hlater => ?_⟩
    simpa using hafter later (List.mem_reverse.mp hlater)

theorem get?_table : c.table.get? resource =
    (c.resources.reverse.find? (·.name = resource)).map (·.path) := by
  rw [table, Dict.get?_ofList, ← List.map_reverse, List.find?_map, Option.map_map]
  rfl

theorem directory_eq_ok_iff {path : Pathname} :
    c.store.directory resource = .ok path ↔ ∃ m, c.LastMapping resource m ∧ m.path = path := by
  have hfound : c.table.get? resource = some path ↔
      ∃ m, c.LastMapping resource m ∧ m.path = path := by
    simp only [get?_table, Option.map_eq_some_iff, find?_reverse_eq_some_iff]
  rw [← hfound, DirectoryStore.directory, store]
  cases c.table.get? resource <;> simp

theorem directory_eq_error_iff {e : StoreError} : c.store.directory resource = .error e ↔
    e = .resourceNotConfigured resource ∧ ∀ m ∈ c.resources, m.name ≠ resource := by
  have hnone : c.table.get? resource = none ↔ ∀ m ∈ c.resources, m.name ≠ resource := by
    simp [get?_table]
  rw [← hnone, DirectoryStore.directory, store]
  cases c.table.get? resource <;> simp [eq_comm]

/-- A mapping inserted after others takes the place of those of its name, as in the table. -/
theorem store_eq_foldl (c : StoreConfig) :
    c.store = c.resources.foldl (fun s m => s.insert m.name m.path) {} := by
  rw [store, table, Dict.ofList, List.foldl_map]
  exact (List.foldl_hom DirectoryStore.mk fun _ _ => rfl).symm

/-! ## Mappings as seen from a base -/

/-- The last mapping of a resource is still the last one as seen from a base. -/
theorem lastMapping_relativeTo {base : Pathname} {m : ResourceMapping} :
    (c.relativeTo base).LastMapping resource m ↔
      ∃ n, c.LastMapping resource n ∧ n.relativeTo base = m := by
  -- A mapping keeps its name, so the search for it does not see the base.
  have hname : (fun m : ResourceMapping => decide (m.name = resource)) ∘
      ResourceMapping.relativeTo base = fun m : ResourceMapping => decide (m.name = resource) := rfl
  simp only [← find?_reverse_eq_some_iff]
  rw [relativeTo, ← List.map_reverse, List.find?_map, hname, Option.map_eq_some_iff]

theorem relativeTo_relativeTo (c : StoreConfig) (inner outer : Pathname) :
    (c.relativeTo inner).relativeTo outer = c.relativeTo (outer.join inner) := by
  have hmapping : ResourceMapping.relativeTo outer ∘ ResourceMapping.relativeTo inner =
      ResourceMapping.relativeTo (outer.join inner) := by
    funext m
    simp only [Function.comp_apply, ResourceMapping.relativeTo, Pathname.join_join]
  rw [relativeTo, relativeTo, relativeTo, List.map_map, hmapping]

theorem relativeTo_of_isAbsolute {inner : Pathname} (h : inner.isAbsolute = true)
    (c : StoreConfig) (outer : Pathname) :
    (c.relativeTo inner).relativeTo outer = c.relativeTo inner := by
  rw [relativeTo_relativeTo, Pathname.join_of_isAbsolute h]

/-- How resources are resolved:

* the directory of a resource is the pathname of its last mapping, joined to the base unless it is
  absolute;
* a resource is unknown exactly if no mapping has its name;
* the mappings inserted one by one, as seen from the base, make up the same store;
* to be seen from one base and then from an outer one is to be seen from the one base joined to the
  outer one;
* once seen from an absolute base, a configuration is the same from any other. -/
theorem directory_of_mappings (c : StoreConfig) (base : Pathname) (resource : String) :
    (∀ path, (c.relativeTo base).store.directory resource = .ok path ↔
      ∃ m, c.LastMapping resource m ∧
        path = if m.path.isAbsolute then m.path else base.join m.path) ∧
    (∀ e, (c.relativeTo base).store.directory resource = .error e ↔
      e = .resourceNotConfigured resource ∧ ∀ m ∈ c.resources, m.name ≠ resource) ∧
    (c.relativeTo base).store =
      (c.relativeTo base).resources.foldl (fun s m => s.insert m.name m.path) {} ∧
    (∀ inner outer,
      (c.relativeTo inner).relativeTo outer = c.relativeTo (outer.join inner)) ∧
    ∀ inner outer, inner.isAbsolute = true →
      (c.relativeTo inner).relativeTo outer = c.relativeTo inner := by
  refine ⟨fun path => ?_, fun e => ?_, store_eq_foldl _, relativeTo_relativeTo c,
    fun inner outer h => relativeTo_of_isAbsolute h c outer⟩
  · simp only [directory_eq_ok_iff, lastMapping_relativeTo]
    constructor
    · rintro ⟨_, ⟨m, hm, rfl⟩, rfl⟩
      exact ⟨m, hm, m.path_relativeTo base⟩
    · rintro ⟨m, hm, rfl⟩
      exact ⟨_, ⟨m, hm, rfl⟩, m.path_relativeTo base⟩
  · rw [directory_eq_error_iff, relativeTo, List.forall_mem_map]
    rfl

/-- A mapping is made absolute, and the last of its name counts. -/
theorem directory_of_mappings_repeated :
    let c : StoreConfig := { resources := [⟨"books", ⟨"/a"⟩⟩, ⟨"films", ⟨"/f"⟩⟩, ⟨"books", ⟨"b"⟩⟩] }
    (c.relativeTo ⟨"/etc"⟩).store.directory "books" = .ok ⟨"/etc/b"⟩ ∧
      (Pathname.mk "/etc").isAbsolute = true ∧
      (c.relativeTo ⟨"/etc"⟩).relativeTo ⟨"home"⟩ = c.relativeTo ⟨"/etc"⟩ := by
  intro c
  obtain ⟨hfound, -, -, -, hagain⟩ := directory_of_mappings c ⟨"/etc"⟩ "books"
  have hlast : c.LastMapping "books" ⟨"books", ⟨"b"⟩⟩ :=
    ⟨[⟨"books", ⟨"/a"⟩⟩, ⟨"films", ⟨"/f"⟩⟩], [], rfl, rfl, nofun⟩
  exact ⟨(hfound _).mpr ⟨_, hlast, by decide +kernel⟩, by decide, hagain _ _ (by decide)⟩

end StoreConfig

end RecordQuery
