import RecordQuery.Dict.Lemmas
import RecordQuery.Record.FieldPath

/-!
# Reading and writing at paths

Writing at a path changes what is read there, below it and above it, and nothing else: two paths
neither of which begins the other do not disturb each other. Writing what is there already changes
nothing.
-/

namespace RecordQuery

theorem Dict.insert_eq_self {α : Type} {d : Dict α} {key : String} {v : α}
    (h : d.get? key = some v) : d.insert key v = d := by
  apply Dict.ext
  intro k
  rw [Dict.get?_insert]
  split
  next hk => rw [hk, h]
  next => rfl

namespace FieldPath

@[simp] theorem field_append (name : String) (q : FieldPath) :
    field name ++ q = within name q := rfl

@[simp] theorem within_append (name : String) (rest q : FieldPath) :
    within name rest ++ q = within name (rest ++ q) := rfl

theorem names_ne_nil (p : FieldPath) : p.names ≠ [] := by
  cases p <;> exact List.cons_ne_nil _ _

theorem names_append (p q : FieldPath) : (p ++ q).names = p.names ++ q.names := by
  induction p with
  | field name => rfl
  | within name rest ih => rw [within_append, names, ih, names, List.cons_append]

theorem names_ofNames (name : String) (rest : List String) :
    (ofNames name rest).names = name :: rest := by
  induction rest generalizing name with
  | nil => rfl
  | cons next rest ih => rw [ofNames, names, ih]

theorem names_ofText (text : String) :
    (ofText text).names = (text.toList.splitOn '.').map String.ofList := by
  unfold ofText
  split
  next h => exact absurd h (List.splitOn_ne_nil _ _)
  next name rest h => rw [names_ofNames, h, List.map_cons]

theorem names_injective {p q : FieldPath} (h : p.names = q.names) : p = q := by
  induction p generalizing q with
  | field name =>
    cases q with
    | field name' => rw [(List.cons.inj h).1]
    | within name' rest' => exact absurd (List.cons.inj h).2.symm (names_ne_nil rest')
  | within name rest ih =>
    cases q with
    | field name' => exact absurd (List.cons.inj h).2 (names_ne_nil rest)
    | within name' rest' => rw [(List.cons.inj h).1, ih (List.cons.inj h).2]

/-- A path begins another one when the other is the same or goes on from it. -/
theorem names_prefix_iff {p q : FieldPath} :
    p.names <+: q.names ↔ q = p ∨ ∃ rest, q = p ++ rest := by
  constructor
  · rintro ⟨names, h⟩
    cases names with
    | nil =>
      rw [List.append_nil] at h
      exact .inl (names_injective h.symm)
    | cons name names =>
      refine .inr ⟨ofNames name names, names_injective ?_⟩
      rw [names_append, names_ofNames, h]
  · rintro (rfl | ⟨rest, rfl⟩)
    · exact List.prefix_refl _
    · exact ⟨rest.names, (names_append p rest).symm⟩

end FieldPath

namespace Record

open FieldPath

/-- The object at a path; empty when there is none. -/
def objectAt (record : Record) (path : FieldPath) : Record :=
  ((record.get? path).bind Json.asObject?).getD Dict.empty

@[simp] theorem get?_empty (path : FieldPath) : get? (Dict.empty : Record) path = none := by
  cases path <;> rfl

@[simp] theorem get?_field (record : Record) (name : String) :
    record.get? (.field name) = Dict.Entries.get? record name := rfl

theorem get?_within (record : Record) (name : String) (rest : FieldPath) :
    record.get? (.within name rest) = (record.child name).get? rest := by
  rw [get?, child]
  cases Dict.Entries.get? record name with
  | none => exact (get?_empty rest).symm
  | some value =>
    cases value with
    | object fields => rfl
    | _ => exact (get?_empty rest).symm

theorem objectAt_within (record : Record) (name : String) (rest : FieldPath) :
    record.objectAt (.within name rest) = (record.child name).objectAt rest := by
  rw [objectAt, get?_within, objectAt]

theorem child_insert (record : Record) (name : String) (value : Json) (other : String) :
    child (Dict.insert record name value) other =
      if other = name then value.asObject?.getD Dict.empty else record.child other := by
  rw [child, Dict.get?_insert]
  split <;> rfl

/-- Where something is read below a name, the name holds an object. -/
theorem get?_eq_object_child {record : Record} {name : String} {rest : FieldPath} {value : Json}
    (h : (record.child name).get? rest = some value) :
    Dict.Entries.get? record name = some (.object (record.child name)) := by
  unfold child at h ⊢
  cases hname : Dict.Entries.get? record name with
  | none => simp [hname] at h
  | some found => cases found <;> simp_all [Json.asObject?]

/-- A longer path is read in two steps. -/
theorem get?_append (record : Record) (p q : FieldPath) :
    record.get? (p ++ q) = ((record.get? p).bind Json.asObject?).bind (·.get? q) := by
  induction p generalizing record with
  | field name =>
    rw [field_append, get?_field]
    rw [get?]
    cases Dict.Entries.get? record name <;> rfl
  | within name rest ih => rw [within_append, get?_within, get?_within, ih]

theorem get?_append_eq_objectAt (record : Record) (p q : FieldPath) :
    record.get? (p ++ q) = (record.objectAt p).get? q := by
  rw [get?_append, objectAt]
  cases (record.get? p).bind Json.asObject? with
  | none => exact (get?_empty q).symm
  | some object => rfl

/-- A path that goes on from another one is present only below an object. -/
theorem get?_eq_object_of_append {record : Record} {p q : FieldPath} {value : Json}
    (h : record.get? (p ++ q) = some value) :
    record.get? p = some (.object (record.objectAt p)) := by
  rw [get?_append] at h
  unfold objectAt
  cases hp : record.get? p with
  | none => simp [hp] at h
  | some found => cases found <;> simp_all [Json.asObject?]

/-! ## After a write -/

@[simp] theorem get?_put_self (record : Record) (path : FieldPath) (value : Json) :
    (record.put path value).get? path = some value := by
  induction path generalizing record with
  | field name => simp [put]
  | within name rest ih =>
    rw [put, get?_within, child_insert, if_pos rfl]
    exact ih _

theorem get?_put_append (record : Record) (path rest : FieldPath) (value : Json) :
    (record.put path value).get? (path ++ rest) = value.asObject?.bind (·.get? rest) := by
  rw [get?_append, get?_put_self]
  rfl

/-- Above the path written stands an object, in which the rest of the path was written. -/
theorem get?_put_of_append (record : Record) (path rest : FieldPath) (value : Json) :
    (record.put (path ++ rest) value).get? path =
      some (.object ((record.objectAt path).put rest value)) := by
  induction path generalizing record with
  | field name =>
    rw [field_append, put, get?_field, Dict.get?_insert, if_pos rfl]
    rfl
  | within name path ih =>
    rw [within_append, put, get?_within, child_insert, if_pos rfl, objectAt_within]
    exact ih _

/-- A path that neither begins the path written nor is begun by it is read as before. -/
theorem get?_put_of_apart (record : Record) {path other : FieldPath} (value : Json)
    (h : ¬ path.names <+: other.names) (h' : ¬ other.names <+: path.names) :
    (record.put path value).get? other = record.get? other := by
  -- Along both paths at once: they share names up to some point and part there.
  induction path generalizing record other with
  | field name =>
    cases other with
    | field name' =>
      have hne : name' ≠ name := fun he => h (he ▸ List.prefix_refl _)
      rw [put, get?_field, get?_field, Dict.get?_insert, if_neg hne]
    | within name' rest' =>
      have hne : name' ≠ name := fun he =>
        h (List.cons_prefix_cons.mpr ⟨he.symm, List.nil_prefix⟩)
      rw [put, get?_within, get?_within, child_insert, if_neg hne]
  | within name rest ih =>
    cases other with
    | field name' =>
      have hne : name' ≠ name := fun he =>
        h' (List.cons_prefix_cons.mpr ⟨he, List.nil_prefix⟩)
      rw [put, get?_field, get?_field, Dict.get?_insert, if_neg hne]
    | within name' rest' =>
      rw [put, get?_within, get?_within, child_insert]
      by_cases he : name' = name
      · subst he
        have hrest : ¬ rest.names <+: rest'.names := fun hp =>
          h (List.cons_prefix_cons.mpr ⟨rfl, hp⟩)
        have hrest' : ¬ rest'.names <+: rest.names := fun hp =>
          h' (List.cons_prefix_cons.mpr ⟨rfl, hp⟩)
        rw [if_pos rfl]
        exact ih _ hrest hrest'
      · rw [if_neg he]

theorem put_eq_self {record : Record} {path : FieldPath} {value : Json}
    (h : record.get? path = some value) : record.put path value = record := by
  induction path generalizing record with
  | field name => exact Dict.insert_eq_self h
  | within name rest ih =>
    rw [get?_within] at h
    rw [put, ih h]
    exact Dict.insert_eq_self (get?_eq_object_child h)

end Record

end RecordQuery
