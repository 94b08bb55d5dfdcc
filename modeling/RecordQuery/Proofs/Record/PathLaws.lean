import RecordQuery.Proofs.Record.FieldPath

/-!
# Laws of reading and writing at paths

A path is a lens into a record: what was written is read, the last of two writes counts, and writes
at two paths neither of which begins the other do not see each other and may change places. None of
this depends on what stood along the paths before, since a write makes the objects it needs.
-/

namespace RecordQuery

section

variable {α : Type} (d : Dict α)

theorem Dict.insert_insert (key : String) (v w : α) :
    (d.insert key v).insert key w = d.insert key w := by
  apply Dict.ext
  intro k
  rw [get?_insert, get?_insert, get?_insert]
  split <;> rfl

theorem Dict.insert_comm {key other : String} (h : key ≠ other) (v w : α) :
    (d.insert key v).insert other w = (d.insert other w).insert key v := by
  apply Dict.ext
  intro k
  simp only [get?_insert]
  by_cases hkey : k = key
  · subst hkey
    rw [if_neg h, if_pos rfl, if_pos rfl]
  · rw [if_neg hkey, if_neg hkey]

end

namespace FieldPath

/-- The name that a path begins with. -/
def first : FieldPath → String
  | field name => name
  | within name _ => name

theorem names_within_prefix_iff {name : String} {p q : FieldPath} :
    (within name p).names <+: (within name q).names ↔ p.names <+: q.names := by
  rw [names, names, List.cons_prefix_cons, and_iff_right rfl]

theorem field_prefix_of_first_eq {name : String} {q : FieldPath} (h : q.first = name) :
    (field name).names <+: q.names := by
  cases q <;> exact List.cons_prefix_cons.mpr ⟨h.symm, List.nil_prefix⟩

/-- A text with a point between two texts writes their paths one after the other. -/
theorem ofText_join (s t : String) : ofText (s ++ "." ++ t) = ofText s ++ ofText t := by
  have hlist : (s ++ "." ++ t).toList = s.toList ++ '.' :: t.toList := by simp
  apply names_injective
  rw [names_append, names_ofText, names_ofText, names_ofText, hlist, List.splitOn_append_cons_self,
    List.map_append]

end FieldPath

namespace Record

open FieldPath

variable (record : Record)

/-- What a write at a path leaves under the first name of the path. -/
def written (child : Record) : FieldPath → Json → Json
  | .field _, value => value
  | .within _ rest, value => .object (child.put rest value)

theorem put_eq_insert (path : FieldPath) (value : Json) :
    record.put path value =
      Dict.insert record path.first (written (record.child path.first) path value) := by
  cases path <;> rfl

/-- The last of two writes at a path counts. -/
theorem put_put_self (path : FieldPath) (v w : Json) :
    (record.put path v).put path w = record.put path w := by
  induction path generalizing record with
  | field name => exact Dict.insert_insert record name v w
  | within name rest ih =>
    rw [put, put, put, child_insert, if_pos rfl, Dict.insert_insert]
    congr 2
    exact ih _

theorem put_comm_of_first_ne {p q : FieldPath} (h : p.first ≠ q.first) (v w : Json) :
    (record.put p v).put q w = (record.put q w).put p v := by
  simp only [put_eq_insert, child_insert, if_neg h, if_neg h.symm]
  exact Dict.insert_comm record h _ _

/-- Writes at two paths neither of which begins the other may change places. -/
theorem put_comm_of_apart {p q : FieldPath} (v w : Json) (h : ¬ p.names <+: q.names)
    (h' : ¬ q.names <+: p.names) : (record.put p v).put q w = (record.put q w).put p v := by
  -- Along the names that the paths share, down to the object in which their next names differ.
  induction p generalizing record q with
  | field name =>
    exact put_comm_of_first_ne record (fun he => h (field_prefix_of_first_eq he.symm)) v w
  | within name rest ih =>
    cases q with
    | field other =>
      exact put_comm_of_first_ne record (fun he => h' (field_prefix_of_first_eq he)) v w
    | within other rest' =>
      by_cases he : name = other
      · subst he
        rw [names_within_prefix_iff] at h h'
        rw [put, put, put, put, child_insert, child_insert, if_pos rfl, if_pos rfl,
          Dict.insert_insert, Dict.insert_insert]
        congr 2
        exact ih _ h h'
      · refine put_comm_of_first_ne record ?_ v w
        exact he

/-- What was written at a path is read there, and below the path inside of what was written. Paths
neither of which begins the other are written apart, in either order. The last of two writes counts,
and a longer path is read in two steps, through an object. -/
theorem get?_put_lens (p q : FieldPath) (v w : Json) :
    (record.put p v).get? p = some v ∧
    (record.put p v).get? (p ++ q) = v.asObject?.bind (·.get? q) ∧
    (¬ p.names <+: q.names → ¬ q.names <+: p.names →
      (record.put p v).get? q = record.get? q ∧
      (record.put p v).put q w = (record.put q w).put p v) ∧
    (record.put p v).put p w = record.put p w ∧
    record.get? (p ++ q) = ((record.get? p).bind Json.asObject?).bind (·.get? q) ∧
    ∀ s t : String, ofText (s ++ "." ++ t) = ofText s ++ ofText t :=
  ⟨get?_put_self record p v, get?_put_append record p q v,
    fun h h' => ⟨get?_put_of_apart record v h h', put_comm_of_apart record v w h h'⟩,
    put_put_self record p v w, get?_append record p q, ofText_join⟩

/-- Two paths through a list, which both writes replace by an object; one of them has an empty
name, and what it leads past is null. -/
theorem get?_put_lens_through_list :
    let record : Record := (Dict.empty.insert "a" (.array [.text "x"])).insert "" .null
    let p := ofText "a..x"
    let q := ofText "a.x"
    let past : Record := Dict.empty.insert "x" (.text "1")
    let inner : Record := (Dict.empty.insert "" (.object past)).insert "x" (.text "2")
    (¬ p.names <+: q.names ∧ ¬ q.names <+: p.names) ∧
      (record.put p (.text "1")).get? q = none ∧
      (record.put q (.text "2")).put p (.text "1") = record.put (ofText "a") (.object inner) := by
  intro record p q past inner
  have hp : ¬ p.names <+: q.names := by decide +kernel
  have hq : ¬ q.names <+: p.names := by decide +kernel
  have hlens := (get?_put_lens record p q (.text "1") (.text "2")).2.2.1 hp hq
  exact ⟨⟨hp, hq⟩, hlens.1.trans rfl, hlens.2.symm.trans rfl⟩

end Record

end RecordQuery
