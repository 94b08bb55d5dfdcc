import Mathlib.Data.List.Induction
import RecordQuery.Proofs.Record.FieldPath

/-!
# Projection is restriction

A projection shows every field that is present as the record has it, opens the objects that lead to
one, and holds nothing else. It does not matter how the fields overlap, in which order they come
and how often: what is written for one field is never lost or changed by another one.
-/

namespace RecordQuery.Record

open FieldPath

variable {record part : Record} {fields : List FieldPath}

/-- A field that is present ends at the path or before it. -/
def Covers (record : Record) (fields : List FieldPath) (path : FieldPath) : Prop :=
  ∃ f ∈ fields, (record.get? f).isSome ∧ f.names <+: path.names

/-- A field that is present ends at the path or goes on from it. -/
def Crosses (record : Record) (fields : List FieldPath) (path : FieldPath) : Prop :=
  ∃ f ∈ fields, (record.get? f).isSome ∧ path.names <+: f.names

/-- A record that shows of another one what the fields ask for, and nothing else. -/
structure Restricts (record : Record) (fields : List FieldPath) (part : Record) : Prop where
  kept {path : FieldPath} : Covers record fields path → part.get? path = record.get? path
  opened {path : FieldPath} : ¬ Covers record fields path → Crosses record fields path →
    ∃ shown, part.get? path = some (.object shown)
  left_out {path : FieldPath} : ¬ Covers record fields path → ¬ Crosses record fields path →
    part.get? path = none

theorem covers_append_singleton {f path : FieldPath} :
    Covers record (fields ++ [f]) path ↔
      Covers record fields path ∨ (record.get? f).isSome ∧ f.names <+: path.names := by
  simp [Covers, or_and_right, exists_or]

theorem crosses_append_singleton {f path : FieldPath} :
    Crosses record (fields ++ [f]) path ↔
      Crosses record fields path ∨ (record.get? f).isSome ∧ path.names <+: f.names := by
  simp [Crosses, or_and_right, exists_or]

theorem restricts_empty (record : Record) : Restricts record [] Dict.empty where
  kept := fun ⟨_, hf, _⟩ => absurd hf List.not_mem_nil
  opened := fun _ ⟨_, hf, _⟩ => absurd hf List.not_mem_nil
  left_out := fun _ _ => get?_empty _

/-- Fields that cover and cross the same paths ask for the same. -/
theorem Restricts.congr {others : List FieldPath} (h : Restricts record fields part)
    (hcovers : ∀ path, Covers record others path ↔ Covers record fields path)
    (hcrosses : ∀ path, Crosses record others path ↔ Crosses record fields path) :
    Restricts record others part where
  kept := fun hc => h.kept ((hcovers _).mp hc)
  opened := fun hc hx => h.opened (mt (hcovers _).mpr hc) ((hcrosses _).mp hx)
  left_out := fun hc hx => h.left_out (mt (hcovers _).mpr hc) (mt (hcrosses _).mpr hx)

/-- A field that is not present asks for nothing. -/
theorem Restricts.skip (h : Restricts record fields part) {f : FieldPath}
    (hf : record.get? f = none) : Restricts record (fields ++ [f]) part :=
  h.congr (fun path => by simp [covers_append_singleton, hf])
    (fun path => by simp [crosses_append_singleton, hf])

/-- At and below a field the value of the field is read once it is written. -/
theorem get?_put_of_prefix {f path : FieldPath} {value : Json} (hf : record.get? f = some value)
    (hpath : f.names <+: path.names) : (part.put f value).get? path = record.get? path := by
  obtain rfl | ⟨rest, rfl⟩ := names_prefix_iff.mp hpath
  · rw [get?_put_self, hf]
  · rw [get?_put_append, get?_append, hf]
    rfl

/-- Writing a field into an object that is there in full leaves it as it is. -/
theorem Restricts.put_below_covered (h : Restricts record fields part) {path rest : FieldPath}
    {value : Json} (hf : record.get? (path ++ rest) = some value)
    (hcovers : Covers record fields path) :
    (part.put (path ++ rest) value).get? path = record.get? path := by
  have hobject := get?_eq_object_of_append hf
  have hpart : part.objectAt path = record.objectAt path := by
    rw [objectAt, h.kept hcovers, objectAt]
  have hrest : (record.objectAt path).get? rest = some value := by
    rw [← get?_append_eq_objectAt, hf]
  rw [get?_put_of_append, hpart, put_eq_self hrest, hobject]

/-- A field that is present is shown after it is written, and what was shown before stays. -/
theorem Restricts.put (h : Restricts record fields part) {f : FieldPath} {value : Json}
    (hf : record.get? f = some value) :
    Restricts record (fields ++ [f]) (part.put f value) := by
  have hpresent : (record.get? f).isSome = true := by rw [hf]; rfl
  constructor
  · intro path hcovers
    by_cases hbelow : f.names <+: path.names
    · exact get?_put_of_prefix hf hbelow
    have hearlier : Covers record fields path :=
      (covers_append_singleton.mp hcovers).resolve_right fun hnew => hbelow hnew.2
    by_cases habove : path.names <+: f.names
    · obtain rfl | ⟨rest, rfl⟩ := names_prefix_iff.mp habove
      · exact absurd (List.prefix_refl _) hbelow
      · exact h.put_below_covered hf hearlier
    · rw [get?_put_of_apart part value hbelow habove, h.kept hearlier]
  · intro path hcovers hcrosses
    rw [covers_append_singleton, not_or] at hcovers
    have hbelow : ¬ f.names <+: path.names := fun hp => hcovers.2 ⟨hpresent, hp⟩
    by_cases habove : path.names <+: f.names
    · obtain rfl | ⟨rest, rfl⟩ := names_prefix_iff.mp habove
      · exact absurd (List.prefix_refl _) hbelow
      · exact ⟨_, get?_put_of_append part path rest value⟩
    · rw [get?_put_of_apart part value hbelow habove]
      exact h.opened hcovers.1
        ((crosses_append_singleton.mp hcrosses).resolve_right fun hnew => habove hnew.2)
  · intro path hcovers hcrosses
    rw [covers_append_singleton, not_or] at hcovers
    rw [crosses_append_singleton, not_or] at hcrosses
    have hbelow : ¬ f.names <+: path.names := fun hp => hcovers.2 ⟨hpresent, hp⟩
    have habove : ¬ path.names <+: f.names := fun hp => hcrosses.2 ⟨hpresent, hp⟩
    rw [get?_put_of_apart part value hbelow habove]
    exact h.left_out hcovers.1 hcrosses.1

theorem project_append_of_none {f : FieldPath} (hf : record.get? f = none)
    (fields : List FieldPath) : record.project (fields ++ [f]) = record.project fields := by
  rw [project, List.foldl_append, List.foldl_cons, List.foldl_nil, hf, project]

theorem project_append_of_some {f : FieldPath} {value : Json} (hf : record.get? f = some value)
    (fields : List FieldPath) :
    record.project (fields ++ [f]) = (record.project fields).put f value := by
  rw [project, List.foldl_append, List.foldl_cons, List.foldl_nil, hf, project]

theorem restricts_project (record : Record) (fields : List FieldPath) :
    Restricts record fields (record.project fields) := by
  induction fields using List.reverseRecOn with
  | nil => exact restricts_empty record
  | append_singleton fields f ih =>
    cases hf : record.get? f with
    | none =>
      rw [project_append_of_none hf]
      exact ih.skip hf
    | some value =>
      rw [project_append_of_some hf]
      exact ih.put hf

/-- On the way to a field that is present the record holds objects. -/
theorem Crosses.get?_eq_object {path : FieldPath} (hcovers : ¬ Covers record fields path)
    (hcrosses : Crosses record fields path) : ∃ whole, record.get? path = some (.object whole) := by
  obtain ⟨f, hf, hpresent, hprefix⟩ := hcrosses
  obtain ⟨value, hvalue⟩ := Option.isSome_iff_exists.mp hpresent
  obtain rfl | ⟨rest, rfl⟩ := names_prefix_iff.mp hprefix
  · exact absurd ⟨_, hf, hpresent, List.prefix_refl _⟩ hcovers
  · exact ⟨_, get?_eq_object_of_append hvalue⟩

/-- At and below the fields that are present a projection holds what the record holds. On the way
to such a field it holds an object, as the record does, and elsewhere it holds nothing. -/
theorem get?_project (record : Record) (fields : List FieldPath) (path : FieldPath) :
    (Covers record fields path → (record.project fields).get? path = record.get? path) ∧
    (¬ Covers record fields path → Crosses record fields path →
      ∃ shown whole, (record.project fields).get? path = some (.object shown) ∧
        record.get? path = some (.object whole)) ∧
    (¬ Covers record fields path → ¬ Crosses record fields path →
      (record.project fields).get? path = none) := by
  have h := restricts_project record fields
  refine ⟨h.kept, fun hcovers hcrosses => ?_, h.left_out⟩
  obtain ⟨shown, hshown⟩ := h.opened hcovers hcrosses
  obtain ⟨whole, hwhole⟩ := Crosses.get?_eq_object hcovers hcrosses
  exact ⟨shown, whole, hshown, hwhole⟩

/-- Of two fields that overlap the longer one takes nothing from the other, in either order; a
field that is absent adds no object, and next to a field nothing is shown. -/
theorem get?_project_overlapping :
    let inner : Record := (Dict.empty.insert "b" (.text "x")).insert "" .null
    let outer : Record := Dict.empty.insert "c" (.object inner)
    let record : Record := (Dict.empty.insert "a" (.object inner)).insert "d" (.object outer)
    let fields := ["a.b", "a", "a.", "d.c.b", "d.e.f", "d.c.b"].map ofText
    (record.project fields).get? (ofText "a") = record.get? (ofText "a") ∧
    (∃ shown whole, (record.project fields).get? (ofText "d.c") = some (.object shown) ∧
      record.get? (ofText "d.c") = some (.object whole)) ∧
    (record.project fields).get? (ofText "d.c.") = none := by
  intro inner outer record fields
  have hcovers : Covers record fields (ofText "a") :=
    ⟨ofText "a", by decide +kernel, by decide +kernel, by decide +kernel⟩
  have hcrosses : Crosses record fields (ofText "d.c") :=
    ⟨ofText "d.c.b", by decide +kernel, by decide +kernel, by decide +kernel⟩
  have hopen : ¬ Covers record fields (ofText "d.c") := by
    unfold Covers
    decide +kernel
  have hbeside : ¬ Covers record fields (ofText "d.c.") := by
    unfold Covers
    decide +kernel
  have hbeside' : ¬ Crosses record fields (ofText "d.c.") := by
    unfold Crosses
    decide +kernel
  exact ⟨(get?_project record fields _).1 hcovers,
    (get?_project record fields _).2.1 hopen hcrosses,
    (get?_project record fields _).2.2 hbeside hbeside'⟩

end RecordQuery.Record
