import Mathlib.Data.List.Basic
import RecordQuery.Proofs.Record.Projection

/-!
# Projecting again

What a projection shows is settled by the record and the set of its fields: a record is determined
by what is read at its paths, objects being told apart by what is below them. A second projection
that goes no further than the first one shows what it would show of the whole record.
-/

namespace RecordQuery

theorem Dict.Entries.sizeOf_lt_of_get? {α : Type} [SizeOf α] {low : Option String}
    {d : Dict.Entries α low} {key : String} {v : α} (h : d.get? key = some v) :
    sizeOf v < sizeOf d := by
  induction d with
  | nil => cases h
  | cons first above value rest ih =>
    rw [get?] at h
    rw [cons.sizeOf_spec]
    split at h
    next =>
      cases h
      omega
    next =>
      have hrest := ih h
      omega

namespace Record

open FieldPath

theorem sizeOf_lt_of_object {record object : Record} {name : String}
    (h : Dict.Entries.get? record name = some (.object object)) :
    sizeOf object < sizeOf record := by
  have hvalue := Dict.Entries.sizeOf_lt_of_get? h
  rw [Json.object.sizeOf_spec] at hvalue
  omega

/-- Two records hold the same at a path, as far as objects need not be looked into. -/
def AgreeAt (a b : Record) (path : FieldPath) : Prop :=
  a.get? path = b.get? path ∨
    ∃ x y, a.get? path = some (.object x) ∧ b.get? path = some (.object y)

theorem child_of_object {record object : Record} {name : String}
    (h : Dict.Entries.get? record name = some (.object object)) : record.child name = object := by
  rw [child, h]
  rfl

/-- Records that agree at every path are the same. -/
theorem eq_of_agreeAt {a b : Record} (h : ∀ path, AgreeAt a b path) : a = b := by
  -- Down the nested objects: below a name the records agree at every path that goes on from it.
  apply Dict.ext
  intro name
  rcases h (.field name) with hsame | ⟨x, y, hx, hy⟩
  · exact hsame
  · rw [get?_field] at hx hy
    have hxy : x = y := eq_of_agreeAt fun path => by
      have hbelow := h (.within name path)
      rwa [AgreeAt, get?_within, get?_within, child_of_object hx, child_of_object hy] at hbelow
    rw [hx, hy, hxy]
termination_by sizeOf a
decreasing_by exact sizeOf_lt_of_object hx

/-- A record and the fields asked for leave no choice in what is shown. -/
theorem Restricts.unique {record part other : Record} {fields : List FieldPath}
    (h : Restricts record fields part) (h' : Restricts record fields other) : part = other := by
  refine eq_of_agreeAt fun path => ?_
  by_cases hcovers : Covers record fields path
  · exact .inl ((h.kept hcovers).trans (h'.kept hcovers).symm)
  by_cases hcrosses : Crosses record fields path
  · obtain ⟨x, hx⟩ := h.opened hcovers hcrosses
    obtain ⟨y, hy⟩ := h'.opened hcovers hcrosses
    exact .inr ⟨x, y, hx, hy⟩
  · exact .inl ((h.left_out hcovers hcrosses).trans (h'.left_out hcovers hcrosses).symm)

theorem Restricts.congr_mem {record part : Record} {fields others : List FieldPath}
    (h : Restricts record fields part) (hmem : ∀ f, f ∈ others ↔ f ∈ fields) :
    Restricts record others part :=
  h.congr (fun _ => exists_congr fun f => and_congr_left fun _ => hmem f)
    (fun _ => exists_congr fun f => and_congr_left fun _ => hmem f)

theorem project_congr {a b : Record} {fields : List FieldPath}
    (h : ∀ f ∈ fields, a.get? f = b.get? f) : a.project fields = b.project fields :=
  List.foldl_ext _ _ _ fun _ f hf => by rw [h f hf]

theorem isSome_get?_above {record : Record} {p q : FieldPath} (hbegins : p.names <+: q.names)
    (hq : (record.get? q).isSome) : (record.get? p).isSome := by
  obtain rfl | ⟨rest, rfl⟩ := names_prefix_iff.mp hbegins
  · exact hq
  · obtain ⟨value, hvalue⟩ := Option.isSome_iff_exists.mp hq
    rw [get?_eq_object_of_append hvalue]
    rfl

/-- At a field and below it a projection reads as the record does, also where nothing is found. -/
theorem get?_project_below (record : Record) {fields : List FieldPath} {f g : FieldPath}
    (hf : f ∈ fields) (hbegins : f.names <+: g.names) :
    (record.project fields).get? g = record.get? g := by
  have hproject := restricts_project record fields
  by_cases hcovers : Covers record fields g
  · exact hproject.kept hcovers
  have habsent : ¬ (record.get? g).isSome := fun hg =>
    hcovers ⟨f, hf, isSome_get?_above hbegins hg, hbegins⟩
  have hcrosses : ¬ Crosses record fields g := fun ⟨_, _, hpresent, hlonger⟩ =>
    habsent (isSome_get?_above hlonger hpresent)
  rw [hproject.left_out hcovers hcrosses, Option.not_isSome_iff_eq_none.mp habsent]

/-- The order of the fields and their repetition do not matter, and fields at or below those of a
projection can be read off it: in particular projecting twice is projecting once. -/
theorem project_narrow (record : Record) (fields : List FieldPath) :
    (∀ others : List FieldPath, (∀ f, f ∈ others ↔ f ∈ fields) →
      record.project others = record.project fields) ∧
    (∀ narrower : List FieldPath, (∀ g ∈ narrower, ∃ f ∈ fields, f.names <+: g.names) →
      (record.project fields).project narrower = record.project narrower) ∧
    (record.project fields).project fields = record.project fields := by
  have hnarrower : ∀ narrower : List FieldPath,
      (∀ g ∈ narrower, ∃ f ∈ fields, f.names <+: g.names) →
      (record.project fields).project narrower = record.project narrower := by
    intro narrower h
    refine project_congr fun g hg => ?_
    obtain ⟨f, hf, hbegins⟩ := h g hg
    exact get?_project_below record hf hbegins
  refine ⟨fun others hmem => ?_, hnarrower, ?_⟩
  · exact (restricts_project record others).unique
      ((restricts_project record fields).congr_mem hmem)
  · exact hnarrower fields fun f hf => ⟨f, hf, List.prefix_refl _⟩

/-- Fields that overlap, in another order and one of them twice; a field below one of them that is
absent, and one that is not an object. -/
theorem project_narrow_overlapping :
    let inner : Record := (Dict.empty.insert "b" (.text "x")).insert "c" .null
    let record : Record := (Dict.empty.insert "a" (.object inner)).insert "d" (.text "y")
    let fields := ["a.b", "a", "d"].map ofText
    let others := ["d", "a", "a.b", "a"].map ofText
    let narrower := ["a.c", "d.e", "a.b.f"].map ofText
    ((∀ f, f ∈ others ↔ f ∈ fields) ∧ record.project others = record.project fields) ∧
    ((∀ g ∈ narrower, ∃ f ∈ fields, f.names <+: g.names) ∧
      (record.project fields).project narrower =
        Dict.empty.insert "a" (.object (Dict.empty.insert "c" .null))) := by
  intro inner record fields others narrower
  have hmem : ∀ f, f ∈ others ↔ f ∈ fields := by
    have hsubset : others ⊆ fields ∧ fields ⊆ others := by decide +kernel
    exact fun f => ⟨fun hf => hsubset.1 hf, fun hf => hsubset.2 hf⟩
  have hnarrower : ∀ g ∈ narrower, ∃ f ∈ fields, f.names <+: g.names := by decide +kernel
  obtain ⟨hothers, hproject, -⟩ := project_narrow record fields
  refine ⟨⟨hmem, hothers others hmem⟩, hnarrower, ?_⟩
  rw [hproject narrower hnarrower]
  rfl

end Record

end RecordQuery
