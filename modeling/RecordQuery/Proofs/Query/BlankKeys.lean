import RecordQuery.Proofs.Query.RoundTrip

/-!
# Keys with blanks around them

A format reads under its keys without the blanks around them, while rendering writes the keys
as they are given. No key of a format begins or ends with a blank, so what is rendered under a
key that does is found under no key at all: it is read as if the query did not have it, and
nothing is reported.
-/

namespace RecordQuery

open Text

/-! ## Plain queries -/

/-- A text with nothing in it that a clause could mistake. -/
structure PlainText (s : String) : Prop where
  ne : s ≠ ""
  no_comma : ',' ∉ s.toList
  no_equals : '=' ∉ s.toList
  no_blank : ∀ c ∈ s.toList, isBlank c = false
  no_minus : s.toList.head? ≠ some '-'

instance (s : String) : Decidable (PlainText s) :=
  decidable_of_iff
    (s ≠ "" ∧ ',' ∉ s.toList ∧ '=' ∉ s.toList ∧ s.toList.any isBlank = false ∧
      s.toList.head? ≠ some '-')
    ⟨fun ⟨h₁, h₂, h₃, h₄, h₅⟩ => ⟨h₁, h₂, h₃, by simpa using h₄, h₅⟩,
      fun ⟨h₁, h₂, h₃, h₄, h₅⟩ => ⟨h₁, h₂, h₃, by simpa using h₄, h₅⟩⟩

/-- A query that names plain fields and plain values only. -/
structure Query.Plain (q : Query) : Prop where
  filters : ∀ f ∈ q.filters, PlainText f.field ∧ PlainText f.value
  sorting : ∀ k ∈ q.sorting, PlainText k.field
  fields : ∀ field ∈ q.fields, PlainText field

instance (q : Query) : Decidable q.Plain :=
  decidable_of_iff
    ((∀ f ∈ q.filters, PlainText f.field ∧ PlainText f.value) ∧
      (∀ k ∈ q.sorting, PlainText k.field) ∧ ∀ field ∈ q.fields, PlainText field)
    ⟨fun ⟨h₁, h₂, h₃⟩ => ⟨h₁, h₂, h₃⟩, fun ⟨h₁, h₂, h₃⟩ => ⟨h₁, h₂, h₃⟩⟩

theorem Query.Plain.writable {q : Query} (h : q.Plain) : q.Writable := by
  constructor
  · intro f hf
    obtain ⟨hfield, hvalue⟩ := h.filters f hf
    exact ⟨hfield.ne, startsBlank_eq_false hfield.no_blank, ⟨hfield.no_comma, hfield.no_equals⟩,
      hvalue.ne, endsBlank_eq_false hvalue.no_blank, ⟨hvalue.no_comma, hvalue.no_equals⟩⟩
  · intro k hk
    have hfield := h.sorting k hk
    exact ⟨hfield.ne, hfield.no_comma, endsBlank_eq_false hfield.no_blank,
      fun _ => ⟨startsBlank_eq_false hfield.no_blank, hfield.no_minus⟩⟩
  · intro field hmem
    have hfield := h.fields field hmem
    exact ⟨hfield.ne, hfield.no_comma, startsBlank_eq_false hfield.no_blank,
      endsBlank_eq_false hfield.no_blank⟩

/-! ## Facets left out -/

namespace Query

/-- The query with only some of its facets. -/
def restrict (q : Query) (keep : Facet → Bool) : Query where
  filters := if keep .filter then q.filters else []
  sorting := if keep .sort then q.sorting else []
  fields := if keep .fields then q.fields else []
  window := if keep .limit then q.window else none

theorem facetText?_restrict (q : Query) (keep : Facet → Bool) (f : Facet) :
    (q.restrict keep).facetText? f = if keep f then q.facetText? f else none := by
  cases f <;> simp only [facetText?, restrict] <;> split <;> rfl

theorem Writable.restrict {q : Query} (h : q.Writable) (keep : Facet → Bool) :
    (q.restrict keep).Writable := by
  constructor
  · exact fun f hf => h.filters f (by revert hf; simp only [Query.restrict]; split <;> simp)
  · exact fun k hk => h.sorting k (by revert hk; simp only [Query.restrict]; split <;> simp)
  · exact fun s hs => h.fields s (by revert hs; simp only [Query.restrict]; split <;> simp)

theorem eq_empty_of_facetText?_eq_none {q : Query} {f : Facet} (h : q.facetText? f = none) :
    match f with
    | .filter => q.filters = []
    | .sort => q.sorting = []
    | .fields => q.fields = []
    | .limit => q.window = none := by
  cases f <;> simpa [facetText?] using h

/-- Nothing is left out exactly when every facet with content is kept. -/
theorem restrict_eq_self_iff {q : Query} {keep : Facet → Bool} :
    q.restrict keep = q ↔ ∀ f, (q.facetText? f).isSome → keep f = true := by
  constructor
  · intro h f hsome
    have htext := facetText?_restrict q keep f
    rw [h] at htext
    by_cases hkeep : keep f = true
    · exact hkeep
    · rw [if_neg hkeep] at htext
      rw [htext] at hsome
      cases hsome
  · intro h
    have hnone : ∀ f, keep f ≠ true → q.facetText? f = none := fun f hkeep =>
      Option.not_isSome_iff_eq_none.mp fun hsome => hkeep (h f hsome)
    have hfilters : (if keep .filter then q.filters else []) = q.filters :=
      ite_eq_left_iff.mpr fun hk => (eq_empty_of_facetText?_eq_none (hnone .filter hk)).symm
    have hsorting : (if keep .sort then q.sorting else []) = q.sorting :=
      ite_eq_left_iff.mpr fun hk => (eq_empty_of_facetText?_eq_none (hnone .sort hk)).symm
    have hfields : (if keep .fields then q.fields else []) = q.fields :=
      ite_eq_left_iff.mpr fun hk => (eq_empty_of_facetText?_eq_none (hnone .fields hk)).symm
    have hwindow : (if keep .limit then q.window else none) = q.window :=
      ite_eq_left_iff.mpr fun hk => (eq_empty_of_facetText?_eq_none (hnone .limit hk)).symm
    rw [restrict, hfilters, hsorting, hfields, hwindow]

end Query

/-! ## Reading under trimmed keys -/

/-- The key of a facet has no blanks around it. -/
def Keys.isTrimmed (k : Keys) (f : Facet) : Bool := Text.trimmed (k.get f) = k.get f

namespace QueryFormat

theorem keys_of_ofKeys {k : Keys} {p : QueryFormat} (h : ofKeys k = .ok p) :
    p.keys = k.trimmed := by
  unfold ofKeys at h
  split at h
  next => cases h
  next => rw [← Except.ok.inj h]

theorem ofKeys_eq_ok {k : Keys} (h : k.blankFacet? = none) :
    ofKeys k = .ok ⟨k.trimmed, Keys.usable_trimmed h⟩ := by
  unfold ofKeys
  split
  next facet hfacet =>
    rw [h] at hfacet
    cases hfacet
  next => rfl

/-- Two inputs that give every facet the same value are read alike. -/
theorem read_congr {p : QueryFormat} {input other : String}
    (h : ∀ f, p.facetValue? input f = p.facetValue? other f) : p.read input = p.read other :=
  congrArg Logged.value (parse_congr h)

section

variable {k : Keys} {p : QueryFormat} (hkeys : p.keys = k.trimmed) (distinct : p.keys.Distinct)
include hkeys distinct

theorem distinct_of_trimmed : k.Distinct := by
  intro f g h
  apply distinct
  rw [hkeys, Keys.get_trimmed, Keys.get_trimmed, h]

/-- A facet that is rendered under a key with blanks around it has no value. -/
theorem facetValue?_render_keys (q : Query) (f : Facet) :
    p.facetValue? (q.render k) f = if k.isTrimmed f then q.facetText? f else none := by
  have hf : f ∈ Facet.all.reverse := by cases f <;> decide
  have hname : p.keys.get f = Text.trimmed (k.get f) := by rw [hkeys, Keys.get_trimmed]
  rw [facetValue?, Query.render, String.toList_ofList, Form.trim_encode, Form.decode_encode,
    Form.lastValue?, ← List.filterMap_reverse, hname]
  cases hkey : k.isTrimmed f with
  | true =>
    have htrimmed : Text.trimmed (k.get f) = k.get f := of_decide_eq_true hkey
    rw [htrimmed, find?_facetPairs (distinct_of_trimmed hkeys distinct), if_pos hf, if_pos rfl]
  | false =>
    have htrimmed : Text.trimmed (k.get f) ≠ k.get f := of_decide_eq_false hkey
    rw [if_neg Bool.false_ne_true, Option.map_eq_none_iff, List.find?_eq_none]
    intro pair hpair hmatch
    obtain ⟨g, -, hg⟩ := List.mem_filterMap.mp hpair
    obtain ⟨value, -, rfl⟩ := Option.map_eq_some_iff.mp hg
    -- A written key that equals the trimmed one is itself trimmed, and no other facet has it.
    have hget : k.get g = Text.trimmed (k.get f) := of_decide_eq_true hmatch
    have hsame : g = f := by
      apply distinct
      rw [hkeys, Keys.get_trimmed, Keys.get_trimmed, hget, Text.trimmed_trimmed]
    exact htrimmed (by rw [← hget, hsame])

/-- What is read is the query without the facets whose keys have blanks around them. -/
theorem read_render_restrict {q : Query} (h : q.Writable) :
    p.read (q.render k) = .ok (q.restrict k.isTrimmed) := by
  have hread : p.read (q.render k) = p.read ((q.restrict k.isTrimmed).render p.keys) := by
    apply read_congr
    intro f
    rw [facetValue?_render_keys hkeys distinct, facetValue?_render distinct,
      Query.facetText?_restrict]
  rw [hread, read_render distinct (h.restrict _)]

end

/-- A plain query that is rendered under some keys comes back, under the format they make,
exactly when no key that was written has blanks around it. The facets under the other keys are
missing from what is read. -/
theorem read_render_keys {k : Keys} {p : QueryFormat} (hp : ofKeys k = .ok p)
    (distinct : k.trimmed.Distinct) {q : Query} (plain : q.Plain) :
    p.read (q.render k) = .ok (q.restrict k.isTrimmed) ∧
      (p.read (q.render k) = .ok q ↔
        ∀ f, (q.facetText? f).isSome → Text.trimmed (k.get f) = k.get f) := by
  have hkeys := keys_of_ofKeys hp
  have hread := read_render_restrict hkeys (hkeys ▸ distinct) plain.writable
  refine ⟨hread, ?_⟩
  rw [hread, Except.ok.injEq, Query.restrict_eq_self_iff]
  simp only [Keys.isTrimmed, decide_eq_true_eq]

/-- The filter and the sort key come back, and the field under the key with a blank does not. -/
theorem read_render_keys_blank :
    let k : Keys := { filter := "where", fields := " fields" }
    let q : Query := ⟨[⟨"age", .ge, "30"⟩], [⟨"name", .descending⟩], ["name"], none⟩
    ∃ p, ofKeys k = .ok p ∧ k.trimmed.Distinct ∧ q.Plain ∧
      p.read (q.render k) = .ok { q with fields := [] } ∧
      (p.read (q.render k) = .ok q ↔
        ∀ f, (q.facetText? f).isSome → Text.trimmed (k.get f) = k.get f) := by
  intro k q
  have hp := @ofKeys_eq_ok k (by decide +kernel)
  have distinct : k.trimmed.Distinct := by
    intro f g
    cases f <;> cases g <;> decide +kernel
  have plain : q.Plain := by decide +kernel
  have hrestrict : q.restrict k.isTrimmed = { q with fields := [] } := by decide +kernel
  obtain ⟨hread, hiff⟩ := read_render_keys hp distinct plain
  rw [hrestrict] at hread
  exact ⟨_, hp, distinct, plain, hread, hiff⟩

/-- A filter under a key with blanks around it is not read back. -/
theorem filter_lost_under_blank_key :
    let k : Keys := { filter := " filter " }
    let q : Query := ⟨[⟨"x", .eq, "1"⟩], [], [], none⟩
    ∃ p, ofKeys k = .ok p ∧ k.trimmed.Distinct ∧ q.Plain ∧ p.read (q.render k) = .ok {} ∧
      p.read (q.render k) ≠ .ok q := by
  intro k q
  have hp := @ofKeys_eq_ok k (by decide +kernel)
  have htrimmed : k.trimmed = {} := by decide +kernel
  have distinct : k.trimmed.Distinct := htrimmed ▸ Keys.distinct_default
  have plain : q.Plain := by decide +kernel
  have hrestrict : q.restrict k.isTrimmed = {} := by decide +kernel
  have hread := read_render_restrict (keys_of_ofKeys hp) distinct plain.writable
  rw [hrestrict] at hread
  refine ⟨_, hp, distinct, plain, hread, ?_⟩
  rw [hread]
  exact fun h => absurd (Except.ok.inj h) (by decide +kernel)

end QueryFormat

end RecordQuery
