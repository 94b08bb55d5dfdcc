import RecordQuery.Proofs.Query.Clause
import RecordQuery.Proofs.Text.Form
import RecordQuery.Proofs.Traversal

/-!
# Queries read back as written

Rendering a query and reading it again gives the query exactly when each of its parts can be
written in a clause. Everything the reader makes of an input has that property, so what was
read survives rendering, and its rendering is a canonical form of the input.
-/

namespace RecordQuery

open Text

/-- A query that a query string can say. The window never matters. -/
structure Query.Writable (q : Query) : Prop where
  filters : ∀ f ∈ q.filters, f.Writable
  sorting : ∀ k ∈ q.sorting, k.Writable
  fields : ∀ field ∈ q.fields, WritableField field

instance (q : Query) : Decidable q.Writable :=
  decidable_of_iff
    ((∀ f ∈ q.filters, f.Writable) ∧ (∀ k ∈ q.sorting, k.Writable) ∧
      ∀ field ∈ q.fields, WritableField field)
    ⟨fun ⟨h₁, h₂, h₃⟩ => ⟨h₁, h₂, h₃⟩, fun ⟨h₁, h₂, h₃⟩ => ⟨h₁, h₂, h₃⟩⟩

/-- No two facets share a key. -/
def Keys.Distinct (k : Keys) : Prop := ∀ f g, k.get f = k.get g → f = g

theorem Keys.distinct_default : ({} : Keys).Distinct := by
  intro f g
  cases f <;> cases g <;> decide +kernel

/-! ## Values of facets -/

/-- Looking up a facet among the pairs of some facets finds its text, if it has one. -/
theorem find?_facetPairs {keys : Keys} (distinct : keys.Distinct) (text : Facet → Option String)
    (facets : List Facet) (f : Facet) :
    ((facets.filterMap fun g => (text g).map fun value => (keys.get g, value)).find?
        (·.1 = keys.get f)).map (·.2) = if f ∈ facets then text f else none := by
  induction facets with
  | nil => rfl
  | cons g facets ih =>
    by_cases hg : f = g
    · subst hg
      rw [if_pos List.mem_cons_self]
      cases htext : text f with
      | none =>
        rw [List.filterMap_cons_none (by rw [htext]; rfl), ih, htext]
        exact ite_self none
      | some value =>
        rw [List.filterMap_cons_some (by rw [htext]; rfl), List.find?_cons_of_pos (by simp)]
        rfl
    · have hkey : keys.get g ≠ keys.get f := fun h => hg (distinct g f h).symm
      have hmem : (f ∈ g :: facets) = (f ∈ facets) := by simp [hg]
      simp only [hmem]
      cases htext : text g with
      | none =>
        rw [List.filterMap_cons_none (by rw [htext]; rfl), ih]
      | some value =>
        rw [List.filterMap_cons_some (by rw [htext]; rfl),
          List.find?_cons_of_neg (by simpa using hkey), ih]

namespace QueryFormat

/-- The value that an input gives to a facet. -/
def facetValue? (p : QueryFormat) (input : String) (f : Facet) : Option String :=
  Form.lastValue? (Form.decode (trim input.toList)) (p.keys.get f)

/-- An input is read by the values that it gives to the facets. -/
theorem parse_congr {p : QueryFormat} {input other : String}
    (h : ∀ f, p.facetValue? input f = p.facetValue? other f) : p.parse input = p.parse other := by
  unfold facetValue? at h
  simp only [parse, h]

/-- Rendering gives every facet its text. -/
theorem facetValue?_render {p : QueryFormat} (distinct : p.keys.Distinct) (q : Query) (f : Facet) :
    p.facetValue? (q.render p.keys) f = q.facetText? f := by
  have hf : f ∈ Facet.all.reverse := by cases f <;> decide
  rw [facetValue?, Query.render, String.toList_ofList, Form.trim_encode, Form.decode_encode,
    Form.lastValue?, ← List.filterMap_reverse, find?_facetPairs distinct, if_pos hf]

theorem value_readFilters (texts : List (List Char)) :
    (readFilters texts).value = texts.mapM readFilter := by
  induction texts with
  | nil => rfl
  | cons clause rest ih =>
    rw [List.mapM_cons, readFilters]
    cases readFilter clause with
    | error e => rfl
    | ok f =>
      simp only [Logged.value_bind, Logged.value_pure, ih]
      cases rest.mapM readFilter <;> rfl

/-- The clauses that an input gives to a facet. -/
def facetClauses (p : QueryFormat) (input : String) (f : Facet) : List (List Char) :=
  ((p.facetValue? input f).map clauses).getD []

theorem getD_map_readSorting (value? : Option String) : (value?.map readSorting).getD [] =
    ((value?.map clauses).getD []).filterMap readSortKey? := by
  cases value? <;> rfl

theorem getD_map_readFields (value? : Option String) : (value?.map readFields).getD [] =
    (((value?.map clauses).getD []).filter (· ≠ [])).map String.ofList := by
  cases value? <;> rfl

/-- The facets are read each from its own clauses, and only filters can be wrong. -/
theorem read_eq (p : QueryFormat) (input : String) :
    p.read input =
      ((p.facetClauses input .filter).mapM readFilter).map fun filters =>
        ⟨filters, (p.facetClauses input .sort).filterMap readSortKey?,
          ((p.facetClauses input .fields).filter (· ≠ [])).map String.ofList,
          (p.facetValue? input .limit).map readWindow⟩ := by
  simp only [facetClauses, ← getD_map_readSorting, ← getD_map_readFields, ← value_readFilters]
  unfold read parse facetValue?
  simp only [Logged.value_bind]
  split
  next e he => rw [he]; rfl
  next filters hf => rw [hf]; rfl

theorem isClause_of_mem_facetClauses {p : QueryFormat} {input : String} {f : Facet}
    {clause : List Char} (h : clause ∈ p.facetClauses input f) : IsClause clause := by
  unfold facetClauses at h
  cases hvalue : p.facetValue? input f with
  | none =>
    rw [hvalue] at h
    exact absurd h List.not_mem_nil
  | some value =>
    rw [hvalue] at h
    exact isClause_of_mem_clauses h

/-! ## Writing, then reading -/

/-- A facet that joins texts is read as these texts; without any it is left out. -/
theorem facetClauses_render {p : QueryFormat} (distinct : p.keys.Distinct) {q : Query} {f : Facet}
    {texts : List String}
    (htext : q.facetText? f = if texts.isEmpty then none else some (",".intercalate texts))
    (hclause : ∀ text ∈ texts, IsClause text.toList) :
    p.facetClauses (q.render p.keys) f = texts.map String.toList := by
  rw [facetClauses, facetValue?_render distinct, htext]
  by_cases hempty : texts = []
  · rw [hempty]
    rfl
  · rw [if_neg (by rwa [List.isEmpty_iff]), Option.map_some, Option.getD_some,
      clauses_intercalate hempty hclause]

section

variable {p : QueryFormat} (distinct : p.keys.Distinct) {q : Query} (h : q.Writable)
include distinct h

theorem facetClauses_render_filter : p.facetClauses (q.render p.keys) .filter =
    q.filters.map fun f => f.toText.toList := by
  have htext : q.facetText? .filter = if (q.filters.map Filter.toText).isEmpty then none
      else some (",".intercalate (q.filters.map Filter.toText)) := by
    rw [List.isEmpty_map]
    rfl
  have hclause : ∀ text ∈ q.filters.map Filter.toText, IsClause text.toList :=
    List.forall_mem_map.mpr fun f hf => Filter.isClause_toText (h.filters f hf)
  rw [facetClauses_render distinct htext hclause, List.map_map]
  rfl

theorem facetClauses_render_sort : p.facetClauses (q.render p.keys) .sort =
    q.sorting.map fun k => k.toText.toList := by
  have htext : q.facetText? .sort = if (q.sorting.map SortKey.toText).isEmpty then none
      else some (",".intercalate (q.sorting.map SortKey.toText)) := by
    rw [List.isEmpty_map]
    rfl
  have hclause : ∀ text ∈ q.sorting.map SortKey.toText, IsClause text.toList :=
    List.forall_mem_map.mpr fun k hk => SortKey.isClause_toText (h.sorting k hk)
  rw [facetClauses_render distinct htext hclause, List.map_map]
  rfl

theorem facetClauses_render_fields : p.facetClauses (q.render p.keys) .fields =
    q.fields.map String.toList :=
  facetClauses_render distinct rfl fun field hfield => (h.fields field hfield).clause

end

theorem mapM_readFilter_toText {filters : List Filter} (h : ∀ f ∈ filters, f.Writable) :
    (filters.map fun f => f.toText.toList).mapM readFilter = .ok filters := by
  rw [mapM_eq_ok_iff, List.forall₂_map_left_iff, List.forall₂_same]
  exact fun f hf => readFilter_toText (h f hf)

theorem filterMap_readSortKey?_toText {keys : List SortKey} (h : ∀ k ∈ keys, k.Writable) :
    (keys.map fun k => k.toText.toList).filterMap readSortKey? = keys := by
  induction keys with
  | nil => rfl
  | cons k keys ih =>
    have hrest := ih fun l hl => h l (List.mem_cons_of_mem k hl)
    rw [List.map_cons, List.filterMap_cons_some (readSortKey?_toText (h k List.mem_cons_self)),
      hrest]

theorem filter_toList {fields : List String} (h : ∀ field ∈ fields, WritableField field) :
    ((fields.map String.toList).filter (· ≠ [])).map String.ofList = fields := by
  have hkept : (fields.map String.toList).filter (· ≠ []) = fields.map String.toList := by
    apply List.filter_eq_self.mpr
    exact List.forall_mem_map.mpr fun field hfield =>
      decide_eq_true (toList_ne_nil (h field hfield).ne)
  rw [hkept, map_ofList_toList]

theorem map_readWindow_facetText? (q : Query) :
    (q.facetText? .limit).map readWindow = q.window := by
  rw [Query.facetText?]
  cases q.window with
  | none => rfl
  | some w => rw [Option.map_some, Option.map_some, readWindow_toText]

/-- A query that can be written is read from its rendering. -/
theorem read_render {p : QueryFormat} (distinct : p.keys.Distinct) {q : Query} (h : q.Writable) :
    p.read (q.render p.keys) = .ok q := by
  rw [read_eq, facetClauses_render_filter distinct h, facetClauses_render_sort distinct h,
    facetClauses_render_fields distinct h, facetValue?_render distinct,
    mapM_readFilter_toText h.filters, filterMap_readSortKey?_toText h.sorting,
    filter_toList h.fields, map_readWindow_facetText?]
  rfl

/-! ## What is read -/

/-- What a query that was read consists of. -/
theorem read_eq_ok_iff {p : QueryFormat} {input : String} {q : Query} :
    p.read input = .ok q ↔
      (p.facetClauses input .filter).mapM readFilter = .ok q.filters ∧
      q.sorting = (p.facetClauses input .sort).filterMap readSortKey? ∧
      q.fields = ((p.facetClauses input .fields).filter (· ≠ [])).map String.ofList ∧
      q.window = (p.facetValue? input .limit).map readWindow := by
  rw [read_eq]
  constructor
  · intro h
    cases hfilters : (p.facetClauses input .filter).mapM readFilter with
    | error e =>
      rw [hfilters] at h
      cases h
    | ok filters =>
      rw [hfilters] at h
      simp only [Except.map, Except.ok.injEq] at h
      subst h
      simp only [and_self]
  · rintro ⟨hfilters, hsorting, hfields, hwindow⟩
    rw [hfilters, ← hsorting, ← hfields, ← hwindow]
    rfl

/-- Every query that is read can be written, whatever the input. -/
theorem writable_of_read {p : QueryFormat} {input : String} {q : Query}
    (h : p.read input = .ok q) : q.Writable := by
  obtain ⟨hfilters, hsorting, hfields, -⟩ := read_eq_ok_iff.mp h
  constructor
  · intro f hf
    obtain ⟨clause, hclause, hread⟩ := exists_of_mem_mapM hfilters hf
    exact writable_of_readFilter (isClause_of_mem_facetClauses hclause) hread
  · intro k hk
    rw [hsorting] at hk
    obtain ⟨clause, hclause, hread⟩ := List.mem_filterMap.mp hk
    exact writable_of_readSortKey? (isClause_of_mem_facetClauses hclause) hread
  · intro field hfield
    rw [hfields] at hfield
    obtain ⟨clause, hclause, rfl⟩ := List.mem_map.mp hfield
    obtain ⟨hmem, hne⟩ := List.mem_filter.mp hclause
    constructor
    · exact ofList_ne_empty (of_decide_eq_true hne)
    · rw [String.toList_ofList]
      exact isClause_of_mem_facetClauses hmem

/-! ## Round trips -/

theorem eq_ok_of_toOption {ε α : Type} {result : Except ε α} {a : α}
    (h : result.toOption = some a) : result = .ok a := by
  cases result with
  | error e => cases h
  | ok b => rw [Option.some.inj h]

/-- Exactly the queries that can be written are read from their renderings. -/
theorem read_render_eq_ok_iff {p : QueryFormat} (distinct : p.keys.Distinct) (q : Query) :
    p.read (q.render p.keys) = .ok q ↔ q.Writable :=
  ⟨writable_of_read, read_render distinct⟩

/-- A blank before the equals sign and after the minus comes back, and a leading minus of an
ascending key does not. -/
theorem read_render_blanks_and_minus :
    let p : QueryFormat := default
    let kept : Query := ⟨[⟨"a b ", .ne, " x:y|&+%"⟩], [⟨" -a", .descending⟩], ["é"], some ⟨0, 0⟩⟩
    let lost : Query := ⟨[], [⟨"-a", .ascending⟩], [], none⟩
    p.read (kept.render p.keys) = .ok kept ∧ p.read (lost.render p.keys) ≠ .ok lost :=
  ⟨(read_render_eq_ok_iff Keys.distinct_default _).mpr (by decide +kernel),
    fun h => absurd ((read_render_eq_ok_iff Keys.distinct_default _).mp h) (by decide +kernel)⟩

/-- A query that was read survives rendering, and rendering what is read from its rendering
changes nothing any more. -/
theorem render_canonical {p : QueryFormat} (distinct : p.keys.Distinct) {input : String}
    {q : Query} (h : p.read input = .ok q) :
    p.read (q.render p.keys) = .ok q ∧
      (p.read (q.render p.keys)).map (·.render p.keys) = .ok (q.render p.keys) := by
  have hread : p.read (q.render p.keys) = .ok q := read_render distinct (writable_of_read h)
  refine ⟨hread, ?_⟩
  rw [hread]
  rfl

/-- Broken escapes, a repeated key, a filter without an operator and a limit without a count. -/
theorem render_canonical_malformed :
    let p : QueryFormat := default
    let input := " filter=z=1&filter= a%zz =lt: 2%,+b+=c&sort=--x,,-&limit=abc,7&fields=,%C3 "
    let q : Query := ⟨[⟨"a%zz ", .lt, " 2%"⟩, ⟨"b ", .eq, "c"⟩], [⟨"-x", .descending⟩],
      ["\ufffd"], some ⟨0, 7⟩⟩
    p.read input = .ok q ∧ p.read (q.render p.keys) = .ok q ∧
      (p.read (q.render p.keys)).map (·.render p.keys) = .ok (q.render p.keys) := by
  intro p input q
  have hread : p.read input = .ok q := eq_ok_of_toOption (by decide +kernel)
  exact ⟨hread, render_canonical Keys.distinct_default hread⟩

end QueryFormat

end RecordQuery
