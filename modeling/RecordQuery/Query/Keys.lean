import RecordQuery.Query.Error
import RecordQuery.Text.Blank

/-!
# Keys of a query string

Each facet of a query stands under a key whose name can be chosen. Blanks around a name do
not count, and no name may be empty.
-/

namespace RecordQuery

/-- The names under which the facets stand. -/
structure Keys where
  filter : String := "filter"
  sort : String := "sort"
  fields : String := "fields"
  limit : String := "limit"
deriving DecidableEq, Repr, Inhabited

namespace Keys

/-- The key of a facet. -/
def get (k : Keys) : Facet → String
  | .filter => k.filter
  | .sort => k.sort
  | .fields => k.fields
  | .limit => k.limit

/-- The keys without blanks around them. -/
def trimmed (k : Keys) : Keys :=
  ⟨Text.trimmed k.filter, Text.trimmed k.sort, Text.trimmed k.fields, Text.trimmed k.limit⟩

/-- Keys that a query string can be read by: without blanks around them and not empty. -/
def Usable (k : Keys) : Prop := ∀ f, Text.trimmed (k.get f) = k.get f ∧ k.get f ≠ ""

/-- The first facet whose key is blank. -/
def blankFacet? (k : Keys) : Option Facet :=
  Facet.all.find? fun f => Text.trimmed (k.get f) = ""

theorem get_trimmed (k : Keys) (f : Facet) : k.trimmed.get f = Text.trimmed (k.get f) := by
  cases f <;> rfl

/-- Keys none of which is blank are usable once trimmed. -/
theorem usable_trimmed {k : Keys} (h : k.blankFacet? = none) : k.trimmed.Usable := by
  intro f
  have hf : f ∈ Facet.all := by cases f <;> decide
  have hne := List.find?_eq_none.mp h f hf
  simp only [decide_eq_true_eq] at hne
  rw [get_trimmed]
  exact ⟨Text.trimmed_trimmed _, hne⟩

end Keys

end RecordQuery
