import Mathlib.Data.List.TakeWhile
import RecordQuery.Proofs.Query.RoundTrip

/-!
# The grammar of query strings

A filter clause is `<field>=[<operator>:]<value>`, and a sort clause is `[-]<field>`. A query
string is read exactly when all of its filter clauses have that form, and then every clause gives
what it says, in order. Otherwise the error is that of the first clause that is wrong. The other
facets are never wrong.
-/

namespace RecordQuery

open Text

/-! ## What clauses say -/

/-- What follows the equals sign: a value without a colon, for equality, or the token of an
operator, a colon and any value. -/
inductive IsComparison : List Char → Operator → List Char → Prop
  | equality {value : List Char} (no_colon : ':' ∉ value) : IsComparison value .eq value
  | named (operator : Operator) (value : List Char) :
      IsComparison (operator.token.toList ++ ':' :: value) operator value

/-- The clause has one equals sign, a field before it and a comparison with some value after. -/
structure Filter.SaidBy (f : Filter) (clause : List Char) : Prop where
  one_equals : clause.count '=' = 1
  field_ne : f.field ≠ ""
  value_ne : f.value ≠ ""
  parts : ∃ comparison, clause = f.field.toList ++ '=' :: comparison ∧
    IsComparison comparison f.operator f.value.toList

/-- One leading minus asks for the descending order and belongs to no field. -/
inductive SortKey.SaidBy : SortKey → List Char → Prop
  | ascending {field : List Char} (field_ne : field ≠ []) (no_minus : field.head? ≠ some '-') :
      SaidBy ⟨String.ofList field, .ascending⟩ field
  | descending {field : List Char} (field_ne : field ≠ []) :
      SaidBy ⟨String.ofList field, .descending⟩ ('-' :: field)

/-! ## What is wrong with a filter clause -/

/-- There is not exactly one equals sign, or nothing before it. -/
def Misshapen (clause : List Char) : Prop := clause.count '=' ≠ 1 ∨ clause.head? = some '='

/-- What stands before the first colon after the equals sign is no operator. -/
def NamesNoOperator (clause token : List Char) : Prop :=
  ∃ field value, clause = field ++ '=' :: (token ++ ':' :: value) ∧ '=' ∉ field ∧ ':' ∉ token ∧
    ∀ operator : Operator, operator.token.toList ≠ token

/-- Nothing follows the equals sign, or the first colon after it. -/
def HasNoValue (clause field : List Char) : Prop :=
  ∃ comparison, clause = field ++ '=' :: comparison ∧ '=' ∉ field ∧
    (comparison = [] ∨ ∃ token, comparison = token ++ [':'] ∧ ':' ∉ token)

/-- What is wrong with a clause. Its form is looked at first, then its operator and last its
value. -/
inductive Wrong (clause : List Char) : QueryError → Prop
  | form (misshapen : Misshapen clause) : Wrong clause (.invalidFilter (String.ofList clause))
  | operator {token : List Char} (shaped : ¬ Misshapen clause)
      (unknown : NamesNoOperator clause token) :
      Wrong clause (.unknownOperator (String.ofList token))
  | value {field : List Char} (shaped : ¬ Misshapen clause)
      (known : ∀ token, ¬ NamesNoOperator clause token) (missing : HasNoValue clause field) :
      Wrong clause (.emptyValue (String.ofList field))

theorem count_equals_eq_one_iff {field comparison : List Char} :
    (field ++ '=' :: comparison).count '=' = 1 ↔ '=' ∉ field ∧ '=' ∉ comparison := by
  rw [List.count_append, List.count_cons_self, ← List.count_eq_zero, ← List.count_eq_zero]
  omega

/-- A clause that is not misshapen has a field, and no other equals sign. -/
theorem parts_of_not_misshapen {clause : List Char} (h : ¬ Misshapen clause) :
    ∃ field comparison, clause = field ++ '=' :: comparison ∧ field ≠ [] ∧
      '=' ∉ field ∧ '=' ∉ comparison := by
  obtain ⟨hcount, hhead⟩ := not_or.mp h
  have hcount : clause.count '=' = 1 := Decidable.not_not.mp hcount
  have hmem : '=' ∈ clause := List.count_pos_iff.mp (by omega)
  obtain ⟨field, comparison, rfl, -⟩ := List.eq_append_cons_of_mem hmem
  refine ⟨field, comparison, rfl, ?_, count_equals_eq_one_iff.mp hcount⟩
  rintro rfl
  exact hhead rfl

theorem misshapen_iff {field comparison : List Char} (hf : '=' ∉ field) :
    Misshapen (field ++ '=' :: comparison) ↔ field = [] ∨ '=' ∈ comparison := by
  have hcount : (field ++ '=' :: comparison).count '=' = 1 ↔ _ := count_equals_eq_one_iff
  have hhead : (field ++ '=' :: comparison).head? = some '=' ↔ field = [] := by
    cases field with
    | nil => simp
    | cons c field =>
      have hc : c ≠ '=' := fun he => hf (he ▸ List.mem_cons_self)
      simp [hc]
  rw [Misshapen, hhead, Ne, hcount]
  grind

namespace Operator

theorem ofToken?_eq_some_iff {token : List Char} {o : Operator} :
    ofToken? (String.ofList token) = some o ↔ o.token.toList = token := by
  constructor
  · intro h
    have htoken := List.find?_some h
    rw [of_decide_eq_true htoken, String.toList_ofList]
  · rintro rfl
    rw [String.ofList_toList, ofToken?_token]

theorem ofToken?_eq_none_iff {token : List Char} :
    ofToken? (String.ofList token) = none ↔ ∀ o : Operator, o.token.toList ≠ token := by
  rw [Option.eq_none_iff_forall_ne_some]
  exact forall_congr' fun o => not_congr ofToken?_eq_some_iff

end Operator

namespace QueryFormat

/-! ## Reading one clause -/

theorem readComparison_of_isComparison {cs value : List Char} {o : Operator}
    (h : IsComparison cs o value) : readComparison cs = .ok (o, value) := by
  cases h with
  | equality no_colon =>
    have hnone : splitFirst? ':' cs = none := by
      have hall : ∀ c ∈ cs, (c != ':') = true :=
        fun c hc => bne_iff_ne.mpr fun he => no_colon (he ▸ hc)
      have hdrop : cs.dropWhile (· != ':') = [] := List.dropWhile_eq_nil_iff.mpr hall
      rw [splitFirst?, hdrop]
    rw [readComparison, hnone]
  | named => exact readComparison_token o value

theorem readComparison_of_unknown {token : List Char} (hcolon : ':' ∉ token)
    (h : ∀ o : Operator, o.token.toList ≠ token) (value : List Char) :
    readComparison (token ++ ':' :: value) = .error (.unknownOperator (String.ofList token)) := by
  rw [readComparison, splitFirst?_append hcolon]
  simp only [Operator.ofToken?_eq_none_iff.mpr h]

theorem readFilter_of_saidBy {clause : List Char} {f : Filter} (h : f.SaidBy clause) :
    readFilter clause = .ok f := by
  obtain ⟨comparison, rfl, hcomparison⟩ := h.parts
  obtain ⟨hf, hc⟩ := count_equals_eq_one_iff.mp h.one_equals
  rw [readFilter_eq_match (toList_ne_nil h.field_ne) hf hc,
    readComparison_of_isComparison hcomparison]
  dsimp only
  rw [if_neg (toList_ne_nil h.value_ne), String.ofList_toList, String.ofList_toList]

theorem readFilter_of_misshapen {clause : List Char} (h : Misshapen clause) :
    readFilter clause = .error (.invalidFilter (String.ofList clause)) := by
  unfold readFilter
  split
  next field comparison hsplit =>
    have hpieces : ∀ piece ∈ [field, comparison], '=' ∉ piece :=
      fun piece hpiece => not_mem_of_mem_splitOn (hsplit ▸ hpiece)
    have hf := hpieces field (by simp)
    have hc := hpieces comparison (by simp)
    rw [eq_of_splitOn_eq_pair hsplit, misshapen_iff hf] at h
    rw [if_pos (h.resolve_right hc)]
  next => rfl

theorem readFilter_of_wrong {clause : List Char} {e : QueryError} (h : Wrong clause e) :
    readFilter clause = .error e := by
  cases h with
  | form misshapen => exact readFilter_of_misshapen misshapen
  | @operator token shaped unknown =>
    obtain ⟨field, value, rfl, hf, htoken, hunknown⟩ := unknown
    obtain ⟨hfield, hc⟩ := not_or.mp ((misshapen_iff hf).not.mp shaped)
    rw [readFilter_eq_match hfield hf hc, readComparison_of_unknown htoken hunknown]
  | @value field shaped known missing =>
    obtain ⟨comparison, rfl, hf, hmissing⟩ := missing
    obtain ⟨hfield, hc⟩ := not_or.mp ((misshapen_iff hf).not.mp shaped)
    have hread : ∃ operator, readComparison comparison = .ok (operator, []) := by
      rcases hmissing with rfl | ⟨token, rfl, htoken⟩
      · exact ⟨.eq, rfl⟩
      · -- The token is an operator's, since an unknown one would be what is wrong.
        have hknown : ∃ o : Operator, o.token.toList = token := by
          by_contra hno
          exact known token ⟨field, [], rfl, hf, htoken, not_exists.mp hno⟩
        obtain ⟨operator, rfl⟩ := hknown
        exact ⟨operator, readComparison_token operator []⟩
    obtain ⟨operator, hread⟩ := hread
    rw [readFilter_eq_match hfield hf hc, hread]
    rfl

/-- Every clause says a filter or is wrong in some way. -/
theorem saidBy_or_wrong (clause : List Char) :
    (∃ f : Filter, f.SaidBy clause) ∨ ∃ e, Wrong clause e := by
  -- The cases are asked in the order in which the errors take precedence.
  by_cases hshape : Misshapen clause
  · exact .inr ⟨_, .form hshape⟩
  by_cases hknown : ∃ token, NamesNoOperator clause token
  · obtain ⟨token, hunknown⟩ := hknown
    exact .inr ⟨_, .operator hshape hunknown⟩
  have hknown := not_exists.mp hknown
  obtain ⟨field, comparison, rfl, hfield, hf, hc⟩ := parts_of_not_misshapen hshape
  have hcount := count_equals_eq_one_iff.mpr ⟨hf, hc⟩
  by_cases hcolon : ':' ∈ comparison
  · obtain ⟨token, value, rfl, htoken⟩ := List.eq_append_cons_of_mem hcolon
    have hoperator : ∃ o : Operator, o.token.toList = token := by
      by_contra hno
      exact hknown token ⟨field, value, rfl, hf, htoken, not_exists.mp hno⟩
    obtain ⟨operator, rfl⟩ := hoperator
    by_cases hvalue : value = []
    · subst hvalue
      exact .inr ⟨_, .value hshape hknown ⟨_, rfl, hf, .inr ⟨_, rfl, htoken⟩⟩⟩
    · refine .inl ⟨⟨String.ofList field, operator, String.ofList value⟩, hcount,
        ofList_ne_empty hfield, ofList_ne_empty hvalue, _, ?_, .named operator _⟩
      simp only [String.toList_ofList]
  · by_cases hvalue : comparison = []
    · exact .inr ⟨_, .value hshape hknown ⟨comparison, rfl, hf, .inl hvalue⟩⟩
    · refine .inl ⟨⟨String.ofList field, .eq, String.ofList comparison⟩, hcount,
        ofList_ne_empty hfield, ofList_ne_empty hvalue, comparison, ?_, ?_⟩
      · simp only [String.toList_ofList]
      · simpa only [String.toList_ofList] using IsComparison.equality hcolon

theorem readFilter_eq_ok_iff {clause : List Char} {f : Filter} :
    readFilter clause = .ok f ↔ f.SaidBy clause := by
  refine ⟨fun h => ?_, readFilter_of_saidBy⟩
  rcases saidBy_or_wrong clause with ⟨g, hg⟩ | ⟨e, he⟩
  · rwa [← Except.ok.inj ((readFilter_of_saidBy hg).symm.trans h)]
  · cases (readFilter_of_wrong he).symm.trans h

theorem readFilter_eq_error_iff {clause : List Char} {e : QueryError} :
    readFilter clause = .error e ↔ Wrong clause e := by
  refine ⟨fun h => ?_, readFilter_of_wrong⟩
  rcases saidBy_or_wrong clause with ⟨f, hf⟩ | ⟨e', he⟩
  · cases (readFilter_of_saidBy hf).symm.trans h
  · rwa [← Except.error.inj ((readFilter_of_wrong he).symm.trans h)]

theorem readSortKey?_eq_some_iff {clause : List Char} {k : SortKey} :
    readSortKey? clause = some k ↔ k.SaidBy clause := by
  constructor
  · intro h
    unfold readSortKey? at h
    split at h
    next => cases h
    next => cases h
    next field hne =>
      obtain rfl := Option.some.inj h
      exact .descending fun he => hne (by rw [he])
    next hempty hsingle hminus =>
      obtain rfl := Option.some.inj h
      refine .ascending hempty fun hhead => ?_
      obtain ⟨rest, hrest⟩ := List.head?_eq_some_iff.mp hhead
      exact hminus rest hrest
  · rintro (⟨field_ne, no_minus⟩ | field_ne)
    · unfold readSortKey?
      split <;> simp_all
    · obtain ⟨c, cs, rfl⟩ := List.exists_cons_of_ne_nil field_ne
      rfl

/-- Only an empty clause and a bare minus say no sort key. -/
theorem isSome_readSortKey? (clause : List Char) :
    (readSortKey? clause).isSome = decide (clause ≠ [] ∧ clause ≠ ['-']) := by
  unfold readSortKey?
  split <;> simp_all

/-! ## Reading a query string -/

theorem read_eq_error_iff {p : QueryFormat} {input : String} {e : QueryError} :
    p.read input = .error e ↔ (p.facetClauses input .filter).mapM readFilter = .error e := by
  rw [read_eq]
  cases (p.facetClauses input .filter).mapM readFilter <;> simp [Except.map]

/-- No facet but the filters can make the reading of a query fail. -/
theorem exists_read_eq_ok_iff {p : QueryFormat} {input : String} :
    (∃ q, p.read input = .ok q) ↔
      ∀ clause ∈ p.facetClauses input .filter, ∃ f, readFilter clause = .ok f := by
  rw [read_eq, ← exists_mapM_eq_ok_iff]
  cases (p.facetClauses input .filter).mapM readFilter <;> simp [Except.map]

theorem forall_mem_facetClauses_iff {p : QueryFormat} {input : String} {f : Facet}
    {P : List Char → Prop} :
    (∀ clause ∈ p.facetClauses input f, P clause) ↔
      ∀ raw, p.facetValue? input f = some raw → ∀ clause ∈ clauses raw, P clause := by
  unfold facetClauses
  cases p.facetValue? input f <;> simp

theorem mapM_readFilter_eq_ok_iff {texts : List (List Char)} {filters : List Filter} :
    texts.mapM readFilter = .ok filters ↔
      List.Forall₂ (fun clause f => Filter.SaidBy f clause) texts filters := by
  simp only [mapM_eq_ok_iff, readFilter_eq_ok_iff]

theorem mapM_readFilter_eq_error_iff {texts : List (List Char)} {e : QueryError} :
    texts.mapM readFilter = .error e ↔
      ∃ before clause after, texts = before ++ clause :: after ∧
        (∀ c ∈ before, ∃ f : Filter, f.SaidBy c) ∧ Wrong clause e := by
  simp only [mapM_eq_error_iff, readFilter_eq_ok_iff, readFilter_eq_error_iff]

theorem filterMap_readSortKey?_eq_iff {texts : List (List Char)} {keys : List SortKey} :
    keys = texts.filterMap readSortKey? ↔
      List.Forall₂ (fun clause k => SortKey.SaidBy k clause)
        (texts.filter fun clause => clause ≠ [] ∧ clause ≠ ['-']) keys := by
  rw [eq_comm, filterMap_eq_iff]
  simp only [isSome_readSortKey?, readSortKey?_eq_some_iff]

theorem fields_eq_map_ofList_iff {fields : List String} {texts : List (List Char)} :
    fields = texts.map String.ofList ↔ fields.map String.toList = texts := by
  constructor
  · rintro rfl
    have hid : String.toList ∘ String.ofList = id := funext fun cs => String.toList_ofList
    rw [List.map_map, hid, List.map_id]
  · rintro rfl
    exact (map_ofList_toList fields).symm

/-- A query string is read exactly when each of its filter clauses says a filter. The query then
holds what the clauses of each facet say, in order. Otherwise the error tells what is wrong with
the first clause that says no filter. -/
theorem read_iff_grammar (p : QueryFormat) (input : String) :
    ((∃ q, p.read input = .ok q) ↔
      ∀ raw, p.facetValue? input .filter = some raw →
        ∀ clause ∈ clauses raw, ∃ f : Filter, f.SaidBy clause) ∧
    (∀ q, p.read input = .ok q ↔
      List.Forall₂ (fun clause f => Filter.SaidBy f clause)
        (p.facetClauses input .filter) q.filters ∧
      List.Forall₂ (fun clause k => SortKey.SaidBy k clause)
        ((p.facetClauses input .sort).filter fun clause => clause ≠ [] ∧ clause ≠ ['-'])
        q.sorting ∧
      q.fields.map String.toList = (p.facetClauses input .fields).filter (· ≠ []) ∧
      q.window = (p.facetValue? input .limit).map readWindow) ∧
    ∀ e, p.read input = .error e ↔
      ∃ before clause after, p.facetClauses input .filter = before ++ clause :: after ∧
        (∀ c ∈ before, ∃ f : Filter, f.SaidBy c) ∧ Wrong clause e := by
  refine ⟨?_, fun q => ?_, fun e => ?_⟩
  · rw [exists_read_eq_ok_iff, forall_mem_facetClauses_iff]
    simp only [readFilter_eq_ok_iff]
  · rw [read_eq_ok_iff, mapM_readFilter_eq_ok_iff, filterMap_readSortKey?_eq_iff,
      fields_eq_map_ofList_iff]
  · rw [read_eq_error_iff, mapM_readFilter_eq_error_iff]

/-- A blank stays in front of an equals sign and colons stay in a value. Of an unknown operator
without a value the operator is reported, and clauses after it do not matter. -/
theorem read_iff_grammar_first_fault :
    let p : QueryFormat := default
    let accepted :=
      " filter=z&filter= a =lt:2:3 ,b=%3D&filter= a =lt:2:3,b=c &sort=-,--x,,y&limit=?"
    let refused := "filter=a=1,b=x:,=y:2,c=&sort=,"
    p.read accepted = .ok ⟨[⟨"a ", .lt, "2:3"⟩, ⟨"b", .eq, "c"⟩],
      [⟨"-x", .descending⟩, ⟨"y", .ascending⟩], [], some ⟨0, 0⟩⟩ ∧
    p.read refused = .error (.unknownOperator "x") := by
  intro p accepted refused
  constructor
  · have hfilter : p.facetClauses accepted .filter = ["a =lt:2:3".toList, "b=c".toList] := by
      decide +kernel
    have hsort : (p.facetClauses accepted .sort).filter (fun clause => clause ≠ [] ∧
        clause ≠ ['-']) = ['-' :: "-x".toList, "y".toList] := by decide +kernel
    refine ((read_iff_grammar p accepted).2.1 _).mpr ⟨?_, ?_, by decide +kernel, by decide +kernel⟩
    · rw [hfilter]
      exact .cons ⟨by decide, by decide, by decide, "lt:2:3".toList, rfl, .named .lt _⟩
        (.cons ⟨by decide, by decide, by decide, "c".toList, rfl, .equality (by decide)⟩ .nil)
    · rw [hsort]
      exact .cons (.descending (by decide)) (.cons (.ascending (by decide) (by decide)) .nil)
  · have hfilter : p.facetClauses refused .filter =
        ["a=1".toList] ++ "b=x:".toList :: ["=y:2".toList, "c=".toList] := by decide +kernel
    refine ((read_iff_grammar p refused).2.2 _).mpr ⟨_, _, _, hfilter, ?_, ?_⟩
    · rw [List.forall_mem_singleton]
      exact ⟨⟨"a", .eq, "1"⟩, by decide, by decide, by decide, "1".toList, rfl,
        .equality (by decide)⟩
    · refine .operator ?_ ⟨['b'], [], rfl, by decide, by decide, fun operator => ?_⟩
      · rintro (h | h) <;> exact absurd h (by decide)
      · cases operator <;> decide

end QueryFormat

end RecordQuery
