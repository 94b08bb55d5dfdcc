import RecordQuery.Proofs.Text.Blank
import RecordQuery.Proofs.Text.DigitRun
import RecordQuery.Proofs.Text.Pieces
import RecordQuery.Query.Format
import RecordQuery.Query.Rendering

/-!
# Clauses of a query string

What stands between two commas is trimmed before it is read. For each kind of clause there are
two directions: what the reader makes of any clause can be written, and whatever can be written
is read as it was. The conditions differ from kind to kind, because only the ends of a clause
are trimmed: a blank may stand before an equals sign and after the minus of a sort key.
-/

namespace RecordQuery

open Text

/-! ## What can be written -/

/-- Neither the separators of clauses nor blanks at the ends get lost between commas. -/
structure IsClause (cs : List Char) : Prop where
  no_comma : ',' ∉ cs
  starts : startsBlank cs = false
  ends : endsBlank cs = false

instance (cs : List Char) : Decidable (IsClause cs) :=
  decidable_of_iff (',' ∉ cs ∧ startsBlank cs = false ∧ endsBlank cs = false)
    ⟨fun ⟨h₁, h₂, h₃⟩ => ⟨h₁, h₂, h₃⟩, fun ⟨h₁, h₂, h₃⟩ => ⟨h₁, h₂, h₃⟩⟩

/-- A filter that a clause can say. -/
structure Filter.Writable (f : Filter) : Prop where
  field_ne : f.field ≠ ""
  field_starts : startsBlank f.field.toList = false
  field_plain : ',' ∉ f.field.toList ∧ '=' ∉ f.field.toList
  value_ne : f.value ≠ ""
  value_ends : endsBlank f.value.toList = false
  value_plain : ',' ∉ f.value.toList ∧ '=' ∉ f.value.toList

instance (f : Filter) : Decidable f.Writable :=
  decidable_of_iff
    (f.field ≠ "" ∧ startsBlank f.field.toList = false ∧
      (',' ∉ f.field.toList ∧ '=' ∉ f.field.toList) ∧
      f.value ≠ "" ∧ endsBlank f.value.toList = false ∧
      (',' ∉ f.value.toList ∧ '=' ∉ f.value.toList))
    ⟨fun ⟨h₁, h₂, h₃, h₄, h₅, h₆⟩ => ⟨h₁, h₂, h₃, h₄, h₅, h₆⟩,
      fun ⟨h₁, h₂, h₃, h₄, h₅, h₆⟩ => ⟨h₁, h₂, h₃, h₄, h₅, h₆⟩⟩

/-- A sort key that a clause can say; the minus of a descending one keeps its field apart from
the start of the clause. -/
structure SortKey.Writable (k : SortKey) : Prop where
  field_ne : k.field ≠ ""
  no_comma : ',' ∉ k.field.toList
  field_ends : endsBlank k.field.toList = false
  field_starts : k.direction = .ascending →
    startsBlank k.field.toList = false ∧ k.field.toList.head? ≠ some '-'

instance (k : SortKey) : Decidable k.Writable :=
  decidable_of_iff
    (k.field ≠ "" ∧ ',' ∉ k.field.toList ∧ endsBlank k.field.toList = false ∧
      (k.direction = .ascending →
        startsBlank k.field.toList = false ∧ k.field.toList.head? ≠ some '-'))
    ⟨fun ⟨h₁, h₂, h₃, h₄⟩ => ⟨h₁, h₂, h₃, h₄⟩, fun ⟨h₁, h₂, h₃, h₄⟩ => ⟨h₁, h₂, h₃, h₄⟩⟩

/-- A projected field that a clause can say. -/
structure WritableField (field : String) : Prop where
  ne : field ≠ ""
  clause : IsClause field.toList

instance (field : String) : Decidable (WritableField field) :=
  decidable_of_iff (field ≠ "" ∧ IsClause field.toList)
    ⟨fun ⟨h₁, h₂⟩ => ⟨h₁, h₂⟩, fun ⟨h₁, h₂⟩ => ⟨h₁, h₂⟩⟩

theorem toList_ne_nil {s : String} (h : s ≠ "") : s.toList ≠ [] :=
  fun he => h (String.toList_eq_nil_iff.mp he)

theorem ofList_ne_empty {cs : List Char} (h : cs ≠ []) : String.ofList cs ≠ "" :=
  fun he => h (by rw [← String.toList_ofList (l := cs), he]; rfl)

namespace QueryFormat

/-! ## Between commas -/

theorem isClause_of_mem_clauses {value : String} {clause : List Char}
    (h : clause ∈ clauses value) : IsClause clause := by
  obtain ⟨piece, hpiece, rfl⟩ := List.mem_map.mp h
  exact ⟨fun hc => not_mem_of_mem_splitOn hpiece (mem_of_mem_trim hc), startsBlank_trim piece,
    endsBlank_trim piece⟩

/-- Clauses that are joined by commas are told apart again. -/
theorem clauses_intercalate {texts : List String} (hne : texts ≠ [])
    (h : ∀ text ∈ texts, IsClause text.toList) :
    clauses (",".intercalate texts) = texts.map String.toList := by
  have hsplit : (",".intercalate texts).toList.splitOn ',' = texts.map String.toList :=
    splitOn_intercalate_texts rfl hne fun text htext => (h text htext).no_comma
  rw [clauses, clauseSeparator, hsplit, List.map_map]
  apply List.map_congr_left
  intro text htext
  exact trim_eq_self_iff.mpr ⟨(h text htext).starts, (h text htext).ends⟩

end QueryFormat

/-! ## Filters -/

theorem Operator.token_plain (o : Operator) :
    ',' ∉ o.token.toList ∧ '=' ∉ o.token.toList ∧ ':' ∉ o.token.toList := by
  cases o <;> decide

namespace Filter

theorem toList_toText (f : Filter) : f.toText.toList =
    f.field.toList ++ '=' :: (f.operator.token.toList ++ ':' :: f.value.toList) := by
  simp [toText]

/-- A filter that can be written makes one clause. -/
theorem isClause_toText {f : Filter} (h : f.Writable) : IsClause f.toText.toList := by
  have htoken := f.operator.token_plain
  have hfield := toList_ne_nil h.field_ne
  have hvalue := toList_ne_nil h.value_ne
  rw [toList_toText]
  constructor
  · simp only [List.mem_append, List.mem_cons, not_or]
    exact ⟨h.field_plain.1, by decide, htoken.1, by decide, h.value_plain.1⟩
  · rw [startsBlank_append hfield]
    exact h.field_starts
  · have hends : f.field.toList ++ '=' :: (f.operator.token.toList ++ ':' :: f.value.toList) =
        (f.field.toList ++ '=' :: (f.operator.token.toList ++ [':'])) ++ f.value.toList := by simp
    rw [hends, endsBlank_append _ hvalue]
    exact h.value_ends

end Filter

namespace QueryFormat

theorem splitFirst?_append {separator : Char} {left : List Char} (h : separator ∉ left)
    (right : List Char) :
    splitFirst? separator (left ++ separator :: right) = some (left, right) := by
  rw [splitFirst?, dropWhile_ne_append h, takeWhile_ne_append h]

/-- What follows the first separator ends the text. -/
theorem suffix_of_splitFirst? {separator : Char} {cs left right : List Char}
    (h : splitFirst? separator cs = some (left, right)) : right <:+ cs := by
  unfold splitFirst? at h
  split at h
  next => exact absurd h.symm (Option.some_ne_none _)
  next first rest hdrop =>
    obtain ⟨-, rfl⟩ := Prod.mk.inj (Option.some.inj h)
    have hsuffix : first :: rest <:+ cs := hdrop ▸ List.dropWhile_suffix _
    exact (List.suffix_cons first rest).trans hsuffix

theorem readComparison_token (o : Operator) (value : List Char) :
    readComparison (o.token.toList ++ ':' :: value) = .ok (o, value) := by
  rw [readComparison, splitFirst?_append o.token_plain.2.2]
  simp only [String.ofList_toList, Operator.ofToken?_token]

/-- The value of a comparison ends it. -/
theorem suffix_of_readComparison {cs value : List Char} {o : Operator}
    (h : readComparison cs = .ok (o, value)) : value <:+ cs := by
  unfold readComparison at h
  split at h
  next =>
    obtain ⟨-, rfl⟩ := Prod.mk.inj (Except.ok.inj h)
    exact List.suffix_refl cs
  next token rest hsplit =>
    split at h
    next operator hoperator =>
      obtain ⟨-, rfl⟩ := Prod.mk.inj (Except.ok.inj h)
      exact suffix_of_splitFirst? hsplit
    next => cases h

/-- What a clause says when it is read as a filter. -/
theorem eq_of_readFilter {clause : List Char} {f : Filter} (h : readFilter clause = .ok f) :
    ∃ comparison, clause = f.field.toList ++ '=' :: comparison ∧
      readComparison comparison = .ok (f.operator, f.value.toList) ∧
      f.field ≠ "" ∧ f.value ≠ "" ∧ '=' ∉ f.field.toList ∧ '=' ∉ comparison := by
  unfold readFilter at h
  split at h
  next field comparison hsplit =>
    split at h
    next => cases h
    next hfield =>
      split at h
      next => cases h
      next operator value hcomparison =>
        split at h
        next => cases h
        next hvalue =>
          obtain rfl := Except.ok.inj h
          have hpieces : ∀ piece ∈ [field, comparison], '=' ∉ piece :=
            fun piece hpiece => not_mem_of_mem_splitOn (hsplit ▸ hpiece)
          simp only [String.toList_ofList]
          exact ⟨comparison, eq_of_splitOn_eq_pair hsplit, hcomparison, ofList_ne_empty hfield,
            ofList_ne_empty hvalue, hpieces field (by simp), hpieces comparison (by simp)⟩
  next => cases h

/-- Every filter read from a clause can be written. -/
theorem writable_of_readFilter {clause : List Char} {f : Filter} (hclause : IsClause clause)
    (h : readFilter clause = .ok f) : f.Writable := by
  obtain ⟨comparison, rfl, hcomparison, hfield, hvalue, hf, hc⟩ := eq_of_readFilter h
  obtain ⟨before, rfl⟩ := suffix_of_readComparison hcomparison
  have hcomma := hclause.no_comma
  simp only [List.mem_append, List.mem_cons, not_or] at hcomma hc
  constructor
  · exact hfield
  · have hstarts := hclause.starts
    rwa [startsBlank_append (toList_ne_nil hfield)] at hstarts
  · exact ⟨hcomma.1, hf⟩
  · exact hvalue
  · have hends := hclause.ends
    rwa [← List.cons_append, ← List.append_assoc,
      endsBlank_append _ (toList_ne_nil hvalue)] at hends
  · exact ⟨hcomma.2.2.2, hc.2⟩

/-- A clause with one equals sign, after some field, is read by what follows that sign. -/
theorem readFilter_eq_match {field comparison : List Char} (hfield : field ≠ [])
    (hf : '=' ∉ field) (hc : '=' ∉ comparison) :
    readFilter (field ++ '=' :: comparison) =
      match readComparison comparison with
      | .error e => .error e
      | .ok (operator, value) =>
        if value = [] then .error (.emptyValue (String.ofList field))
        else .ok ⟨String.ofList field, operator, String.ofList value⟩ := by
  have hsplit : (field ++ '=' :: comparison).splitOn '=' = [field, comparison] := by
    rw [List.splitOn_append_cons_self_of_not_mem hf, List.splitOn_eq_singleton hc]
  rw [readFilter, hsplit]
  exact if_neg hfield

/-- A filter that can be written is read from its clause. -/
theorem readFilter_toText {f : Filter} (h : f.Writable) :
    readFilter f.toText.toList = .ok f := by
  have htoken := f.operator.token_plain
  have hcomparison : '=' ∉ f.operator.token.toList ++ ':' :: f.value.toList := by
    simp only [List.mem_append, List.mem_cons, not_or]
    exact ⟨htoken.2.1, by decide, h.value_plain.2⟩
  rw [Filter.toList_toText,
    readFilter_eq_match (toList_ne_nil h.field_ne) h.field_plain.2 hcomparison,
    readComparison_token]
  dsimp only
  rw [if_neg (toList_ne_nil h.value_ne), String.ofList_toList, String.ofList_toList]

end QueryFormat

/-! ## Sort keys -/

namespace SortKey

theorem toList_toText (k : SortKey) : k.toText.toList =
    match k.direction with
    | .ascending => k.field.toList
    | .descending => '-' :: k.field.toList := by
  unfold toText
  cases k.direction <;> simp

/-- A sort key that can be written makes one clause. -/
theorem isClause_toText {k : SortKey} (h : k.Writable) : IsClause k.toText.toList := by
  have hfield := toList_ne_nil h.field_ne
  rw [toList_toText]
  split
  next hdirection =>
    exact ⟨h.no_comma, (h.field_starts hdirection).1, h.field_ends⟩
  next =>
    constructor
    · simp only [List.mem_cons, not_or]
      exact ⟨by decide, h.no_comma⟩
    · exact startsBlank_append (List.cons_ne_nil '-' []) k.field.toList
    · rw [← List.singleton_append, endsBlank_append _ hfield]
      exact h.field_ends

end SortKey

namespace QueryFormat

/-- A sort key that can be written is read from its clause. -/
theorem readSortKey?_toText {k : SortKey} (h : k.Writable) :
    readSortKey? k.toText.toList = some k := by
  obtain ⟨c, cs, hfield⟩ := List.exists_cons_of_ne_nil (toList_ne_nil h.field_ne)
  have hstring : String.ofList (c :: cs) = k.field := by rw [← hfield, String.ofList_toList]
  rw [SortKey.toList_toText, hfield]
  cases hdirection : k.direction with
  | ascending =>
    have hminus : c ≠ '-' := fun hc => (h.field_starts hdirection).2 (by rw [hfield, hc]; rfl)
    dsimp only
    unfold readSortKey?
    split
    next hclause => cases hclause
    next hclause => exact absurd (List.cons.inj hclause).1 hminus
    next hclause => exact absurd (List.cons.inj hclause).1 hminus
    next => rw [hstring, ← hdirection]
  | descending =>
    have hread : readSortKey? ('-' :: c :: cs) = some ⟨String.ofList (c :: cs), .descending⟩ := rfl
    dsimp only
    rw [hread, hstring, ← hdirection]

/-- Every sort key read from a clause can be written. -/
theorem writable_of_readSortKey? {clause : List Char} {k : SortKey} (hclause : IsClause clause)
    (h : readSortKey? clause = some k) : k.Writable := by
  unfold readSortKey? at h
  split at h
  next => cases h
  next => cases h
  next field hne =>
    obtain rfl := Option.some.inj h
    have hfield : field ≠ [] := fun he => hne (by rw [he])
    constructor
    · exact ofList_ne_empty hfield
    · exact fun hc => hclause.no_comma (List.mem_cons_of_mem _ (by simpa using hc))
    · have hends := hclause.ends
      rw [← List.singleton_append, endsBlank_append _ hfield] at hends
      simpa using hends
    · exact fun hdirection => by cases hdirection
  next hempty hsingle hminus =>
    obtain rfl := Option.some.inj h
    constructor
    · exact ofList_ne_empty hempty
    · simpa using hclause.no_comma
    · simpa using hclause.ends
    · refine fun _ => ⟨by simpa using hclause.starts, fun hhead => ?_⟩
      obtain ⟨rest, hrest⟩ := List.head?_eq_some_iff.mp (by simpa using hhead)
      exact hminus rest hrest

/-! ## Windows -/

/-- A number as the count or the offset of a window; what 64 bits do not hold becomes zero. -/
def windowNumber (n : Nat) : UInt64 := if n < UInt64.size then UInt64.ofNat n else 0

theorem toNat_windowNumber {n : Nat} (h : n < UInt64.size) : (windowNumber n).toNat = n := by
  rw [windowNumber, if_pos h]
  exact UInt64.toNat_ofNat_of_lt h

theorem windowNumber_of_size_le {n : Nat} (h : UInt64.size ≤ n) : windowNumber n = 0 :=
  if_neg (Nat.not_lt.mpr h)

theorem trim_numeral {cs : List Char} (h : IsNumeral cs) : trim cs = cs :=
  trim_of_no_blank fun c hc => isBlank_of_isDigit (h.digits c hc)

/-- Digits are read as the number they write, as far as 64 bits hold it. -/
theorem readNatural_numeral {cs : List Char} (h : IsNumeral cs) :
    readNatural cs = windowNumber (numeral cs) := by
  unfold readNatural
  extract_lets digits
  have hsign : digits = cs := by
    dsimp only [digits]
    split
    next rest => exact absurd List.mem_cons_self (h.not_mem (by decide : '+'.isDigit = false))
    next => rfl
  have hall : cs.all Char.isDigit = true := List.all_eq_true.mpr h.digits
  simp only [hsign, hall, h.ne, ne_eq, not_false_eq_true, true_and]
  rfl

/-- Two runs of digits are the two numbers of a window. -/
theorem readWindow_numerals {cs os : List Char} (hc : IsNumeral cs) (ho : IsNumeral os) :
    readWindow (String.ofList (cs ++ ',' :: os)) =
      ⟨windowNumber (numeral cs), windowNumber (numeral os)⟩ := by
  have hclauses : clauses (String.ofList (cs ++ ',' :: os)) = [cs, os] := by
    rw [clauses, clauseSeparator, String.toList_ofList,
      List.splitOn_append_cons_self_of_not_mem (hc.not_mem (by decide)),
      List.splitOn_eq_singleton (ho.not_mem (by decide))]
    simp only [List.map_cons, List.map_nil, trim_numeral hc, trim_numeral ho]
  rw [readWindow, hclauses]
  simp only [List.map_cons, List.map_nil, readNatural_numeral hc, readNatural_numeral ho]
  rfl

/-- Every window is read as it was written. -/
theorem readWindow_toText (w : Window) : readWindow w.toText = w := by
  have hnumber : ∀ n : UInt64, windowNumber n.toNat = n := fun n =>
    UInt64.toNat_inj.mp (toNat_windowNumber n.toNat_lt_size)
  rw [Window.toText, readWindow_numerals (isNumeral_decimal _) (isNumeral_decimal _),
    numeral_decimal, numeral_decimal, hnumber, hnumber]

end QueryFormat

end RecordQuery
