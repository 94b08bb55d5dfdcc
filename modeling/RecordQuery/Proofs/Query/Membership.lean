import RecordQuery.Proofs.Binary64.FullReading
import RecordQuery.Proofs.Query.SortOrder
import RecordQuery.Proofs.Text.LevelTexts
import RecordQuery.Proofs.Text.Pieces
import RecordQuery.Query.Filter

/-!
# Membership in lists

A membership filter asks whether elements of a list equal its tokens. Only which elements and which
tokens there are matters, and of one element against one token it asks what equality asks of the
element itself. The value is tried as a whole first, but no text without the separator and no number
equals a value with the separator in it.
-/

namespace RecordQuery

open Text

namespace Filter

/-! ## Tokens -/

theorem tokens_ne_nil (f : Filter) : f.tokens ≠ [] := fun h =>
  List.splitOn_ne_nil tokenSeparator f.value.toList (List.map_eq_nil_iff.mp h)

theorem tokens_of_not_mem {f : Filter} (h : tokenSeparator ∉ f.value.toList) :
    f.tokens = [f.value] := by
  rw [tokens, List.splitOn_eq_singleton h, List.map_singleton, String.ofList_toList]

/-- Tokens that are joined by the separator are told apart again. -/
theorem tokens_intercalate (field : String) (op : Operator) {ts : List String} (hne : ts ≠ [])
    (h : ∀ t ∈ ts, tokenSeparator ∉ t.toList) :
    (Filter.mk field op ("|".intercalate ts)).tokens = ts := by
  have hsplit : ("|".intercalate ts).toList.splitOn tokenSeparator = ts.map String.toList :=
    splitOn_intercalate_texts rfl hne h
  rw [tokens, hsplit, map_ofList_toList]

/-! ## Elements -/

theorem holdsToken_iff {items : List Json} {token : String} :
    holdsToken items token = true ↔ ∃ e ∈ items, elementEquals token e = true := List.any_eq_true

theorem holdsToken_mono {items others : List Json} (h : items ⊆ others) {token : String}
    (htoken : holdsToken items token = true) : holdsToken others token = true := by
  obtain ⟨e, he, hequals⟩ := holdsToken_iff.mp htoken
  exact holdsToken_iff.mpr ⟨e, h he, hequals⟩

theorem uncased_separator : Uncased tokenSeparator :=
  uncased_of_miss (by decide +kernel) (by decide) (by decide +kernel)

theorem separator_not_in_number {token : String} {x : Binary64}
    (h : Binary64.ofToken? token = some x) : tokenSeparator ∉ token.toList :=
  Binary64.not_mem_of_ofToken? h (by decide) (by decide +kernel)

/-- An element that is no text with the separator in it equals no such token. -/
theorem separator_not_in_token {e : Json} (he : ∀ s, e = .text s → tokenSeparator ∉ s.toList)
    {token : String} (h : elementEquals token e = true) : tokenSeparator ∉ token.toList := by
  cases e with
  | text s =>
    have hlevel : naturalOrder s.toList token.toList = .eq := eq_of_beq h
    rw [← mem_iff_of_level (by decide) uncased_separator hlevel]
    exact he s rfl
  | number n =>
    cases htoken : Binary64.ofToken? token with
    | some x => exact separator_not_in_number htoken
    | none =>
      rw [elementEquals, htoken] at h
      cases h
  | null | bool value | array items | object fields => cases h

/-! ## Lists -/

/-- What a membership operator asks of the tokens: some of them or all of them. -/
def asksOf (op : Operator) (ask : String → Prop) (ts : List String) : Prop :=
  match op with
  | .anyOf => ∃ t ∈ ts, ask t
  | .allOf => ∀ t ∈ ts, ask t
  | _ => False

section

variable {op : Operator} {ask ask' : String → Prop} {ts us : List String}

theorem asksOf_singleton (hop : op.isMembership = true) {t : String} :
    asksOf op ask [t] ↔ ask t := by
  cases op with
  | anyOf => simp [asksOf]
  | allOf => simp [asksOf]
  | _ => cases hop

theorem asksOf_mono (h : ∀ t, ask t → ask' t) (hts : asksOf op ask ts) : asksOf op ask' ts := by
  cases op with
  | anyOf => exact hts.imp fun t ht => ⟨ht.1, h t ht.2⟩
  | allOf => exact fun t ht => h t (hts t ht)
  | _ => exact hts

theorem asksOf_congr (h : ∀ t, t ∈ ts ↔ t ∈ us) : asksOf op ask ts ↔ asksOf op ask us := by
  cases op <;> simp only [asksOf, h]

end

section

variable (field : String) {value : String} {op : Operator} (hop : op.isMembership = true)
  (items : List Json)
include hop

theorem accepts_list_iff : (Filter.mk field op value).accepts (.list items) = true ↔
    holdsToken items value = true ∨
      asksOf op (holdsToken items · = true) (Filter.mk field op value).tokens := by
  cases op with
  | anyOf => rw [accepts, matchesList, Bool.or_eq_true, List.any_eq_true, asksOf]
  | allOf => rw [accepts, matchesList, Bool.or_eq_true, List.all_eq_true, asksOf]
  | _ => cases hop

/-- Trying the value as a whole adds nothing where the value is one token, or where no element has
the separator in it. -/
theorem accepts_list_iff_asksOf
    (h : tokenSeparator ∉ value.toList ∨ ∀ s, .text s ∈ items → tokenSeparator ∉ s.toList) :
    (Filter.mk field op value).accepts (.list items) = true ↔
      asksOf op (holdsToken items · = true) (Filter.mk field op value).tokens := by
  rw [accepts_list_iff field hop]
  refine or_iff_right_of_imp fun hwhole => ?_
  have hvalue : tokenSeparator ∉ value.toList := by
    obtain hvalue | hitems := h
    · exact hvalue
    · obtain ⟨e, he, hequals⟩ := holdsToken_iff.mp hwhole
      exact separator_not_in_token (fun s hs => hitems s (hs ▸ he)) hequals
  rw [tokens_of_not_mem hvalue, asksOf_singleton hop]
  exact hwhole

/-- Of one token the membership operators ask the same. -/
theorem accepts_list_of_not_mem (hvalue : tokenSeparator ∉ value.toList) :
    (Filter.mk field op value).accepts (.list items) = holdsToken items value := by
  rw [Bool.eq_iff_iff, accepts_list_iff_asksOf field hop items (.inl hvalue),
    tokens_of_not_mem hvalue, asksOf_singleton hop]

theorem accepts_singleton {e : Json} (hvalue : tokenSeparator ∉ value.toList) :
    (Filter.mk field op value).accepts (.list [e]) = elementEquals value e := by
  rw [accepts_list_of_not_mem field hop [e] hvalue, holdsToken, List.any_cons, List.any_nil,
    Bool.or_false]

/-- More elements can only match more. -/
theorem accepts_list_mono {others : List Json} (hsub : items ⊆ others)
    (h : (Filter.mk field op value).accepts (.list items) = true) :
    (Filter.mk field op value).accepts (.list others) = true := by
  rw [accepts_list_iff field hop] at h ⊢
  exact h.imp (holdsToken_mono hsub) (asksOf_mono fun t => holdsToken_mono hsub)

/-- Joined tokens are asked for one by one where no element has the separator in it. -/
theorem accepts_joined_iff (hitems : ∀ s, .text s ∈ items → tokenSeparator ∉ s.toList)
    {ts : List String} (hne : ts ≠ []) (hts : ∀ t ∈ ts, tokenSeparator ∉ t.toList) :
    (Filter.mk field op ("|".intercalate ts)).accepts (.list items) = true ↔
      asksOf op (fun t => ∃ e ∈ items, elementEquals t e = true) ts := by
  rw [accepts_list_iff_asksOf field hop items (.inr hitems), tokens_intercalate field op hne hts]
  simp only [holdsToken_iff]

end

/-- A number equals a token that is a number in full when it equals the loose reading of it. -/
theorem elementEquals_number (field : String) {token : String} {x : Binary64}
    (h : Binary64.ofToken? token = some x) (n : Json.Number) :
    elementEquals token (.number n) =
      (Filter.mk field .eq token).accepts (.number n.toBinary64) := by
  rw [elementEquals, h, accepts, matchesNumber, Binary64.coerce_of_ofToken? h]
  dsimp only
  rw [Binary64.equals, Operator.isOrdering, Bool.true_and]
  cases n.toBinary64.compare? x with
  | none => rfl
  | some o => cases o <;> rfl

/-! ## Main results -/

/-- A list of one text matches a token for either membership operator exactly when the text is
equal to it, and a list of one number matches a token that is a number in full exactly when the
number is equal to it. On such tokens the strict and the loose reading are the same number. -/
theorem membership_of_one (field token : String) :
    let passes := fun (op : Operator) (v : Json) =>
      (Filter.mk field op token).accepts (Operand.ofJson? (some v))
    (tokenSeparator ∉ token.toList → ∀ s : String,
      passes .anyOf (.array [.text s]) = passes .eq (.text s) ∧
      passes .allOf (.array [.text s]) = passes .eq (.text s)) ∧
    (∀ x, Binary64.ofToken? token = some x → Binary64.coerce token = x ∧ ∀ n : Json.Number,
      passes .anyOf (.array [.number n]) = passes .eq (.number n) ∧
      passes .allOf (.array [.number n]) = passes .eq (.number n)) := by
  refine ⟨fun htoken s => ?_, fun x hx => ⟨Binary64.coerce_of_ofToken? hx, fun n => ?_⟩⟩
  · exact ⟨accepts_singleton field rfl htoken, accepts_singleton field rfl htoken⟩
  · have htoken := separator_not_in_number hx
    have hequals := elementEquals_number field hx n
    exact ⟨(accepts_singleton field rfl htoken).trans hequals,
      (accepts_singleton field rfl htoken).trans hequals⟩

/-- Other case and leading zeros make a text no less equal, nor do a sign, a bare point and blanks a
number. -/
theorem membership_of_one_spellings :
    let passes := fun (op : Operator) (token : String) (v : Json) =>
      (Filter.mk "a" op token).accepts (Operand.ofJson? (some v))
    let five : Json := .number (.int 5 (by decide))
    (tokenSeparator ∉ "V7".toList ∧
      passes .anyOf "V7" (.array [.text "v007"]) = passes .eq "V7" (.text "v007") ∧
      passes .eq "V7" (.text "v007") = true) ∧
    (Binary64.ofToken? "\u3000+.5e1 " = some (Binary64.ofInt 5) ∧
      Binary64.coerce "\u3000+.5e1 " = Binary64.ofInt 5 ∧
      passes .allOf "\u3000+.5e1 " (.array [five]) = passes .eq "\u3000+.5e1 " five ∧
      passes .eq "\u3000+.5e1 " five = true) := by
  intro passes five
  have hfree : tokenSeparator ∉ "V7".toList := by decide
  have hread : Binary64.ofToken? "\u3000+.5e1 " = some (Binary64.ofInt 5) := by decide +kernel
  have htext := (membership_of_one "a" "V7").1 hfree "v007"
  obtain ⟨hcoerce, hnumber⟩ := (membership_of_one "a" "\u3000+.5e1 ").2 _ hread
  exact ⟨⟨hfree, htext.1, by decide +kernel⟩, hread, hcoerce, (hnumber _).2, by decide +kernel⟩

/-- Membership depends on the set of elements, and it grows with that set. Asking for all tokens is
asking for more than some token. Where no element has the separator in it, joined tokens are asked
for one by one, so only the set of tokens matters. -/
theorem membership_by_sets (field : String) (items : List Json) :
    let passes := fun (op : Operator) (value : String) (items : List Json) =>
      (Filter.mk field op value).accepts (.list items)
    (∀ value, passes .allOf value items = true → passes .anyOf value items = true) ∧
    (∀ op value others, op.isMembership = true → items ⊆ others →
      passes op value items = true → passes op value others = true) ∧
    (∀ op value others, op.isMembership = true → (∀ e, e ∈ items ↔ e ∈ others) →
      passes op value items = passes op value others) ∧
    ((∀ s, .text s ∈ items → tokenSeparator ∉ s.toList) →
      ∀ ts : List String, ts ≠ [] → (∀ t ∈ ts, tokenSeparator ∉ t.toList) →
        (passes .anyOf ("|".intercalate ts) items = true ↔
          ∃ t ∈ ts, ∃ e ∈ items, elementEquals t e = true) ∧
        (passes .allOf ("|".intercalate ts) items = true ↔
          ∀ t ∈ ts, ∃ e ∈ items, elementEquals t e = true) ∧
        ∀ op us, op.isMembership = true → (∀ t, t ∈ ts ↔ t ∈ us) →
          passes op ("|".intercalate ts) items = passes op ("|".intercalate us) items) := by
  intro passes
  refine ⟨fun value h => ?_, fun op value others hop hsub => accepts_list_mono field hop items hsub,
    fun op value others hop hsame => ?_, fun hitems ts hne hts => ?_⟩
  · have hall := (accepts_list_iff field rfl items).mp h
    refine (accepts_list_iff field rfl items).mpr (hall.imp_right fun hall => ?_)
    obtain ⟨t, ht⟩ := List.exists_mem_of_ne_nil _ (tokens_ne_nil ⟨field, .allOf, value⟩)
    exact ⟨t, ht, hall t ht⟩
  · exact Bool.eq_iff_iff.mpr ⟨accepts_list_mono field hop items fun e => (hsame e).mp,
      accepts_list_mono field hop others fun e => (hsame e).mpr⟩
  · refine ⟨accepts_joined_iff field rfl items hitems hne hts,
      accepts_joined_iff field rfl items hitems hne hts, fun op us hop hsame => ?_⟩
    obtain ⟨t, ht⟩ := List.exists_mem_of_ne_nil ts hne
    have hne' : us ≠ [] := List.ne_nil_of_mem ((hsame t).mp ht)
    have hus : ∀ u ∈ us, tokenSeparator ∉ u.toList := fun u hu => hts u ((hsame u).mpr hu)
    rw [Bool.eq_iff_iff, accepts_joined_iff field hop items hitems hne hts,
      accepts_joined_iff field hop items hitems hne' hus]
    exact asksOf_congr hsame

/-- Elements and tokens in other orders, with repetitions. -/
theorem membership_by_sets_repeated :
    let passes := fun (op : Operator) (value : String) (items : List Json) =>
      (Filter.mk "a" op value).accepts (.list items)
    let seven : Json := .number (.int 7 (by decide))
    let items : List Json := [.text "x", seven, .text "Y"]
    let others : List Json := [.text "Y", .text "x", .text "Y", seven]
    (passes .allOf "X| 7.0|y" items = true ∧ passes .anyOf "X| 7.0|y" items = true) ∧
    (Operator.allOf.isMembership = true ∧ items ⊆ .null :: others ∧
      passes .allOf "X| 7.0|y" (.null :: others) = true) ∧
    ((∀ e, e ∈ items ↔ e ∈ others) ∧ passes .anyOf "z|Y" items = passes .anyOf "z|Y" others) ∧
    ((∀ s, .text s ∈ items → tokenSeparator ∉ s.toList) ∧ ["X", "7"] ≠ [] ∧
      (∀ t ∈ ["X", "7"], tokenSeparator ∉ t.toList) ∧
      (∀ t, t ∈ ["X", "7"] ↔ t ∈ ["7", "X", "7"]) ∧
      passes .allOf ("|".intercalate ["X", "7"]) items =
        passes .allOf ("|".intercalate ["7", "X", "7"]) items ∧
      ∀ t ∈ ["X", "7"], ∃ e ∈ items, elementEquals t e = true) := by
  intro passes seven items others
  have hall : passes .allOf "X| 7.0|y" items = true := by decide +kernel
  have hjoined : passes .allOf ("|".intercalate ["X", "7"]) items = true := by decide +kernel
  have hsame : ∀ e, e ∈ items ↔ e ∈ others := fun e => by
    simp only [items, others, List.mem_cons, List.not_mem_nil, or_false]
    grind
  have hsub : items ⊆ .null :: others := fun e he => List.mem_cons_of_mem _ ((hsame e).mp he)
  have hplain : ∀ s, .text s ∈ items → tokenSeparator ∉ s.toList := by
    intro s hs
    simp only [items, seven, List.mem_cons, Json.text.injEq, reduceCtorEq, List.not_mem_nil,
      or_false, false_or] at hs
    obtain rfl | rfl := hs <;> decide
  have htokens : ∀ t ∈ ["X", "7"], tokenSeparator ∉ t.toList := by decide
  have hsets : ∀ t, t ∈ ["X", "7"] ↔ t ∈ ["7", "X", "7"] := fun t => by
    simp only [List.mem_cons, List.not_mem_nil, or_false]
    grind
  obtain ⟨hany, hmono, hset, hjoin⟩ := membership_by_sets "a" items
  obtain ⟨-, hasks, hcongr⟩ := hjoin hplain ["X", "7"] (by decide) htokens
  exact ⟨⟨hall, hany _ hall⟩, ⟨rfl, hsub, hmono .allOf _ _ rfl hsub hall⟩,
    ⟨hsame, hset .anyOf "z|Y" others rfl hsame⟩,
    hplain, by decide, htokens, hsets, hcongr .allOf _ rfl hsets, hasks.mp hjoined⟩

end Filter

end RecordQuery
