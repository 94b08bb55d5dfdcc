import RecordQuery.Dict

/-!
# Laws of dictionaries

A dictionary is seen through `get?`: two dictionaries that give the same value for every key
are equal, and each operation changes what it says and nothing else. The entries listed are
exactly those that `get?` finds, in ascending order of their keys.
-/

namespace RecordQuery.Dict

variable {α : Type}

theorem above_irrefl (k : String) : ¬ Above (some k) k := String.lt_irrefl k

namespace Entries

/-- A key that is found lies above the bound. -/
theorem above_of_get? {low : Option String} {d : Entries α low} {k : String} {v : α}
    (h : d.get? k = some v) : Above low k := by
  induction d with
  | nil => simp [get?] at h
  | cons key above value rest ih =>
    by_cases hk : k = key
    · exact hk ▸ above
    · simp only [get?, if_neg hk] at h
      exact above_trans above (ih h)

theorem get?_self {low : Option String} (key : String) (above : Above low key) (v : α)
    (rest : Entries α (some key)) : (cons key above v rest).get? key = some v := by
  simp [get?]

/-- The bound itself is no key. -/
theorem get?_bound {low : String} (d : Entries α (some low)) : d.get? low = none := by
  cases h : d.get? low with
  | none => rfl
  | some v => exact absurd (above_of_get? h) (above_irrefl low)

theorem get?_insert {low : Option String} (d : Entries α low) (key : String)
    (above : Above low key) (v : α) (k : String) :
    (d.insert key above v).get? k = if k = key then some v else d.get? k := by
  induction d with
  | nil => simp [insert, get?]
  | cons first habove value rest ih =>
    unfold insert
    by_cases hlt : key < first
    · simp [hlt, get?]
    · by_cases heq : key = first
      · subst heq
        simp only [hlt, ↓reduceDIte, get?]
        split <;> rfl
      · simp only [hlt, heq, ↓reduceDIte, get?]
        by_cases hk : k = first
        · simp [hk, Ne.symm heq]
        · simp [hk, ih]

/-- Entries are determined by what they give for each key. -/
theorem ext_get? {low : Option String} {d e : Entries α low} (h : ∀ k, d.get? k = e.get? k) :
    d = e := by
  induction d with
  | nil =>
    cases e with
    | nil => rfl
    | cons key above value rest => simpa [get?] using h key
  | cons key above value rest ih =>
    cases e with
    | nil => simpa [get?] using h key
    | cons key' above' value' rest' =>
      have hkey : key = key' := by
        have hfound := h key
        have hfound' := h key'
        rw [get?_self] at hfound hfound'
        refine Decidable.byContradiction fun hne => ?_
        simp only [get?, if_neg hne, if_neg (Ne.symm hne)] at hfound hfound'
        exact String.lt_asymm (above_of_get? hfound.symm) (above_of_get? hfound')
      subst hkey
      have hvalue := h key
      simp only [get?_self, Option.some.injEq] at hvalue
      subst hvalue
      have hrest : rest = rest' := ih fun k => by
        by_cases hk : k = key
        · rw [hk, get?_bound, get?_bound]
        · simpa [get?, hk] using h k
      rw [hrest]

theorem mem_toList {low : Option String} {d : Entries α low} {k : String} {v : α} :
    (k, v) ∈ d.toList ↔ d.get? k = some v := by
  induction d with
  | nil => simp [toList, get?]
  | cons key above value rest ih =>
    simp only [toList, List.mem_cons, Prod.mk.injEq, get?, ih]
    by_cases hk : k = key
    · subst hk
      simp [get?_bound, eq_comm]
    · simp [hk]

theorem keys_pairwise {low : Option String} (d : Entries α low) :
    (d.toList.map (·.1)).Pairwise (· < ·) := by
  induction d with
  | nil => simp [toList]
  | cons key above value rest ih =>
    simp only [toList, List.map_cons, List.pairwise_cons, List.mem_map, Prod.exists,
      exists_and_right, exists_eq_right]
    refine ⟨?_, ih⟩
    rintro k ⟨v, h⟩
    exact above_of_get? (mem_toList.mp h)

end Entries

@[simp] theorem get?_empty (k : String) : (empty : Dict α).get? k = none := rfl

@[simp] theorem get?_insert (d : Dict α) (key : String) (v : α) (k : String) :
    (d.insert key v).get? k = if k = key then some v else d.get? k :=
  Entries.get?_insert d key trivial v k

@[ext] theorem ext {d e : Dict α} (h : ∀ k, d.get? k = e.get? k) : d = e :=
  Entries.ext_get? h

theorem mem_keys {d : Dict α} {k : String} : k ∈ d.keys ↔ (d.get? k).isSome := by
  simp only [keys, toList, List.mem_map, Prod.exists, Entries.mem_toList, exists_and_right,
    exists_eq_right, Option.isSome_iff_exists]

/-- The keys are listed in strictly ascending order. -/
theorem keys_pairwise (d : Dict α) : d.keys.Pairwise (· < ·) := Entries.keys_pairwise d

/-- Of several entries for a key the last one counts. -/
theorem get?_ofList (entries : List (String × α)) (k : String) :
    (ofList entries).get? k = (entries.reverse.find? (·.1 = k)).map (·.2) := by
  suffices h : ∀ d : Dict α, (entries.foldl (fun d e => d.insert e.1 e.2) d).get? k =
      ((entries.reverse.find? (·.1 = k)).map (·.2)).or (d.get? k) by
    simpa [ofList] using h empty
  induction entries with
  | nil => simp
  | cons e rest ih =>
    intro d
    rw [List.foldl_cons, ih, List.reverse_cons, List.find?_append]
    cases rest.reverse.find? (·.1 = k) with
    | some _ => simp
    | none =>
      by_cases hk : e.1 = k
      · simp [hk]
      · simp [hk, Ne.symm hk]

end RecordQuery.Dict
