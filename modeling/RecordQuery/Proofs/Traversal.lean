import Mathlib.Data.List.Forall2

/-!
# Reading the items of a list

A list whose items may fail is read item by item. The reading succeeds when every item does, and
gives one result per item in order; otherwise the error is that of the first item that fails.
-/

namespace RecordQuery

variable {α β ε : Type}

section

variable {f : α → Except ε β}

theorem mapM_cons_eq_ok_iff {a : α} {items : List α} {results : List β} :
    (a :: items).mapM f = .ok results ↔
      ∃ b rest, f a = .ok b ∧ items.mapM f = .ok rest ∧ results = b :: rest := by
  rw [List.mapM_cons]
  constructor
  · intro h
    cases ha : f a with
    | error e =>
      rw [ha] at h
      cases h
    | ok b =>
      cases hitems : items.mapM f with
      | error e =>
        rw [ha, hitems] at h
        cases h
      | ok rest =>
        rw [ha, hitems] at h
        exact ⟨b, rest, rfl, rfl, (Except.ok.inj h).symm⟩
  · rintro ⟨b, rest, ha, hitems, rfl⟩
    rw [ha, hitems]
    rfl

theorem mapM_cons_eq_error_iff {a : α} {items : List α} {e : ε} :
    (a :: items).mapM f = .error e ↔
      f a = .error e ∨ (∃ b, f a = .ok b) ∧ items.mapM f = .error e := by
  rw [List.mapM_cons]
  cases ha : f a with
  | error e' =>
    constructor
    · intro h
      exact .inl (congrArg Except.error (Except.error.inj h))
    · rintro (h | ⟨⟨b, h⟩, -⟩)
      · rw [h]
        rfl
      · cases h
  | ok b =>
    cases hitems : items.mapM f with
    | error e' =>
      constructor
      · intro h
        exact .inr ⟨⟨b, rfl⟩, congrArg Except.error (Except.error.inj h)⟩
      · rintro (h | ⟨-, h⟩)
        · cases h
        · rw [h]
          rfl
    | ok results =>
      constructor
      · intro h
        cases h
      · rintro (h | ⟨-, h⟩) <;> cases h

/-- A reading succeeds with one result per item. -/
theorem mapM_eq_ok_iff {items : List α} {results : List β} :
    items.mapM f = .ok results ↔ List.Forall₂ (fun a b => f a = .ok b) items results := by
  induction items generalizing results with
  | nil =>
    rw [List.mapM_nil, List.forall₂_nil_left_iff]
    exact ⟨fun h => (Except.ok.inj h).symm, fun h => congrArg Except.ok h.symm⟩
  | cons a items ih =>
    rw [mapM_cons_eq_ok_iff, List.forall₂_cons_left_iff]
    simp only [ih]

theorem exists_mapM_eq_ok_iff {items : List α} :
    (∃ results, items.mapM f = .ok results) ↔ ∀ a ∈ items, ∃ b, f a = .ok b := by
  induction items with
  | nil => exact ⟨fun _ a ha => absurd ha List.not_mem_nil, fun _ => ⟨[], rfl⟩⟩
  | cons first items ih =>
    rw [List.forall_mem_cons, ← ih]
    constructor
    · rintro ⟨results, h⟩
      obtain ⟨b, rest, hfirst, hrest, -⟩ := mapM_cons_eq_ok_iff.mp h
      exact ⟨⟨b, hfirst⟩, rest, hrest⟩
    · rintro ⟨⟨b, hfirst⟩, rest, hrest⟩
      exact ⟨b :: rest, mapM_cons_eq_ok_iff.mpr ⟨b, rest, hfirst, hrest, rfl⟩⟩

theorem exists_of_mem_mapM {items : List α} {results : List β} (h : items.mapM f = .ok results)
    {b : β} (hb : b ∈ results) : ∃ a ∈ items, f a = .ok b := by
  induction mapM_eq_ok_iff.mp h with
  | nil => exact absurd hb List.not_mem_nil
  | @cons a first items rest ha hrest ih =>
    rcases List.mem_cons.mp hb with rfl | hb
    · exact ⟨a, List.mem_cons_self, ha⟩
    · obtain ⟨found, hfound, hread⟩ := ih (mapM_eq_ok_iff.mpr hrest) hb
      exact ⟨found, List.mem_cons_of_mem a hfound, hread⟩

theorem exists_mem_of_mapM {items : List α} {results : List β} (h : items.mapM f = .ok results)
    {a : α} (ha : a ∈ items) : ∃ b ∈ results, f a = .ok b := by
  induction mapM_eq_ok_iff.mp h with
  | nil => exact absurd ha List.not_mem_nil
  | @cons first b items rest hb hrest ih =>
    rcases List.mem_cons.mp ha with rfl | ha
    · exact ⟨b, List.mem_cons_self, hb⟩
    · obtain ⟨found, hfound, hread⟩ := ih (mapM_eq_ok_iff.mpr hrest) ha
      exact ⟨found, List.mem_cons_of_mem b hfound, hread⟩

/-- A reading fails with the error of the first item that fails. -/
theorem mapM_eq_error_iff {items : List α} {e : ε} :
    items.mapM f = .error e ↔
      ∃ before a after, items = before ++ a :: after ∧
        (∀ b ∈ before, ∃ result, f b = .ok result) ∧ f a = .error e := by
  induction items with
  | nil =>
    constructor
    · intro h
      cases h
    · rintro ⟨before, a, after, h, -⟩
      exact absurd h.symm (List.append_ne_nil_of_right_ne_nil _ (List.cons_ne_nil _ _))
  | cons first items ih =>
    rw [mapM_cons_eq_error_iff, ih]
    constructor
    · rintro (hfirst | ⟨hfirst, before, a, after, rfl, hbefore, ha⟩)
      · exact ⟨[], first, items, rfl, fun b hb => absurd hb List.not_mem_nil, hfirst⟩
      · exact ⟨first :: before, a, after, rfl, List.forall_mem_cons.mpr ⟨hfirst, hbefore⟩, ha⟩
    · -- The item that fails is the first one or comes after it.
      rintro ⟨before, a, after, hitems, hbefore, ha⟩
      cases before with
      | nil =>
        obtain ⟨rfl, -⟩ := List.cons.inj hitems
        exact .inl ha
      | cons b before =>
        obtain ⟨rfl, rfl⟩ := List.cons.inj hitems
        obtain ⟨hfirst, hbefore⟩ := List.forall_mem_cons.mp hbefore
        exact .inr ⟨hfirst, before, a, after, rfl, hbefore, ha⟩

/-- Two ways to read that agree on every item of a list read it alike. -/
theorem mapM_congr_of_mem {g : α → Except ε β} {items : List α} (h : ∀ a ∈ items, f a = g a) :
    items.mapM f = items.mapM g := by
  induction items with
  | nil => rfl
  | cons a items ih =>
    rw [List.forall_mem_cons] at h
    rw [List.mapM_cons, List.mapM_cons, h.1, ih h.2]

end

/-- Two relations that agree on every item of a list relate it to the same lists. -/
theorem forall₂_congr_of_mem {R S : α → β → Prop} {items : List α} {results : List β}
    (h : ∀ a ∈ items, ∀ b, R a b ↔ S a b) :
    List.Forall₂ R items results ↔ List.Forall₂ S items results := by
  induction items generalizing results with
  | nil => rw [List.forall₂_nil_left_iff, List.forall₂_nil_left_iff]
  | cons a items ih =>
    rw [List.forall_mem_cons] at h
    rw [List.forall₂_cons_left_iff, List.forall₂_cons_left_iff]
    simp only [h.1, ih h.2]

/-- What a partial reading keeps are the results of the items that give one. -/
theorem filterMap_eq_iff {f : α → Option β} {items : List α} {results : List β} :
    items.filterMap f = results ↔
      List.Forall₂ (fun a b => f a = some b) (items.filter fun a => (f a).isSome) results := by
  induction items generalizing results with
  | nil =>
    rw [List.filterMap_nil, List.filter_nil, List.forall₂_nil_left_iff]
    exact eq_comm
  | cons a items ih =>
    cases ha : f a with
    | none => rw [List.filterMap_cons_none ha, List.filter_cons_of_neg (by simp [ha]), ih]
    | some b =>
      rw [List.filterMap_cons_some ha, List.filter_cons_of_pos (by simp [ha]),
        List.forall₂_cons_left_iff]
      constructor
      · rintro rfl
        exact ⟨b, _, ha, ih.mp rfl, rfl⟩
      · rintro ⟨c, rest, hc, hrest, rfl⟩
        rw [ih.mpr hrest, Option.some.inj (ha.symm.trans hc)]

end RecordQuery
