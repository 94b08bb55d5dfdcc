import RecordQuery.Proofs.Query.Execution
import RecordQuery.Proofs.Query.RoundTrip

/-!
# Windows of any size

The numbers of a window may be written with any number of digits, but a number that 64 bits do
not hold counts as zero, as a text that is no number does. For the count this makes no
difference: a count of zero keeps everything, and no collection is longer than 64 bits can say.
For the offset it does: the answer begins with the first record again.
-/

namespace RecordQuery

open Text

namespace Query

theorem execute_window (w : Window) (records : List Record) :
    ({ window := some w } : Query).execute records = w.apply records := by
  let q : Query := { window := some w }
  have hselects : records.filter q.selects = records :=
    List.filter_eq_self.mpr fun _ _ => rfl
  have hshown : q.shown = id := funext fun _ => rfl
  have hsort : q.sorting = [] := rfl
  show q.execute records = w.apply records
  rw [execute_eq_stages, hselects, hsort, SortKey.sort_nil, hshown, List.map_id,
    ← apply_eq_windowed q rfl]

end Query

namespace QueryFormat

/-- The query string that asks for a window by the digits of its count and its offset. -/
def windowInput (cs os : List Char) : String := "limit=" ++ String.ofList (cs ++ ',' :: os)

theorem plain_of_mem_name {c : Char} (h : c ∈ "limit".toList) :
    (c ≠ '=' ∧ c ≠ '&' ∧ c ≠ '+' ∧ c ≠ '%') ∧ isBlank c = false := by
  simp only [String.reduceToList, List.mem_cons, List.not_mem_nil, or_false] at h
  rcases h with rfl | rfl | rfl | rfl | rfl <;> decide

theorem toList_windowInput (cs os : List Char) :
    (windowInput cs os).toList = "limit".toList ++ '=' :: (cs ++ ',' :: os) := by
  simp [windowInput]

/-- A window of `count` records after the first `offset` ones, of a collection whose length 64
bits hold. Only an offset that they do not hold counts as another one. -/
theorem apply_windowNumber {count offset : Nat} (hcount : 1 ≤ count) {α : Type} {items : List α}
    (hitems : count < UInt64.size ∨ items.length < UInt64.size) :
    (⟨windowNumber count, windowNumber offset⟩ : Window).apply items =
      (items.drop (windowNumber offset).toNat).take count := by
  unfold Window.apply
  dsimp only
  rcases Nat.lt_or_ge count UInt64.size with h | h
  · have hne : windowNumber count ≠ 0 := fun hzero => by
      have htoNat := toNat_windowNumber h
      rw [hzero] at htoNat
      exact absurd htoNat (Nat.ne_of_lt hcount)
    rw [if_neg hne, toNat_windowNumber h]
  · -- The count becomes zero, which keeps everything: no more than the count says.
    have hlength : items.length < UInt64.size := hitems.resolve_left (Nat.not_lt.mpr h)
    rw [if_pos (windowNumber_of_size_le h), List.take_of_length_le]
    rw [List.length_drop]
    omega

/-- An offset that 64 bits do not hold skips nothing. -/
theorem execute_window_of_size_le {count offset : Nat} (hcount : 1 ≤ count)
    (hoffset : UInt64.size ≤ offset) {records : List Record}
    (hrecords : records.length < UInt64.size) :
    ({ window := some ⟨windowNumber count, windowNumber offset⟩ } : Query).execute records =
      records.take count := by
  rw [Query.execute_window, apply_windowNumber hcount (.inr hrecords),
    windowNumber_of_size_le hoffset]
  rfl

section

variable {cs os : List Char} (hc : IsNumeral cs) (ho : IsNumeral os)
include hc ho

/-- Nothing in two numbers needs an escape or can be trimmed away. -/
theorem plain_of_mem_numbers {c : Char} (h : c ∈ cs ++ ',' :: os) :
    (c ≠ '&' ∧ c ≠ '+' ∧ c ≠ '%') ∧ isBlank c = false := by
  have hdigit : c.isDigit = true → (c ≠ '&' ∧ c ≠ '+' ∧ c ≠ '%') ∧ isBlank c = false := by
    intro hd
    refine ⟨⟨?_, ?_, ?_⟩, isBlank_of_isDigit hd⟩ <;> rintro rfl <;> exact absurd hd (by decide)
  rw [List.mem_append, List.mem_cons] at h
  rcases h with h | rfl | h
  · exact hdigit (hc.digits c h)
  · decide
  · exact hdigit (ho.digits c h)

theorem facetValue?_windowInput (f : Facet) :
    (default : QueryFormat).facetValue? (windowInput cs os) f =
      if f = .limit then some (String.ofList (cs ++ ',' :: os)) else none := by
  have htrim : trim (windowInput cs os).toList = (windowInput cs os).toList := by
    apply trim_of_no_blank
    intro c h
    rw [toList_windowInput, List.mem_append, List.mem_cons] at h
    rcases h with h | rfl | h
    · exact (plain_of_mem_name h).2
    · decide
    · exact (plain_of_mem_numbers hc ho h).2
  have hdecode : Form.decode (windowInput cs os).toList =
      [("limit", String.ofList (cs ++ ',' :: os))] := by
    rw [toList_windowInput, Form.decode_of_plain (fun c h => (plain_of_mem_name h).1)
      fun c h => (plain_of_mem_numbers hc ho h).1, String.ofList_toList]
  rw [facetValue?, htrim, hdecode]
  cases f <;> rfl

/-- The numbers are read, with what 64 bits do not hold as zero. -/
theorem read_windowInput : (default : QueryFormat).read (windowInput cs os) =
    .ok { window := some ⟨windowNumber (numeral cs), windowNumber (numeral os)⟩ } := by
  simp only [read_eq, facetClauses, facetValue?_windowInput hc ho]
  simp only [reduceCtorEq, if_false, if_true, Option.map_none, Option.map_some,
    readWindow_numerals hc ho]
  rfl

/-- A window that is written with any number of digits gives the records at the positions it
names, in every collection whose length 64 bits hold, exactly when they hold the offset or there
are no records. With a larger offset the first records are given, as many as the count says. -/
theorem execute_windowInput (hpos : 1 ≤ numeral cs) :
    ∃ q, (default : QueryFormat).read (windowInput cs os) = .ok q ∧
      (numeral cs < UInt64.size → numeral os < UInt64.size → ∀ records,
        q.execute records = (records.drop (numeral os)).take (numeral cs)) ∧
      ∀ records, records.length < UInt64.size →
        (q.execute records = (records.drop (numeral os)).take (numeral cs) ↔
          numeral os < UInt64.size ∨ records = []) ∧
        (UInt64.size ≤ numeral os → q.execute records = records.take (numeral cs)) := by
  let w : Window := ⟨windowNumber (numeral cs), windowNumber (numeral os)⟩
  have hrun : ∀ records : List Record,
      numeral cs < UInt64.size ∨ records.length < UInt64.size →
      ({ window := some w } : Query).execute records =
        (records.drop (windowNumber (numeral os)).toNat).take (numeral cs) := by
    intro records h
    rw [Query.execute_window, apply_windowNumber hpos h]
  refine ⟨_, read_windowInput hc ho, fun hcs hos records => ?_, fun records h =>
    ⟨?_, fun hos => execute_window_of_size_le hpos hos h⟩⟩
  · rw [hrun records (.inl hcs), toNat_windowNumber hos]
  · rcases Nat.lt_or_ge (numeral os) UInt64.size with hos | hos
    · have hexact := hrun records (.inr h)
      rw [toNat_windowNumber hos] at hexact
      exact iff_of_true hexact (.inl hos)
    · -- Nothing is left behind the offset, but something is given where there is a record.
      have hnone : records.drop (numeral os) = [] := List.drop_eq_nil_of_le (by omega)
      have hcount : numeral cs ≠ 0 := Nat.ne_of_gt hpos
      rw [execute_window_of_size_le hpos hos h, hnone, List.take_nil, List.take_eq_nil_iff,
        or_iff_right hcount, or_iff_right (Nat.not_lt.mpr hos)]

end

/-- Three records from the second on, with a count of twenty nines. -/
theorem execute_windowInput_nines :
    let cs := "99999999999999999999".toList
    let os := "01".toList
    let records : List Record := ["a", "b", "c"].map fun id => Dict.empty.insert "id" (.text id)
    IsNumeral cs ∧ IsNumeral os ∧ 1 ≤ numeral cs ∧
      ∃ q, (default : QueryFormat).read (windowInput cs os) = .ok q ∧
        q.execute records = records.drop 1 := by
  intro cs os records
  have hc : IsNumeral cs := by decide +kernel
  have ho : IsNumeral os := by decide +kernel
  have hpos : 1 ≤ numeral cs := by decide +kernel
  obtain ⟨q, hread, -, hrun⟩ := execute_windowInput hc ho hpos
  have hexact := (hrun records (by decide)).1.mpr (.inl (by decide +kernel))
  refine ⟨hc, ho, hpos, q, hread, hexact.trans ?_⟩
  have hoffset : numeral os = 1 := by decide +kernel
  have hlength : (records.drop 1).length ≤ numeral cs := by decide +kernel
  rw [hoffset, List.take_of_length_le hlength]

/-- The offset 2 ^ 64 gives the first record of two, where nothing is left to give. -/
theorem first_record_behind_large_offset :
    let cs := "1".toList
    let os := "18446744073709551616".toList
    let records : List Record := ["a", "b"].map fun id => Dict.empty.insert "id" (.text id)
    ∃ q, (default : QueryFormat).read (windowInput cs os) = .ok q ∧
      q.execute records = records.take 1 ∧
      q.execute records ≠ (records.drop (numeral os)).take (numeral cs) := by
  intro cs os records
  have hc : IsNumeral cs := by decide +kernel
  have ho : IsNumeral os := by decide +kernel
  have hrun := @execute_window_of_size_le (numeral cs) (numeral os) (by decide +kernel)
    (by decide +kernel) records (by decide)
  have hcount : numeral cs = 1 := by decide +kernel
  have hnone : records.drop (numeral os) = [] := List.drop_eq_nil_of_le (by decide +kernel)
  refine ⟨_, read_windowInput hc ho, hrun, ?_⟩
  rw [hrun, hnone, hcount, List.take_nil]
  exact List.cons_ne_nil _ _

end QueryFormat

end RecordQuery
