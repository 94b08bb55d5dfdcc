import RecordQuery.Proofs.Text.Span

/-!
# Pieces between separators

Texts are cut at a separator and joined by it. No piece holds the separator, and the first
separator of a text stands right after the part that has none.
-/

namespace RecordQuery.Text

/-- No piece holds the separator. -/
theorem not_mem_of_mem_splitOn {separator : Char} {cs piece : List Char}
    (h : piece ∈ cs.splitOn separator) : separator ∉ piece := by
  induction cs generalizing piece with
  | nil =>
    rw [List.splitOn_nil, List.mem_singleton] at h
    rw [h]
    exact List.not_mem_nil
  | cons c cs ih =>
    rw [List.splitOn_cons_eq_if_modifyHead] at h
    split at h
    next =>
      rcases List.mem_cons.mp h with rfl | h
      · exact List.not_mem_nil
      · exact ih h
    next hc =>
      obtain ⟨first, rest, hfirst⟩ := List.exists_cons_of_ne_nil (List.splitOn_ne_nil separator cs)
      rw [hfirst, List.modifyHead_cons] at h
      rcases List.mem_cons.mp h with rfl | h
      · have hne : separator ≠ c := fun he => hc (by rw [he]; exact beq_self_eq_true c)
        exact List.not_mem_cons_of_ne_of_not_mem hne (ih (by rw [hfirst]; exact List.mem_cons_self))
      · exact ih (by rw [hfirst]; exact List.mem_cons_of_mem first h)

/-- A text cut into two pieces is these pieces around the separator. -/
theorem eq_of_splitOn_eq_pair {separator : Char} {cs left right : List Char}
    (h : cs.splitOn separator = [left, right]) : cs = left ++ separator :: right := by
  have hjoin : [separator].intercalate (cs.splitOn separator) = cs :=
    List.intercalate_splitOn separator
  rw [h] at hjoin
  rw [← hjoin, List.intercalate_cons_cons, List.intercalate_singleton, List.append_assoc,
    List.singleton_append]

theorem mem_of_mem_intercalate {separator c : Char} {pieces : List (List Char)}
    (h : c ∈ [separator].intercalate pieces) : c = separator ∨ ∃ piece ∈ pieces, c ∈ piece := by
  induction pieces with
  | nil => simp [List.intercalate_nil] at h
  | cons first rest ih =>
    cases rest with
    | nil =>
      rw [List.intercalate_singleton] at h
      exact .inr ⟨first, List.mem_cons_self, h⟩
    | cons second rest =>
      rw [List.intercalate_cons_cons, List.mem_append, List.mem_append, List.mem_singleton] at h
      rcases h with (h | h) | h
      · exact .inr ⟨first, List.mem_cons_self, h⟩
      · exact .inl h
      · rcases ih h with h | ⟨piece, hpiece, h⟩
        · exact .inl h
        · exact .inr ⟨piece, List.mem_cons_of_mem first hpiece, h⟩

theorem map_ofList_toList (texts : List String) :
    (texts.map String.toList).map String.ofList = texts := by
  have hid : String.ofList ∘ String.toList = id := funext fun s => String.ofList_toList
  rw [List.map_map, hid, List.map_id]

/-- Texts that are joined by a separator none of them holds are told apart again. -/
theorem splitOn_intercalate_texts {separator : Char} {joiner : String} {texts : List String}
    (hj : joiner.toList = [separator]) (hne : texts ≠ [])
    (h : ∀ text ∈ texts, separator ∉ text.toList) :
    (joiner.intercalate texts).toList.splitOn separator = texts.map String.toList := by
  rw [String.toList_intercalate, hj]
  apply List.splitOn_intercalate
  · exact List.forall_mem_map.mpr h
  · exact fun hmap => hne (List.map_eq_nil_iff.mp hmap)

section

variable {separator : Char} {left : List Char} (h : separator ∉ left) (right : List Char)
include h

theorem bne_of_not_mem : ∀ c ∈ left, (c != separator) = true :=
  fun _ hc => bne_iff_ne.mpr fun he => h (he ▸ hc)

theorem takeWhile_ne_append : (left ++ separator :: right).takeWhile (· != separator) = left :=
  takeWhile_span (bne_of_not_mem h) (stops_cons.mpr (bne_self_eq_false separator))

theorem dropWhile_ne_append :
    (left ++ separator :: right).dropWhile (· != separator) = separator :: right :=
  dropWhile_span (bne_of_not_mem h) (stops_cons.mpr (bne_self_eq_false separator))

end

end RecordQuery.Text
