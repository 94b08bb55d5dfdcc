import RecordQuery.Proofs.Text.FinalSigma
import RecordQuery.Query.Filter

/-!
# Searching texts without regard to case

A search lowers the value and the text as wholes and looks for the one in the other. A text that
contains the value as it is written is found, unless a capital sigma of the value ends a word on its
own and none within the text, or the other way round. What values that can happen to is told by the
values alone.
-/

namespace RecordQuery

open Text

theorem Text.hasInfix_iff {sought cs : List Char} : hasInfix sought cs = true ↔ sought <:+: cs := by
  induction cs with
  | nil => simp [hasInfix]
  | cons c cs ih =>
    rw [hasInfix, Bool.or_eq_true, List.isPrefixOf_iff_prefix, ih, List.infix_cons_iff]

namespace Filter

theorem accepts_like_iff {field v text : String} :
    (⟨field, .like, v⟩ : Filter).accepts (.text text) = true ↔
      lowercase v.toList <:+: lowercase text.toList := hasInfix_iff

/-- A text with the value in it is found wherever the value's capital sigmas have the form that they
have in the value alone. The value is found in all texts that contain it exactly when it settles the
form of its capital sigmas itself, in particular when it has none. -/
theorem accepts_like_substring (field v : String) :
    (∀ p s : String, KeepsSigmas p.toList v.toList s.toList →
      (⟨field, .like, v⟩ : Filter).accepts (.text (p ++ v ++ s)) = true) ∧
    ((∀ p s : String, (⟨field, .like, v⟩ : Filter).accepts (.text (p ++ v ++ s)) = true) ↔
      SigmasSettled v.toList) ∧
    ('Σ' ∉ v.toList → SigmasSettled v.toList) := by
  simp only [accepts_like_iff, String.toList_append]
  refine ⟨fun p s h => h.isInfix, ?_, fun h place hplace => ?_⟩
  · rw [← forall_infix_iff_sigmasSettled]
    exact ⟨fun h p s => by simpa using h (String.ofList p) (String.ofList s),
      fun h p s => h p.toList s.toList⟩
  · rw [sigmas_of_not_mem h] at hplace
    exact absurd hplace List.not_mem_nil

/-- A word that ends in a capital sigma is found before a full stop, and a value whose sigma stands
between letters is found everywhere. -/
theorem accepts_like_substring_words :
    (KeepsSigmas "Η ".toList "ΟΔΟΣ".toList ". Α".toList ∧
      (⟨"text", .like, "ΟΔΟΣ"⟩ : Filter).accepts (.text ("Η " ++ "ΟΔΟΣ" ++ ". Α")) = true) ∧
    (SigmasSettled "ΜΕΣΑ".toList ∧
      (⟨"text", .like, "ΜΕΣΑ"⟩ : Filter).accepts (.text ("Σ" ++ "ΜΕΣΑ" ++ "Σ")) = true) ∧
    ('Σ' ∉ "İß".toList ∧ SigmasSettled "İß".toList) := by
  have hkeeps : KeepsSigmas "Η ".toList "ΟΔΟΣ".toList ". Α".toList := by
    unfold KeepsSigmas
    decide +kernel
  have hsettled : SigmasSettled "ΜΕΣΑ".toList := by
    unfold SigmasSettled
    decide +kernel
  have hnone : 'Σ' ∉ "İß".toList := by decide +kernel
  exact ⟨⟨hkeeps, (accepts_like_substring "text" "ΟΔΟΣ").1 "Η " ". Α" hkeeps⟩,
    ⟨hsettled, (accepts_like_substring "text" "ΜΕΣΑ").2.1.mpr hsettled "Σ" "Σ"⟩,
    hnone, (accepts_like_substring "text" "İß").2.2 hnone⟩

/-- A capital sigma that ends a word on its own does not within a longer word. -/
theorem word_not_found_in_longer_word :
    (⟨"text", .like, "ΑΣ"⟩ : Filter).accepts (.text ("" ++ "ΑΣ" ++ "Α")) = false := by
  decide +kernel

end Filter

end RecordQuery
