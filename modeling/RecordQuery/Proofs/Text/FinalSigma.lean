import Mathlib.Data.List.Forall2
import RecordQuery.Text.Lowercase

/-!
# Lower case within a text

A part of a text is lowered as it would be on its own, but for its capital sigmas: whether one ends
a word can depend on what stands around the part. It does not where the part itself shows on both
sides what stands next to the sigma, or shows enough on one side.
-/

namespace RecordQuery.Text

/-- The nearest character that is not case-ignorable. -/
def nearest? (cs : List Char) : Option Char := (cs.dropWhile caseIgnorables.contains).head?

theorem nextIsCased_eq (cs : List Char) :
    nextIsCased cs = (nearest? cs).any casedLetters.contains := by
  unfold nextIsCased nearest?
  split
  next h => rw [h]; rfl
  next h => rw [h]; rfl

theorem nearest?_append (xs ys : List Char) :
    nearest? (xs ++ ys) = (nearest? xs).or (nearest? ys) := by
  unfold nearest?
  rw [List.dropWhile_append]
  cases xs.dropWhile caseIgnorables.contains <;> rfl

/-- A capital sigma between two texts ends a word. The text before it is given backwards. -/
def isFinal (before after : List Char) : Bool := nextIsCased before && !nextIsCased after

/-- The lower case of a capital sigma. -/
def sigmaForm (final : Bool) : Char := if final then 'ς' else 'σ'

theorem sigmaForm_inj {x y : Bool} : sigmaForm x = sigmaForm y ↔ x = y := by
  cases x <;> cases y <;> decide

/-- The capital sigmas of a text, each as what is before it, backwards, and what is after it. -/
def sigmas (before : List Char) : List Char → List (List Char × List Char)
  | [] => []
  | c :: cs => if c = 'Σ' then (before, cs) :: sigmas (c :: before) cs else sigmas (c :: before) cs

theorem sigmas_sigma (before cs : List Char) :
    sigmas before ('Σ' :: cs) = (before, cs) :: sigmas ('Σ' :: before) cs := if_pos rfl

theorem sigmas_of_ne {c : Char} (h : c ≠ 'Σ') (before cs : List Char) :
    sigmas before (c :: cs) = sigmas (c :: before) cs := if_neg h

theorem sigmas_of_not_mem {cs : List Char} (h : 'Σ' ∉ cs) (before : List Char) :
    sigmas before cs = [] := by
  induction cs generalizing before with
  | nil => rfl
  | cons c cs ih =>
    rw [List.mem_cons, not_or] at h
    rw [sigmas_of_ne (Ne.symm h.1), ih h.2]

/-- The lower case of a text between two others, the one before it given backwards. -/
def lowercaseBetween (before after : List Char) : List Char → List Char
  | [] => []
  | c :: cs =>
    (if c = 'Σ' then [sigmaForm (isFinal before (cs ++ after))] else lowercaseChar c) ++
      lowercaseBetween (c :: before) after cs

theorem lowercaseBetween_sigma (before after cs : List Char) :
    lowercaseBetween before after ('Σ' :: cs) =
      sigmaForm (isFinal before (cs ++ after)) :: lowercaseBetween ('Σ' :: before) after cs := rfl

theorem lowercaseBetween_of_ne {c : Char} (h : c ≠ 'Σ') (before after cs : List Char) :
    lowercaseBetween before after (c :: cs) =
      lowercaseChar c ++ lowercaseBetween (c :: before) after cs := by
  rw [lowercaseBetween, if_neg h]

theorem lowercaseAfter_append (before xs ys : List Char) :
    lowercaseAfter before (xs ++ ys) =
      lowercaseBetween before ys xs ++ lowercaseAfter (xs.reverse ++ before) ys := by
  induction xs generalizing before with
  | nil => rfl
  | cons c xs ih =>
    have hreverse : (c :: xs).reverse ++ before = xs.reverse ++ c :: before := by simp
    rw [List.cons_append, lowercaseAfter, ih, hreverse, ← List.append_assoc, lowercaseBetween]
    congr 2
    split
    · unfold sigmaForm isFinal
      split <;> rfl
    · rfl

theorem lowercaseBetween_nil (before cs : List Char) :
    lowercaseBetween before [] cs = lowercaseAfter before cs := by
  have h := lowercaseAfter_append before cs []
  rw [List.append_nil, lowercaseAfter, List.append_nil] at h
  exact h.symm

theorem lowercase_append_append (p v s : List Char) :
    lowercase (p ++ v ++ s) = lowercaseBetween [] (v ++ s) p ++ lowercaseBetween p.reverse s v ++
      lowercaseAfter (v.reverse ++ p.reverse) s := by
  rw [lowercase, List.append_assoc, lowercaseAfter_append, lowercaseAfter_append, List.append_nil,
    ← List.append_assoc]

theorem lowercaseBetween_isInfix (p v s : List Char) :
    lowercaseBetween p.reverse s v <:+: lowercase (p ++ v ++ s) :=
  ⟨_, _, (lowercase_append_append p v s).symm⟩

/-! ## One text in two surroundings -/

section

variable {v before x y x' y' : List Char}

/-- In two surroundings a text has the same lower case exactly when its capital sigmas end words in
both or in neither. -/
theorem lowercaseBetween_eq_iff :
    lowercaseBetween (before ++ x) y v = lowercaseBetween (before ++ x') y' v ↔
      ∀ place ∈ sigmas before v,
        isFinal (place.1 ++ x) (place.2 ++ y) = isFinal (place.1 ++ x') (place.2 ++ y') := by
  induction v generalizing before with
  | nil => exact iff_of_true rfl fun _ h => nomatch h
  | cons c cs ih =>
    by_cases hc : c = 'Σ'
    · subst hc
      rw [lowercaseBetween_sigma, lowercaseBetween_sigma, sigmas_sigma, List.forall_mem_cons,
        List.cons_eq_cons, sigmaForm_inj]
      exact and_congr_right fun _ => @ih ('Σ' :: before)
    · rw [lowercaseBetween_of_ne hc, lowercaseBetween_of_ne hc, sigmas_of_ne hc,
        List.append_cancel_left_eq]
      exact @ih (c :: before)

/-- Where surroundings only turn capital sigmas into ends of words, the lower case only changes from
`σ` to `ς`. -/
theorem lowercaseBetween_forall₂
    (h : ∀ place ∈ sigmas before v, isFinal (place.1 ++ x) (place.2 ++ y) = true →
      isFinal (place.1 ++ x') (place.2 ++ y') = true) :
    List.Forall₂ (fun c d => c = d ∨ c = 'σ' ∧ d = 'ς') (lowercaseBetween (before ++ x) y v)
      (lowercaseBetween (before ++ x') y' v) := by
  induction v generalizing before with
  | nil => exact .nil
  | cons c cs ih =>
    by_cases hc : c = 'Σ'
    · subst hc
      rw [sigmas_sigma, List.forall_mem_cons] at h
      rw [lowercaseBetween_sigma, lowercaseBetween_sigma]
      refine .cons ?_ (ih h.2)
      revert h
      dsimp only
      cases isFinal (before ++ x) (cs ++ y) <;> cases isFinal (before ++ x') (cs ++ y') <;>
        simp [sigmaForm]
    · rw [sigmas_of_ne hc] at h
      rw [lowercaseBetween_of_ne hc, lowercaseBetween_of_ne hc]
      exact List.rel_append (List.forall₂_same.mpr fun _ _ => .inl rfl) (ih h)

end

section

variable {a b : Char} {xs ys : List Char} (hab : a ≠ b)
  (h : List.Forall₂ (fun c d => c = d ∨ c = a ∧ d = b) xs ys)
include hab h

/-- Where some of a character's places go to another one, it gets no more frequent, and the other
one no rarer. -/
theorem count_le_of_forall₂ : ys.count a ≤ xs.count a ∧ xs.count b ≤ ys.count b := by
  induction h with
  | nil => exact ⟨Nat.le_refl _, Nat.le_refl _⟩
  | cons hcd _ ih =>
    rcases hcd with rfl | ⟨rfl, rfl⟩
    · simp only [List.count_cons]
      omega
    · rw [List.count_cons_self, List.count_cons_self, List.count_cons_of_ne hab.symm,
        List.count_cons_of_ne hab]
      omega

/-- No place goes to the other character where the first one gets no rarer, or the other one no more
frequent. -/
theorem eq_of_forall₂_of_count_le (hcount : xs.count a ≤ ys.count a ∨ ys.count b ≤ xs.count b) :
    xs = ys := by
  induction h with
  | nil => rfl
  | cons hcd htail ih =>
    have hle := count_le_of_forall₂ hab htail
    rcases hcd with rfl | ⟨rfl, rfl⟩
    · simp only [List.count_cons, Nat.add_le_add_iff_right] at hcount
      rw [ih hcount]
    · rw [List.count_cons_self, List.count_cons_self, List.count_cons_of_ne hab.symm,
        List.count_cons_of_ne hab] at hcount
      omega

end

/-! ## Sigmas that no surroundings change -/

/-- What a text shows of the neighbours of a capital sigma decides whether it ends a word: both of
them, or one that rules it out. -/
def isSettled (before after : List Char) : Bool :=
  match nearest? before, nearest? after with
  | some _, some _ => true
  | some b, none => !casedLetters.contains b
  | none, some a => casedLetters.contains a
  | none, none => false

theorem isFinal_append_of_isSettled {before after : List Char} (h : isSettled before after = true)
    (x y : List Char) : isFinal (before ++ x) (after ++ y) = isFinal before after := by
  unfold isSettled at h
  simp only [isFinal, nextIsCased_eq, nearest?_append]
  cases hb : nearest? before <;> cases ha : nearest? after <;> simp_all

/-- A letter on either side tells whether what the text shows is enough. -/
theorem isSettled_of_isFinal_eq {before after : List Char}
    (hafter : isFinal before (after ++ ['a']) = isFinal before after)
    (hbefore : isFinal (before ++ ['a']) after = isFinal before after) :
    isSettled before after = true := by
  have hletter : nearest? ['a'] = some 'a' ∧ casedLetters.contains 'a' = true := by decide +kernel
  unfold isSettled
  simp only [isFinal, nextIsCased_eq, nearest?_append, hletter.1] at hafter hbefore
  cases hb : nearest? before <;> cases ha : nearest? after <;> simp_all

/-- The form of each capital sigma of a text is settled within the text. -/
def SigmasSettled (v : List Char) : Prop := ∀ place ∈ sigmas [] v, isSettled place.1 place.2 = true

/-- Between two texts the capital sigmas of a text have the form that they have without them. -/
def KeepsSigmas (p v s : List Char) : Prop :=
  ∀ place ∈ sigmas [] v, isFinal (place.1 ++ p.reverse) (place.2 ++ s) = isFinal place.1 place.2

theorem SigmasSettled.keepsSigmas {v : List Char} (h : SigmasSettled v) (p s : List Char) :
    KeepsSigmas p v s := fun place hplace => isFinal_append_of_isSettled (h place hplace) _ _

theorem lowercaseBetween_eq_lowercase_iff {p v s : List Char} :
    lowercaseBetween p.reverse s v = lowercase v ↔ KeepsSigmas p v s := by
  have h := @lowercaseBetween_eq_iff v [] p.reverse s [] []
  simp only [List.nil_append, List.append_nil, lowercaseBetween_nil] at h
  exact h

theorem KeepsSigmas.isInfix {p v s : List Char} (h : KeepsSigmas p v s) :
    lowercase v <:+: lowercase (p ++ v ++ s) := by
  rw [← lowercaseBetween_eq_lowercase_iff.mpr h]
  exact lowercaseBetween_isInfix p v s

theorem isFinal_of_append_after {before after y : List Char}
    (h : isFinal before (after ++ y) = true) : isFinal before after = true := by
  simp only [isFinal, nextIsCased_eq, nearest?_append] at *
  cases ha : nearest? after <;> simp_all

theorem isFinal_append_before {before after : List Char} (h : isFinal before after = true)
    (x : List Char) : isFinal (before ++ x) after = true := by
  simp only [isFinal, nextIsCased_eq, nearest?_append] at *
  cases hb : nearest? before <;> simp_all

theorem lowercaseChar_letter : lowercaseChar 'a' = ['a'] := by decide +kernel

theorem lowercase_letter_after (v : List Char) :
    lowercase ([] ++ v ++ ['a']) = lowercaseBetween [] ['a'] v ++ ['a'] := by
  rw [lowercase_append_append, lowercaseAfter, if_neg (by decide), lowercaseChar_letter]
  rfl

theorem lowercase_letter_before (v : List Char) :
    lowercase (['a'] ++ v ++ []) = ['a'] ++ lowercaseBetween ['a'] [] v := by
  rw [lowercase_append_append, lowercaseBetween_of_ne (by decide), lowercaseChar_letter,
    lowercaseAfter, List.append_nil]
  rfl

/-- A letter after a text can only take sigmas from the ends of words. -/
theorem keepsSigmas_of_letter_after {v : List Char}
    (h : lowercase v <:+: lowercase ([] ++ v ++ ['a'])) : KeepsSigmas [] v ['a'] := by
  have hforms := @lowercaseBetween_forall₂ v [] [] ['a'] [] [] fun place _ hfinal => by
    simp only [List.append_nil] at hfinal ⊢
    exact isFinal_of_append_after hfinal
  rw [List.append_nil, lowercaseBetween_nil] at hforms
  have hcount := h.count_le 'ς'
  rw [lowercase_letter_after, List.count_append] at hcount
  rw [← lowercaseBetween_eq_lowercase_iff]
  exact eq_of_forall₂_of_count_le (by decide) hforms (.inr hcount)

/-- A letter before a text can only put sigmas at the ends of words. -/
theorem keepsSigmas_of_letter_before {v : List Char}
    (h : lowercase v <:+: lowercase (['a'] ++ v ++ [])) : KeepsSigmas ['a'] v [] := by
  have hforms := @lowercaseBetween_forall₂ v [] [] [] ['a'] [] fun place _ hfinal => by
    simp only [List.append_nil] at hfinal ⊢
    exact isFinal_append_before hfinal _
  rw [List.append_nil, lowercaseBetween_nil] at hforms
  have hcount := h.count_le 'σ'
  have hletter : ['a'].count 'σ' = 0 := by decide
  rw [lowercase_letter_before, List.count_append, hletter, Nat.zero_add] at hcount
  rw [← lowercaseBetween_eq_lowercase_iff]
  exact (eq_of_forall₂_of_count_le (by decide) hforms (.inl hcount)).symm

/-- A text is found in lower case between any two texts exactly when it settles its sigmas. -/
theorem forall_infix_iff_sigmasSettled {v : List Char} :
    (∀ p s, lowercase v <:+: lowercase (p ++ v ++ s)) ↔ SigmasSettled v := by
  constructor
  · intro h place hplace
    have hafter := keepsSigmas_of_letter_after (h [] ['a']) place hplace
    have hbefore := keepsSigmas_of_letter_before (h ['a'] []) place hplace
    simp only [List.reverse_nil, List.append_nil, List.reverse_singleton] at hafter hbefore
    exact isSettled_of_isFinal_eq hafter hbefore
  · exact fun h p s => (h.keepsSigmas p s).isInfix

end RecordQuery.Text
