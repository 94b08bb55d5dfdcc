import RecordQuery.Text.CharClass

/-!
# Blanks and trimming

Blanks are the characters with the Unicode property `White_Space`. Trimming drops
them from both ends and from nowhere else.
-/

namespace RecordQuery.Text

/-- The Unicode property `White_Space`. -/
def blanks : CharClass :=
  [⟨0x9, 0xD⟩, ⟨0x20, 0x20⟩, ⟨0x85, 0x85⟩, ⟨0xA0, 0xA0⟩, ⟨0x1680, 0x1680⟩, ⟨0x2000, 0x200A⟩,
   ⟨0x2028, 0x2029⟩, ⟨0x202F, 0x202F⟩, ⟨0x205F, 0x205F⟩, ⟨0x3000, 0x3000⟩]

/-- A character that trimming drops. -/
def isBlank (c : Char) : Bool := blanks.contains c

/-- A text without its leading blanks. -/
def trimStart (cs : List Char) : List Char := cs.dropWhile isBlank

/-- A text without its trailing blanks. -/
def trimEnd (cs : List Char) : List Char := (trimStart cs.reverse).reverse

/-- A text without its leading and trailing blanks. -/
def trim (cs : List Char) : List Char := trimEnd (trimStart cs)

theorem trimStart_cons_of_not_blank {c : Char} {cs : List Char} (h : isBlank c = false) :
    trimStart (c :: cs) = c :: cs := by
  simp [trimStart, h]

theorem trimStart_trimStart (cs : List Char) : trimStart (trimStart cs) = trimStart cs := by
  have h := List.head?_dropWhile_not isBlank cs
  unfold trimStart
  cases hd : cs.dropWhile isBlank with
  | nil => rfl
  | cons c rest => simp_all

/-- Dropping blanks at the end uncovers none at the start. -/
theorem trimStart_trimEnd {cs : List Char} (h : trimStart cs = cs) :
    trimStart (trimEnd cs) = trimEnd cs := by
  obtain ⟨dropped, hd⟩ := List.dropWhile_suffix (l := cs.reverse) isBlank
  have hp : trimEnd cs ++ dropped.reverse = cs := by
    rw [trimEnd, trimStart, ← List.reverse_append, hd, List.reverse_reverse]
  cases ht : trimEnd cs with
  | nil => rfl
  | cons c rest =>
    apply trimStart_cons_of_not_blank
    have hc := List.head?_dropWhile_not isBlank cs
    rw [show cs.dropWhile isBlank = cs from h, ← hp, ht] at hc
    simpa using hc

theorem trimEnd_trimEnd (cs : List Char) : trimEnd (trimEnd cs) = trimEnd cs := by
  simp [trimEnd, trimStart_trimStart]

/-- Trimming twice is trimming once. -/
theorem trim_trim (cs : List Char) : trim (trim cs) = trim cs := by
  unfold trim
  rw [trimStart_trimEnd (trimStart_trimStart cs), trimEnd_trimEnd]

/-- `trim` on strings. -/
def trimmed (s : String) : String := String.ofList (trim s.toList)

theorem trimmed_trimmed (s : String) : trimmed (trimmed s) = trimmed s := by
  simp [trimmed, trim_trim]

example : trimmed "\u00a0 a b\u3000" = "a b" := by decide +kernel
example : trimmed "\u200ba\ufeff" = "\u200ba\ufeff" := by decide +kernel

end RecordQuery.Text
