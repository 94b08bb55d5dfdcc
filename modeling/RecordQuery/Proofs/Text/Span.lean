/-!
# Spans

A span of a class of characters ends where the text goes on with a character outside of the class,
or ends itself.
-/

namespace RecordQuery.Text

/-- The text does not begin with a character of the class. -/
def Stops (p : Char → Bool) (cs : List Char) : Prop := ∀ c ∈ cs.head?, p c = false

section

variable {p : Char → Bool}

theorem stops_nil : Stops p [] := fun _ h => nomatch h

theorem stops_cons {c : Char} {cs : List Char} : Stops p (c :: cs) ↔ p c = false := by
  simp [Stops]

theorem stops_dropWhile (cs : List Char) : Stops p (cs.dropWhile p) := by
  intro c hc
  have h := List.head?_dropWhile_not p cs
  rw [Option.mem_def.mp hc] at h
  exact h

theorem Stops.append {cs rest : List Char} (hcs : Stops p cs) (hrest : Stops p rest) :
    Stops p (cs ++ rest) := by
  cases cs with
  | nil => exact hrest
  | cons c cs => exact stops_cons.mpr (stops_cons.mp hcs)

theorem takeWhile_of_stops {cs : List Char} (h : Stops p cs) : cs.takeWhile p = [] := by
  cases cs with
  | nil => rfl
  | cons c cs => exact List.takeWhile_cons_of_neg (Bool.eq_false_iff.mp (stops_cons.mp h))

theorem dropWhile_of_stops {cs : List Char} (h : Stops p cs) : cs.dropWhile p = cs := by
  cases cs with
  | nil => rfl
  | cons c cs => exact List.dropWhile_cons_of_neg (Bool.eq_false_iff.mp (stops_cons.mp h))

variable {run rest : List Char} (hrun : ∀ c ∈ run, p c = true) (hrest : Stops p rest)
include hrun hrest

theorem takeWhile_span : (run ++ rest).takeWhile p = run := by
  rw [List.takeWhile_append_of_pos hrun, takeWhile_of_stops hrest, List.append_nil]

theorem dropWhile_span : (run ++ rest).dropWhile p = rest := by
  rw [List.dropWhile_append_of_pos hrun, dropWhile_of_stops hrest]

end

end RecordQuery.Text
