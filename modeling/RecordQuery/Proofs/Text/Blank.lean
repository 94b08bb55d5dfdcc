import RecordQuery.Text.Blank

/-!
# Texts that trimming leaves alone

Trimming leaves a text as it is when no blank stands at either end of it. Which characters
stand at the ends of a joined text depends on its first and its last part only.
-/

namespace RecordQuery.Text

/-- The text begins with a blank. -/
def startsBlank (cs : List Char) : Bool := cs.head?.any isBlank

/-- The text ends with a blank. -/
def endsBlank (cs : List Char) : Bool := cs.getLast?.any isBlank

theorem endsBlank_eq_startsBlank_reverse (cs : List Char) :
    endsBlank cs = startsBlank cs.reverse := by
  rw [startsBlank, List.head?_reverse, endsBlank]

theorem startsBlank_append {cs : List Char} (h : cs ≠ []) (ds : List Char) :
    startsBlank (cs ++ ds) = startsBlank cs := by
  cases cs with
  | nil => exact absurd rfl h
  | cons c cs => rfl

theorem endsBlank_append (cs : List Char) {ds : List Char} (h : ds ≠ []) :
    endsBlank (cs ++ ds) = endsBlank ds := by
  have hrev : ds.reverse ≠ [] := fun hr => h (List.reverse_eq_nil_iff.mp hr)
  rw [endsBlank_eq_startsBlank_reverse, List.reverse_append, startsBlank_append hrev,
    ← endsBlank_eq_startsBlank_reverse]

theorem startsBlank_eq_false {cs : List Char} (h : ∀ c ∈ cs, isBlank c = false) :
    startsBlank cs = false := by
  cases cs with
  | nil => rfl
  | cons c cs => exact h c List.mem_cons_self

theorem endsBlank_eq_false {cs : List Char} (h : ∀ c ∈ cs, isBlank c = false) :
    endsBlank cs = false := by
  rw [endsBlank_eq_startsBlank_reverse]
  exact startsBlank_eq_false fun c hc => h c (List.mem_reverse.mp hc)

theorem trimStart_eq_self_iff {cs : List Char} : trimStart cs = cs ↔ startsBlank cs = false := by
  constructor
  · intro h
    have hhead := List.head?_dropWhile_not isBlank cs
    rw [show cs.dropWhile isBlank = cs from h] at hhead
    cases cs with
    | nil => rfl
    | cons c cs => simpa [startsBlank] using hhead
  · intro h
    cases cs with
    | nil => rfl
    | cons c cs => exact trimStart_cons_of_not_blank h

theorem trimEnd_eq_self_iff {cs : List Char} : trimEnd cs = cs ↔ endsBlank cs = false := by
  rw [endsBlank_eq_startsBlank_reverse, ← trimStart_eq_self_iff, trimEnd]
  constructor
  · intro h
    rw [← List.reverse_reverse (trimStart cs.reverse), h]
  · intro h
    rw [h, List.reverse_reverse]

theorem length_trimStart_le (cs : List Char) : (trimStart cs).length ≤ cs.length :=
  (List.dropWhile_sublist isBlank).length_le

theorem length_trimEnd_le (cs : List Char) : (trimEnd cs).length ≤ cs.length := by
  simpa [trimEnd] using length_trimStart_le cs.reverse

/-- Trimming leaves alone exactly the texts with no blank at either end. -/
theorem trim_eq_self_iff {cs : List Char} :
    trim cs = cs ↔ startsBlank cs = false ∧ endsBlank cs = false := by
  rw [← trimStart_eq_self_iff, ← trimEnd_eq_self_iff]
  constructor
  · intro h
    -- Nothing that was dropped at the start comes back at the end.
    have hlen : cs.length ≤ (trimStart cs).length := by
      have hend := length_trimEnd_le (trimStart cs)
      rwa [show trimEnd (trimStart cs) = cs from h] at hend
    have hstart : trimStart cs = cs := (List.dropWhile_sublist isBlank).eq_of_length_le hlen
    refine ⟨hstart, ?_⟩
    rw [trim, hstart] at h
    exact h
  · intro ⟨hstart, hend⟩
    rw [trim, hstart, hend]

/-- Without blanks there is nothing to trim. -/
theorem trim_of_no_blank {cs : List Char} (h : ∀ c ∈ cs, isBlank c = false) : trim cs = cs :=
  trim_eq_self_iff.mpr ⟨startsBlank_eq_false h, endsBlank_eq_false h⟩

theorem startsBlank_trim (cs : List Char) : startsBlank (trim cs) = false :=
  (trim_eq_self_iff.mp (trim_trim cs)).1

theorem endsBlank_trim (cs : List Char) : endsBlank (trim cs) = false :=
  (trim_eq_self_iff.mp (trim_trim cs)).2

/-- Trimming only drops characters. -/
theorem mem_of_mem_trim {c : Char} {cs : List Char} (h : c ∈ trim cs) : c ∈ cs := by
  rw [trim, trimEnd, List.mem_reverse] at h
  have hstart := (List.dropWhile_sublist isBlank).subset h
  exact (List.dropWhile_sublist isBlank).subset (List.mem_reverse.mp hstart)

theorem exists_trimEnd_append (cs : List Char) :
    ∃ dropped, trimEnd cs ++ dropped = cs ∧ ∀ c ∈ dropped, isBlank c = true := by
  refine ⟨(cs.reverse.takeWhile isBlank).reverse, ?_, fun c hc => ?_⟩
  · rw [trimEnd, trimStart, ← List.reverse_append, List.takeWhile_append_dropWhile,
      List.reverse_reverse]
  · exact List.all_eq_true.mp List.all_takeWhile c (List.mem_reverse.mp hc)

theorem mem_trim_of_not_blank {c : Char} {cs : List Char} (h : c ∈ cs) (hc : isBlank c = false) :
    c ∈ trim cs := by
  have hblank : ¬ isBlank c = true := Bool.eq_false_iff.mp hc
  have hstart : c ∈ trimStart cs := by
    rw [← List.takeWhile_append_dropWhile (p := isBlank) (l := cs), List.mem_append] at h
    exact h.resolve_left fun h => hblank (List.all_eq_true.mp List.all_takeWhile c h)
  obtain ⟨dropped, hsplit, hdropped⟩ := exists_trimEnd_append (trimStart cs)
  rw [← hsplit, List.mem_append] at hstart
  exact hstart.resolve_right fun h => hblank (hdropped c h)

theorem blanks_miss_graphic : ∀ r ∈ blanks, r.last ≤ 0x20 ∨ 0x80 ≤ r.first := by decide

/-- No ASCII character that shows is dropped by trimming. -/
theorem isBlank_of_graphic {c : Char} (hlow : 0x20 < c.toNat) (hhigh : c.toNat < 0x80) :
    isBlank c = false := by
  rw [Bool.eq_false_iff]
  intro hblank
  obtain ⟨r, hr, hfirst, hlast⟩ := (CharClass.contains_iff blanks c).mp hblank
  have hmiss := blanks_miss_graphic r hr
  omega

theorem isBlank_of_isDigit {c : Char} (h : c.isDigit = true) : isBlank c = false := by
  have hdigit := Char.isDigit_iff_toNat.mp h
  simp only [Char.reduceToNat] at hdigit
  exact isBlank_of_graphic (by omega) (by omega)

end RecordQuery.Text
