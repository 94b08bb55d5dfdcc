import RecordQuery.Proofs.Binary64.LongestNumeral
import RecordQuery.Proofs.Text.Blank

/-!
# Tokens that are a number in full

A token that is read in full as a finite number is one numeral with blanks around it. No numeral has
a blank in it, so none goes on behind that numeral, and the loose reading of the token takes it as
it stands.
-/

namespace RecordQuery.Binary64

open Text

/-! ## What numerals are made of -/

def inNumeral (c : Char) : Bool := isDecimalDigit c || ['+', '-', '.', 'e', 'E'].contains c

theorem inNumeral_of_isDecimalDigit {c : Char} (h : isDecimalDigit c = true) :
    inNumeral c = true := by rw [inNumeral, h, Bool.true_or]

theorem inNumeral_of_mem_sign {s : Sign} {c : Char} (h : c ∈ s.text) : inNumeral c = true := by
  cases s with
  | absent => cases h
  | plus => rw [List.mem_singleton.mp h]; decide
  | minus => rw [List.mem_singleton.mp h]; decide

theorem inNumeral_of_mem_digits {d : Digits} (hd : d.IsOf isDecimalDigit) {c : Char}
    (h : c ∈ d.text) : inNumeral c = true := by
  obtain ⟨whole, places⟩ := d
  cases places with
  | none => exact inNumeral_of_isDecimalDigit (hd.whole c h)
  | some ps =>
    rw [Digits.text, List.mem_append, List.mem_cons] at h
    obtain h | rfl | h := h
    · exact inNumeral_of_isDecimalDigit (hd.whole c h)
    · decide
    · exact inNumeral_of_isDecimalDigit (hd.fraction c h)

theorem inNumeral_of_mem_exponent {x : Exponent} (hx : x.IsOf isDecimalDigit) {c : Char}
    (h : c ∈ x.text) : inNumeral c = true := by
  rw [Exponent.text, List.mem_cons, List.mem_append] at h
  obtain rfl | h | h := h
  · obtain hmark | hmark := hx.mark <;> rw [hmark] <;> decide
  · exact inNumeral_of_mem_sign h
  · exact inNumeral_of_isDecimalDigit (hx.digits c h)

theorem inNumeral_of_mem_text {n : Numeral} (hn : n.IsOf isDecimalDigit) {c : Char}
    (h : c ∈ n.text) : inNumeral c = true := by
  rw [Numeral.text, List.mem_append, List.mem_append] at h
  obtain h | h | h := h
  · exact inNumeral_of_mem_sign h
  · exact inNumeral_of_mem_digits hn.digits h
  · obtain ⟨sign, digits, exponent⟩ := n
    cases exponent with
    | none => cases h
    | some x => exact inNumeral_of_mem_exponent (hn.exponent x rfl) h

theorem decimalDigits_miss_blanks :
    ∀ r ∈ decimalDigits, ∀ b ∈ blanks, r.last < b.first ∨ b.last < r.first := by decide +kernel

theorem isBlank_of_inNumeral {c : Char} (h : inNumeral c = true) : isBlank c = false := by
  rw [inNumeral, Bool.or_eq_true] at h
  obtain hdigit | hmark := h
  · refine Bool.eq_false_iff.mpr fun hblank => ?_
    obtain ⟨r, hr, hfirst, hlast⟩ := (CharClass.contains_iff decimalDigits c).mp hdigit
    obtain ⟨b, hb, hbfirst, hblast⟩ := (CharClass.contains_iff blanks c).mp hblank
    have hmiss := decimalDigits_miss_blanks r hr b hb
    omega
  · simp only [List.contains_iff_mem, List.mem_cons, List.not_mem_nil, or_false] at hmark
    obtain rfl | rfl | rfl | rfl | rfl := hmark <;> decide

theorem trim_text {n : Numeral} (hn : n.IsOf isDecimalDigit) : trim n.text = n.text :=
  trim_of_no_blank fun _ hc => isBlank_of_inNumeral (inNumeral_of_mem_text hn hc)

/-! ## Reading in full -/

theorem isFinite_of_ofWord? {negative : Bool} {cs : List Char} {x : Binary64}
    (h : ofWord? negative cs = some x) : x.isFinite = false := by
  have hbeyond : ∀ {m : Nat}, m < signBit → infiniteMagnitude ≤ m →
      (ofMagnitude negative m).isFinite = false := fun hm hle => by
    rw [isFinite, magnitude_ofMagnitude negative hm]
    exact decide_eq_false (Nat.not_lt.mpr hle)
  unfold ofWord? at h
  split at h
  next => exact Option.some.inj h ▸ hbeyond (by decide) (Nat.le_refl _)
  next => exact Option.some.inj h ▸ hbeyond (by decide) (Nat.le_refl _)
  next => exact Option.some.inj h ▸ hbeyond (by decide +kernel) (by decide +kernel)
  next => cases h

theorem exists_numeral_of_isFinite {cs : List Char} {x : Binary64} (h : ofText? cs = some x)
    (hx : x.isFinite = true) : ∃ n : Numeral, n.IsOf Char.isDigit ∧ n.text = cs ∧ n.value = x := by
  obtain ⟨s, rest, hsplit, rfl⟩ := splitSign_eq cs
  have hread := h
  rw [ofText?, hsplit] at hread
  obtain hword | ⟨-, hdigits⟩ := Option.or_eq_some_iff.mp hread
  · rw [isFinite_of_ofWord? hword] at hx
    cases hx
  · obtain ⟨d, e, hd, he, rfl⟩ := exists_digits_of_ofDigits? hdigits
    have hn : Numeral.IsOf Char.isDigit ⟨s, d, e⟩ := ⟨hd, he⟩
    exact ⟨⟨s, d, e⟩, hn, rfl, Option.some.inj ((ofText?_text hn).symm.trans h)⟩

/-- A token that is a number in full is a numeral between blanks. -/
theorem exists_numeral_of_ofToken? {token : String} {x : Binary64} (h : ofToken? token = some x) :
    ∃ n : Numeral, n.IsOf Char.isDigit ∧ n.text = trim token.toList ∧ n.value = x := by
  obtain ⟨hread, hx⟩ := Option.filter_eq_some_iff.mp h
  exact exists_numeral_of_isFinite hread hx

/-- A character that is no blank and in no numeral is in no token that is a number in full. -/
theorem not_mem_of_ofToken? {token : String} {x : Binary64} (h : ofToken? token = some x)
    {c : Char} (hblank : isBlank c = false) (hnumeral : inNumeral c = false) :
    c ∉ token.toList := by
  intro hc
  obtain ⟨n, hn, htext, -⟩ := exists_numeral_of_ofToken? h
  have hmem : c ∈ n.text := htext ▸ mem_trim_of_not_blank hc hblank
  rw [inNumeral_of_mem_text hn.decimal hmem] at hnumeral
  cases hnumeral

/-! ## The loose reading -/

/-- A numeral that goes on in no character of another one is taken as it stands. -/
theorem leadingNumeral?_append {n : Numeral} (hn : n.IsOf Char.isDigit) {rest : List Char}
    (hrest : Stops inNumeral rest) : leadingNumeral? (n.text ++ rest) = some n.text := by
  obtain ⟨u, hu, hlength⟩ := exists_leadingNumeral? hn.decimal (List.prefix_append n.text rest)
  obtain ⟨m, hm, rfl, hstarts⟩ := exists_numeral_of_leadingNumeral? hu
  obtain ⟨more, hmore⟩ :=
    List.prefix_of_prefix_length_le (List.prefix_append n.text rest) hstarts hlength
  cases more with
  | nil => rw [hu, ← hmore, List.append_nil]
  | cons c more =>
    -- The text would go on with a character of the longer numeral.
    rw [← hmore, List.prefix_append_right_inj] at hstarts
    obtain ⟨after, rfl⟩ := hstarts
    have hc : c ∈ m.text := hmore ▸ List.mem_append_right _ List.mem_cons_self
    have hstops := stops_cons.mp hrest
    rw [inNumeral_of_mem_text hm hc] at hstops
    cases hstops

/-- The loose reading of a token that is a number in full is that number. -/
theorem coerce_of_ofToken? {token : String} {x : Binary64} (h : ofToken? token = some x) :
    coerce token = x := by
  obtain ⟨n, hn, htext, rfl⟩ := exists_numeral_of_ofToken? h
  obtain ⟨dropped, hsplit, hblank⟩ := exists_trimEnd_append (trimStart token.toList)
  have hstops : Stops inNumeral dropped := fun c hc => by
    by_contra hin
    rw [Bool.not_eq_false] at hin
    have hnot := isBlank_of_inNumeral hin
    rw [hblank c (List.mem_of_mem_head? hc)] at hnot
    cases hnot
  rw [coerce, ← hsplit, show trimEnd (trimStart token.toList) = n.text from htext.symm,
    leadingNumeral?_append hn hstops, Option.bind_some, ofText?_text hn, Option.getD_some]

end RecordQuery.Binary64
