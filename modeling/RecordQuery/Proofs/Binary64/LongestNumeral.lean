import RecordQuery.Proofs.Binary64.NumeralText

/-!
# The longest numeral at the start of a text

The loose reading takes the longest numeral that a text begins with, where digits of any script make
a numeral, and reads it in full, where only ASCII digits do. So a digit of another script that could
lengthen the numeral makes the whole reading zero.
-/

namespace RecordQuery.Binary64

open Text

/-- The text begins with the numeral and with no longer one. -/
structure IsLongest (digit : Char → Bool) (cs : List Char) (n : Numeral) : Prop where
  isOf : n.IsOf digit
  starts : n.text <+: cs
  longest : ∀ k : Numeral, k.IsOf digit → k.text <+: cs → k.text.length ≤ n.text.length

theorem IsLongest.text_eq {digit : Char → Bool} {cs : List Char} {n k : Numeral}
    (hn : IsLongest digit cs n) (hk : IsLongest digit cs k) : n.text = k.text := by
  have hprefix : n.text <+: k.text :=
    List.prefix_of_prefix_length_le hn.starts hk.starts (hk.longest n hn.isOf hn.starts)
  exact hprefix.eq_of_length_le (hn.longest k hk.isOf hk.starts)

theorem IsLongest.of_text_eq {digit : Char → Bool} {cs : List Char} {n k : Numeral}
    (hn : IsLongest digit cs n) (htext : k.text = n.text) (hk : k.IsOf digit) :
    IsLongest digit cs k where
  isOf := hk
  starts := htext ▸ hn.starts
  longest := htext ▸ hn.longest

/-- What begins with a numeral begins with a longest one. -/
theorem exists_isLongest {digit : Char → Bool} {cs : List Char} {n : Numeral} (hn : n.IsOf digit)
    (hstarts : n.text <+: cs) : ∃ k, IsLongest digit cs k := by
  by_cases h : ∀ k : Numeral, k.IsOf digit → k.text <+: cs → k.text.length ≤ n.text.length
  · exact ⟨n, hn, hstarts, h⟩
  · simp only [Classical.not_forall, Nat.not_le] at h
    obtain ⟨k, hk, hkstarts, hlonger⟩ := h
    have hbound := hkstarts.length_le
    exact exists_isLongest hk hkstarts
termination_by cs.length - n.text.length

/-! ## What is taken is a numeral -/

theorem exists_sign_of_signOf (cs : List Char) :
    ∃ s : Sign, signOf cs = s.text ∧ s.text ++ cs.drop s.text.length = cs := by
  unfold signOf
  split
  · exact ⟨.minus, rfl, rfl⟩
  · exact ⟨.plus, rfl, rfl⟩
  · exact ⟨.absent, rfl, rfl⟩

theorem exists_digits_of_leadingDigits? {cs ds : List Char} (h : leadingDigits? cs = some ds) :
    ∃ d : Digits, d.IsOf isDecimalDigit ∧ d.text = ds ∧ ds <+: cs := by
  have hcs : cs.takeWhile isDecimalDigit ++ cs.dropWhile isDecimalDigit = cs :=
    List.takeWhile_append_dropWhile
  have hwhole : ∀ c ∈ cs.takeWhile isDecimalDigit, isDecimalDigit c = true :=
    fun _ => List.mem_takeWhile_imp
  unfold leadingDigits? at h
  extract_lets whole at h
  split at h
  next r hpoint =>
    extract_lets places at h
    split at h
    next => cases h
    next hne =>
      refine ⟨⟨whole, some places⟩, ⟨hwhole, fun _ => List.mem_takeWhile_imp, ?_⟩,
        Option.some.inj h, r.dropWhile isDecimalDigit, ?_⟩
      · exact Decidable.not_and_iff_or_not.mp hne
      · rw [← Option.some.inj h, List.append_assoc, List.cons_append,
          List.takeWhile_append_dropWhile, ← hpoint, hcs]
  next =>
    split at h
    next => cases h
    next hne =>
      refine ⟨⟨whole, none⟩, ⟨hwhole, fun c hc => absurd hc List.not_mem_nil, .inl hne⟩,
        Option.some.inj h, cs.dropWhile isDecimalDigit, ?_⟩
      rw [← Option.some.inj h, hcs]

theorem exists_exponent_of_leadingExponent (cs : List Char) :
    ∃ e : Option Exponent, (∀ x ∈ e, x.IsOf isDecimalDigit) ∧ Numeral.tail e = leadingExponent cs ∧
      leadingExponent cs <+: cs := by
  have hnone : ∃ e : Option Exponent, (∀ x ∈ e, x.IsOf isDecimalDigit) ∧ Numeral.tail e = [] ∧
      [] <+: cs := ⟨none, fun x hx => (by cases hx), rfl, List.nil_prefix⟩
  cases cs with
  | nil => exact hnone
  | cons c cs =>
    by_cases h : (c = 'e' ∨ c = 'E') ∧
        (cs.drop (signOf cs).length).takeWhile isDecimalDigit ≠ []
    · rw [leadingExponent, if_pos h]
      obtain ⟨s, hs, hsplit⟩ := exists_sign_of_signOf cs
      rw [hs] at h ⊢
      refine ⟨some ⟨c, s, _⟩, fun x hx => ?_, rfl, List.cons_prefix_cons.mpr ⟨rfl, ?_⟩⟩
      · rw [← Option.some.inj hx]
        exact ⟨h.1, fun _ => List.mem_takeWhile_imp, h.2⟩
      · refine ⟨(cs.drop s.text.length).dropWhile isDecimalDigit, ?_⟩
        rw [List.append_assoc, List.takeWhile_append_dropWhile, hsplit]
    · rw [leadingExponent, if_neg h]
      exact hnone

theorem exists_numeral_of_leadingNumeral? {cs u : List Char} (h : leadingNumeral? cs = some u) :
    ∃ n : Numeral, n.IsOf isDecimalDigit ∧ n.text = u ∧ u <+: cs := by
  obtain ⟨ds, hds, rfl⟩ := Option.map_eq_some_iff.mp h
  obtain ⟨s, hs, hsplit⟩ := exists_sign_of_signOf cs
  obtain ⟨d, hd, rfl, hstarts⟩ := exists_digits_of_leadingDigits? hds
  obtain ⟨e, he, htail, rest, hrest⟩ :=
    exists_exponent_of_leadingExponent ((cs.drop (signOf cs).length).drop d.text.length)
  refine ⟨⟨s, d, e⟩, ⟨hd, he⟩, ?_, rest, ?_⟩
  · rw [Numeral.text, hs, htail, hs, List.append_assoc]
  · rw [List.append_assoc, hrest, List.append_assoc, List.prefix_iff_eq_append.mp hstarts, hs,
      hsplit]

/-! ## No longer numeral is passed over -/

theorem leadingDigits?_append_mark {d : Digits} (hd : d.IsOf isDecimalDigit) {c : Char}
    (hc : c = 'e' ∨ c = 'E') (cs : List Char) :
    leadingDigits? (d.text ++ c :: cs) = some d.text := by
  have hmark : Stops isDecimalDigit (c :: cs) := by
    obtain rfl | rfl := hc <;> exact stops_cons.mpr (by decide)
  obtain ⟨whole, places⟩ := d
  cases places with
  | none =>
    have hne : whole ≠ [] := hd.ne.resolve_right fun h => h rfl
    simp only [leadingDigits?, Digits.text, takeWhile_span hd.whole hmark,
      dropWhile_span hd.whole hmark]
    obtain rfl | rfl := hc <;> exact if_neg hne
  | some ps =>
    have hpoint : Stops isDecimalDigit ('.' :: (ps ++ c :: cs)) := stops_cons.mpr (by decide)
    have hps : ∀ c ∈ ps, isDecimalDigit c = true := hd.fraction
    simp only [leadingDigits?, Digits.text, List.append_assoc, List.cons_append,
      takeWhile_span hd.whole hpoint, dropWhile_span hd.whole hpoint, takeWhile_span hps hmark]
    exact if_neg (Decidable.not_and_iff_or_not.mpr hd.ne)

theorem exists_leadingDigits?_append {d : Digits} (hd : d.IsOf isDecimalDigit) (rest : List Char) :
    ∃ ds, leadingDigits? (d.text ++ rest) = some ds ∧ d.text.length ≤ ds.length := by
  obtain ⟨whole, places⟩ := d
  cases places with
  | none =>
    have hne : whole ≠ [] := hd.ne.resolve_right fun h => h rfl
    have hne' : whole ++ rest.takeWhile isDecimalDigit ≠ [] :=
      List.append_ne_nil_of_left_ne_nil hne _
    simp only [leadingDigits?, Digits.text, List.takeWhile_append_of_pos hd.whole]
    split
    · exact ⟨_, if_neg fun h => hne' h.1, by simp only [List.length_append]; omega⟩
    · exact ⟨_, if_neg hne', by simp only [List.length_append]; omega⟩
  | some ps =>
    have hpoint : Stops isDecimalDigit ('.' :: (ps ++ rest)) := stops_cons.mpr (by decide)
    have hps : ∀ c ∈ ps, isDecimalDigit c = true := hd.fraction
    simp only [leadingDigits?, Digits.text, List.append_assoc, List.cons_append,
      takeWhile_span hd.whole hpoint, dropWhile_span hd.whole hpoint,
      List.takeWhile_append_of_pos hps]
    refine ⟨_, if_neg fun h => ?_, by simp only [List.length_append, List.length_cons]; omega⟩
    exact hd.ne.elim (· h.1) (· (List.append_eq_nil_iff.mp h.2).1)

theorem length_le_leadingExponent {x : Exponent} (hx : x.IsOf isDecimalDigit) (rest : List Char) :
    x.text.length ≤ (leadingExponent (x.text ++ rest)).length := by
  obtain ⟨c, cs, hcs⟩ := List.exists_cons_of_ne_nil hx.ne
  have hc := beginsNumeral_of_isDecimalDigit (hx.digits c (hcs ▸ List.mem_cons_self))
  have hsign : signOf (x.sign.text ++ (x.digits ++ rest)) = x.sign.text := by
    rw [hcs]
    exact (split_sign_text x.sign hc (cs ++ rest)).2
  have hne : x.digits ++ rest.takeWhile isDecimalDigit ≠ [] :=
    List.append_ne_nil_of_left_ne_nil hx.ne _
  have htaken : leadingExponent (x.text ++ rest) =
      x.mark :: (x.sign.text ++ (x.digits ++ rest.takeWhile isDecimalDigit)) := by
    simp only [Exponent.text, List.cons_append, List.append_assoc, leadingExponent, hsign,
      List.drop_left, List.takeWhile_append_of_pos hx.digits]
    exact if_pos ⟨hx.mark, hne⟩
  rw [htaken, Exponent.text]
  simp only [List.length_cons, List.length_append]
  omega

theorem exists_leadingNumeral? {cs : List Char} {n : Numeral} (hn : n.IsOf isDecimalDigit)
    (hstarts : n.text <+: cs) : ∃ u, leadingNumeral? cs = some u ∧ n.text.length ≤ u.length := by
  obtain ⟨rest, rfl⟩ := hstarts
  obtain ⟨s, d, e⟩ := n
  obtain ⟨c, cs, hbegins, hc⟩ := hn.digits.begins (Numeral.tail e ++ rest)
  have hsign : signOf (s.text ++ (d.text ++ (Numeral.tail e ++ rest))) = s.text := by
    rw [hbegins]
    exact (split_sign_text s hc cs).2
  simp only [Numeral.text, List.append_assoc, leadingNumeral?, hsign, List.drop_left]
  cases e with
  | none =>
    obtain ⟨ds, hds, hlength⟩ : ∃ ds, leadingDigits? (d.text ++ rest) = some ds ∧
        d.text.length ≤ ds.length := exists_leadingDigits?_append hn.digits rest
    refine ⟨_, Option.map_eq_some_iff.mpr ⟨ds, hds, rfl⟩, ?_⟩
    simp only [Numeral.tail, Option.map_none, Option.getD_none, List.append_nil, List.length_append]
    omega
  | some x =>
    have hx := hn.exponent x rfl
    have hds := leadingDigits?_append_mark hn.digits hx.mark (x.sign.text ++ x.digits ++ rest)
    have hlength := length_le_leadingExponent hx rest
    refine ⟨_, Option.map_eq_some_iff.mpr ⟨d.text, hds, rfl⟩, ?_⟩
    simp only [Numeral.tail, Option.map_some, Option.getD_some, List.drop_left, List.length_append]
    omega

/-! ## The longest numeral -/

/-- What the loose reading takes is the longest numeral with digits of any script. -/
theorem exists_isLongest_of_leadingNumeral? {cs u : List Char} (h : leadingNumeral? cs = some u) :
    ∃ n, IsLongest isDecimalDigit cs n ∧ n.text = u := by
  obtain ⟨n, hn, rfl, hstarts⟩ := exists_numeral_of_leadingNumeral? h
  refine ⟨n, ⟨hn, hstarts, fun k hk hkstarts => ?_⟩, rfl⟩
  obtain ⟨u, hu, hlength⟩ := exists_leadingNumeral? hk hkstarts
  rw [h] at hu
  rwa [Option.some.inj hu]

theorem coerce_eq_zero_or (token : String) :
    (coerce token = zero ∧
      ∀ n : Numeral, n.IsOf Char.isDigit → ¬ IsLongest isDecimalDigit (trimStart token.toList) n) ∨
    ∃ n, IsLongest Char.isDigit (trimStart token.toList) n ∧
      IsLongest isDecimalDigit (trimStart token.toList) n ∧ coerce token = n.value := by
  cases htaken : leadingNumeral? (trimStart token.toList) with
  | none =>
    refine .inl ⟨by rw [coerce, htaken, Option.bind_none, Option.getD_none], fun n _ hn => ?_⟩
    obtain ⟨u, hu, -⟩ := exists_leadingNumeral? hn.isOf hn.starts
    rw [htaken] at hu
    cases hu
  | some u =>
    have hcoerce : coerce token = (ofText? u).getD zero := by rw [coerce, htaken, Option.bind_some]
    obtain ⟨k, hk, rfl⟩ := exists_isLongest_of_leadingNumeral? htaken
    cases hread : ofText? k.text with
    | none =>
      refine .inl ⟨by rw [hcoerce, hread, Option.getD_none], fun n hn hlongest => ?_⟩
      rw [hk.text_eq hlongest, ofText?_text hn] at hread
      cases hread
    | some x =>
      obtain ⟨n, hn, htext⟩ := exists_numeral_of_ofText? hk.isOf hread
      have hwide := hk.of_text_eq htext hn.decimal
      refine .inr ⟨n, ⟨hn, hwide.starts, fun m hm => hwide.longest m hm.decimal⟩,
        hwide, ?_⟩
      rw [hcoerce, ← htext, ofText?_text hn, Option.getD_some]

theorem isNaN_coerce (token : String) : (coerce token).isNaN = false := by
  obtain ⟨hzero, -⟩ | ⟨n, -, -, hvalue⟩ := coerce_eq_zero_or token
  · rw [hzero]
    decide
  · rw [hvalue]
    exact isNaN_ofDecimal _ _ _

/-- The loose reading of a token is the number that its longest numeral writes, unless a digit of
another script makes a longer one: then it is zero. It is zero where the token begins with no
numeral, too. -/
theorem coerce_eq_longest_numeral (token : String) :
    (∃ n, IsLongest Char.isDigit (trimStart token.toList) n ∧
      (IsLongest isDecimalDigit (trimStart token.toList) n ∧ coerce token = n.value ∨
        ¬ IsLongest isDecimalDigit (trimStart token.toList) n ∧ coerce token = zero)) ∨
    (∀ n : Numeral, n.IsOf Char.isDigit → ¬ n.text <+: trimStart token.toList) ∧
      coerce token = zero := by
  obtain ⟨hzero, hnone⟩ | ⟨n, hn, hwide, hvalue⟩ := coerce_eq_zero_or token
  · by_cases hstarts : ∃ n : Numeral, n.IsOf Char.isDigit ∧ n.text <+: trimStart token.toList
    · obtain ⟨_, hk, hk'⟩ := hstarts
      obtain ⟨n, hn⟩ := exists_isLongest hk hk'
      exact .inl ⟨n, hn, .inr ⟨hnone n hn.isOf, hzero⟩⟩
    · exact .inr ⟨fun n hn hn' => hstarts ⟨n, hn, hn'⟩, hzero⟩
  · exact .inl ⟨n, hn, .inl ⟨hwide, hvalue⟩⟩

/-- A digit of another script hides the numeral before it. -/
theorem digit_of_other_script_hides_numeral :
    ∃ n, IsLongest Char.isDigit "1٣".toList n ∧ coerce "1٣" = zero ∧ n.value ≠ zero := by
  have hunread : ofText? "1٣".toList = none := by decide +kernel
  have hone : Numeral.IsOf Char.isDigit ⟨.absent, ⟨['1'], none⟩, none⟩ :=
    ⟨⟨List.forall_mem_singleton.mpr (by decide), fun _ hc => absurd hc List.not_mem_nil,
      .inl (List.cons_ne_nil _ _)⟩, fun _ hx => nomatch hx⟩
  refine ⟨_, ⟨hone, ⟨['٣'], rfl⟩, fun k hk hstarts => Nat.le_of_not_lt fun hlonger => ?_⟩,
    by decide +kernel, by decide +kernel⟩
  -- the only longer beginning is the whole text, which is not read in full
  have hwhole : k.text = "1٣".toList := hstarts.eq_of_length_le hlonger
  have hread := ofText?_text hk
  rw [hwhole, hunread] at hread
  cases hread

end RecordQuery.Binary64
