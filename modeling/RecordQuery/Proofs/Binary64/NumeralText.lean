import Mathlib.Data.List.TakeWhile
import RecordQuery.Proofs.Binary64.Numeral
import RecordQuery.Proofs.Text.Span

/-!
# Numerals and their texts

The parts of a numeral are written one after the other: a sign, digits with a point among them, an
exponent. What begins like a numeral is read in full exactly when it is the text of one with ASCII
digits, as the number nearest to what its parts say.
-/

namespace RecordQuery.Binary64

open Text

/-! ## The parts of a numeral -/

/-- An optional sign. -/
inductive Sign where
  | absent
  | plus
  | minus

namespace Sign

def text : Sign → List Char
  | .absent => []
  | .plus => ['+']
  | .minus => ['-']

def isMinus : Sign → Bool
  | .minus => true
  | _ => false

end Sign

/-- The digits before a point, and those after it if there is a point. -/
structure Digits where
  whole : List Char
  places : Option (List Char)

namespace Digits

def text (d : Digits) : List Char :=
  match d.places with
  | none => d.whole
  | some places => d.whole ++ '.' :: places

/-- The digits after the point. -/
def fraction (d : Digits) : List Char := d.places.getD []

/-- The digits are of the class, and there is one. -/
structure IsOf (digit : Char → Bool) (d : Digits) : Prop where
  whole : ∀ c ∈ d.whole, digit c = true
  fraction : ∀ c ∈ d.fraction, digit c = true
  ne : d.whole ≠ [] ∨ d.fraction ≠ []

end Digits

/-- A mark, a sign and digits. -/
structure Exponent where
  mark : Char
  sign : Sign
  digits : List Char

namespace Exponent

def text (x : Exponent) : List Char := x.mark :: (x.sign.text ++ x.digits)

def value (x : Exponent) : Int :=
  if x.sign.isMinus then -(numeral x.digits : Int) else numeral x.digits

/-- The digits are of the class, and there is one. -/
structure IsOf (digit : Char → Bool) (x : Exponent) : Prop where
  mark : x.mark = 'e' ∨ x.mark = 'E'
  digits : ∀ c ∈ x.digits, digit c = true
  ne : x.digits ≠ []

end Exponent

/-- A numeral by its parts. -/
structure Numeral where
  sign : Sign
  digits : Digits
  exponent : Option Exponent

namespace Numeral

/-- The text of an exponent that may be missing. -/
def tail (exponent : Option Exponent) : List Char := (exponent.map Exponent.text).getD []

/-- The value of an exponent, zero if it is missing. -/
def shift (exponent : Option Exponent) : Int := (exponent.map Exponent.value).getD 0

def text (n : Numeral) : List Char := n.sign.text ++ (n.digits.text ++ tail n.exponent)

/-- The number nearest to what the parts say. -/
def value (n : Numeral) : Binary64 :=
  ofDecimal n.sign.isMinus (Text.numeral (n.digits.whole ++ n.digits.fraction))
    (shift n.exponent - n.digits.fraction.length)

/-- All digits are of the class. -/
structure IsOf (digit : Char → Bool) (n : Numeral) : Prop where
  digits : n.digits.IsOf digit
  exponent : ∀ x ∈ n.exponent, x.IsOf digit

theorem IsOf.mono {digit digit' : Char → Bool} (h : ∀ c, digit c = true → digit' c = true)
    {n : Numeral} (hn : n.IsOf digit) : n.IsOf digit' where
  digits := ⟨fun c hc => h c (hn.digits.whole c hc), fun c hc => h c (hn.digits.fraction c hc),
    hn.digits.ne⟩
  exponent := fun x hx =>
    have hx := hn.exponent x hx
    ⟨hx.mark, fun c hc => h c (hx.digits c hc), hx.ne⟩

theorem IsOf.decimal {n : Numeral} (hn : n.IsOf Char.isDigit) : n.IsOf isDecimalDigit :=
  hn.mono fun _ => isDecimalDigit_of_isDigit

end Numeral

/-! ## What the parts begin with -/

theorem splitSign_eq (cs : List Char) :
    ∃ (s : Sign) (rest : List Char), splitSign cs = (s.isMinus, rest) ∧ cs = s.text ++ rest := by
  unfold splitSign
  split
  · exact ⟨.minus, _, rfl, rfl⟩
  · exact ⟨.plus, _, rfl, rfl⟩
  · exact ⟨.absent, _, rfl, rfl⟩

theorem beginsNumeral_of_isDecimalDigit {c : Char} (h : isDecimalDigit c = true) :
    beginsNumeral c = true := by rw [beginsNumeral, h, Bool.true_or]

theorem split_sign_text (s : Sign) {c : Char} (h : beginsNumeral c = true) (cs : List Char) :
    splitSign (s.text ++ c :: cs) = (s.isMinus, c :: cs) ∧ signOf (s.text ++ c :: cs) = s.text := by
  have hminus : c ≠ '-' := by
    rintro rfl
    exact absurd h (by decide)
  have hplus : c ≠ '+' := by
    rintro rfl
    exact absurd h (by decide)
  cases s with
  | absent =>
    exact ⟨by simp [Sign.text, Sign.isMinus, splitSign, hminus, hplus],
      by simp [Sign.text, signOf, hminus, hplus]⟩
  | plus => exact ⟨rfl, rfl⟩
  | minus => exact ⟨rfl, rfl⟩

theorem Digits.IsOf.begins {d : Digits} (h : d.IsOf isDecimalDigit) (rest : List Char) :
    ∃ c cs, d.text ++ rest = c :: cs ∧ beginsNumeral c = true := by
  obtain ⟨whole, places⟩ := d
  cases whole with
  | cons c cs =>
    have hc := beginsNumeral_of_isDecimalDigit (h.whole c List.mem_cons_self)
    cases places <;> exact ⟨c, _, rfl, hc⟩
  | nil =>
    cases places with
    | none => exact absurd h.ne (by simp [Digits.fraction])
    | some ps => exact ⟨'.', _, rfl, by decide⟩

theorem tail_begins {digit : Char → Bool} {e : Option Exponent} (h : ∀ x ∈ e, x.IsOf digit) :
    Numeral.tail e = [] ∨ ∃ c cs, Numeral.tail e = c :: cs ∧ (c = 'e' ∨ c = 'E') := by
  cases e with
  | none => exact .inl rfl
  | some x => exact .inr ⟨x.mark, _, rfl, (h x rfl).mark⟩

/-! ## Reading in full -/

theorem readExponent?_text (s : Sign) {ds : List Char} (hdigits : ∀ c ∈ ds, c.isDigit = true)
    (hne : ds ≠ []) : readExponent? (s.text ++ ds) =
      some (if s.isMinus then -(numeral ds : Int) else numeral ds) := by
  obtain ⟨c, cs, rfl⟩ := List.exists_cons_of_ne_nil hne
  have hc := beginsNumeral_of_isDecimalDigit
    (isDecimalDigit_of_isDigit (hdigits c List.mem_cons_self))
  rw [readExponent?, (split_sign_text s hc cs).1]
  exact if_pos ⟨hne, List.all_eq_true.mpr hdigits⟩

theorem readTail?_tail {e : Option Exponent} (h : ∀ x ∈ e, x.IsOf Char.isDigit) :
    readTail? (Numeral.tail e) = some (Numeral.shift e) := by
  cases e with
  | none => rfl
  | some x =>
    have hx := h x rfl
    show readTail? (x.mark :: (x.sign.text ++ x.digits)) = some x.value
    rw [readTail?, if_pos hx.mark, readExponent?_text x.sign hx.digits hx.ne, Exponent.value]

theorem stops_tail {e : Option Exponent} (h : ∀ x ∈ e, x.IsOf Char.isDigit) :
    Stops Char.isDigit (Numeral.tail e) := by
  obtain he | ⟨c, cs, he, rfl | rfl⟩ := tail_begins h <;> rw [he]
  · exact stops_nil
  · exact stops_cons.mpr (by decide)
  · exact stops_cons.mpr (by decide)

theorem ofDigits?_text (negative : Bool) {d : Digits} (hd : d.IsOf Char.isDigit)
    {e : Option Exponent} (he : ∀ x ∈ e, x.IsOf Char.isDigit) :
    ofDigits? negative (d.text ++ Numeral.tail e) =
      some (ofDecimal negative (numeral (d.whole ++ d.fraction))
        (Numeral.shift e - d.fraction.length)) := by
  have hstops := stops_tail he
  obtain ⟨whole, places⟩ := d
  cases places with
  | none =>
    have hne : whole ≠ [] := hd.ne.resolve_right fun h => h rfl
    have htail := readTail?_tail he
    simp only [ofDigits?, Digits.text, Digits.fraction, takeWhile_span hd.whole hstops,
      dropWhile_span hd.whole hstops]
    obtain h | ⟨c, cs, h, rfl | rfl⟩ := tail_begins he <;> rw [h] at htail ⊢ <;>
      simp [hne, htail]
  | some ps =>
    have hpoint : Stops Char.isDigit ('.' :: (ps ++ Numeral.tail e)) := stops_cons.mpr (by decide)
    have hps : ∀ c ∈ ps, c.isDigit = true := hd.fraction
    have hnone : ¬ (whole = [] ∧ ps = []) := fun h => hd.ne.elim (· h.1) (· h.2)
    simp only [ofDigits?, Digits.text, Digits.fraction, List.append_assoc, List.cons_append,
      takeWhile_span hd.whole hpoint, dropWhile_span hd.whole hpoint, takeWhile_span hps hstops,
      dropWhile_span hps hstops, if_neg hnone, readTail?_tail he]
    rfl

theorem ofText?_of_splitSign_begins {cs rest : List Char} {c : Char} {negative : Bool}
    (hsplit : splitSign cs = (negative, c :: rest)) (hc : beginsNumeral c = true) :
    ofText? cs = ofDigits? negative (c :: rest) := by
  simp only [ofText?, hsplit, ofWord?_of_beginsNumeral _ hc, Option.none_or]

/-- The text of a numeral with ASCII digits is read as what its parts say. -/
theorem ofText?_text {n : Numeral} (h : n.IsOf Char.isDigit) : ofText? n.text = some n.value := by
  obtain ⟨c, cs, hbegins, hc⟩ := h.decimal.digits.begins (Numeral.tail n.exponent)
  rw [Numeral.text, hbegins, ofText?_of_splitSign_begins (split_sign_text n.sign hc cs).1 hc,
    ← hbegins]
  exact ofDigits?_text _ h.digits h.exponent

theorem exists_tail_of_readTail? {cs : List Char} {i : Int} (h : readTail? cs = some i) :
    ∃ e : Option Exponent, (∀ x ∈ e, x.IsOf Char.isDigit) ∧ Numeral.tail e = cs := by
  cases cs with
  | nil =>
    refine ⟨none, fun x hx => ?_, rfl⟩
    cases hx
  | cons c cs =>
    rw [readTail?] at h
    split at h
    next hmark =>
      obtain ⟨s, ds, hsplit, rfl⟩ := splitSign_eq cs
      simp only [readExponent?, hsplit] at h
      split at h
      next hds =>
        refine ⟨some ⟨c, s, ds⟩, fun x hx => ?_, rfl⟩
        rw [← Option.some.inj hx]
        exact ⟨hmark, List.all_eq_true.mp hds.2, hds.1⟩
      next => cases h
    next => cases h

theorem exists_digits_of_ofDigits? {negative : Bool} {cs : List Char} {x : Binary64}
    (h : ofDigits? negative cs = some x) :
    ∃ (d : Digits) (e : Option Exponent), d.IsOf Char.isDigit ∧ (∀ x ∈ e, x.IsOf Char.isDigit) ∧
      d.text ++ Numeral.tail e = cs := by
  have hwhole : ∀ c ∈ cs.takeWhile Char.isDigit, c.isDigit = true := fun _ => List.mem_takeWhile_imp
  have hcs : cs.takeWhile Char.isDigit ++ cs.dropWhile Char.isDigit = cs :=
    List.takeWhile_append_dropWhile
  unfold ofDigits? at h
  extract_lets whole rest at h
  change ∀ c ∈ whole, c.isDigit = true at hwhole
  change whole ++ rest = cs at hcs
  clear_value whole rest
  split at h
  next places tail hrest =>
    split at h
    next => cases h
    next hne =>
      obtain ⟨i, htail, -⟩ := Option.map_eq_some_iff.mp h
      obtain ⟨e, he, rfl⟩ := exists_tail_of_readTail? htail
      rw [Decidable.not_and_iff_or_not] at hne
      split at hrest
      next r =>
        obtain ⟨hplaces, htail⟩ := Prod.mk.inj hrest
        have hdigits : ∀ c ∈ places, c.isDigit = true := by
          rw [← hplaces]
          exact fun _ => List.mem_takeWhile_imp
        refine ⟨⟨whole, some places⟩, e, ⟨hwhole, hdigits, hne⟩, he, ?_⟩
        rw [Digits.text, List.append_assoc, List.cons_append, ← hplaces, ← htail,
          List.takeWhile_append_dropWhile, hcs]
      next =>
        obtain ⟨hplaces, htail⟩ := Prod.mk.inj hrest
        have hne' : whole ≠ [] := hne.resolve_right fun h => h hplaces.symm
        refine ⟨⟨whole, none⟩, e,
          ⟨hwhole, fun _ hc => absurd hc List.not_mem_nil, .inl hne'⟩, he, ?_⟩
        rw [Digits.text, ← htail, hcs]

/-- What begins like a numeral and is read in full is the text of a numeral with ASCII digits. -/
theorem exists_numeral_of_ofText? {n : Numeral} (hn : n.IsOf isDecimalDigit) {x : Binary64}
    (h : ofText? n.text = some x) : ∃ k : Numeral, k.IsOf Char.isDigit ∧ k.text = n.text := by
  obtain ⟨c, cs, hbegins, hc⟩ := hn.digits.begins (Numeral.tail n.exponent)
  rw [Numeral.text, hbegins, ofText?_of_splitSign_begins (split_sign_text n.sign hc cs).1 hc] at h
  obtain ⟨d, e, hd, he, htext⟩ := exists_digits_of_ofDigits? h
  refine ⟨⟨n.sign, d, e⟩, ⟨hd, he⟩, ?_⟩
  rw [Numeral.text, Numeral.text, hbegins, htext]

end RecordQuery.Binary64
