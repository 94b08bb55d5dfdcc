import RecordQuery.Proofs.Text.Blank
import RecordQuery.Proofs.Text.Pieces
import RecordQuery.Text.Form

/-!
# Form data reads back as written

The bytes of a character are read as that character, and the characters that stand for a byte
are read as that byte. None of them is a separator or a blank, so the pairs of form data can be
told apart again, and trimming does not touch them.
-/

namespace RecordQuery.Text

namespace Utf8

theorem lead_of_le_0x7F : ∀ n < 0x80,
    lead (UInt8.ofNat n) = ([some (Char.ofNat n)], none) := by decide

theorem lead_two : ∀ n < 0x20, 2 ≤ n →
    lead (UInt8.ofNat (n + 0xC0)) = ([], some ⟨n, 1, 0x80, 0xBF⟩) := by decide

theorem lead_three : ∀ n < 0x10, lead (UInt8.ofNat (n + 0xE0)) =
    ([], some ⟨n, 2, if n = 0 then 0xA0 else 0x80, if n = 0xD then 0x9F else 0xBF⟩) := by decide

theorem lead_four : ∀ n < 0x5, lead (UInt8.ofNat (n + 0xF0)) =
    ([], some ⟨n, 3, if n = 0 then 0x90 else 0x80, if n = 4 then 0x8F else 0xBF⟩) := by decide

/-- A byte that continues the character begun. -/
theorem step_continue {p : Pending} {n : Nat} (hn : n < 0x40) (hlow : p.low ≤ n + 0x80)
    (hhigh : n + 0x80 ≤ p.high) : step p (UInt8.ofNat (n + 0x80)) =
      if p.owed ≤ 1 then ([some (Char.ofNat (64 * p.code + n))], none)
      else ([], some ⟨64 * p.code + n, p.owed - 1, 0x80, 0xBF⟩) := by
  have hb : (UInt8.ofNat (n + 0x80)).toNat = n + 0x80 :=
    UInt8.toNat_ofNat_of_lt (by simp only [UInt8.size]; omega)
  simp only [step, hb]
  rw [if_pos ⟨hlow, hhigh⟩, Nat.add_sub_cancel]

theorem pieces_none_cons (b : UInt8) (bs : List UInt8) :
    pieces none (b :: bs) = (lead b).1 ++ pieces (lead b).2 bs := by rw [pieces]

theorem pieces_some_cons (p : Pending) (b : UInt8) (bs : List UInt8) :
    pieces (some p) (b :: bs) = (step p b).1 ++ pieces (step p b).2 bs := by rw [pieces]

theorem pieces_continue {p : Pending} {n : Nat} (bs : List UInt8) (hn : n < 0x40)
    (hlow : p.low ≤ n + 0x80) (hhigh : n + 0x80 ≤ p.high) (howed : 1 < p.owed) :
    pieces (some p) (UInt8.ofNat (n + 0x80) :: bs) =
      pieces (some ⟨64 * p.code + n, p.owed - 1, 0x80, 0xBF⟩) bs := by
  rw [pieces_some_cons, step_continue hn hlow hhigh, if_neg (by omega)]
  rfl

theorem pieces_finish {p : Pending} {n : Nat} (bs : List UInt8) (hn : n < 0x40)
    (hlow : p.low ≤ n + 0x80) (hhigh : n + 0x80 ≤ p.high) (howed : p.owed ≤ 1) :
    pieces (some p) (UInt8.ofNat (n + 0x80) :: bs) =
      some (Char.ofNat (64 * p.code + n)) :: pieces none bs := by
  rw [pieces_some_cons, step_continue hn hlow hhigh, if_pos howed]
  rfl

/-- The bytes of a character are one piece. -/
theorem pieces_utf8EncodeChar (c : Char) (bs : List UInt8) :
    pieces none (String.utf8EncodeChar c ++ bs) = some c :: pieces none bs := by
  have hvalid : c.toNat < 0xD800 ∨ 0xDFFF < c.toNat ∧ c.toNat < 0x110000 := c.valid
  have hc : Char.ofNat c.toNat = c := Char.ofNat_toNat c
  simp only [String.utf8EncodeChar, Char.toNat_val]
  split
  next h1 =>
    rw [List.singleton_append, pieces_none_cons, lead_of_le_0x7F _ (by omega), hc]
    rfl
  next h1 =>
    split
    next h2 =>
      simp only [List.cons_append, List.nil_append]
      rw [pieces_none_cons, lead_two _ (by omega) (by omega), List.nil_append,
        pieces_finish bs (by omega) (by simp) (by dsimp only; omega) (by simp)]
      rw [show 64 * (c.toNat / 64 % 32) + c.toNat % 64 = c.toNat by omega, hc]
    next h2 =>
      split
      next h3 =>
        simp only [List.cons_append, List.nil_append]
        rw [pieces_none_cons, lead_three _ (by omega), List.nil_append,
          pieces_continue _ (by omega) (by dsimp only; split <;> omega)
            (by dsimp only; split <;> omega) (by simp),
          pieces_finish bs (by omega) (by simp) (by dsimp only; omega) (by simp)]
        dsimp only
        rw [show 64 * (64 * (c.toNat / 4096 % 16) + c.toNat / 64 % 64) + c.toNat % 64 = c.toNat by
          omega, hc]
      next h3 =>
        simp only [List.cons_append, List.nil_append]
        rw [pieces_none_cons, lead_four _ (by omega), List.nil_append,
          pieces_continue _ (by omega) (by dsimp only; split <;> omega)
            (by dsimp only; split <;> omega) (by simp),
          pieces_continue _ (by omega) (by simp) (by dsimp only; omega) (by simp),
          pieces_finish bs (by omega) (by simp) (by dsimp only; omega) (by simp)]
        dsimp only
        rw [show 64 * (64 * (64 * (c.toNat / 262144 % 8) + c.toNat / 4096 % 64) +
          c.toNat / 64 % 64) + c.toNat % 64 = c.toNat by omega, hc]

/-- The lossy reading gives back every text written. -/
theorem decodeLossy_encode (cs : List Char) : decodeLossy (encode cs) = cs := by
  have h : pieces none (encode cs) = cs.map some := by
    induction cs with
    | nil => rfl
    | cons c cs ih =>
      rw [encode, List.flatMap_cons, pieces_utf8EncodeChar, List.map_cons, ← ih, encode]
  rw [decodeLossy, h, List.map_map]
  exact List.map_id cs

end Utf8

namespace Form

/-! ## Bytes -/

theorem hexValue?_hexDigit : ∀ n < 16, hexValue? (hexDigit n) = some n := by decide

theorem hexByte?_hexDigit (b : UInt8) :
    hexByte? (hexDigit (b.toNat / 16)) (hexDigit (b.toNat % 16)) = some b := by
  have hb : b.toNat < 256 := b.toNat_lt
  rw [hexByte?, hexValue?_hexDigit _ (by omega), hexValue?_hexDigit _ (by omega)]
  dsimp only
  rw [Nat.div_add_mod, UInt8.ofNat_toNat]

theorem isPlain_control : ∀ n ≤ 0x20, isPlain (UInt8.ofNat n) = false := by decide

/-- A byte that stands for itself is an ASCII character that shows. -/
theorem graphic_of_isPlain {b : UInt8} (h : isPlain b = true) :
    0x20 < b.toNat ∧ b.toNat < 0x80 := by
  constructor
  · by_cases hlow : b.toNat ≤ 0x20
    · have hcontrol := isPlain_control b.toNat hlow
      rw [UInt8.ofNat_toNat, h] at hcontrol
      cases hcontrol
    · omega
  · simp only [isPlain, Bool.and_eq_true, decide_eq_true_eq] at h
    exact h.1

/-- No character with a meaning in form data stands for itself. -/
theorem ne_of_isPlain {b : UInt8} (h : isPlain b = true) :
    Char.ofNat b.toNat ≠ '+' ∧ Char.ofNat b.toNat ≠ '%' ∧ Char.ofNat b.toNat ≠ '&' ∧
      Char.ofNat b.toNat ≠ '=' := by
  simp only [isPlain, Bool.and_eq_true] at h
  refine ⟨fun hc => ?_, fun hc => ?_, fun hc => ?_, fun hc => ?_⟩ <;>
  · rw [hc] at h
    exact absurd h.2 (by decide)

theorem toNat_ofNat_of_lt {n : Nat} (h : n < 0x80) : (Char.ofNat n).toNat = n := by
  have hvalid : n.isValidChar := .inl (by omega)
  have hchar : Char.ofNat n = Char.ofNatAux n hvalid := dif_pos hvalid
  rw [hchar]
  rfl

theorem utf8EncodeChar_of_isPlain {b : UInt8} (h : isPlain b = true) :
    String.utf8EncodeChar (Char.ofNat b.toNat) = [b] := by
  have hb := (graphic_of_isPlain h).2
  simp only [String.utf8EncodeChar, Char.toNat_val, toNat_ofNat_of_lt hb]
  rw [if_pos (by omega), UInt8.ofNat_toNat]

theorem unescape_cons {c : Char} (hplus : c ≠ '+') (hpercent : c ≠ '%') (cs : List Char) :
    unescape (c :: cs) = String.utf8EncodeChar c ++ unescape cs := by
  rw [unescape]
  · exact hplus
  · intro a b rest hc
    exact absurd hc hpercent

/-- The characters that stand for a byte are read as that byte. -/
theorem unescape_escapeByte (b : UInt8) (cs : List Char) :
    unescape (escapeByte b ++ cs) = b :: unescape cs := by
  unfold escapeByte
  split
  next hplain =>
    obtain ⟨hplus, hpercent, -⟩ := ne_of_isPlain hplain
    rw [List.singleton_append, unescape_cons hplus hpercent, utf8EncodeChar_of_isPlain hplain,
      List.singleton_append]
  next =>
    split
    next hspace => rw [hspace, List.singleton_append, unescape]
    next =>
      rw [List.cons_append, List.cons_append, List.cons_append, List.nil_append, unescape,
        hexByte?_hexDigit]

theorem unescape_encodeText (s : String) : unescape (encodeText s) = Utf8.encode s.toList := by
  unfold encodeText
  induction Utf8.encode s.toList with
  | nil => rfl
  | cons b bs ih => rw [List.flatMap_cons, unescape_escapeByte, ih]

theorem decodeText_encodeText (s : String) : decodeText (encodeText s) = s := by
  rw [decodeText, unescape_encodeText, Utf8.decodeLossy_encode, String.ofList_toList]

theorem hexDigit_inert : ∀ n < 16,
    hexDigit n ≠ '&' ∧ hexDigit n ≠ '=' ∧ isBlank (hexDigit n) = false := by
  decide

/-- No character that stands for a byte separates anything or can be trimmed away. -/
theorem escapeByte_inert {b : UInt8} {c : Char} (h : c ∈ escapeByte b) :
    c ≠ '&' ∧ c ≠ '=' ∧ isBlank c = false := by
  have hb : b.toNat < 256 := b.toNat_lt
  unfold escapeByte at h
  split at h
  next hplain =>
    obtain ⟨hlow, hhigh⟩ := graphic_of_isPlain hplain
    have hcode := toNat_ofNat_of_lt hhigh
    obtain rfl := List.mem_singleton.mp h
    exact ⟨(ne_of_isPlain hplain).2.2.1, (ne_of_isPlain hplain).2.2.2,
      isBlank_of_graphic (by omega) (by omega)⟩
  next =>
    split at h
    next =>
      obtain rfl := List.mem_singleton.mp h
      decide
    next =>
      simp only [List.mem_cons, List.not_mem_nil, or_false] at h
      rcases h with rfl | rfl | rfl
      · decide
      · exact hexDigit_inert _ (by omega)
      · exact hexDigit_inert _ (by omega)

theorem encodeText_inert {s : String} {c : Char} (h : c ∈ encodeText s) :
    c ≠ '&' ∧ c ≠ '=' ∧ isBlank c = false := by
  obtain ⟨b, -, hb⟩ := List.mem_flatMap.mp h
  exact escapeByte_inert hb

/-- Characters other than the two with a meaning stand for themselves. -/
theorem decodeText_of_plain {cs : List Char} (h : ∀ c ∈ cs, c ≠ '+' ∧ c ≠ '%') :
    decodeText cs = String.ofList cs := by
  have hbytes : unescape cs = Utf8.encode cs := by
    induction cs with
    | nil => rfl
    | cons c cs ih =>
      obtain ⟨hplus, hpercent⟩ := h c List.mem_cons_self
      rw [unescape_cons hplus hpercent, ih fun d hd => h d (List.mem_cons_of_mem c hd)]
      rfl
  rw [decodeText, hbytes, Utf8.decodeLossy_encode]

/-! ## Pairs -/

theorem decodePair_encodePair (p : Pair) : decodePair (encodePair p) = p := by
  have hname : '=' ∉ encodeText p.1 := fun h => (encodeText_inert h).2.1 rfl
  rw [decodePair, encodePair, takeWhile_ne_append hname, dropWhile_ne_append hname,
    List.drop_succ_cons, List.drop_zero, decodeText_encodeText, decodeText_encodeText]

theorem encodePair_inert {p : Pair} {c : Char} (h : c ∈ encodePair p) :
    c ≠ '&' ∧ isBlank c = false := by
  rw [encodePair, List.mem_append, List.mem_cons] at h
  rcases h with h | rfl | h
  · exact ⟨(encodeText_inert h).1, (encodeText_inert h).2.2⟩
  · exact ⟨by decide, by decide⟩
  · exact ⟨(encodeText_inert h).1, (encodeText_inert h).2.2⟩

theorem encodePair_ne_nil (p : Pair) : encodePair p ≠ [] := by
  rw [encodePair]
  exact List.append_ne_nil_of_right_ne_nil _ (List.cons_ne_nil _ _)

/-- Form data reads back as the pairs it was written for. -/
theorem decode_encode (pairs : List Pair) : decode (encode pairs) = pairs := by
  by_cases hp : pairs = []
  · rw [hp]
    rfl
  · have hsplit : (encode pairs).splitOn '&' = pairs.map encodePair := by
      apply List.splitOn_intercalate
      · intro piece hpiece hmem
        obtain ⟨p, -, rfl⟩ := List.mem_map.mp hpiece
        exact (encodePair_inert hmem).1 rfl
      · exact fun h => hp (List.map_eq_nil_iff.mp h)
    have hkept : (pairs.map encodePair).filter (· ≠ []) = pairs.map encodePair := by
      apply List.filter_eq_self.mpr
      intro piece hpiece
      obtain ⟨p, -, rfl⟩ := List.mem_map.mp hpiece
      exact decide_eq_true (encodePair_ne_nil p)
    have hid : decodePair ∘ encodePair = id := funext decodePair_encodePair
    rw [decode, hsplit, hkept, List.map_map, hid, List.map_id]

/-- A pair that needs no escapes may be written without any. -/
theorem decode_of_plain {name value : List Char}
    (hname : ∀ c ∈ name, c ≠ '=' ∧ c ≠ '&' ∧ c ≠ '+' ∧ c ≠ '%')
    (hvalue : ∀ c ∈ value, c ≠ '&' ∧ c ≠ '+' ∧ c ≠ '%') :
    decode (name ++ '=' :: value) = [(String.ofList name, String.ofList value)] := by
  have hsep : '&' ∉ name ++ '=' :: value := by
    simp only [List.mem_append, List.mem_cons, not_or]
    exact ⟨fun h => (hname _ h).2.1 rfl, by decide, fun h => (hvalue _ h).1 rfl⟩
  have hkept : [name ++ '=' :: value].filter (· ≠ []) = [name ++ '=' :: value] := by simp
  have hequals : '=' ∉ name := fun h => (hname _ h).1 rfl
  rw [decode, List.splitOn_eq_singleton hsep, hkept, List.map_cons, List.map_nil, decodePair,
    takeWhile_ne_append hequals, dropWhile_ne_append hequals, List.drop_succ_cons, List.drop_zero,
    decodeText_of_plain fun c hc => (hname c hc).2.2,
    decodeText_of_plain fun c hc => (hvalue c hc).2]

/-- Form data has no blanks for trimming to drop. -/
theorem trim_encode (pairs : List Pair) : trim (encode pairs) = encode pairs := by
  apply trim_of_no_blank
  intro c hc
  rcases mem_of_mem_intercalate hc with rfl | ⟨piece, hpiece, hc⟩
  · decide
  · obtain ⟨p, -, rfl⟩ := List.mem_map.mp hpiece
    exact (encodePair_inert hc).2

end Form

end RecordQuery.Text
