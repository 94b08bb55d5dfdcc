import RecordQuery.Text.Utf8

/-!
# Code point order is byte order

Texts in the order of their code points are in the order of their bytes: of two characters the
lesser one has the lesser first byte, or as many bytes as the other and lesser ones among those
that follow.
-/

namespace RecordQuery.Text.Utf8

/-- A list of bytes is less than another if its first byte is, or if that byte is the same and the
rest is less. -/
theorem cons_lt_cons_of_le {m n : Nat} (hn : n < 256) (hle : m ≤ n) {xs ys : List UInt8}
    (h : m = n → xs < ys) : UInt8.ofNat m :: xs < UInt8.ofNat n :: ys := by
  rw [List.cons_lt_cons_iff]
  by_cases heq : m = n
  · exact .inr ⟨congrArg UInt8.ofNat heq, h heq⟩
  · have hm : (UInt8.ofNat m).toNat = m := UInt8.toNat_ofNat_of_lt' (Nat.lt_of_le_of_lt hle hn)
    have hn' : (UInt8.ofNat n).toNat = n := UInt8.toNat_ofNat_of_lt' hn
    left
    rw [UInt8.lt_iff_toNat_lt, hm, hn']
    exact Nat.lt_of_le_of_ne hle heq

/-- A lesser character has lesser bytes, whatever follows. -/
theorem utf8EncodeChar_append_lt {c d : Char} (h : c < d) (xs ys : List UInt8) :
    String.utf8EncodeChar c ++ xs < String.utf8EncodeChar d ++ ys := by
  have hlt : c.toNat < d.toNat := UInt32.lt_iff_toNat_lt.mp (Char.lt_def.mp h)
  have hd : d.toNat < 0xD800 ∨ 0xDFFF < d.toNat ∧ d.toNat < 0x110000 := d.valid
  simp only [String.utf8EncodeChar, Char.toNat_val]
  -- A character of fewer bytes has a lesser first byte, so only equal lengths go beyond it.
  split
  next =>
    split
    next => exact cons_lt_cons_of_le (by omega) (by omega) fun _ => by omega
    next =>
      split
      next => exact cons_lt_cons_of_le (by omega) (by omega) fun _ => by omega
      next => split <;> exact cons_lt_cons_of_le (by omega) (by omega) fun _ => by omega
  next =>
    rw [if_neg (by omega : ¬ d.toNat ≤ 0x7F)]
    split
    next =>
      split
      next =>
        exact cons_lt_cons_of_le (by omega) (by omega) fun _ =>
          cons_lt_cons_of_le (by omega) (by omega) fun _ => by omega
      next => split <;> exact cons_lt_cons_of_le (by omega) (by omega) fun _ => by omega
    next =>
      rw [if_neg (by omega : ¬ d.toNat ≤ 0x7FF)]
      split
      next =>
        split
        next =>
          exact cons_lt_cons_of_le (by omega) (by omega) fun _ =>
            cons_lt_cons_of_le (by omega) (by omega) fun _ =>
              cons_lt_cons_of_le (by omega) (by omega) fun _ => by omega
        next => exact cons_lt_cons_of_le (by omega) (by omega) fun _ => by omega
      next =>
        rw [if_neg (by omega : ¬ d.toNat ≤ 0xFFFF)]
        exact cons_lt_cons_of_le (by omega) (by omega) fun _ =>
          cons_lt_cons_of_le (by omega) (by omega) fun _ =>
            cons_lt_cons_of_le (by omega) (by omega) fun _ =>
              cons_lt_cons_of_le (by omega) (by omega) fun _ => by omega

theorem encode_cons (c : Char) (cs : List Char) :
    encode (c :: cs) = String.utf8EncodeChar c ++ encode cs := List.flatMap_cons

/-- A text that comes before another comes before it by its bytes. -/
theorem encode_lt_encode {cs ds : List Char} (h : cs < ds) : encode cs < encode ds := by
  induction h with
  | @nil d ds =>
    rw [encode_cons]
    cases hbytes : String.utf8EncodeChar d with
    | nil => exact absurd hbytes (String.utf8EncodeChar_ne_nil)
    | cons b bs => exact List.nil_lt_cons b _
  | @rel c cs d ds hlt =>
    rw [encode_cons, encode_cons]
    exact utf8EncodeChar_append_lt hlt _ _
  | @cons c cs ds hrest ih =>
    rw [encode_cons, encode_cons]
    exact List.append_left_lt ih

end RecordQuery.Text.Utf8
