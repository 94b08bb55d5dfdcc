/-!
# UTF-8

Bytes are cut into pieces from the left: a piece is a character, or a longest run of
bytes that starts some character and cannot be finished. The strict reading refuses a
piece of the second kind and the lossy reading puts a replacement character for it.
-/

namespace RecordQuery.Text.Utf8

/-- A character begun but not finished: the bits so far, the number of bytes still owed,
and the range that the next byte must lie in. -/
structure Pending where
  code : Nat
  owed : Nat
  low : Nat
  high : Nat
deriving DecidableEq, Repr

/-- Pieces found so far, and the character begun after them. -/
abbrev Step := List (Option Char) × Option Pending

/-- A byte read where a character may begin. -/
def lead (b : UInt8) : Step :=
  let n := b.toNat
  if n ≤ 0x7F then ([some (Char.ofNat n)], none)
  else if 0xC2 ≤ n ∧ n ≤ 0xDF then ([], some ⟨n - 0xC0, 1, 0x80, 0xBF⟩)
  else if n = 0xE0 then ([], some ⟨0x0, 2, 0xA0, 0xBF⟩)
  else if n = 0xED then ([], some ⟨0xD, 2, 0x80, 0x9F⟩)
  else if 0xE1 ≤ n ∧ n ≤ 0xEF then ([], some ⟨n - 0xE0, 2, 0x80, 0xBF⟩)
  else if n = 0xF0 then ([], some ⟨0x0, 3, 0x90, 0xBF⟩)
  else if 0xF1 ≤ n ∧ n ≤ 0xF3 then ([], some ⟨n - 0xF0, 3, 0x80, 0xBF⟩)
  else if n = 0xF4 then ([], some ⟨0x4, 3, 0x80, 0x8F⟩)
  else ([none], none)

/-- One more byte of a character begun, which ends it, prolongs it or cuts it short. -/
def step (p : Pending) (b : UInt8) : Step :=
  if p.low ≤ b.toNat ∧ b.toNat ≤ p.high then
    let code := 64 * p.code + (b.toNat - 0x80)
    if p.owed ≤ 1 then ([some (Char.ofNat code)], none)
    else ([], some ⟨code, p.owed - 1, 0x80, 0xBF⟩)
  else
    let next := lead b
    (none :: next.1, next.2)

/-- The pieces of a byte sequence, `none` for each one that is no character. -/
def pieces : Option Pending → List UInt8 → List (Option Char)
  | none, [] => []
  | some _, [] => [none]
  | none, b :: bs => (lead b).1 ++ pieces (lead b).2 bs
  | some p, b :: bs => (step p b).1 ++ pieces (step p b).2 bs

/-- The strict reading: `none` unless every piece is a character. -/
def decode? (bytes : List UInt8) : Option (List Char) :=
  (pieces none bytes).mapM id

/-- The lossy reading. -/
def decodeLossy (bytes : List UInt8) : List Char :=
  (pieces none bytes).map (·.getD '\ufffd')

/-- The bytes of a text. -/
def encode (cs : List Char) : List UInt8 :=
  cs.flatMap String.utf8EncodeChar

example : decode? (encode "aé€😀".toList) = some "aé€😀".toList := by decide +kernel
example : decodeLossy [0xE2, 0x82, 0x41, 0xFF, 0xF0, 0x9F] = "\ufffdA\ufffd\ufffd".toList := by
  decide +kernel
example : decode? [0xED, 0xA0, 0x80] = none := by decide +kernel

end RecordQuery.Text.Utf8
