import RecordQuery.Text.Hex
import RecordQuery.Text.Utf8

/-!
# Form encoding

Form data is a list of name and value pairs: `name=value` pieces joined by `&`. Letters,
digits and `*-._` stand for themselves, `+` for a space, and `%XX` for any byte of the
UTF-8 text. Reading never fails: a `%` without two hexadecimal digits stands for itself
and bytes that are not UTF-8 are replaced.
-/

namespace RecordQuery.Text.Form

/-- A name and its value. -/
abbrev Pair := String × String

/-- The byte written by two hexadecimal digits. -/
def hexByte? (a b : Char) : Option UInt8 :=
  match hexValue? a, hexValue? b with
  | some h, some l => some (UInt8.ofNat (16 * h + l))
  | _, _ => none

/-- The bytes that one side of a pair stands for. -/
def unescape : List Char → List UInt8
  | [] => []
  | '+' :: cs => 0x20 :: unescape cs
  | '%' :: a :: b :: cs =>
    match hexByte? a b with
    | some byte => byte :: unescape cs
    | none => 0x25 :: unescape (a :: b :: cs)
  | c :: cs => String.utf8EncodeChar c ++ unescape cs

/-- The text that one side of a pair stands for. -/
def decodeText (cs : List Char) : String :=
  String.ofList (Utf8.decodeLossy (unescape cs))

/-- A piece without `=` is a name with an empty value. -/
def decodePair (piece : List Char) : Pair :=
  (decodeText (piece.takeWhile (· != '=')), decodeText ((piece.dropWhile (· != '=')).drop 1))

/-- The pairs of form data, in order; empty pieces are no pairs. -/
def decode (cs : List Char) : List Pair :=
  ((cs.splitOn '&').filter (· ≠ [])).map decodePair

/-- The last value given to a name. -/
def lastValue? (pairs : List Pair) (name : String) : Option String :=
  (pairs.reverse.find? (·.1 = name)).map (·.2)

/-- Bytes that stand for themselves. -/
def isPlain (b : UInt8) : Bool :=
  let c := Char.ofNat b.toNat
  b.toNat < 0x80 && (c.isAlphanum || c == '*' || c == '-' || c == '.' || c == '_')

/-- An upper case hexadecimal digit. -/
def hexDigit (n : Nat) : Char :=
  if n < 10 then Char.ofNat ('0'.toNat + n) else Char.ofNat ('A'.toNat + (n - 10))

/-- The characters that stand for a byte. -/
def escapeByte (b : UInt8) : List Char :=
  if isPlain b then [Char.ofNat b.toNat]
  else if b = 0x20 then ['+']
  else ['%', hexDigit (b.toNat / 16), hexDigit (b.toNat % 16)]

/-- One side of a pair. -/
def encodeText (s : String) : List Char :=
  (Utf8.encode s.toList).flatMap escapeByte

/-- A piece of form data. -/
def encodePair (p : Pair) : List Char :=
  encodeText p.1 ++ '=' :: encodeText p.2

/-- Form data that holds the given pairs. -/
def encode (pairs : List Pair) : List Char :=
  ['&'].intercalate (pairs.map encodePair)

example : decode "a=b+c&&x%3d%zz=%E2%82&y".toList =
    [("a", "b c"), ("x=%zz", "\ufffd"), ("y", "")] := by decide +kernel
example : String.ofList (encode [("a b", "é&1"), ("c", "")]) = "a+b=%C3%A9%261&c=" := by
  decide +kernel

end RecordQuery.Text.Form
