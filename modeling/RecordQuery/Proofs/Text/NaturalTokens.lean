import Mathlib.Data.List.Chain
import RecordQuery.Proofs.Text.NaturalOrder
import RecordQuery.Proofs.Text.Span

/-!
# Natural order token by token

A text is cut into tokens in one way only: runs of digits that cannot be longer, and single other
characters. Natural order compares two texts from the left, by these tokens: runs by the numbers
they write, characters by their lower case, and a run stands where the digit zero stands.
-/

namespace RecordQuery.Text

/-- A run of digits, or one other character. -/
inductive Token where
  | digits (run : List Char) (isNumeral : IsNumeral run)
  | other (c : Char) (notDigit : c.isDigit = false)

namespace Token

/-- The part of a text that a token is. -/
def text : Token → List Char
  | .digits run _ => run
  | .other c _ => [c]

def isRun : Token → Bool
  | .digits _ _ => true
  | .other _ _ => false

/-- Runs of digits compare by the numbers they write, other characters by their lower case; against
another character every run stands where a zero stands. -/
def order : Token → Token → Ordering
  | .digits a _, .digits b _ => compare (numeral a) (numeral b)
  | .digits _ _, .other c _ => compareChars ['0'] (lowercaseChar c)
  | .other c _, .digits _ _ => compareChars (lowercaseChar c) ['0']
  | .other a _, .other b _ => compareChars (lowercaseChar a) (lowercaseChar b)

/-- The piece of a text that a token is to natural order. -/
def piece : Token → Piece
  | .digits run _ => .number (numeral run)
  | .other c h => .letter c h

theorem order_eq_order_piece (x y : Token) : x.order y = x.piece.order y.piece := by
  cases x <;> cases y <;> rfl

theorem compareLex_map_piece (xs ys : List Token) :
    List.compareLex Piece.order (xs.map piece) (ys.map piece) = List.compareLex order xs ys := by
  induction xs generalizing ys with
  | nil => cases ys <;> rfl
  | cons x xs ih =>
    cases ys with
    | nil => rfl
    | cons y ys =>
      rw [List.map_cons, List.map_cons, List.compareLex_cons_cons, List.compareLex_cons_cons, ih,
        order_eq_order_piece]

end Token

/-- Tokens that make up a text, no run of digits going on in the next one. -/
structure IsCut (cs : List Char) (tokens : List Token) : Prop where
  joined : tokens.flatMap Token.text = cs
  maximal : tokens.IsChain fun x y => ¬ (x.isRun = true ∧ y.isRun = true)

/-- The tokens of a text. -/
def tokens : List Char → List Token
  | [] => []
  | c :: cs =>
    if h : c.isDigit = true then
      .digits (c :: cs.takeWhile Char.isDigit) ⟨List.cons_ne_nil _ _, digits_of_run cs h⟩ ::
        tokens (cs.dropWhile Char.isDigit)
    else .other c (Bool.not_eq_true _ ▸ h) :: tokens cs
termination_by cs => cs.length
decreasing_by
  · have := (List.dropWhile_sublist Char.isDigit (l := cs)).length_le
    simp only [List.length_cons]
    omega
  · simp

theorem tokens_digit {c : Char} (cs : List Char) (h : c.isDigit = true) :
    tokens (c :: cs) =
      .digits (c :: cs.takeWhile Char.isDigit) ⟨List.cons_ne_nil _ _, digits_of_run cs h⟩ ::
        tokens (cs.dropWhile Char.isDigit) := by
  rw [tokens, dif_pos h]

theorem tokens_other {c : Char} (cs : List Char) (h : c.isDigit = false) :
    tokens (c :: cs) = .other c h :: tokens cs := by
  rw [tokens, dif_neg (by simp [h])]

/-- The pieces that natural order takes are the tokens, with each run by the number it writes. -/
theorem pieces_eq_map_tokens (cs : List Char) : pieces cs = (tokens cs).map Token.piece := by
  induction cs using tokens.induct with
  | case1 => simp [pieces, tokens]
  | case2 c cs h ih =>
    rw [pieces_digit cs h, tokens_digit cs h, List.map_cons, ih]
    rfl
  | case3 c cs h ih =>
    rw [Bool.not_eq_true] at h
    rw [pieces_letter cs h, tokens_other cs h, List.map_cons, ih]
    rfl

theorem isRun_of_head?_tokens {cs : List Char} (h : Stops Char.isDigit cs) {x : Token}
    (hx : x ∈ (tokens cs).head?) : x.isRun = false := by
  cases cs with
  | nil => simp [tokens] at hx
  | cons c cs =>
    rw [tokens_other cs (stops_cons.mp h), List.head?_cons] at hx
    rw [← Option.some.inj hx]
    rfl

theorem isCut_tokens (cs : List Char) : IsCut cs (tokens cs) := by
  induction cs using tokens.induct with
  | case1 =>
    rw [tokens]
    exact ⟨rfl, List.isChain_nil⟩
  | case2 c cs h ih =>
    rw [tokens_digit cs h]
    refine ⟨?_, List.isChain_cons.mpr ⟨fun y hy hrun => ?_, ih.maximal⟩⟩
    · rw [List.flatMap_cons, ih.joined, Token.text, List.cons_append,
        List.takeWhile_append_dropWhile]
    · rw [isRun_of_head?_tokens (stops_dropWhile cs) hy] at hrun
      cases hrun.2
  | case3 c cs h ih =>
    rw [Bool.not_eq_true] at h
    rw [tokens_other cs h]
    refine ⟨?_, List.isChain_cons.mpr ⟨fun y hy hrun => ?_, ih.maximal⟩⟩
    · rw [List.flatMap_cons, ih.joined, Token.text, List.singleton_append]
    · cases hrun.1

/-- After a run of digits the text does not go on with a digit. -/
theorem IsCut.stops {cs run : List Char} {h : IsNumeral run} {ts : List Token}
    (hcut : IsCut cs (.digits run h :: ts)) : Stops Char.isDigit (ts.flatMap Token.text) := by
  cases ts with
  | nil => exact stops_nil
  | cons y ts =>
    have hrun := (List.isChain_cons_cons.mp hcut.maximal).1
    cases y with
    | digits run' h' => exact absurd ⟨rfl, rfl⟩ hrun
    | other c hc => exact stops_cons.mpr hc

/-- A text is cut in one way only. -/
theorem IsCut.eq_tokens {cs : List Char} {ts : List Token} (h : IsCut cs ts) : ts = tokens cs := by
  induction ts generalizing cs with
  | nil =>
    rw [← h.joined, List.flatMap_nil, tokens]
  | cons t ts ih =>
    have hrest : ts = tokens (ts.flatMap Token.text) := ih ⟨rfl, h.maximal.tail⟩
    have hjoined := h.joined
    rw [List.flatMap_cons] at hjoined
    cases t with
    | digits run hrun =>
      have hstops := h.stops
      obtain ⟨c, cs', rfl⟩ := List.exists_cons_of_ne_nil hrun.ne
      have hdigits := List.forall_mem_cons.mp hrun.digits
      rw [← hjoined, Token.text, List.cons_append, tokens_digit _ hdigits.1]
      simp only [takeWhile_span hdigits.2 hstops, dropWhile_span hdigits.2 hstops, ← hrest]
    | other c hc =>
      rw [← hjoined, Token.text, List.singleton_append, tokens_other _ hc, ← hrest]

/-- Two texts have one cut into tokens each, and natural order is the lexicographic order of the
tokens: the first two that differ decide, and a text that runs out of tokens first is less. -/
theorem naturalOrder_by_tokens (a b : List Char) :
    ∃ as bs, (∀ ts, IsCut a ts ↔ ts = as) ∧ (∀ ts, IsCut b ts ↔ ts = bs) ∧
      naturalOrder a b = List.compareLex Token.order as bs := by
  have hcut : ∀ cs ts, IsCut cs ts ↔ ts = tokens cs := fun cs ts =>
    ⟨IsCut.eq_tokens, fun h => h ▸ isCut_tokens cs⟩
  refine ⟨tokens a, tokens b, hcut a, hcut b, ?_⟩
  rw [naturalOrder_eq_compareLex, pieces_eq_map_tokens, pieces_eq_map_tokens,
    Token.compareLex_map_piece]

end RecordQuery.Text
