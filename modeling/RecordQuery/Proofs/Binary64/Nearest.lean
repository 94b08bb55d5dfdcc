import Mathlib.Algebra.Order.Ring.Nat
import Mathlib.Data.Nat.Dist
import Mathlib.Order.Monotone.Basic
import RecordQuery.Proofs.Binary64.Numeral

/-!
# Integers and the numbers nearest to them

No finite number is nearer to an integer than the one it is rounded to, and if another is as near,
that one is even. It keeps the first 53 significant bits, so its value is an integer again. Up to
`2 ^ 53` it is the same integer. Beyond that several integers share their nearest number, but
rounding never turns two of them round: the order of numbers is the order of the integers nearest to
them.
-/

namespace RecordQuery.Binary64

/-! ## Division to the nearest natural -/

theorem divideToEven_mul {d : Nat} (hd : 0 < d) (k : Nat) : divideToEven (k * d) d = k := by
  simp only [divideToEven, Nat.mul_div_cancel k hd, Nat.mul_mod_left]
  rw [if_neg (by omega)]

theorem divideToEven_mul_mul {c : Nat} (hc : 0 < c) (n d : Nat) :
    divideToEven (n * c) (d * c) = divideToEven n d := by
  have hrest : 2 * (n % d * c) = 2 * (n % d) * c := (Nat.mul_assoc _ _ _).symm
  simp only [divideToEven, Nat.mul_div_mul_right _ _ hc, Nat.mul_mod_mul_right, hrest,
    Nat.mul_lt_mul_right hc, Nat.mul_right_cancel_iff hc]

theorem divideToEven_mul_of_dvd {n d : Nat} (hd : 0 < d) (h : d ∣ n) :
    divideToEven n d * d = n := by
  obtain ⟨k, rfl⟩ := h
  rw [Nat.mul_comm d k, divideToEven_mul hd]

/-- A multiple is one of two neighbours or at least a whole divisor away from them. -/
theorem multiple_cases (k q d : Nat) :
    k * d + d ≤ q * d ∨ k = q ∨ k = q + 1 ∨ q * d + 2 * d ≤ k * d := by
  have hlow : k + 1 ≤ q → k * d + d ≤ q * d := fun h =>
    Nat.succ_mul k d ▸ Nat.mul_le_mul_right d h
  have hhigh : q + 2 ≤ k → q * d + 2 * d ≤ k * d := fun h =>
    Nat.add_mul q 2 d ▸ Nat.mul_le_mul_right d h
  omega

/-- No multiple of the divisor is nearer than that of the rounded quotient, and if another one is as
near, the quotient is even. -/
theorem divideToEven_nearest {d : Nat} (hd : 0 < d) (n k : Nat) :
    Nat.dist (divideToEven n d * d) n ≤ Nat.dist (k * d) n ∧
      (Nat.dist (k * d) n = Nat.dist (divideToEven n d * d) n → k ≠ divideToEven n d →
        divideToEven n d % 2 = 0) := by
  have hn := Nat.div_add_mod' n d
  have hrest := Nat.mod_lt n hd
  have hnext : (n / d + 1) * d = n / d * d + d := Nat.succ_mul _ _
  have hk := multiple_cases k (n / d) d
  unfold Nat.dist divideToEven
  dsimp only
  rcases hk with hk | rfl | rfl | hk
  all_goals split <;> omega

/-- A greater number never rounds to a lesser one. -/
theorem divideToEven_mono {n m : Nat} (d : Nat) (h : n ≤ m) :
    divideToEven n d ≤ divideToEven m d := by
  have hn := Nat.div_add_mod n d
  have hm := Nat.div_add_mod m d
  dsimp only [divideToEven]
  rcases Nat.eq_or_lt_of_le (Nat.div_le_div_right (c := d) h) with hq | hq
  · -- With one quotient the greater rest rounds up if the lesser one does.
    rw [hq] at hn ⊢
    split <;> split <;> omega
  · split <;> split <;> omega

/-! ## The values of magnitudes -/

theorem rowLength_pos : 0 < rowLength := by decide

theorem units_row (row : Nat) {offset : Nat} (h : offset < rowLength) :
    units (row * rowLength + offset) =
      if row = 0 then offset else (rowLength + offset) * 2 ^ (row - 1) := by
  have hdiv : (row * rowLength + offset) / rowLength = row := by
    rw [Nat.mul_comm, Nat.mul_add_div rowLength_pos, Nat.div_eq_of_lt h, Nat.add_zero]
  have hmod : (row * rowLength + offset) % rowLength = offset := by
    rw [Nat.mul_comm, Nat.mul_add_mod, Nat.mod_eq_of_lt h]
  simp only [units, hdiv, hmod]
  split
  next hrow => rw [hrow, Nat.zero_mul, Nat.zero_add]
  next => rfl

theorem units_lt_units_succ (magnitude : Nat) : units magnitude < units (magnitude + 1) := by
  have hpos := rowLength_pos
  have hoffset := Nat.mod_lt magnitude hpos
  have hsplit := Nat.div_add_mod' magnitude rowLength
  generalize magnitude / rowLength = row at hsplit
  generalize magnitude % rowLength = offset at hsplit hoffset
  subst hsplit
  by_cases hlast : offset + 1 < rowLength
  · rw [Nat.add_assoc, units_row row hoffset, units_row row hlast]
    split
    · exact Nat.lt_succ_self offset
    · exact Nat.mul_lt_mul_of_pos_right (by omega) (Nat.two_pow_pos _)
  · -- The next magnitude is the first of the next row.
    have hnext : row * rowLength + offset + 1 = (row + 1) * rowLength + 0 := by
      rw [Nat.succ_mul]
      omega
    rw [hnext, units_row row hoffset, units_row (row + 1) hpos, if_neg (Nat.succ_ne_zero row),
      Nat.add_sub_cancel, Nat.add_zero]
    cases row with
    | zero => rwa [if_pos rfl, Nat.pow_zero, Nat.mul_one]
    | succ row =>
      rw [if_neg (Nat.succ_ne_zero row), Nat.add_sub_cancel, Nat.pow_succ', ← Nat.mul_assoc]
      exact Nat.mul_lt_mul_of_pos_right (by omega) (Nat.two_pow_pos _)

theorem units_strictMono : StrictMono units := strictMono_nat_of_lt_succ units_lt_units_succ

/-- A significand of 53 bits, shifted, is the value of a magnitude. -/
theorem units_significand {significand : Nat} (shift : Nat) (hlow : rowLength ≤ significand)
    (hhigh : significand ≤ 2 * rowLength) :
    units (shift * rowLength + significand) = significand * 2 ^ shift := by
  have hpos := rowLength_pos
  rcases Nat.eq_or_lt_of_le hhigh with rfl | hlt
  · have hrow : shift * rowLength + 2 * rowLength = (shift + 2) * rowLength + 0 := by
      rw [Nat.add_mul, Nat.add_zero]
    rw [hrow, units_row _ hpos, if_neg (Nat.succ_ne_zero _), Nat.add_zero,
      show shift + 2 - 1 = shift + 1 by omega, Nat.pow_succ', ← Nat.mul_assoc,
      Nat.mul_comm rowLength 2]
  · have hrow : shift * rowLength + significand =
        (shift + 1) * rowLength + (significand - rowLength) := by
      rw [Nat.succ_mul]
      omega
    rw [hrow, units_row _ (by omega), if_neg (Nat.succ_ne_zero _), Nat.add_sub_cancel,
      show rowLength + (significand - rowLength) = significand by omega]

/-- The value of a magnitude is a multiple of `2 ^ shift`, or less than every significand of 53 bits
shifted as far. -/
theorem units_grid (magnitude shift : Nat) :
    (∃ k, units magnitude = k * 2 ^ shift) ∨ units magnitude < rowLength * 2 ^ shift := by
  obtain ⟨significand, exponent, hsignificand, hunits⟩ : ∃ significand exponent,
      significand < 2 * rowLength ∧ units magnitude = significand * 2 ^ exponent := by
    have hoffset := Nat.mod_lt magnitude rowLength_pos
    rw [← Nat.div_add_mod' magnitude rowLength, units_row _ hoffset]
    split
    next => exact ⟨magnitude % rowLength, 0, by omega, (Nat.mul_one _).symm⟩
    next => exact ⟨rowLength + magnitude % rowLength, _, by omega, rfl⟩
  rw [hunits]
  rcases Nat.lt_or_ge exponent shift with h | h
  · right
    calc significand * 2 ^ exponent < 2 * rowLength * 2 ^ exponent :=
          Nat.mul_lt_mul_of_pos_right hsignificand (Nat.two_pow_pos _)
      _ = rowLength * 2 ^ (exponent + 1) := by
          rw [Nat.pow_succ', Nat.mul_comm 2 rowLength, Nat.mul_assoc]
      _ ≤ rowLength * 2 ^ shift := Nat.mul_le_mul_left _ (Nat.pow_le_pow_right (by decide) h)
  · left
    obtain ⟨more, rfl⟩ := Nat.exists_eq_add_of_le' h
    exact ⟨significand * 2 ^ more, by rw [Nat.pow_add, Nat.mul_assoc]⟩

/-- The value of a finite number, in multiples of `2 ^ -smallest`. -/
def value (x : Binary64) : Int :=
  if x.isNegative then -(units x.magnitude : Int) else units x.magnitude

theorem compare_congr {a b c d : Int} (hlt : a < b ↔ c < d) (heq : a = b ↔ c = d) :
    compare a b = compare c d := by
  rcases Int.lt_trichotomy a b with h | h | h
  · rw [Int.compare_eq_lt.mpr h, Int.compare_eq_lt.mpr (hlt.mp h)]
  · rw [Int.compare_eq_eq.mpr h, Int.compare_eq_eq.mpr (heq.mp h)]
  · have hgt : d < c := by omega
    rw [Int.compare_eq_gt.mpr h, Int.compare_eq_gt.mpr hgt]

/-- Numbers are ordered by their values. -/
theorem compare_rank (x y : Binary64) : compare x.rank y.rank = compare x.value y.value := by
  have hzero : units 0 = 0 := rfl
  have hx := units_strictMono.le_iff_le (a := x.magnitude) (b := 0)
  have hy := units_strictMono.le_iff_le (a := y.magnitude) (b := 0)
  have hxy := units_strictMono.le_iff_le (a := x.magnitude) (b := y.magnitude)
  have hyx := units_strictMono.le_iff_le (a := y.magnitude) (b := x.magnitude)
  rw [hzero] at hx hy
  apply compare_congr
  all_goals
    unfold rank value
    split <;> split <;> omega

/-! ## Nearest integers -/

/-- The distance of the numbers around a natural number that has more than 53 significant bits;
one for lesser ones. -/
def spacing (n : Nat) : Nat := Nat.pow 2 (Nat.log2 n - fractionBits)

/-- The value of the number nearest to a natural number: the nearest multiple of the spacing, a
tie to the even one. -/
def nearestNat (n : Nat) : Nat := divideToEven n (spacing n) * spacing n

/-- The value of the number nearest to an integer. -/
def nearest (i : Int) : Int :=
  if i < 0 then -(nearestNat i.natAbs : Int) else nearestNat i.natAbs

theorem spacing_eq (n : Nat) : spacing n = 2 ^ (Nat.log2 n - fractionBits) := rfl

theorem spacing_pos (n : Nat) : 0 < spacing n := Nat.two_pow_pos _

theorem nearestNat_of_dvd {n : Nat} (h : spacing n ∣ n) : nearestNat n = n :=
  divideToEven_mul_of_dvd (spacing_pos n) h

theorem spacing_of_log2_le {n : Nat} (h : n.log2 ≤ fractionBits) : spacing n = 1 := by
  rw [spacing_eq, Nat.sub_eq_zero_of_le h, Nat.pow_zero]

theorem log2_mul_two_pow {n : Nat} (hn : n ≠ 0) (k : Nat) : (n * 2 ^ k).log2 = n.log2 + k := by
  have hpos := Nat.two_pow_pos k
  rw [Nat.log2_eq_iff (Nat.mul_ne_zero hn (Nat.ne_of_gt hpos))]
  constructor
  · rw [Nat.pow_add]
    exact Nat.mul_le_mul_right _ (Nat.log2_self_le hn)
  · rw [Nat.add_right_comm, Nat.pow_add]
    exact Nat.mul_lt_mul_of_pos_right Nat.lt_log2_self hpos

/-- Rounding keeps a number of significant bits, wherever they stand. -/
theorem nearestNat_mul_two_pow {n : Nat} (hn : n ≠ 0) (k : Nat) :
    nearestNat (n * 2 ^ k) = nearestNat n * 2 ^ k := by
  have hlog := log2_mul_two_pow hn k
  rcases Nat.le_total fractionBits n.log2 with h | h
  · have hspacing : spacing (n * 2 ^ k) = spacing n * 2 ^ k := by
      rw [spacing_eq, spacing_eq, hlog, ← Nat.pow_add]
      congr 1
      omega
    rw [nearestNat, hspacing, divideToEven_mul_mul (Nat.two_pow_pos k), nearestNat, Nat.mul_assoc]
  · -- All bits of the number are kept.
    have hdvd : spacing (n * 2 ^ k) ∣ n * 2 ^ k := by
      rw [spacing_eq, hlog]
      exact Nat.dvd_mul_left_of_dvd (Nat.pow_dvd_pow 2 (by omega)) n
    have hone : spacing n ∣ n := by
      rw [spacing_of_log2_le h]
      exact Nat.one_dvd n
    rw [nearestNat_of_dvd hdvd, nearestNat_of_dvd hone]

/-- Rounding stays between two powers of two. -/
theorem nearestNat_bounds {n : Nat} (hn : n ≠ 0) :
    2 ^ n.log2 ≤ nearestNat n ∧ nearestNat n ≤ 2 ^ (n.log2 + 1) := by
  have hdvd : ∀ k, n.log2 ≤ k → spacing n ∣ 2 ^ k := fun k hk => by
    rw [spacing_eq]
    exact Nat.pow_dvd_pow 2 (by omega)
  have hlow := divideToEven_mono (spacing n) (Nat.log2_self_le hn)
  have hhigh := divideToEven_mono (spacing n) (Nat.le_of_lt (Nat.lt_log2_self (n := n)))
  constructor
  · rw [← divideToEven_mul_of_dvd (spacing_pos n) (hdvd n.log2 (Nat.le_refl _))]
    exact Nat.mul_le_mul_right _ hlow
  · rw [← divideToEven_mul_of_dvd (spacing_pos n) (hdvd (n.log2 + 1) (Nat.le_succ _))]
    exact Nat.mul_le_mul_right _ hhigh

theorem nearestNat_mono {n m : Nat} (h : n ≤ m) : nearestNat n ≤ nearestNat m := by
  by_cases hn : n = 0
  · subst hn
    exact Nat.zero_le _
  have hm : m ≠ 0 := by omega
  have hlog : n.log2 ≤ m.log2 :=
    Nat.le_of_lt_succ ((Nat.log2_lt hn).mpr (Nat.lt_of_le_of_lt h Nat.lt_log2_self))
  rcases Nat.eq_or_lt_of_le hlog with hlog | hlog
  · have hspacing : spacing n = spacing m := by rw [spacing_eq, spacing_eq, hlog]
    rw [nearestNat, nearestNat, hspacing]
    exact Nat.mul_le_mul_right _ (divideToEven_mono _ h)
  · calc nearestNat n ≤ 2 ^ (n.log2 + 1) := (nearestNat_bounds hn).2
      _ ≤ 2 ^ m.log2 := Nat.pow_le_pow_right (by decide) hlog
      _ ≤ nearestNat m := (nearestNat_bounds hm).1

/-- Rounding an integer never turns two of them round. -/
theorem nearest_mono {i j : Int} (h : i ≤ j) : nearest i ≤ nearest j := by
  unfold nearest
  split
  next hi =>
    split
    next hj =>
      have := nearestNat_mono (n := j.natAbs) (m := i.natAbs) (by omega)
      omega
    next => omega
  next hi =>
    have := nearestNat_mono (n := i.natAbs) (m := j.natAbs) (by omega)
    rw [if_neg (by omega)]
    omega

/-- Integers of up to 53 bits are numbers themselves. -/
theorem nearest_of_natAbs_le {i : Int} (h : i.natAbs ≤ 2 ^ 53) : nearest i = i := by
  have hnat : nearestNat i.natAbs = i.natAbs := by
    rcases Nat.eq_or_lt_of_le h with h | h
    · rw [h]
      decide
    · apply nearestNat_of_dvd
      by_cases hi : i.natAbs = 0
      · rw [hi]
        exact Nat.dvd_zero _
      · have hlog : i.natAbs.log2 ≤ fractionBits := Nat.le_of_lt_succ ((Nat.log2_lt hi).mpr h)
        rw [spacing_of_log2_le hlog]
        exact Nat.one_dvd _
  rw [nearest, hnat]
  split <;> omega

/-! ## The number nearest to an integer -/

theorem infiniteMagnitude_eq : infiniteMagnitude = 2047 * rowLength := by decide

theorem magnitudeOfRatio_one (n : Nat) : magnitudeOfRatio n 1 =
    min infiniteMagnitude (((n * 2 ^ smallest).log2 - fractionBits) * rowLength +
      divideToEven (n * 2 ^ smallest) (spacing (n * 2 ^ smallest))) := by
  unfold magnitudeOfRatio
  generalize smallest = k
  dsimp only
  rw [Nat.div_one, Nat.one_mul]
  rfl

/-- A natural number that is not too large is rounded to a significand of 53 bits, shifted. -/
theorem exists_magnitudeOfRatio_one {n : Nat} (hzero : n ≠ 0) (hn : n.log2 < 1024) :
    ∃ shift, (n * 2 ^ smallest).log2 = shift + fractionBits ∧
      magnitudeOfRatio n 1 = shift * rowLength + divideToEven (n * 2 ^ smallest) (2 ^ shift) ∧
      units (magnitudeOfRatio n 1) = divideToEven (n * 2 ^ smallest) (2 ^ shift) * 2 ^ shift := by
  have hbits : fractionBits ≤ smallest := by decide
  have hlimit : smallest + 1024 ≤ 2046 + fractionBits := by decide
  rw [magnitudeOfRatio_one]
  generalize smallest = k at hbits hlimit ⊢
  have hlog := log2_mul_two_pow hzero k
  have hscaled : n * 2 ^ k ≠ 0 := Nat.mul_ne_zero hzero (Nat.ne_of_gt (Nat.two_pow_pos k))
  have hbounds := nearestNat_bounds hscaled
  -- Counted in such small units every number has more bits than are kept.
  obtain ⟨shift, hshift⟩ := Nat.exists_eq_add_of_le'
    (Nat.le_trans hbits (hlog ▸ Nat.le_add_left k n.log2))
  refine ⟨shift, hshift, ?_⟩
  rw [nearestNat, spacing_eq, hshift, Nat.add_sub_cancel] at hbounds
  rw [spacing_eq, hshift, Nat.add_sub_cancel]
  generalize divideToEven (n * 2 ^ k) (2 ^ shift) = significand at hbounds ⊢
  have hrow : (2 : Nat) ^ (shift + fractionBits) = rowLength * 2 ^ shift := by
    rw [Nat.pow_add, Nat.mul_comm]
    rfl
  have hpos := Nat.two_pow_pos shift
  have hlow : rowLength ≤ significand := Nat.le_of_mul_le_mul_right (hrow ▸ hbounds.1) hpos
  have hhigh : significand ≤ 2 * rowLength := by
    have h := hbounds.2
    rw [Nat.pow_succ', hrow, ← Nat.mul_assoc] at h
    exact Nat.le_of_mul_le_mul_right h hpos
  have hfinite : shift * rowLength + significand ≤ infiniteMagnitude := by
    have hmul : shift * rowLength ≤ 2045 * rowLength := Nat.mul_le_mul_right _ (by omega)
    rw [infiniteMagnitude_eq]
    omega
  rw [Nat.min_eq_right hfinite]
  exact ⟨rfl, units_significand shift hlow hhigh⟩

theorem magnitudeOfRatio_zero : magnitudeOfRatio 0 1 = 0 := by
  rw [magnitudeOfRatio_one, Nat.zero_mul]
  rfl

/-- The magnitude nearest to a natural number that is not too large has the nearest value. -/
theorem units_magnitudeOfRatio_one {n : Nat} (hn : n.log2 < 1024) :
    units (magnitudeOfRatio n 1) = nearestNat n * 2 ^ smallest := by
  by_cases hzero : n = 0
  · have hnearest : nearestNat 0 = 0 := rfl
    rw [hzero, hnearest, Nat.zero_mul, magnitudeOfRatio_zero]
    rfl
  · obtain ⟨shift, hshift, -, hunits⟩ := exists_magnitudeOfRatio_one hzero hn
    rw [hunits, ← nearestNat_mul_two_pow hzero, nearestNat, spacing_eq, hshift, Nat.add_sub_cancel]

/-- No magnitude is nearer to a natural number than the one it is rounded to, and if another is as
near, that one is even. -/
theorem magnitudeOfRatio_one_nearest {n : Nat} (hn : n.log2 < 1024) (magnitude : Nat) :
    Nat.dist (units (magnitudeOfRatio n 1)) (n * 2 ^ smallest) ≤
        Nat.dist (units magnitude) (n * 2 ^ smallest) ∧
      (Nat.dist (units magnitude) (n * 2 ^ smallest) =
          Nat.dist (units (magnitudeOfRatio n 1)) (n * 2 ^ smallest) →
        units magnitude ≠ units (magnitudeOfRatio n 1) → magnitudeOfRatio n 1 % 2 = 0) := by
  by_cases hzero : n = 0
  · subst hzero
    rw [magnitudeOfRatio_zero, Nat.zero_mul, show units 0 = 0 from rfl, Nat.dist_self]
    exact ⟨Nat.zero_le _, fun _ _ => rfl⟩
  obtain ⟨shift, hshift, hmagnitude, hunits⟩ := exists_magnitudeOfRatio_one hzero hn
  have hscaled : n * 2 ^ smallest ≠ 0 :=
    Nat.mul_ne_zero hzero (Nat.ne_of_gt (Nat.two_pow_pos smallest))
  have hleast : rowLength * 2 ^ shift ≤ n * 2 ^ smallest := by
    have hself := Nat.log2_self_le hscaled
    rwa [hshift, Nat.pow_add, Nat.mul_comm] at hself
  have hnearest := divideToEven_nearest (Nat.two_pow_pos shift) (n * 2 ^ smallest)
  have heven : shift * rowLength % 2 = 0 := by
    rw [show rowLength = 2 ^ 51 * 2 from rfl, ← Nat.mul_assoc, Nat.mul_mod_left]
  rw [hunits, hmagnitude]
  generalize divideToEven (n * 2 ^ smallest) (2 ^ shift) = significand at hnearest ⊢
  generalize n * 2 ^ smallest = exact at hleast hnearest ⊢
  rcases units_grid magnitude shift with ⟨k, hk⟩ | hbelow
  · obtain ⟨hle, htie⟩ := hnearest k
    rw [hk]
    refine ⟨hle, fun hdist hne => ?_⟩
    have hquotient := htie hdist fun h => hne (by rw [h])
    omega
  · -- The least number with as many bits lies between.
    have hle := (hnearest rowLength).1
    unfold Nat.dist at hle ⊢
    omega

/-- Integers far below the limit of the finite numbers are nearest to a finite one. -/
theorem magnitudeOfRatio_one_lt {n : Nat} (hn : n.log2 < 1023) :
    magnitudeOfRatio n 1 < infiniteMagnitude := by
  have hlimit : n.log2 + 1 + smallest < fractionBits + 2046 := by
    simp only [smallest, fractionBits]
    omega
  have hinfinite : infiniteMagnitude = (2046 + 1) * rowLength + 0 := infiniteMagnitude_eq
  rw [← units_strictMono.lt_iff_lt, units_magnitudeOfRatio_one (by omega), hinfinite,
    units_row _ rowLength_pos, if_neg (Nat.succ_ne_zero _), Nat.add_sub_cancel, Nat.add_zero]
  generalize smallest = k at hlimit ⊢
  generalize 2046 = row at hlimit ⊢
  have hnearest : nearestNat n ≤ 2 ^ (n.log2 + 1) := by
    by_cases hzero : n = 0
    · subst hzero
      exact Nat.zero_le _
    · exact (nearestNat_bounds hzero).2
  calc nearestNat n * 2 ^ k ≤ 2 ^ (n.log2 + 1) * 2 ^ k := Nat.mul_le_mul_right _ hnearest
    _ = 2 ^ (n.log2 + 1 + k) := (Nat.pow_add _ _ _).symm
    _ < 2 ^ (fractionBits + row) := Nat.pow_lt_pow_right (by decide) hlimit
    _ = rowLength * 2 ^ row := Nat.pow_add _ _ _

theorem isNegative_ofMagnitude (negative : Bool) {m : Nat} (h : m < signBit) :
    (ofMagnitude negative m).isNegative = negative := by
  unfold signBit at h
  cases negative
  all_goals
    simp only [ofMagnitude, isNegative, signBit, UInt64.toNat_ofNat', if_true, Bool.false_eq_true,
      if_false, decide_eq_true_eq, decide_eq_false_iff_not]
    omega

theorem magnitudeOfRatio_lt_signBit (n d : Nat) : magnitudeOfRatio n d < signBit :=
  Nat.lt_of_le_of_lt (Nat.min_le_left _ _) (by decide)

theorem isNegative_ofInt (i : Int) : (ofInt i).isNegative = decide (i < 0) :=
  isNegative_ofMagnitude _ (magnitudeOfRatio_lt_signBit _ _)

theorem magnitude_ofInt (i : Int) : (ofInt i).magnitude = magnitudeOfRatio i.natAbs 1 :=
  magnitude_ofMagnitude _ (magnitudeOfRatio_lt_signBit _ _)

theorem isFinite_ofInt {i : Int} (hi : i.natAbs.log2 < 1023) : (ofInt i).isFinite = true := by
  rw [isFinite, magnitude_ofInt]
  exact decide_eq_true (magnitudeOfRatio_one_lt hi)

theorem value_ofInt {i : Int} (hi : i.natAbs.log2 < 1024) :
    (ofInt i).value = nearest i * (2 ^ smallest : Nat) := by
  rw [value, isNegative_ofInt, magnitude_ofInt, units_magnitudeOfRatio_one hi, nearest]
  generalize 2 ^ smallest = scale
  simp only [decide_eq_true_eq]
  split
  · rw [Int.natCast_mul, Int.neg_mul]
  · rw [Int.natCast_mul]

/-- The distance of a number from an integer, by its sign. -/
theorem natAbs_value_sub (x : Binary64) (negative : Bool) (exact : Nat) :
    (x.value - if negative then -(exact : Int) else exact).natAbs =
      if x.isNegative = negative then Nat.dist (units x.magnitude) exact
      else units x.magnitude + exact := by
  unfold value Nat.dist
  cases x.isNegative <;> cases negative <;> simp <;> omega

theorem value_congr {x y : Binary64} (hunits : units x.magnitude = units y.magnitude)
    (hsign : units x.magnitude = 0 ∨ x.isNegative = y.isNegative) : x.value = y.value := by
  unfold value
  rw [← hunits]
  rcases hsign with hzero | hsign
  · simp [hzero]
  · rw [hsign]

/-- No finite number is nearer to an integer than `x`, and if another is as near, `x` is even. -/
structure IsNearest (i : Int) (x : Binary64) : Prop where
  finite : x.isFinite = true
  nearest : ∀ y : Binary64, y.isFinite = true →
    (x.value - i * (2 ^ smallest : Nat)).natAbs ≤ (y.value - i * (2 ^ smallest : Nat)).natAbs
  even : ∀ y : Binary64, y.isFinite = true → y.value ≠ x.value →
    (y.value - i * (2 ^ smallest : Nat)).natAbs = (x.value - i * (2 ^ smallest : Nat)).natAbs →
    x.magnitude % 2 = 0

/-- An integer is rounded to the nearest number, a tie to the even one. -/
theorem isNearest_ofInt {i : Int} (hi : i.natAbs.log2 < 1023) : IsNearest i (ofInt i) := by
  have hsign := isNegative_ofInt i
  have hfinite := isFinite_ofInt hi
  have hnearest := magnitudeOfRatio_one_nearest (n := i.natAbs) (by omega)
  have hscaled : i * (2 ^ smallest : Nat) =
      if decide (i < 0) then -((i.natAbs * 2 ^ smallest : Nat) : Int)
      else (i.natAbs * 2 ^ smallest : Nat) := by
    generalize 2 ^ smallest = scale
    rw [Int.natCast_mul, ← Int.neg_mul]
    simp only [decide_eq_true_eq]
    split
    · rw [show -(i.natAbs : Int) = i by omega]
    · rw [show (i.natAbs : Int) = i by omega]
  rw [← magnitude_ofInt] at hnearest
  generalize ofInt i = x at hsign hfinite hnearest ⊢
  generalize i.natAbs * 2 ^ smallest = exact at hnearest hscaled
  have hx : (x.value - i * (2 ^ smallest : Nat)).natAbs =
      Nat.dist (units x.magnitude) exact := by
    rw [hscaled, natAbs_value_sub, if_pos hsign]
  -- Zero is a number too, so a number of the other sign is not nearer.
  have hzero : Nat.dist (units x.magnitude) exact ≤ exact := by
    have hle := (hnearest 0).1
    rwa [show units 0 = 0 from rfl, Nat.dist_zero_left] at hle
  refine ⟨hfinite, fun y _ => ?_, fun y _ hne hdist => ?_⟩
  · rw [hx, hscaled, natAbs_value_sub]
    split
    next => exact (hnearest y.magnitude).1
    next => exact Nat.le_trans hzero (Nat.le_add_left _ _)
  · rw [hx, hscaled, natAbs_value_sub] at hdist
    have htie := (hnearest y.magnitude).2
    split at hdist
    next hsame =>
      exact htie hdist fun hunits => hne (value_congr hunits (.inr (hsame.trans hsign.symm)))
    next =>
      have hy : units y.magnitude = 0 := by omega
      have hexact : Nat.dist (units y.magnitude) exact = Nat.dist (units x.magnitude) exact := by
        rw [hy, Nat.dist_zero_left]
        omega
      exact htie hexact fun hunits => hne (value_congr hunits (.inl hy))

/-- The numbers nearest to two integers compare as the integers nearest to them. -/
theorem compare?_ofInt {i j : Int} (hi : i.natAbs.log2 < 1024) (hj : j.natAbs.log2 < 1024) :
    (ofInt i).compare? (ofInt j) = some (compare (nearest i) (nearest j)) := by
  have hinan : (ofInt i).isNaN = false := isNaN_ofRatio _ _ _
  have hjnan : (ofInt j).isNaN = false := isNaN_ofRatio _ _ _
  have hscale := Nat.two_pow_pos smallest
  rw [compare?_of_not_isNaN hinan hjnan, compare_rank, value_ofInt hi, value_ofInt hj]
  generalize 2 ^ smallest = scale at hscale ⊢
  have hpos : 0 < (scale : Int) := Int.natCast_pos.mpr hscale
  exact congrArg some (compare_congr (Int.mul_lt_mul_right hpos)
    (Int.mul_eq_mul_right_iff (Int.ne_of_gt hpos)))

end RecordQuery.Binary64
