import Mathlib

/-! Binary floating point over the rationals, as IEEE 754 defines it for
rounding to nearest, ties to even. A format keeps `precision` significant bits
and last-bit exponents down to `emin`, so the numbers it represents are
`k * 2 ^ e` with `|k| < 2 ^ precision` and `emin ≤ e`, finite up to
`maxFinite`. An operation computes its exact result, rounds it to the nearest
represented number (the even one on a tie), and overflows to an infinity of the
result's sign when the rounded magnitude passes `maxFinite`. Zero has one sign
here, taken as `+0`.

Rounding rests on three laws proved below: it leaves represented numbers
alone, it is monotone, and on a normal number it errs by at most
`|x| / 2 ^ precision`. -/

/-! ## Rounding to an integer -/

namespace Fp

/-- The integer nearest `y`, the even one of the two on a tie. -/
def roundHalfEven (y : ℚ) : ℤ :=
  if y - ⌊y⌋ < 1 / 2 then ⌊y⌋
  else if 1 / 2 < y - ⌊y⌋ then ⌊y⌋ + 1
  else if ⌊y⌋ % 2 = 0 then ⌊y⌋ else ⌊y⌋ + 1

theorem roundHalfEven_bounds (y : ℚ) : ⌊y⌋ ≤ roundHalfEven y ∧ roundHalfEven y ≤ ⌊y⌋ + 1 := by
  unfold roundHalfEven
  split_ifs <;> omega

@[simp] theorem roundHalfEven_intCast (n : ℤ) : roundHalfEven n = n := by
  simp [roundHalfEven]

@[simp] theorem roundHalfEven_zero : roundHalfEven 0 = 0 := by
  simpa using roundHalfEven_intCast 0

theorem abs_roundHalfEven_sub_le (y : ℚ) : |(roundHalfEven y : ℚ) - y| ≤ 1 / 2 := by
  have below := Int.floor_le y
  have above := Int.lt_floor_add_one y
  rw [abs_le]
  unfold roundHalfEven
  split_ifs <;> push_cast <;> constructor <;> linarith

theorem roundHalfEven_mono {a b : ℚ} (le : a ≤ b) : roundHalfEven a ≤ roundHalfEven b := by
  rcases (Int.floor_mono le).lt_or_eq with earlier | same
  -- a whole unit apart, `a` rounds to at most `⌊a⌋ + 1 ≤ ⌊b⌋`
  · have up := (roundHalfEven_bounds a).2
    have down := (roundHalfEven_bounds b).1
    omega
  -- on one unit interval the rounding only grows with the fraction
  · have fractions : a - ⌊a⌋ ≤ b - ⌊b⌋ := by rw [same]; linarith
    unfold roundHalfEven
    rw [same] at fractions ⊢
    split_ifs <;> first | omega | (exfalso; linarith)

/-- `x` rounded to a multiple of `2 ^ e`. -/
def roundAt (e : ℤ) (x : ℚ) : ℚ := roundHalfEven (x / 2 ^ e) * 2 ^ e

theorem roundAt_mono (e : ℤ) {x y : ℚ} (le : x ≤ y) : roundAt e x ≤ roundAt e y := by
  have scaled : roundHalfEven (x / 2 ^ e) ≤ roundHalfEven (y / 2 ^ e) :=
    roundHalfEven_mono (div_le_div_of_nonneg_right le (by positivity))
  exact mul_le_mul_of_nonneg_right (by exact_mod_cast scaled) (by positivity)

@[simp] theorem roundAt_intCast_mul (e k : ℤ) : roundAt e (k * 2 ^ e) = k * 2 ^ e := by
  rw [roundAt, mul_div_cancel_right₀ _ (zpow_ne_zero e two_ne_zero), roundHalfEven_intCast]

theorem roundAt_two_zpow {e n : ℤ} (le : e ≤ n) : roundAt e (2 ^ n) = 2 ^ n := by
  have multiple : (2 : ℚ) ^ n = ((2 ^ (n - e).toNat : ℤ) : ℚ) * 2 ^ e := by
    rw [Int.cast_pow, Int.cast_ofNat, ← zpow_natCast, Int.toNat_of_nonneg (by omega), ← zpow_add₀ two_ne_zero,
      sub_add_cancel]
  rw [multiple, roundAt_intCast_mul]

theorem abs_roundAt_sub_le (e : ℤ) (x : ℚ) : |roundAt e x - x| ≤ 2 ^ e / 2 := by
  have scaled := abs_roundHalfEven_sub_le (x / 2 ^ e)
  have split : roundAt e x - x = ((roundHalfEven (x / 2 ^ e) : ℚ) - x / 2 ^ e) * 2 ^ e := by
    unfold roundAt
    field_simp
  rw [split, abs_mul, abs_of_pos (by positivity : (0 : ℚ) < 2 ^ e)]
  calc |(roundHalfEven (x / 2 ^ e) : ℚ) - x / 2 ^ e| * 2 ^ e ≤ 1 / 2 * 2 ^ e :=
        mul_le_mul_of_nonneg_right scaled (by positivity)
    _ = 2 ^ e / 2 := by ring

end Fp

/-! ## Formats -/

/-- A binary floating-point format: `precision` significant bits, and
exponents of the last bit from `emin` (the least subnormal is `2 ^ emin`) up to
`emax` (the greatest finite number is `(2 ^ precision - 1) * 2 ^ emax`). -/
structure FpFormat where
  precision : ℕ
  emin : ℤ
  emax : ℤ
  precision_pos : 0 < precision
  emin_nonpos : emin ≤ 0
  emin_le_emax : emin ≤ emax

namespace FpFormat

/-- IEEE 754 binary64, Rust's `f64`. -/
def binary64 : FpFormat := ⟨53, -1074, 971, by decide, by decide, by decide⟩

variable (fmt : FpFormat)

/-- The exponent of the last bit the format keeps of a number of magnitude
`|x|`: `precision` bits from its leading one, and never below `emin`. -/
def quantum (x : ℚ) : ℤ := max (Int.log 2 |x| + 1 - fmt.precision) fmt.emin

/-- `x` rounded to the nearest number of the format, ties to even. -/
def round (x : ℚ) : ℚ := Fp.roundAt (fmt.quantum x) x

/-- A number the format represents. -/
def Representable (x : ℚ) : Prop :=
  ∃ k e : ℤ, |k| < 2 ^ fmt.precision ∧ fmt.emin ≤ e ∧ x = k * 2 ^ e

/-- The greatest finite number, `f64::MAX` for `binary64`. -/
def maxFinite : ℚ := (2 ^ fmt.precision - 1) * 2 ^ fmt.emax

variable {fmt}

theorem emin_le_quantum (x : ℚ) : fmt.emin ≤ fmt.quantum x := le_max_right _ _

theorem lt_two_zpow_quantum (x : ℚ) : |x| < 2 ^ (fmt.quantum x + fmt.precision) := by
  calc |x| < 2 ^ (Int.log 2 |x| + 1) := by exact_mod_cast Int.lt_zpow_succ_log_self (by norm_num) |x|
    _ ≤ 2 ^ (fmt.quantum x + fmt.precision) := by
      apply zpow_le_zpow_right₀ (by norm_num)
      have := le_max_left (Int.log 2 |x| + 1 - fmt.precision) fmt.emin
      unfold quantum
      omega

/-- Below `2 ^ (e + precision)`, a nonzero number keeps no bit under `2 ^ e`. -/
theorem quantum_le {x : ℚ} {e : ℤ} (nonzero : x ≠ 0) (below : |x| < 2 ^ (e + fmt.precision))
    (atLeast : fmt.emin ≤ e) : fmt.quantum x ≤ e := by
  have castBelow : |x| < ((2 : ℕ) : ℚ) ^ (e + fmt.precision) := by exact_mod_cast below
  have logBelow := (Int.lt_zpow_iff_log_lt (by norm_num) (abs_pos.mpr nonzero)).mp castBelow
  unfold quantum
  omega

theorem quantum_mono {x y : ℚ} (positive : 0 < x) (le : x ≤ y) : fmt.quantum x ≤ fmt.quantum y := by
  have logs : Int.log 2 x ≤ Int.log 2 y := Int.log_mono_right positive le
  unfold quantum
  rw [abs_of_pos positive, abs_of_pos (positive.trans_le le)]
  omega

/-- From `2 ^ (emin + precision - 1)` on a number is normal: all `precision`
bits from its leading one are kept. -/
theorem quantum_of_normal {x : ℚ} (normal : 2 ^ (fmt.emin + fmt.precision - 1) ≤ |x|) :
    fmt.quantum x = Int.log 2 |x| + 1 - fmt.precision := by
  have positive : 0 < |x| := lt_of_lt_of_le (by positivity) normal
  have logAbove : fmt.emin + fmt.precision - 1 ≤ Int.log 2 |x| :=
    (Int.zpow_le_iff_le_log (by norm_num) positive).mp (by exact_mod_cast normal)
  unfold quantum
  omega

@[simp] theorem round_zero : fmt.round 0 = 0 := by
  simp [round, Fp.roundAt]

/-- The error of rounding is at most half a unit of the last place kept. -/
theorem abs_round_sub_le (x : ℚ) : |fmt.round x - x| ≤ 2 ^ fmt.quantum x / 2 :=
  Fp.abs_roundAt_sub_le _ _

/-- On a normal number the relative error is at most `2 ^ -precision`. -/
theorem abs_round_sub_le_of_normal {x : ℚ} (normal : 2 ^ (fmt.emin + fmt.precision - 1) ≤ |x|) :
    |fmt.round x - x| ≤ |x| / 2 ^ fmt.precision := by
  have positive : 0 < |x| := lt_of_lt_of_le (by positivity) normal
  have leading : (2 : ℚ) ^ Int.log 2 |x| ≤ |x| := Int.zpow_log_le_self (by norm_num) positive
  have unit : (2 : ℚ) ^ fmt.quantum x = 2 ^ Int.log 2 |x| * 2 / 2 ^ fmt.precision := by
    rw [quantum_of_normal normal, zpow_sub₀ two_ne_zero, zpow_add_one₀ two_ne_zero, zpow_natCast]
  calc |fmt.round x - x| ≤ 2 ^ fmt.quantum x / 2 := abs_round_sub_le x
    _ = 2 ^ Int.log 2 |x| / 2 ^ fmt.precision := by rw [unit]; ring
    _ ≤ |x| / 2 ^ fmt.precision := div_le_div_of_nonneg_right leading (by positivity)

/-! ### Represented numbers -/

theorem representable_zero : fmt.Representable 0 :=
  ⟨0, fmt.emin, by simp, le_rfl, by simp⟩

theorem representable_intCast {k : ℤ} (small : |k| < 2 ^ fmt.precision) : fmt.Representable k :=
  ⟨k, 0, small, fmt.emin_nonpos, by simp⟩

theorem representable_two_zpow {n : ℤ} (atLeast : fmt.emin ≤ n) : fmt.Representable (2 ^ n) :=
  ⟨1, n, by rw [abs_one]; exact_mod_cast Nat.one_lt_two_pow fmt.precision_pos.ne', atLeast, by simp⟩

theorem Representable.neg {x : ℚ} (rep : fmt.Representable x) : fmt.Representable (-x) := by
  obtain ⟨k, e, small, atLeast, rfl⟩ := rep
  exact ⟨-k, e, by rwa [abs_neg], atLeast, by push_cast; ring⟩

theorem representable_maxFinite : fmt.Representable fmt.maxFinite := by
  refine ⟨2 ^ fmt.precision - 1, fmt.emax, ?_, fmt.emin_le_emax, by push_cast [maxFinite]; rfl⟩
  have positive : (0 : ℤ) < 2 ^ fmt.precision := by positivity
  rw [abs_of_nonneg (by omega)]
  omega

/-- Halving a number the format represents is exact while it stays normal. -/
theorem Representable.div_two {x : ℚ} (rep : fmt.Representable x)
    (normal : 2 ^ (fmt.emin + fmt.precision) ≤ |x|) : fmt.Representable (x / 2) := by
  obtain ⟨k, e, small, atLeast, rfl⟩ := rep
  -- `|k| * 2 ^ e < 2 ^ (e + precision)`, so `e` is above `emin`
  have below : |(k : ℚ) * 2 ^ e| < 2 ^ (e + fmt.precision) := by
    rw [abs_mul, abs_of_pos (by positivity : (0 : ℚ) < 2 ^ e), zpow_add₀ two_ne_zero, zpow_natCast, mul_comm]
    exact mul_lt_mul_of_pos_left (by exact_mod_cast small) (by positivity)
  have exponents : fmt.emin + fmt.precision < e + fmt.precision :=
    (zpow_lt_zpow_iff_right₀ (by norm_num : (1 : ℚ) < 2)).mp (normal.trans_lt below)
  refine ⟨k, e - 1, small, by omega, ?_⟩
  rw [zpow_sub₀ two_ne_zero, zpow_one]
  ring

/-- A number the format represents below 1 is at most `1 - 2 ^ emin`. -/
theorem Representable.le_one_sub {x : ℚ} (rep : fmt.Representable x) (below : x < 1) :
    x ≤ 1 - 2 ^ fmt.emin := by
  obtain ⟨k, e, -, atLeast, rfl⟩ := rep
  have least : (2 : ℚ) ^ fmt.emin ≤ 2 ^ e := zpow_le_zpow_right₀ (by norm_num) atLeast
  rcases le_or_gt e 0 with small | large
  -- `1` is the multiple `2 ^ -e` of `2 ^ e`, so `k ≤ 2 ^ -e - 1`
  · have one : (1 : ℚ) = ((2 ^ (-e).toNat : ℤ) : ℚ) * 2 ^ e := by
      rw [Int.cast_pow, Int.cast_ofNat, ← zpow_natCast, Int.toNat_of_nonneg (by omega), ← zpow_add₀ two_ne_zero,
        neg_add_cancel, zpow_zero]
    rw [one] at below ⊢
    have multiples : k < 2 ^ (-e).toNat := by exact_mod_cast lt_of_mul_lt_mul_right below (by positivity)
    have stepped : (k : ℚ) ≤ ((2 ^ (-e).toNat : ℤ) : ℚ) - 1 := by exact_mod_cast Int.le_sub_one_of_lt multiples
    nlinarith
  -- above `2 ^ 0` a multiple below 1 is at most 0
  · have unit : (1 : ℚ) ≤ 2 ^ e := one_le_zpow₀ (by norm_num) large.le
    have nonpos : k ≤ 0 := by
      by_contra positive
      have : (1 : ℚ) ≤ k := by exact_mod_cast (Int.lt_iff_add_one_le.mp (not_le.mp positive))
      nlinarith
    have emin_unit : (2 : ℚ) ^ fmt.emin ≤ 1 := zpow_le_one_of_nonpos₀ (by norm_num) fmt.emin_nonpos
    have : (k : ℚ) * 2 ^ e ≤ 0 := mul_nonpos_of_nonpos_of_nonneg (by exact_mod_cast nonpos) (by positivity)
    linarith

/-! ### The three laws of rounding -/

theorem round_eq_self {x : ℚ} (rep : fmt.Representable x) : fmt.round x = x := by
  obtain ⟨k, e, small, atLeast, rfl⟩ := rep
  by_cases zero : k = 0
  · simp [zero]
  have below : |(k : ℚ) * 2 ^ e| < 2 ^ (e + fmt.precision) := by
    rw [abs_mul, abs_of_pos (by positivity : (0 : ℚ) < 2 ^ e), zpow_add₀ two_ne_zero, zpow_natCast, mul_comm]
    exact mul_lt_mul_of_pos_left (by exact_mod_cast small) (by positivity)
  have kept : fmt.quantum (k * 2 ^ e) ≤ e :=
    quantum_le (mul_ne_zero (by exact_mod_cast zero) (zpow_ne_zero e two_ne_zero)) below atLeast
  -- `k * 2 ^ e` is the integer `k * 2 ^ (e - q)` times `2 ^ q` for the kept exponent `q`
  set q := fmt.quantum (k * 2 ^ e)
  have multiple : (k : ℚ) * 2 ^ e = ((k * 2 ^ (e - q).toNat : ℤ) : ℚ) * 2 ^ q := by
    rw [Int.cast_mul, Int.cast_pow, Int.cast_ofNat, ← zpow_natCast, Int.toNat_of_nonneg (by omega), mul_assoc,
      ← zpow_add₀ two_ne_zero, sub_add_cancel]
  show Fp.roundAt q (k * 2 ^ e) = k * 2 ^ e
  rw [multiple, Fp.roundAt_intCast_mul]

theorem representable_round (x : ℚ) : fmt.Representable (fmt.round x) := by
  set q := fmt.quantum x
  set k := Fp.roundHalfEven (x / 2 ^ q)
  have scaled : |x / 2 ^ q| < 2 ^ fmt.precision := by
    rw [abs_div, abs_of_pos (by positivity : (0 : ℚ) < 2 ^ q), div_lt_iff₀ (by positivity), ← zpow_natCast,
      ← zpow_add₀ two_ne_zero, add_comm]
    exact lt_two_zpow_quantum x
  -- the scaled number lies strictly between `-2 ^ p` and `2 ^ p`, so `|k| ≤ 2 ^ p`
  have top := Fp.roundHalfEven_intCast (2 ^ fmt.precision)
  have bottom := Fp.roundHalfEven_intCast (-2 ^ fmt.precision)
  push_cast at top bottom
  have upper : k ≤ 2 ^ fmt.precision := top ▸ Fp.roundHalfEven_mono (le_of_lt (abs_lt.mp scaled).2)
  have lower : -2 ^ fmt.precision ≤ k := bottom ▸ Fp.roundHalfEven_mono (le_of_lt (abs_lt.mp scaled).1)
  have rounded : fmt.round x = k * 2 ^ q := rfl
  rcases lt_or_eq_of_le (abs_le.mpr ⟨lower, upper⟩) with inside | edge
  · exact ⟨k, q, inside, emin_le_quantum x, rounded⟩
  -- at `|k| = 2 ^ p` the rounded number is `±2 ^ (p - 1)` times `2 ^ (q + 1)`
  · have half : (2 : ℤ) ^ fmt.precision = 2 ^ (fmt.precision - 1) * 2 := by
      rw [← pow_succ, Nat.sub_add_cancel fmt.precision_pos]
    have smaller : |(2 : ℤ) ^ (fmt.precision - 1)| < 2 ^ fmt.precision := by
      rw [abs_of_pos (by positivity), half]
      have : (0 : ℤ) < 2 ^ (fmt.precision - 1) := by positivity
      omega
    have twice : (2 : ℚ) ^ (q + 1) = 2 ^ q * 2 := zpow_add_one₀ two_ne_zero q
    have atLeast : fmt.emin ≤ q + 1 := by
      have : fmt.emin ≤ q := emin_le_quantum x
      omega
    rcases abs_eq (by positivity) |>.mp edge with atTop | atBottom
    · refine ⟨2 ^ (fmt.precision - 1), q + 1, smaller, atLeast, ?_⟩
      rw [rounded, atTop, twice]
      push_cast [half]
      ring
    · refine ⟨-2 ^ (fmt.precision - 1), q + 1, by rwa [abs_neg], atLeast, ?_⟩
      rw [rounded, atBottom, twice]
      push_cast [half]
      ring

@[simp] theorem round_round (x : ℚ) : fmt.round (fmt.round x) = fmt.round x :=
  round_eq_self (representable_round x)

theorem round_mono {x y : ℚ} (nonneg : 0 ≤ x) (le : x ≤ y) : fmt.round x ≤ fmt.round y := by
  obtain rfl | positive := nonneg.eq_or_lt
  · have := Fp.roundAt_mono (fmt.quantum y) le
    rw [Fp.roundAt, zero_div, Fp.roundHalfEven_zero, Int.cast_zero, zero_mul] at this
    rw [round_zero]
    exact this
  have exponents : fmt.quantum x ≤ fmt.quantum y := quantum_mono positive le
  -- with one exponent both round on one grid
  obtain same | finer := exponents.eq_or_lt
  · unfold round
    rw [same]
    exact Fp.roundAt_mono _ le
  -- otherwise the power of two `u = 2 ^ log y` lies between them and is on both grids
  have positive' : 0 < y := positive.trans_le le
  have quantumX : fmt.quantum x = max (Int.log 2 x + 1 - fmt.precision) fmt.emin := by
    rw [quantum, abs_of_pos positive]
  have quantumY : fmt.quantum y = max (Int.log 2 y + 1 - fmt.precision) fmt.emin := by
    rw [quantum, abs_of_pos positive']
  have logs : Int.log 2 x + 1 ≤ Int.log 2 y := by omega
  have xBelow : x ≤ 2 ^ Int.log 2 y :=
    ((Int.lt_zpow_succ_log_self (by norm_num) x).trans_le (zpow_le_zpow_right₀ (by norm_num) logs)).le
  have uBelow : (2 : ℚ) ^ Int.log 2 y ≤ y := Int.zpow_log_le_self (by norm_num) positive'
  have coarse : fmt.quantum x ≤ Int.log 2 y := by
    have := fmt.precision_pos
    omega
  have fine : fmt.quantum y ≤ Int.log 2 y := by
    have := fmt.precision_pos
    omega
  calc fmt.round x = Fp.roundAt (fmt.quantum x) x := rfl
    _ ≤ Fp.roundAt (fmt.quantum x) (2 ^ Int.log 2 y) := Fp.roundAt_mono _ xBelow
    _ = Fp.roundAt (fmt.quantum y) (2 ^ Int.log 2 y) := by rw [Fp.roundAt_two_zpow coarse, Fp.roundAt_two_zpow fine]
    _ ≤ fmt.round y := Fp.roundAt_mono _ uBelow

theorem round_nonneg {x : ℚ} (nonneg : 0 ≤ x) : 0 ≤ fmt.round x := by
  simpa using round_mono le_rfl nonneg

theorem round_le_of_le {x y : ℚ} (nonneg : 0 ≤ x) (le : x ≤ y) (rep : fmt.Representable y) : fmt.round x ≤ y :=
  round_eq_self rep ▸ round_mono nonneg le

theorem le_round_of_le {x y : ℚ} (nonneg : 0 ≤ x) (le : x ≤ y) (rep : fmt.Representable x) : x ≤ fmt.round y :=
  round_eq_self rep ▸ round_mono nonneg le

/-- The rounding error of a quotient `s / n` of a positive `s` below
`2 ^ precision`, small enough to stay normal, is below `1 / n`. -/
theorem abs_round_div_sub_lt {s n : ℕ} (counted : 0 < n) (positive : 0 < s) (small : s < 2 ^ fmt.precision)
    (normal : (n : ℚ) ≤ 2 ^ (1 - fmt.emin - fmt.precision)) : |fmt.round ((s : ℚ) / n) - s / n| < 1 / n := by
  have nPos : (0 : ℚ) < n := by exact_mod_cast counted
  have xPos : (0 : ℚ) < s / n := by positivity
  -- the quotient is normal and below `2 ^ p / n`
  have isNormal : 2 ^ (fmt.emin + fmt.precision - 1) ≤ |(s : ℚ) / n| := by
    rw [abs_of_pos xPos, le_div_iff₀ nPos]
    calc (2 : ℚ) ^ (fmt.emin + fmt.precision - 1) * n
        ≤ 2 ^ (fmt.emin + fmt.precision - 1) * 2 ^ (1 - fmt.emin - fmt.precision) :=
          mul_le_mul_of_nonneg_left normal (by positivity)
      _ = 1 := by rw [← zpow_add₀ two_ne_zero, show fmt.emin + fmt.precision - 1 + (1 - fmt.emin - fmt.precision) = 0 by ring,
          zpow_zero]
      _ ≤ s := by exact_mod_cast positive
  have sBelow : (s : ℚ) < 2 ^ fmt.precision := by exact_mod_cast small
  calc |fmt.round ((s : ℚ) / n) - s / n| ≤ |(s : ℚ) / n| / 2 ^ fmt.precision := abs_round_sub_le_of_normal isNormal
    _ < 1 / n := by
      rw [abs_of_pos xPos, div_div, div_lt_div_iff₀ (by positivity) nPos, one_mul, mul_comm]
      exact mul_lt_mul_of_pos_left sBelow nPos

/-- An integer `s` below `2 ^ precision` divided by a count `n` small enough to
keep the quotient normal rounds to a number with the integer part `s / n`. -/
theorem floor_round_div {s n : ℕ} (counted : 0 < n) (small : s < 2 ^ fmt.precision)
    (normal : (n : ℚ) ≤ 2 ^ (1 - fmt.emin - fmt.precision)) : ⌊fmt.round ((s : ℚ) / n)⌋₊ = s / n := by
  rcases Nat.eq_zero_or_pos s with zero | positive
  · simp [zero]
  have nPos : (0 : ℚ) < n := by exact_mod_cast counted
  have xPos : (0 : ℚ) < s / n := by positivity
  have errBelow := abs_round_div_sub_lt counted positive small normal
  -- `s / n = q + r / n` with the quotient `q` and the remainder `r < n`
  obtain ⟨q, r, whole, remainder⟩ : ∃ q r, s = q * n + r ∧ r < n :=
    ⟨s / n, s % n, (Nat.div_add_mod' s n).symm, Nat.mod_lt s counted⟩
  have quotient : s / n = q := by
    rw [whole, Nat.add_comm, Nat.add_mul_div_right _ _ counted, Nat.div_eq_of_lt remainder, Nat.zero_add]
  have split : (s : ℚ) / n = q + r / n := by
    rw [whole]
    push_cast
    field_simp
  rw [quotient, Nat.floor_eq_iff (round_nonneg xPos.le)]
  rw [abs_lt] at errBelow
  rcases Nat.eq_zero_or_pos r with exact | inexact
  -- a whole quotient below `2 ^ p` is represented, so it rounds to itself
  · have qBelow : q < 2 ^ fmt.precision := (Nat.le_mul_of_pos_right q counted).trans_lt (by omega)
    have rep : fmt.Representable ((q : ℤ) : ℚ) :=
      representable_intCast (by rw [abs_of_nonneg (by positivity)]; exact_mod_cast qBelow)
    have exactly : (s : ℚ) / n = ((q : ℤ) : ℚ) := by rw [split, exact]; simp
    rw [exactly, round_eq_self rep]
    push_cast
    constructor <;> linarith
  -- otherwise `s / n` is at least `1 / n` away from both `q` and `q + 1`
  · have low : (1 : ℚ) / n ≤ r / n := div_le_div_of_nonneg_right (by exact_mod_cast inexact) nPos.le
    have high : (r : ℚ) / n ≤ 1 - 1 / n := by
      rw [div_le_iff₀ nPos, sub_mul, one_div, inv_mul_cancel₀ nPos.ne', one_mul]
      have : (r : ℚ) + 1 ≤ n := by exact_mod_cast remainder
      linarith
    constructor <;> linarith

end FpFormat

/-! ## Floating-point data -/

/-- A datum of the format: a finite number it represents within the finite
range, an infinity, or NaN. -/
inductive Fp (fmt : FpFormat) where
  | finite (x : ℚ) (representable : fmt.Representable x) (fits : |x| ≤ fmt.maxFinite)
  | inf (negative : Bool)
  | nan

/-- Rust's `f64`. -/
abbrev F64 := Fp FpFormat.binary64

namespace Fp

variable {fmt : FpFormat}

instance : DecidableEq (Fp fmt)
  | .finite x _ _, .finite y _ _ => if same : x = y then isTrue (by subst same; rfl) else isFalse (by simp [same])
  | .inf negative, .inf negative' =>
      if same : negative = negative' then isTrue (by rw [same]) else isFalse (by simp [same])
  | .nan, .nan => isTrue rfl
  | .finite _ _ _, .inf _ | .finite _ _ _, .nan | .inf _, .finite _ _ _ | .inf _, .nan | .nan, .finite _ _ _
  | .nan, .inf _ => isFalse (by simp)

theorem maxFinite_nonneg : 0 ≤ fmt.maxFinite := by
  have : (1 : ℚ) ≤ 2 ^ fmt.precision := one_le_pow₀ (by norm_num)
  unfold FpFormat.maxFinite
  exact mul_nonneg (by linarith) (by positivity)

/-- `0.0`. -/
def zero : Fp fmt := .finite 0 FpFormat.representable_zero (by simpa using maxFinite_nonneg)

/-- The datum an operation delivers whose exact result is `x`: `x` rounded, or
an infinity of its sign when the rounded magnitude passes `maxFinite`. -/
def ofRat (x : ℚ) : Fp fmt :=
  if overflows : fmt.maxFinite < |fmt.round x| then .inf (decide (x < 0))
  else .finite (fmt.round x) (FpFormat.representable_round x) (not_lt.mp overflows)

/-- `1.0`. -/
def one : Fp fmt := ofRat 1

/-- The conversion `as` from an unsigned integer. -/
def ofNat (n : ℕ) : Fp fmt := ofRat n

/-- The greatest finite datum, `f64::MAX` for `binary64`. -/
def maxValue : Fp fmt :=
  .finite fmt.maxFinite FpFormat.representable_maxFinite (abs_of_nonneg maxFinite_nonneg).le

def neg : Fp fmt → Fp fmt
  | .finite x representable fits => .finite (-x) representable.neg (by rwa [abs_neg])
  | .inf negative => .inf (!negative)
  | .nan => .nan

def add : Fp fmt → Fp fmt → Fp fmt
  | .nan, _ => .nan
  | _, .nan => .nan
  | .finite x _ _, .finite y _ _ => ofRat (x + y)
  | .finite _ _ _, .inf negative => .inf negative
  | .inf negative, .finite _ _ _ => .inf negative
  | .inf negative, .inf negative' => if negative = negative' then .inf negative else .nan

def mul : Fp fmt → Fp fmt → Fp fmt
  | .nan, _ => .nan
  | _, .nan => .nan
  | .finite x _ _, .finite y _ _ => ofRat (x * y)
  | .finite x _ _, .inf negative => if x = 0 then .nan else .inf (negative != decide (x < 0))
  | .inf negative, .finite y _ _ => if y = 0 then .nan else .inf (negative != decide (y < 0))
  | .inf negative, .inf negative' => .inf (negative != negative')

/-- Division; by zero, taken as `+0`, it is an infinity of the dividend's sign,
or NaN for `0 / 0`. -/
def div : Fp fmt → Fp fmt → Fp fmt
  | .nan, _ => .nan
  | _, .nan => .nan
  | .finite x _ _, .finite y _ _ => if y = 0 then (if x = 0 then .nan else .inf (decide (x < 0))) else ofRat (x / y)
  | .finite _ _ _, .inf _ => zero
  | .inf negative, .finite y _ _ => .inf (negative != decide (y < 0))
  | .inf _, .inf _ => .nan

instance : Neg (Fp fmt) := ⟨neg⟩
instance : Add (Fp fmt) := ⟨add⟩
instance : Sub (Fp fmt) := ⟨fun a b => add a (neg b)⟩
instance : Mul (Fp fmt) := ⟨mul⟩
instance : Div (Fp fmt) := ⟨div⟩

/-- `partial_cmp`: no order when either side is NaN. -/
def partialCmp : Fp fmt → Fp fmt → Option Ordering
  | .nan, _ => none
  | _, .nan => none
  | .finite x _ _, .finite y _ _ => some (compare x y)
  | .finite _ _ _, .inf negative => some (if negative then .gt else .lt)
  | .inf negative, .finite _ _ _ => some (if negative then .lt else .gt)
  | .inf negative, .inf negative' => some (if negative = negative' then .eq else if negative then .lt else .gt)

/-- The comparisons `<=` and `<`, false when either side is NaN. -/
instance : LE (Fp fmt) := ⟨fun a b => a.partialCmp b = some .lt ∨ a.partialCmp b = some .eq⟩
instance : LT (Fp fmt) := ⟨fun a b => a.partialCmp b = some .lt⟩

instance (a b : Fp fmt) : Decidable (a ≤ b) := inferInstanceAs (Decidable (_ ∨ _))
instance (a b : Fp fmt) : Decidable (a < b) := inferInstanceAs (Decidable (_ = _))

def isFinite : Fp fmt → Bool
  | .finite _ _ _ => true
  | _ => false

def isInfinite : Fp fmt → Bool
  | .inf _ => true
  | _ => false

/-- The sign bit, clear for zero; NaN is taken as positive. -/
def isSignNegative : Fp fmt → Bool
  | .finite x _ _ => decide (x < 0)
  | .inf negative => negative
  | .nan => false

def isSignPositive (a : Fp fmt) : Bool := !a.isSignNegative

/-- The number a finite datum stands for, and 0 for the others. -/
def toRat : Fp fmt → ℚ
  | .finite x _ _ => x
  | _ => 0

/-- The cast `as` to an unsigned integer of `width` bits: toward zero,
saturating at both ends, and NaN to 0. -/
def toNatSat (width : ℕ) : Fp fmt → ℕ
  | .finite x _ _ => if x < 0 then 0 else min ⌊x⌋₊ (2 ^ width - 1)
  | .inf negative => if negative then 0 else 2 ^ width - 1
  | .nan => 0

end Fp

/-! ## Operations on finite data -/

namespace Fp

variable {fmt : FpFormat}

theorem ofRat_of_round_le {x : ℚ} (fits : |fmt.round x| ≤ fmt.maxFinite) :
    (ofRat x : Fp fmt) = .finite (fmt.round x) (FpFormat.representable_round x) fits := by
  rw [ofRat, dif_neg (not_lt.mpr fits)]

/-- An exact result the format represents and that fits is delivered as it is. -/
theorem ofRat_eq_finite {x : ℚ} (rep : fmt.Representable x) (fits : |x| ≤ fmt.maxFinite) :
    (ofRat x : Fp fmt) = .finite x rep fits := by
  rw [ofRat_of_round_le (by rwa [FpFormat.round_eq_self rep]), finite.injEq]
  exact FpFormat.round_eq_self rep

theorem zero_eq_ofNat : (zero : Fp fmt) = ofNat 0 := by
  rw [ofNat, Nat.cast_zero, ofRat_eq_finite FpFormat.representable_zero (by simpa using maxFinite_nonneg)]
  rfl

@[simp] theorem toRat_finite {x : ℚ} {rep : fmt.Representable x} {fits : |x| ≤ fmt.maxFinite} :
    (Fp.finite x rep fits).toRat = x := rfl

@[simp] theorem isFinite_finite {x : ℚ} {rep : fmt.Representable x} {fits : |x| ≤ fmt.maxFinite} :
    (Fp.finite x rep fits).isFinite = true := rfl

theorem isFinite_iff {a : Fp fmt} :
    a.isFinite = true ↔ ∃ x rep fits, a = .finite x rep fits := by
  cases a with
  | finite x rep fits => exact iff_of_true rfl ⟨x, rep, fits, rfl⟩
  | inf negative => simp [isFinite]
  | nan => simp [isFinite]

theorem finite_add_finite {x y : ℚ} (hx : fmt.Representable x) (hy : fmt.Representable y) (fx : |x| ≤ fmt.maxFinite)
    (fy : |y| ≤ fmt.maxFinite) : (.finite x hx fx + .finite y hy fy : Fp fmt) = ofRat (x + y) := rfl

theorem finite_mul_finite {x y : ℚ} (hx : fmt.Representable x) (hy : fmt.Representable y) (fx : |x| ≤ fmt.maxFinite)
    (fy : |y| ≤ fmt.maxFinite) : (.finite x hx fx * .finite y hy fy : Fp fmt) = ofRat (x * y) := rfl

theorem finite_sub_finite {x y : ℚ} (hx : fmt.Representable x) (hy : fmt.Representable y) (fx : |x| ≤ fmt.maxFinite)
    (fy : |y| ≤ fmt.maxFinite) : (.finite x hx fx - .finite y hy fy : Fp fmt) = ofRat (x - y) := by
  rw [sub_eq_add_neg]
  rfl

theorem finite_div_finite {x y : ℚ} (hx : fmt.Representable x) (hy : fmt.Representable y) (fx : |x| ≤ fmt.maxFinite)
    (fy : |y| ≤ fmt.maxFinite) (nonzero : y ≠ 0) : (.finite x hx fx / .finite y hy fy : Fp fmt) = ofRat (x / y) := by
  show div _ _ = _
  rw [div, if_neg nonzero]

theorem finite_le_finite {x y : ℚ} {hx : fmt.Representable x} {hy : fmt.Representable y} {fx : |x| ≤ fmt.maxFinite}
    {fy : |y| ≤ fmt.maxFinite} : (.finite x hx fx : Fp fmt) ≤ .finite y hy fy ↔ x ≤ y := by
  show some (compare x y) = some .lt ∨ some (compare x y) = some .eq ↔ x ≤ y
  rw [Option.some_inj, Option.some_inj, compare_lt_iff_lt, compare_eq_iff_eq, le_iff_lt_or_eq]

theorem finite_lt_finite {x y : ℚ} {hx : fmt.Representable x} {hy : fmt.Representable y} {fx : |x| ≤ fmt.maxFinite}
    {fy : |y| ≤ fmt.maxFinite} : (.finite x hx fx : Fp fmt) < .finite y hy fy ↔ x < y := by
  show some (compare x y) = some .lt ↔ x < y
  rw [Option.some_inj, compare_lt_iff_lt]

theorem le_iff_toRat {a b : Fp fmt} (finiteA : a.isFinite) (finiteB : b.isFinite) : a ≤ b ↔ a.toRat ≤ b.toRat := by
  obtain ⟨x, hx, fx, rfl⟩ := isFinite_iff.mp finiteA
  obtain ⟨y, hy, fy, rfl⟩ := isFinite_iff.mp finiteB
  exact finite_le_finite

theorem lt_iff_toRat {a b : Fp fmt} (finiteA : a.isFinite) (finiteB : b.isFinite) : a < b ↔ a.toRat < b.toRat := by
  obtain ⟨x, hx, fx, rfl⟩ := isFinite_iff.mp finiteA
  obtain ⟨y, hy, fy, rfl⟩ := isFinite_iff.mp finiteB
  exact finite_lt_finite

theorem ofRat_le_ofRat {x y : ℚ} (nonneg : 0 ≤ x) (le : x ≤ y) (fits : |fmt.round y| ≤ fmt.maxFinite) :
    (ofRat x : Fp fmt) ≤ ofRat y := by
  have rounded : fmt.round x ≤ fmt.round y := FpFormat.round_mono nonneg le
  have fitsX : |fmt.round x| ≤ fmt.maxFinite := by
    rw [abs_of_nonneg (FpFormat.round_nonneg nonneg)]
    exact rounded.trans ((le_abs_self _).trans fits)
  rw [ofRat_of_round_le fitsX, ofRat_of_round_le fits, finite_le_finite]
  exact rounded

theorem isFinite_of_between {lo hi a : Fp fmt} (finiteLo : lo.isFinite) (finiteHi : hi.isFinite) (above : lo ≤ a)
    (below : a < hi) : a.isFinite := by
  obtain ⟨l, hl, fl, rfl⟩ := isFinite_iff.mp finiteLo
  obtain ⟨h, hh, fh, rfl⟩ := isFinite_iff.mp finiteHi
  cases a with
  | finite x rep fits => rfl
  | inf negative =>
      cases negative
      · exact absurd below (by simp [LT.lt, partialCmp])
      · exact absurd above (by simp [LE.le, partialCmp])
  | nan => exact absurd above (by simp [LE.le, partialCmp])

/-- A nonnegative result between two finite data rounds to a finite datum
between them. -/
theorem ofRat_between {lo hi : Fp fmt} {x : ℚ} (finiteLo : lo.isFinite) (finiteHi : hi.isFinite)
    (nonneg : 0 ≤ lo.toRat) (above : lo.toRat ≤ x) (below : x ≤ hi.toRat) :
    (ofRat x : Fp fmt).isFinite ∧ (ofRat x : Fp fmt).toRat = fmt.round x ∧ lo.toRat ≤ fmt.round x ∧
      fmt.round x ≤ hi.toRat := by
  obtain ⟨l, hl, fl, rfl⟩ := isFinite_iff.mp finiteLo
  obtain ⟨h, hh, fh, rfl⟩ := isFinite_iff.mp finiteHi
  rw [toRat_finite] at nonneg above ⊢
  rw [toRat_finite] at below ⊢
  have lower := FpFormat.le_round_of_le nonneg above hl
  have upper := FpFormat.round_le_of_le (nonneg.trans above) below hh
  have fits : |fmt.round x| ≤ fmt.maxFinite := by
    rw [abs_of_nonneg (nonneg.trans lower)]
    exact upper.trans ((le_abs_self h).trans fh)
  rw [ofRat_of_round_le fits]
  exact ⟨rfl, rfl, lower, upper⟩

end Fp

/-! ## `f64` -/

namespace F64

open Fp

theorem two_pow_le_maxFinite : (2 : ℚ) ^ 64 ≤ FpFormat.binary64.maxFinite := by
  have mantissa : (1 : ℚ) ≤ 2 ^ 53 - 1 := by norm_num
  have scale : (2 : ℚ) ^ (64 : ℤ) ≤ 2 ^ FpFormat.binary64.emax := zpow_le_zpow_right₀ (by norm_num) (by decide)
  calc (2 : ℚ) ^ 64 = 2 ^ (64 : ℤ) := (zpow_natCast 2 64).symm
    _ ≤ 1 * 2 ^ FpFormat.binary64.emax := by rw [one_mul]; exact scale
    _ ≤ (2 ^ 53 - 1) * 2 ^ FpFormat.binary64.emax := mul_le_mul_of_nonneg_right mantissa (by positivity)

theorem representable_natCast {n : ℕ} (small : n < 2 ^ 53) : FpFormat.binary64.Representable n := by
  have cast := @FpFormat.representable_intCast FpFormat.binary64 n
  exact_mod_cast cast (by rw [abs_of_nonneg (by positivity)]; exact_mod_cast small)

theorem natCast_fits {n : ℕ} (small : n ≤ 2 ^ 64) : |(n : ℚ)| ≤ FpFormat.binary64.maxFinite := by
  rw [abs_of_nonneg (by positivity)]
  exact (by exact_mod_cast small : (n : ℚ) ≤ 2 ^ 64).trans two_pow_le_maxFinite

theorem ofNat_eq_finite {n : ℕ} (small : n < 2 ^ 53) :
    (ofNat n : F64) = .finite n (representable_natCast small) (natCast_fits (small.trans (by norm_num)).le) :=
  ofRat_eq_finite _ _

theorem representable_one : FpFormat.binary64.Representable 1 := by
  simpa using representable_natCast (by norm_num : 1 < 2 ^ 53)

theorem one_fits : |(1 : ℚ)| ≤ FpFormat.binary64.maxFinite := by
  simpa using natCast_fits (by norm_num : 1 ≤ 2 ^ 64)

theorem one_eq_finite : (one : F64) = .finite 1 representable_one one_fits := ofRat_eq_finite _ _

theorem ofNat_add_ofNat {m n : ℕ} (small : m + n < 2 ^ 53) : (ofNat m + ofNat n : F64) = ofNat (m + n) := by
  rw [ofNat_eq_finite (by omega : m < 2 ^ 53), ofNat_eq_finite (by omega : n < 2 ^ 53), finite_add_finite, ofNat,
    Nat.cast_add]

/-- A left fold adding integers from `s` is exact while the total stays below `2 ^ 53`. -/
theorem foldl_add_ofNat (values : List ℕ) {s : ℕ} (small : s + values.sum < 2 ^ 53) :
    values.foldl (fun total value => total + ofNat value) (ofNat s : F64) = ofNat (s + values.sum) := by
  induction values generalizing s with
  | nil => simp
  | cons value values ih =>
      rw [List.sum_cons] at small
      rw [List.foldl_cons, ofNat_add_ofNat (by omega), ih (by omega), List.sum_cons, Nat.add_assoc]

/-- The integer part of a quotient of integers below `2 ^ 53` is the integer quotient. -/
theorem toNatSat_ofNat_div_ofNat {s n : ℕ} (counted : 0 < n) (small : s < 2 ^ 53) (fewer : n < 2 ^ 53) :
    (ofNat s / ofNat n : F64).toNatSat 64 = s / n := by
  have quotientRep : (s : ℚ) / n ≤ s := div_le_self (by positivity) (by exact_mod_cast counted)
  have rounded : FpFormat.binary64.round ((s : ℚ) / n) ≤ s :=
    FpFormat.round_le_of_le (by positivity) quotientRep (representable_natCast small)
  have nonneg : 0 ≤ FpFormat.binary64.round ((s : ℚ) / n) := FpFormat.round_nonneg (by positivity)
  have fits : |FpFormat.binary64.round ((s : ℚ) / n)| ≤ FpFormat.binary64.maxFinite := by
    rw [abs_of_nonneg nonneg]
    exact rounded.trans ((by exact_mod_cast (small.trans (by norm_num)).le : (s : ℚ) ≤ 2 ^ 64).trans
      two_pow_le_maxFinite)
  have normal : (n : ℚ) ≤ 2 ^ (1 - FpFormat.binary64.emin - FpFormat.binary64.precision) :=
    calc (n : ℚ) ≤ 2 ^ ((53 : ℕ) : ℤ) := by rw [zpow_natCast]; exact_mod_cast fewer.le
      _ ≤ 2 ^ (1 - FpFormat.binary64.emin - FpFormat.binary64.precision) :=
        zpow_le_zpow_right₀ (by norm_num) (by simp [FpFormat.binary64])
  rw [ofNat_eq_finite small, ofNat_eq_finite fewer, finite_div_finite _ _ _ _ (by positivity), ofRat_of_round_le fits]
  simp only [toNatSat, not_lt.mpr nonneg, if_false]
  rw [FpFormat.floor_round_div counted (by simpa [FpFormat.binary64] using small) normal]
  exact min_eq_left ((Nat.div_le_self s n).trans (small.trans (by norm_num)).le)

end F64
