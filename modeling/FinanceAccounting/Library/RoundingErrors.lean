import FinanceAccounting.Library.Rounding

/-! # What rounding changes

Rounding to an integer changes a number by at most a half.  So rounding to a number of places changes
it by at most half a unit of the last place (`abs_quantize_sub_le`, `abs_quantizeEven_sub_le`), and
rounding to the digits of a context by at most half a unit of its last digit, which is in proportion
to the number (`Context.abs_round_sub_le`). -/

namespace Decimal

/-- `x` rounded to a number of places, halves to even. -/
def quantizeEven (places : ℕ) (x : ℚ) : ℚ :=
  mkRat (x.num.sign * divHalfEven (x.num.natAbs * 10 ^ places) x.den) (10 ^ places)

/-- An integer next to a fraction is at most a half away. -/
theorem abs_divHalfEven_sub_le {n d : ℕ} (hd : 0 < d) :
    |(divHalfEven n d : ℚ) - n / d| ≤ 1 / 2 := by
  have hdpos : (0 : ℚ) < d := by exact_mod_cast hd
  have hdiv : (n : ℚ) = d * (n / d : ℕ) + (n % d : ℕ) := by exact_mod_cast (Nat.div_add_mod n d).symm
  have hquot : (n : ℚ) / d = (n / d : ℕ) + (n % d : ℕ) / d := by
    rw [hdiv, add_div, mul_div_cancel_left₀ _ hdpos.ne']
  have hlt : n % d < d := Nat.mod_lt n hd
  unfold divHalfEven
  rw [hquot, abs_le]
  split
  · rename_i hup
    have hhalf : d ≤ 2 * (n % d) := by omega
    have hge : (1 : ℚ) / 2 ≤ (n % d : ℕ) / d := by
      rw [div_le_div_iff₀ (by norm_num) hdpos]
      have : (d : ℚ) ≤ 2 * (n % d : ℕ) := by exact_mod_cast hhalf
      linarith
    have hle : ((n % d : ℕ) : ℚ) / d ≤ 1 := (div_le_one hdpos).mpr (by exact_mod_cast hlt.le)
    push_cast
    constructor <;> linarith
  · rename_i hdown
    have hhalf : 2 * (n % d) ≤ d := by omega
    have hle : ((n % d : ℕ) : ℚ) / d ≤ 1 / 2 := by
      rw [div_le_div_iff₀ hdpos (by norm_num)]
      have : 2 * ((n % d : ℕ) : ℚ) ≤ d := by exact_mod_cast hhalf
      linarith
    have hnonneg : (0 : ℚ) ≤ (n % d : ℕ) / d := by positivity
    constructor <;> linarith

/-- **A context changes a number by at most half a unit of its last digit.** -/
theorem Context.abs_round_sub_le (ctx : Context) (x : ℚ) :
    |ctx.round x - x| * (2 * 10 ^ ctx.prec) ≤ |x| * 10 := by
  have hpos : ∀ {y : ℚ}, 0 < y → |ctx.round y - y| * (2 * 10 ^ ctx.prec) ≤ y * 10 := by
    intro y hy
    set k := ctx.lastExp y.num.natAbs y.den with hk
    have hlow := ctx.pow_lastExp_le (natAbs_num_ne_zero hy) y.den_ne_zero
    rw [natAbs_num_div_den hy, ← hk] at hlow
    have hden : 0 < y.den * 10 ^ k.toNat := Nat.mul_pos y.den_pos (by positivity)
    have hpow : (0 : ℚ) < 10 ^ k := zpow_pos (by norm_num) k
    have hcast : (0 : ℚ) < ((y.den * 10 ^ k.toNat : ℕ) : ℚ) := by exact_mod_cast hden
    have hnum : (y.num.natAbs : ℚ) = y * y.den :=
      (div_eq_iff (by exact_mod_cast y.den_ne_zero)).mp (natAbs_num_div_den hy)
    have hvalue : y = ((y.num.natAbs * 10 ^ (-k).toNat : ℕ) : ℚ) /
        ((y.den * 10 ^ k.toNat : ℕ) : ℚ) * 10 ^ k := by
      rw [div_mul_eq_mul_div, eq_div_iff hcast.ne']
      push_cast
      rw [hnum, zpow_toNat k]
      ring
    have herror := abs_divHalfEven_sub_le (n := y.num.natAbs * 10 ^ (-k).toNat) hden
    have hdiff : ctx.round y - y = ((divHalfEven (y.num.natAbs * 10 ^ (-k).toNat)
        (y.den * 10 ^ k.toNat) : ℕ) - ((y.num.natAbs * 10 ^ (-k).toNat : ℕ) : ℚ) /
          ((y.den * 10 ^ k.toNat : ℕ) : ℚ)) * 10 ^ k := by
      rw [sub_mul, ← hvalue, ctx.round_of_pos hy]
    rw [hdiff, abs_mul, abs_of_pos hpow]
    have hscale : (10 : ℚ) ^ k * 10 ^ ctx.prec ≤ y * 10 := by
      rw [zpow_sub₀ (by norm_num), zpow_one, zpow_add₀ (by norm_num), zpow_natCast] at hlow
      linarith
    calc |((divHalfEven (y.num.natAbs * 10 ^ (-k).toNat) (y.den * 10 ^ k.toNat) : ℕ) : ℚ) -
            ((y.num.natAbs * 10 ^ (-k).toNat : ℕ) : ℚ) / ((y.den * 10 ^ k.toNat : ℕ) : ℚ)| *
          10 ^ k * (2 * 10 ^ ctx.prec)
        ≤ 1 / 2 * 10 ^ k * (2 * 10 ^ ctx.prec) := by
          refine mul_le_mul_of_nonneg_right (mul_le_mul_of_nonneg_right herror hpow.le) ?_
          positivity
      _ = 10 ^ k * 10 ^ ctx.prec := by ring
      _ ≤ y * 10 := hscale
  rcases lt_trichotomy x 0 with hneg | rfl | hx
  · have hback := hpos (neg_pos.mpr hneg)
    rwa [ctx.round_neg, ← neg_sub', abs_neg, ← abs_of_neg hneg] at hback
  · rw [ctx.round_zero, sub_zero, abs_zero, zero_mul, zero_mul]
  · rw [abs_of_pos hx]
    exact hpos hx

/-- A number that is not positive is not rounded to a positive one. -/
theorem Context.round_nonpos (ctx : Context) {x : ℚ} (h : x ≤ 0) : ctx.round x ≤ 0 := by
  have hneg := ctx.round_nonneg (neg_nonneg.mpr h)
  rw [ctx.round_neg] at hneg
  exact neg_nonneg.mp hneg

theorem quantizeEven_nonneg {places : ℕ} {x : ℚ} (h : 0 ≤ x) : 0 ≤ quantizeEven places x := by
  unfold quantizeEven
  rw [Rat.mkRat_eq_div]
  have hsign : 0 ≤ x.num.sign := Int.sign_nonneg_iff.mpr (Rat.num_nonneg.mpr h)
  exact div_nonneg (by exact_mod_cast mul_nonneg hsign (Int.natCast_nonneg _)) (by positivity)

theorem quantizeEven_nonpos {places : ℕ} {x : ℚ} (h : x ≤ 0) : quantizeEven places x ≤ 0 := by
  unfold quantizeEven
  rw [Rat.mkRat_eq_div]
  have hsign : x.num.sign ≤ 0 := Int.sign_nonpos_iff.mpr (Rat.num_nonpos.mpr h)
  exact div_nonpos_of_nonpos_of_nonneg
    (by exact_mod_cast mul_nonpos_of_nonpos_of_nonneg hsign (Int.natCast_nonneg _)) (by positivity)

theorem hasPlaces_quantizeEven (places : ℕ) (x : ℚ) : HasPlaces places (quantizeEven places x) := by
  refine ⟨x.num.sign * divHalfEven (x.num.natAbs * 10 ^ places) x.den, ?_⟩
  unfold quantizeEven
  rw [Rat.mkRat_eq_div]
  push_cast
  rfl

/-- What rounding the scaled absolute value of a number changes. -/
theorem abs_scaled_sub_le {places : ℕ} {x coeff y : ℚ} (hvalue : x = (x.num.sign : ℤ) * y / 10 ^ places)
    (herror : |coeff - y| ≤ 1 / 2) :
    |(x.num.sign : ℤ) * coeff / 10 ^ places - x| ≤ 1 / 2 / 10 ^ places := by
  have hpow : (0 : ℚ) < 10 ^ places := by positivity
  have hsign : |((x.num.sign : ℤ) : ℚ)| ≤ 1 := by
    rcases Int.sign_trichotomy x.num with h | h | h <;> rw [h] <;> norm_num
  have hdiff : (x.num.sign : ℤ) * coeff / 10 ^ places - x =
      (x.num.sign : ℤ) * (coeff - y) / 10 ^ places := by
    rw [mul_sub, sub_div, ← hvalue]
  rw [hdiff, abs_div, abs_mul, abs_of_pos hpow]
  refine div_le_div_of_nonneg_right ?_ hpow.le
  calc |((x.num.sign : ℤ) : ℚ)| * |coeff - y| ≤ 1 * (1 / 2) :=
        mul_le_mul hsign herror (abs_nonneg _) zero_le_one
    _ = 1 / 2 := one_mul _

theorem abs_quantizeEven_sub_le (places : ℕ) (x : ℚ) :
    |quantizeEven places x - x| ≤ 1 / 2 / 10 ^ places := by
  have hvalue : x = (x.num.sign : ℤ) * (((x.num.natAbs * 10 ^ places : ℕ) : ℚ) / x.den) / 10 ^ places := by
    have hpow : (0 : ℚ) < 10 ^ places := by positivity
    rw [eq_div_iff hpow.ne']
    push_cast
    have hnum : ((x.num.sign : ℤ) : ℚ) * (x.num.natAbs : ℚ) = x.num := by
      rw [← Int.cast_natCast, ← Int.cast_mul, Int.sign_mul_natAbs]
    calc x * 10 ^ places = x.num / x.den * 10 ^ places := by rw [Rat.num_div_den]
      _ = _ := by rw [← hnum]; ring
  have hscaled := abs_scaled_sub_le hvalue
    (abs_divHalfEven_sub_le (n := x.num.natAbs * 10 ^ places) x.den_pos)
  unfold quantizeEven
  rw [Rat.mkRat_eq_div]
  push_cast at hscaled ⊢
  exact hscaled

/-- **Rounding to places changes a number by at most half a unit of the last place.** -/
theorem abs_quantize_sub_le (places : ℕ) (x : ℚ) : |quantize places x - x| ≤ 1 / 2 / 10 ^ places := by
  have hpow : (0 : ℚ) < 10 ^ places := by positivity
  have hfloor := Int.floor_le (|x| * 10 ^ places + 1 / 2)
  have hceil := Int.lt_floor_add_one (|x| * 10 ^ places + 1 / 2)
  have herror : |(⌊|x| * 10 ^ places + 1 / 2⌋ : ℚ) - |x| * 10 ^ places| ≤ 1 / 2 := by
    rw [abs_le]
    constructor <;> linarith
  have hvalue : x = (x.num.sign : ℤ) * (|x| * 10 ^ places) / 10 ^ places := by
    rw [← mul_assoc, mul_div_cancel_right₀ _ hpow.ne']
    rcases lt_trichotomy x 0 with h | rfl | h
    · rw [Int.sign_eq_neg_one_of_neg (Rat.num_neg.mpr h), abs_of_neg h]
      push_cast
      ring
    · simp
    · rw [Int.sign_eq_one_of_pos (Rat.num_pos.mpr h), abs_of_pos h, Int.cast_one, one_mul]
  have hscaled := abs_scaled_sub_le hvalue herror
  unfold quantize
  rw [Rat.mkRat_eq_div]
  push_cast at hscaled ⊢
  exact hscaled

theorem round_one (ctx : Context) : ctx.round 1 = 1 := by
  have hplaces : HasPlaces 0 1 := ⟨1, by norm_num⟩
  refine ctx.round_of_places hplaces ?_
  rw [abs_one, pow_zero, one_mul]
  exact one_lt_pow₀ (by norm_num) ctx.prec_pos.ne'

/-! ### Multiples of a unit -/

section Units

variable {places : ℕ} {x y : ℚ}

/-- Numbers of some places differ by a whole number of units. -/
theorem HasPlaces.units_le {n : ℕ} (hx : HasPlaces places x) (hy : HasPlaces places y)
    (h : |x - y| * 10 ^ places < n + 1) : |x - y| * 10 ^ places ≤ n := by
  obtain ⟨k, hk⟩ := hx.sub hy
  have hpow : (0 : ℚ) < 10 ^ places := by positivity
  have habs : |x - y| * 10 ^ places = (|k| : ℤ) := by
    rw [hk, abs_div, abs_of_pos hpow, div_mul_cancel₀ _ hpow.ne', Int.cast_abs]
  rw [habs] at h ⊢
  have hlt : |k| < n + 1 := by exact_mod_cast h
  exact_mod_cast Int.lt_add_one_iff.mp hlt

/-- A positive number of some places is at least a unit. -/
theorem HasPlaces.one_le (hx : HasPlaces places x) (h : 0 < x) : 1 ≤ x * 10 ^ places := by
  obtain ⟨k, rfl⟩ := hx
  have hpow : (0 : ℚ) < 10 ^ places := by positivity
  rw [div_mul_cancel₀ _ hpow.ne']
  have hk : (0 : ℚ) < k := by
    have := mul_pos h hpow
    rwa [div_mul_cancel₀ _ hpow.ne'] at this
  exact_mod_cast Int.add_one_le_iff.mpr (show (0 : ℤ) < k by exact_mod_cast hk)

/-- A number of some places next to `x` is the number of these places that is nearest to it. -/
theorem HasPlaces.eq_of_near {z : ℚ} (hz : HasPlaces places z) (herror : |z - x| ≤ 1 / 2 / 10 ^ places)
    (hy : HasPlaces places y) (h : |x - y| * 10 ^ places < 1 / 2) : z = y := by
  have hpow : (0 : ℚ) < 10 ^ places := by positivity
  rw [le_div_iff₀ hpow] at herror
  have hsum : |z - y| * 10 ^ places < (0 : ℕ) + 1 := by
    calc |z - y| * 10 ^ places ≤ (|z - x| + |x - y|) * 10 ^ places :=
          mul_le_mul_of_nonneg_right (abs_sub_le _ _ _) hpow.le
      _ = |z - x| * 10 ^ places + |x - y| * 10 ^ places := add_mul _ _ _
      _ < (0 : ℕ) + 1 := by
          rw [Nat.cast_zero]
          linarith
  have hle := hz.units_le hy hsum
  rw [Nat.cast_zero] at hle
  have hzero : |z - y| ≤ 0 := nonpos_of_mul_nonpos_left hle hpow
  exact sub_eq_zero.mp (abs_nonpos_iff.mp hzero)

theorem quantizeEven_of_near (hy : HasPlaces places y) (h : |x - y| * 10 ^ places < 1 / 2) :
    quantizeEven places x = y :=
  (hasPlaces_quantizeEven places x).eq_of_near (abs_quantizeEven_sub_le places x) hy h

end Units

end Decimal
