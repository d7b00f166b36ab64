import Mathlib.Algebra.Order.BigOperators.Group.List
import Mathlib.Algebra.Order.Round
import Mathlib.Data.Rat.Floor
import Mathlib.Tactic.Linarith
import FinanceAccounting.Library.Decimal

/-! # Rounding of rational numbers

The results of decimal arithmetic as rational numbers.  `Context.round` rounds to the significant
digits of a context, ties to even, with no bound on the exponent; `quantize` rounds to a fixed
number of places, ties away from zero, as a column of fixed scale does.

`round_of_digits` says that a number with no more digits than the context has is left as it
is, so rounding twice is rounding once (`round_round`); `round_quantize` says so of the numbers
of a column.  Rounding keeps the order (`round_mono`).  A sum that is rounded at every term is the
sum itself when the digits suffice for the absolute values (`total_eq_sum`). -/

namespace Decimal

/-- `n / d` rounded to the nearest integer, ties to even. -/
def divHalfEven (n d : ℕ) : ℕ :=
  if d < 2 * (n % d) ∨ (2 * (n % d) = d ∧ n / d % 2 = 1) then n / d + 1 else n / d

/-- The exponent of the last of the digits that a context keeps of `n / d`. -/
def Context.lastExp (ctx : Context) (n d : ℕ) : ℤ :=
  let exp : ℤ := (numDigits n : ℤ) - numDigits d - ctx.prec
  if d * 10 ^ (numDigits n - numDigits d) ≤ n * 10 ^ (numDigits d - numDigits n) then exp + 1
  else exp

/-- Round to the significant digits of the context, ties to even. -/
def Context.round (ctx : Context) (x : ℚ) : ℚ :=
  let exp := ctx.lastExp x.num.natAbs x.den
  let coeff := divHalfEven (x.num.natAbs * 10 ^ (-exp).toNat) (x.den * 10 ^ exp.toNat)
  mkRat (x.num.sign * coeff * 10 ^ exp.toNat) (10 ^ (-exp).toNat)

/-- Round to a number of places, ties away from zero. -/
def quantize (places : ℕ) (x : ℚ) : ℚ :=
  mkRat (x.num.sign * ⌊|x| * 10 ^ places + 1 / 2⌋) (10 ^ places)

@[simp] theorem Context.round_zero (ctx : Context) : ctx.round 0 = 0 := by
  simp [round]

/-- Rounding is the same on both sides of zero. -/
theorem Context.round_neg (ctx : Context) (x : ℚ) : ctx.round (-x) = -ctx.round x := by
  unfold round
  simp only [Rat.num_neg_eq_neg_num, Rat.den_neg_eq_den, Int.natAbs_neg, Int.sign_neg, neg_mul,
    Rat.neg_mkRat]

/-- `quantize` under a context: the result must have no more digits than the context. -/
def Context.quantizeTo (ctx : Context) (places : ℕ) (x : ℚ) : Except Signal ℚ :=
  if |Decimal.quantize places x| * 10 ^ places < 10 ^ ctx.prec then .ok (Decimal.quantize places x)
  else .error .invalidOperation

theorem Context.quantizeTo_eq_ok {ctx : Context} {places : ℕ} {x y : ℚ} :
    ctx.quantizeTo places x = .ok y ↔
      |Decimal.quantize places x| * 10 ^ places < 10 ^ ctx.prec ∧ Decimal.quantize places x = y := by
  unfold quantizeTo
  split
  · simp [*]
  · simp [*]

theorem Context.round_nonneg (ctx : Context) {x : ℚ} (h : 0 ≤ x) : 0 ≤ ctx.round x := by
  unfold round
  dsimp only
  rw [Rat.mkRat_eq_div]
  have hsign : 0 ≤ x.num.sign := Int.sign_nonneg_iff.mpr (Rat.num_nonneg.mpr h)
  exact div_nonneg (by exact_mod_cast mul_nonneg (mul_nonneg hsign (by positivity)) (by positivity))
    (by positivity)

theorem Context.abs_round (ctx : Context) (x : ℚ) : |ctx.round x| = ctx.round |x| := by
  rcases le_total 0 x with h | h
  · rw [abs_of_nonneg h, abs_of_nonneg (ctx.round_nonneg h)]
  · have hneg : ctx.round (-x) = -ctx.round x := ctx.round_neg x
    have hle : 0 ≤ -ctx.round x := by
      rw [← hneg]
      exact ctx.round_nonneg (neg_nonneg.mpr h)
    rw [abs_of_nonpos h, abs_of_nonpos (neg_nonneg.mp hle), hneg]

theorem quantize_nonneg {places : ℕ} {x : ℚ} (h : 0 ≤ x) : 0 ≤ quantize places x := by
  unfold quantize
  rw [Rat.mkRat_eq_div]
  have hsign : 0 ≤ x.num.sign := Int.sign_nonneg_iff.mpr (Rat.num_nonneg.mpr h)
  have hfloor : (0 : ℤ) ≤ ⌊|x| * 10 ^ places + 1 / 2⌋ := Int.floor_nonneg.mpr (by positivity)
  have hnum : (0 : ℤ) ≤ x.num.sign * ⌊|x| * 10 ^ places + 1 / 2⌋ := mul_nonneg hsign hfloor
  exact div_nonneg (by exact_mod_cast hnum) (by positivity)

theorem quantize_nonpos {places : ℕ} {x : ℚ} (h : x ≤ 0) : quantize places x ≤ 0 := by
  unfold quantize
  rw [Rat.mkRat_eq_div]
  have hsign : x.num.sign ≤ 0 := Int.sign_nonpos_iff.mpr (Rat.num_nonpos.mpr h)
  have hfloor : (0 : ℤ) ≤ ⌊|x| * 10 ^ places + 1 / 2⌋ := Int.floor_nonneg.mpr (by positivity)
  have hnum : x.num.sign * ⌊|x| * 10 ^ places + 1 / 2⌋ ≤ 0 :=
    mul_nonpos_of_nonpos_of_nonneg hsign hfloor
  exact div_nonpos_of_nonpos_of_nonneg (by exact_mod_cast hnum) (by positivity)

/-- Rounding does not lift a number over a bound of these places. -/
theorem quantize_le {places m : ℕ} {x : ℚ} (h : x ≤ m / 10 ^ places) :
    quantize places x ≤ m / 10 ^ places := by
  rcases le_or_gt x 0 with hneg | hpos
  · exact (quantize_nonpos hneg).trans (by positivity)
  · have hfloor : ⌊x * 10 ^ places + 1 / 2⌋ ≤ (m : ℤ) := by
      have hle : x * 10 ^ places ≤ m := (le_div_iff₀ (by positivity)).mp h
      refine Int.lt_add_one_iff.mp (Int.floor_lt.mpr ?_)
      push_cast
      linarith
    unfold quantize
    rw [Rat.mkRat_eq_div, Int.sign_eq_one_of_pos (Rat.num_pos.mpr hpos), abs_of_pos hpos, one_mul]
    push_cast
    exact div_le_div_of_nonneg_right (by exact_mod_cast hfloor) (by positivity)

/-! ### Numbers with few digits -/

theorem divHalfEven_mul {k d : ℕ} (hd : 0 < d) : divHalfEven (k * d) d = k := by
  unfold divHalfEven
  rw [Nat.mul_mod_left, Nat.mul_div_cancel _ hd]
  refine if_neg ?_
  omega

theorem pow_numDigits_le {n : ℕ} (hn : n ≠ 0) : 10 ^ (numDigits n - 1) ≤ n := by
  by_contra h
  rcases Nat.eq_zero_or_pos (numDigits n - 1) with h0 | hpos
  · rw [h0] at h
    omega
  · have := (numDigits_le_iff hpos).mpr (not_le.mp h)
    have := numDigits_pos n
    omega

theorem lt_pow_numDigits (n : ℕ) : n < 10 ^ numDigits n :=
  (numDigits_le_iff (numDigits_pos n)).mp le_rfl

/-- A positive and a negative part of an exponent make up the power. -/
theorem zpow_toNat (k : ℤ) : (10 : ℚ) ^ k.toNat = 10 ^ k * 10 ^ (-k).toNat := by
  rw [← zpow_natCast, ← zpow_natCast, ← zpow_add₀ (by norm_num)]
  congr 1
  omega

theorem pow_tsub (m n : ℕ) : (10 : ℚ) ^ (m - n) = 10 ^ ((m : ℤ) - n) * 10 ^ (n - m) := by
  rw [← zpow_natCast, ← zpow_natCast, ← zpow_add₀ (by norm_num)]
  congr 1
  omega

/-- The digits that are kept start with a digit that is not zero. -/
theorem Context.pow_lastExp_le (ctx : Context) {n d : ℕ} (hn : n ≠ 0) (hd : d ≠ 0) :
    (10 : ℚ) ^ (ctx.lastExp n d + ctx.prec - 1) ≤ n / d := by
  have hdpos : (0 : ℚ) < d := by exact_mod_cast Nat.pos_of_ne_zero hd
  rw [le_div_iff₀ hdpos]
  unfold lastExp
  dsimp only
  split
  · rename_i h
    have hcast : (d : ℚ) * 10 ^ (numDigits n - numDigits d) ≤
        n * 10 ^ (numDigits d - numDigits n) := by exact_mod_cast h
    have hpos := numDigits_pos d
    rw [pow_tsub (numDigits n), ← mul_assoc] at hcast
    have := le_of_mul_le_mul_right hcast (by positivity)
    rw [mul_comm]
    convert this using 3
    omega
  · have hnum : (10 : ℚ) ^ (numDigits n - 1) ≤ n := by exact_mod_cast pow_numDigits_le hn
    have hden : (d : ℚ) ≤ 10 ^ numDigits d := by exact_mod_cast (lt_pow_numDigits d).le
    have hpos := numDigits_pos n
    calc (10 : ℚ) ^ ((numDigits n : ℤ) - numDigits d - ctx.prec + ctx.prec - 1) * d
        ≤ 10 ^ ((numDigits n : ℤ) - numDigits d - ctx.prec + ctx.prec - 1) * 10 ^ numDigits d :=
          mul_le_mul_of_nonneg_left hden (zpow_nonneg (by norm_num) _)
      _ = 10 ^ (numDigits n - 1) := by
          rw [← zpow_natCast, ← zpow_natCast, ← zpow_add₀ (by norm_num)]
          congr 1
          omega
      _ ≤ n := hnum

/-- **A number with no more digits than the context has is left as it is.** -/
theorem Context.round_of_digits (ctx : Context) {m e : ℤ} (hm : m.natAbs < 10 ^ ctx.prec) :
    ctx.round (m * 10 ^ e) = m * 10 ^ e := by
  obtain rfl | hm0 := eq_or_ne m 0
  · simp
  set x : ℚ := m * 10 ^ e with hx
  have hpow : (0 : ℚ) < 10 ^ e := zpow_pos (by norm_num) e
  have hx0 : x ≠ 0 := mul_ne_zero (by exact_mod_cast hm0) hpow.ne'
  have hd0 : (0 : ℚ) < x.den := by exact_mod_cast x.den_pos
  have habs : (x.num.natAbs : ℚ) / x.den = m.natAbs * 10 ^ e := by
    rw [Nat.cast_natAbs, Nat.cast_natAbs, Int.cast_abs, Int.cast_abs, ← abs_of_pos hpow, ← abs_mul,
      ← hx, ← abs_of_pos hd0, ← abs_div, Rat.num_div_den]
  have hnum0 : x.num.natAbs ≠ 0 := Int.natAbs_ne_zero.mpr (Rat.num_ne_zero.mpr hx0)
  -- the last digit that is kept is not left of the last digit of `m`
  have hle : ctx.lastExp x.num.natAbs x.den ≤ e := by
    have hlow := ctx.pow_lastExp_le hnum0 x.den_ne_zero
    have hhigh : (m.natAbs : ℚ) * 10 ^ e < 10 ^ ((ctx.prec : ℤ) + e) := by
      rw [zpow_add₀ (by norm_num), zpow_natCast]
      exact mul_lt_mul_of_pos_right (by exact_mod_cast hm) hpow
    rw [habs] at hlow
    have := (zpow_lt_zpow_iff_right₀ (by norm_num : (1 : ℚ) < 10)).mp (hlow.trans_lt hhigh)
    omega
  unfold round
  dsimp only
  set k := ctx.lastExp x.num.natAbs x.den
  have hscaled : x.num.natAbs * 10 ^ (-k).toNat =
      m.natAbs * 10 ^ (e - k).toNat * (x.den * 10 ^ k.toNat) := by
    rw [div_eq_iff hd0.ne'] at habs
    have hcast : (x.num.natAbs : ℚ) * 10 ^ (-k).toNat =
        m.natAbs * 10 ^ (e - k).toNat * (x.den * 10 ^ k.toNat) := by
      have hek : (10 : ℚ) ^ (e - k).toNat = 10 ^ e * (10 ^ k)⁻¹ := by
        rw [← zpow_natCast, Int.toNat_of_nonneg (by omega), zpow_sub₀ (by norm_num), div_eq_mul_inv]
      rw [habs, hek, zpow_toNat k]
      field_simp
    exact_mod_cast hcast
  have hsign : x.num.sign = m.sign := by
    rcases lt_or_gt_of_ne hm0 with hneg | hpos
    · have hx : x < 0 := mul_neg_of_neg_of_pos (by exact_mod_cast hneg) hpow
      rw [Int.sign_eq_neg_one_of_neg hneg, Int.sign_eq_neg_one_of_neg (Rat.num_neg.mpr hx)]
    · have hx : 0 < x := mul_pos (by exact_mod_cast hpos) hpow
      rw [Int.sign_eq_one_of_pos hpos, Int.sign_eq_one_of_pos (Rat.num_pos.mpr hx)]
  rw [hscaled, divHalfEven_mul (Nat.mul_pos x.den_pos (by positivity)), hsign, Rat.mkRat_eq_div]
  have hm : (m.sign : ℚ) * |(m : ℚ)| = m := by exact_mod_cast Int.sign_mul_abs m
  have hek : (10 : ℚ) ^ (e - k).toNat * 10 ^ k.toNat = 10 ^ e * 10 ^ (-k).toNat := by
    rw [zpow_toNat k, ← zpow_natCast, Int.toNat_of_nonneg (by omega), ← mul_assoc,
      ← zpow_add₀ (by norm_num)]
    congr 2
    omega
  push_cast
  rw [← mul_assoc, hm, mul_assoc, hek, ← mul_assoc]
  exact mul_div_cancel_right₀ _ (by positivity)

/-- No more digits are kept than the context has. -/
theorem Context.lt_pow_lastExp (ctx : Context) {n d : ℕ} (hd : d ≠ 0) :
    (n : ℚ) / d < 10 ^ (ctx.lastExp n d + ctx.prec) := by
  have hdpos : (0 : ℚ) < d := by exact_mod_cast Nat.pos_of_ne_zero hd
  rw [div_lt_iff₀ hdpos]
  unfold lastExp
  dsimp only
  split
  · have hnum : (n : ℚ) < 10 ^ numDigits n := by exact_mod_cast lt_pow_numDigits n
    have hden : (10 : ℚ) ^ (numDigits d - 1) ≤ d := by exact_mod_cast pow_numDigits_le hd
    have hpos := numDigits_pos d
    calc (n : ℚ) < 10 ^ numDigits n := hnum
      _ = 10 ^ ((numDigits n : ℤ) - numDigits d - ctx.prec + 1 + ctx.prec) *
            10 ^ (numDigits d - 1) := by
          rw [← zpow_natCast, ← zpow_natCast, ← zpow_add₀ (by norm_num)]
          congr 1
          omega
      _ ≤ 10 ^ ((numDigits n : ℤ) - numDigits d - ctx.prec + 1 + ctx.prec) * d :=
          mul_le_mul_of_nonneg_left hden (zpow_nonneg (by norm_num) _)
  · rename_i h
    have hcast : (n : ℚ) * 10 ^ (numDigits d - numDigits n) <
        d * 10 ^ (numDigits n - numDigits d) := by exact_mod_cast not_le.mp h
    rw [pow_tsub (numDigits n), ← mul_assoc] at hcast
    have hlt := lt_of_mul_lt_mul_right hcast (by positivity)
    rw [mul_comm] at hlt
    convert hlt using 3
    omega

theorem divHalfEven_le (n d : ℕ) : divHalfEven n d ≤ n / d + 1 := by
  unfold divHalfEven
  split
  · exact le_rfl
  · exact Nat.le_succ _

theorem natAbs_sign_le_one (m : ℤ) : m.sign.natAbs ≤ 1 := by
  rcases Int.sign_trichotomy m with h | h | h <;> rw [h] <;> decide

/-- The digits that are kept, with an exponent. -/
theorem Context.round_eq (ctx : Context) (x : ℚ) :
    ∃ m e : ℤ, m.natAbs ≤ 10 ^ ctx.prec ∧ ctx.round x = m * 10 ^ e := by
  set k := ctx.lastExp x.num.natAbs x.den with hk
  set coeff := divHalfEven (x.num.natAbs * 10 ^ (-k).toNat) (x.den * 10 ^ k.toNat) with hcoeff
  have hden : (0 : ℚ) < x.den := by exact_mod_cast x.den_pos
  have hlt : x.num.natAbs * 10 ^ (-k).toNat < 10 ^ ctx.prec * (x.den * 10 ^ k.toNat) := by
    have hhigh := ctx.lt_pow_lastExp (n := x.num.natAbs) x.den_ne_zero
    rw [← hk, div_lt_iff₀ hden, zpow_add₀ (by norm_num), zpow_natCast] at hhigh
    have hscaled : (x.num.natAbs : ℚ) * 10 ^ (-k).toNat <
        10 ^ ctx.prec * (x.den * 10 ^ k.toNat) := by
      rw [zpow_toNat k]
      calc (x.num.natAbs : ℚ) * 10 ^ (-k).toNat
          < 10 ^ k * 10 ^ ctx.prec * x.den * 10 ^ (-k).toNat :=
            mul_lt_mul_of_pos_right hhigh (by positivity)
        _ = 10 ^ ctx.prec * (x.den * (10 ^ k * 10 ^ (-k).toNat)) := by ring
    exact_mod_cast hscaled
  have hle : coeff ≤ 10 ^ ctx.prec :=
    (divHalfEven_le _ _).trans (Nat.div_lt_of_lt_mul (by rwa [mul_comm (10 ^ ctx.prec)] at hlt))
  refine ⟨x.num.sign * coeff, k, ?_, ?_⟩
  · rw [Int.natAbs_mul, Int.natAbs_natCast]
    refine le_trans (Nat.mul_le_mul_right coeff ?_) ((one_mul coeff).le.trans hle)
    exact natAbs_sign_le_one x.num
  · unfold round
    dsimp only
    rw [← hk, ← hcoeff, Rat.mkRat_eq_div]
    push_cast
    rw [zpow_toNat k, ← mul_assoc]
    exact mul_div_cancel_right₀ _ (by positivity)

/-- **A rounded number has no more digits than the context has.** -/
@[simp] theorem Context.round_round (ctx : Context) (x : ℚ) :
    ctx.round (ctx.round x) = ctx.round x := by
  obtain ⟨m, e, hm, heq⟩ := ctx.round_eq x
  rw [heq]
  rcases lt_or_eq_of_le hm with hlt | hfull
  · exact ctx.round_of_digits hlt
  · -- a carry has made it a power of ten
    have hsign : (m : ℚ) = (m.sign : ℤ) * 10 ^ (ctx.prec : ℤ) := by
      rw [zpow_natCast]
      have hm' : m.sign * (m.natAbs : ℤ) = m := Int.sign_mul_natAbs m
      rw [hfull] at hm'
      exact_mod_cast hm'.symm
    have hpow : (m : ℚ) * 10 ^ e = (m.sign : ℤ) * 10 ^ ((ctx.prec : ℤ) + e) := by
      rw [hsign, zpow_add₀ (by norm_num), mul_assoc]
    rw [hpow]
    refine ctx.round_of_digits ?_
    have hone : 1 < 10 ^ ctx.prec := Nat.one_lt_pow ctx.prec_pos.ne' (by norm_num)
    exact (natAbs_sign_le_one m).trans_lt hone

/-! ### Order -/

theorem le_divHalfEven (n d : ℕ) : n / d ≤ divHalfEven n d := by
  unfold divHalfEven
  split
  · exact Nat.le_succ _
  · exact le_rfl

/-- A greater fraction is not rounded to a smaller integer. -/
theorem divHalfEven_mono {n₁ d₁ n₂ d₂ : ℕ} (h₁ : 0 < d₁) (h₂ : 0 < d₂) (h : n₁ * d₂ ≤ n₂ * d₁) :
    divHalfEven n₁ d₁ ≤ divHalfEven n₂ d₂ := by
  have hq : n₁ / d₁ ≤ n₂ / d₂ := by
    rw [Nat.le_div_iff_mul_le h₂]
    have hdiv : n₁ / d₁ * d₁ ≤ n₁ := Nat.div_mul_le_self n₁ d₁
    refine Nat.le_of_mul_le_mul_right ?_ h₁
    calc n₁ / d₁ * d₂ * d₁ = n₁ / d₁ * d₁ * d₂ := by ring
      _ ≤ n₁ * d₂ := Nat.mul_le_mul_right d₂ hdiv
      _ ≤ n₂ * d₁ := h
  have hlow := le_divHalfEven n₂ d₂
  rcases hq.lt_or_eq with hlt | heq
  · exact (divHalfEven_le n₁ d₁).trans (hlt.trans_le hlow)
  · -- with one whole part, the remainders are compared
    have hrem : n₁ % d₁ * d₂ ≤ n₂ % d₂ * d₁ := by
      have e₁ := Nat.div_add_mod n₁ d₁
      have e₂ := Nat.div_add_mod n₂ d₂
      rw [heq] at e₁
      have : (d₁ * (n₂ / d₂) + n₁ % d₁) * d₂ ≤ (d₂ * (n₂ / d₂) + n₂ % d₂) * d₁ := by
        rw [e₁, e₂]
        exact h
      have hcommon : d₁ * (n₂ / d₂) * d₂ = d₂ * (n₂ / d₂) * d₁ := by ring
      rw [add_mul, add_mul, hcommon] at this
      exact Nat.le_of_add_le_add_left this
    unfold divHalfEven
    rw [heq]
    split
    · rename_i hup
      rw [if_pos ?_]
      rcases hup with hup | ⟨hup, hodd⟩
      · left
        refine Nat.lt_of_mul_lt_mul_left (a := d₁) ?_
        have : d₁ * d₂ < 2 * (n₁ % d₁) * d₂ := Nat.mul_lt_mul_of_pos_right hup h₂
        nlinarith
      · have hle : d₂ ≤ 2 * (n₂ % d₂) := by
          refine Nat.le_of_mul_le_mul_left (c := d₁) ?_ h₁
          nlinarith
        rcases hle.lt_or_eq with hlt | htie
        · exact Or.inl hlt
        · exact Or.inr ⟨htie.symm, hodd⟩
    · split <;> omega

/-- The digits that are kept of a positive number, with their exponent. -/
theorem Context.round_of_pos (ctx : Context) {x : ℚ} (hx : 0 < x) :
    ctx.round x = (divHalfEven (x.num.natAbs * 10 ^ (-ctx.lastExp x.num.natAbs x.den).toNat)
      (x.den * 10 ^ (ctx.lastExp x.num.natAbs x.den).toNat) : ℕ) *
        10 ^ ctx.lastExp x.num.natAbs x.den := by
  unfold round
  dsimp only
  rw [Rat.mkRat_eq_div, Int.sign_eq_one_of_pos (Rat.num_pos.mpr hx), one_mul]
  push_cast
  rw [zpow_toNat, ← mul_assoc]
  exact mul_div_cancel_right₀ _ (by positivity)

theorem natAbs_num_div_den {x : ℚ} (hx : 0 < x) : (x.num.natAbs : ℚ) / x.den = x := by
  rw [Nat.cast_natAbs, abs_of_pos (Rat.num_pos.mpr hx), Rat.num_div_den]

theorem natAbs_num_ne_zero {x : ℚ} (hx : 0 < x) : x.num.natAbs ≠ 0 :=
  Int.natAbs_ne_zero.mpr (Rat.num_pos.mpr hx).ne'

/-- A greater number keeps no digit further to the right. -/
theorem Context.lastExp_mono (ctx : Context) {x y : ℚ} (hx : 0 < x) (hxy : x ≤ y) :
    ctx.lastExp x.num.natAbs x.den ≤ ctx.lastExp y.num.natAbs y.den := by
  have hy := hx.trans_le hxy
  have hlow := ctx.pow_lastExp_le (natAbs_num_ne_zero hx) x.den_ne_zero
  have hhigh := ctx.lt_pow_lastExp (n := y.num.natAbs) y.den_ne_zero
  rw [natAbs_num_div_den hx] at hlow
  rw [natAbs_num_div_den hy] at hhigh
  have hpow := (hlow.trans hxy).trans_lt hhigh
  have hexp := (zpow_lt_zpow_iff_right₀ (by norm_num : (1 : ℚ) < 10)).mp hpow
  omega

/-- What a positive number is rounded to lies between the powers of ten around it. -/
theorem Context.round_bounds (ctx : Context) {x : ℚ} (hx : 0 < x) :
    (10 : ℚ) ^ (ctx.lastExp x.num.natAbs x.den + ctx.prec - 1) ≤ ctx.round x ∧
      ctx.round x ≤ 10 ^ (ctx.lastExp x.num.natAbs x.den + ctx.prec) := by
  set k := ctx.lastExp x.num.natAbs x.den with hk
  have hden : 0 < x.den * 10 ^ k.toNat := Nat.mul_pos x.den_pos (by positivity)
  have hnum : (x.num.natAbs : ℚ) = x * x.den :=
    (div_eq_iff (by exact_mod_cast x.den_ne_zero)).mp (natAbs_num_div_den hx)
  have hscaled : ((x.num.natAbs * 10 ^ (-k).toNat : ℕ) : ℚ) * 10 ^ k =
      x * ((x.den * 10 ^ k.toNat : ℕ) : ℚ) := by
    push_cast
    rw [hnum, zpow_toNat k]
    ring
  have hpow : (0 : ℚ) < 10 ^ k := zpow_pos (by norm_num) k
  have hcast : (0 : ℚ) < ((x.den * 10 ^ k.toNat : ℕ) : ℚ) := by exact_mod_cast hden
  have hprec := ctx.prec_pos
  rw [ctx.round_of_pos hx, ← hk]
  refine ⟨?_, ?_⟩
  · have hlow := ctx.pow_lastExp_le (natAbs_num_ne_zero hx) x.den_ne_zero
    rw [natAbs_num_div_den hx, ← hk, show k + ctx.prec - 1 = ((ctx.prec - 1 : ℕ) : ℤ) + k by omega,
      zpow_add₀ (by norm_num), zpow_natCast] at hlow
    have hcoeff : 10 ^ (ctx.prec - 1) ≤ x.num.natAbs * 10 ^ (-k).toNat / (x.den * 10 ^ k.toNat) := by
      rw [Nat.le_div_iff_mul_le hden]
      have : ((10 : ℚ) ^ (ctx.prec - 1) * ((x.den * 10 ^ k.toNat : ℕ) : ℚ)) * 10 ^ k ≤
          ((x.num.natAbs * 10 ^ (-k).toNat : ℕ) : ℚ) * 10 ^ k := by
        rw [hscaled, mul_right_comm]
        exact mul_le_mul_of_nonneg_right hlow hcast.le
      exact_mod_cast le_of_mul_le_mul_right this hpow
    rw [show k + ctx.prec - 1 = ((ctx.prec - 1 : ℕ) : ℤ) + k by omega, zpow_add₀ (by norm_num),
      zpow_natCast]
    refine mul_le_mul_of_nonneg_right ?_ hpow.le
    exact_mod_cast hcoeff.trans (le_divHalfEven _ _)
  · have hhigh := ctx.lt_pow_lastExp (n := x.num.natAbs) x.den_ne_zero
    rw [natAbs_num_div_den hx, ← hk, add_comm, zpow_add₀ (by norm_num), zpow_natCast] at hhigh
    have hcoeff : x.num.natAbs * 10 ^ (-k).toNat / (x.den * 10 ^ k.toNat) < 10 ^ ctx.prec := by
      rw [Nat.div_lt_iff_lt_mul hden]
      have : ((x.num.natAbs * 10 ^ (-k).toNat : ℕ) : ℚ) * 10 ^ k <
          ((10 : ℚ) ^ ctx.prec * ((x.den * 10 ^ k.toNat : ℕ) : ℚ)) * 10 ^ k := by
        rw [hscaled, mul_right_comm]
        exact mul_lt_mul_of_pos_right hhigh hcast
      exact_mod_cast lt_of_mul_lt_mul_right this hpow.le
    rw [add_comm, zpow_add₀ (by norm_num), zpow_natCast]
    refine mul_le_mul_of_nonneg_right ?_ hpow.le
    exact_mod_cast (divHalfEven_le _ _).trans (Nat.succ_le_of_lt hcoeff)

/-- Only zero is rounded to zero. -/
theorem Context.round_eq_zero (ctx : Context) {x : ℚ} : ctx.round x = 0 ↔ x = 0 := by
  have hpos : ∀ {y : ℚ}, 0 < y → 0 < ctx.round y := fun hy =>
    (zpow_pos (by norm_num : (0 : ℚ) < 10) _).trans_le (ctx.round_bounds hy).1
  constructor
  · intro h
    rcases lt_trichotomy x 0 with hneg | rfl | hx
    · have hback := hpos (neg_pos.mpr hneg)
      rw [ctx.round_neg, h, neg_zero] at hback
      exact absurd hback (lt_irrefl 0)
    · rfl
    · have hlt := hpos hx
      rw [h] at hlt
      exact absurd hlt (lt_irrefl 0)
  · rintro rfl
    exact ctx.round_zero

/-- **Rounding keeps the order.** -/
theorem Context.round_mono (ctx : Context) {x y : ℚ} (hx : 0 ≤ x) (hxy : x ≤ y) :
    ctx.round x ≤ ctx.round y := by
  rcases hx.eq_or_lt with rfl | hpos
  · rw [ctx.round_zero]
    exact ctx.round_nonneg hxy
  have hy := hpos.trans_le hxy
  rcases (ctx.lastExp_mono hpos hxy).eq_or_lt with heq | hlt
  · rw [ctx.round_of_pos hpos, ctx.round_of_pos hy, ← heq]
    set k := ctx.lastExp x.num.natAbs x.den
    have hpow : (0 : ℚ) < 10 ^ k := zpow_pos (by norm_num) k
    have hle : x.num.natAbs * y.den ≤ y.num.natAbs * x.den := by
      have hdx : (0 : ℚ) < x.den := by exact_mod_cast x.den_pos
      have hdy : (0 : ℚ) < y.den := by exact_mod_cast y.den_pos
      have : (x.num.natAbs : ℚ) / x.den ≤ y.num.natAbs / y.den := by
        rw [natAbs_num_div_den hpos, natAbs_num_div_den hy]
        exact hxy
      exact_mod_cast (div_le_div_iff₀ hdx hdy).mp this
    have hcoeff : divHalfEven (x.num.natAbs * 10 ^ (-k).toNat) (x.den * 10 ^ k.toNat) ≤
        divHalfEven (y.num.natAbs * 10 ^ (-k).toNat) (y.den * 10 ^ k.toNat) := by
      refine divHalfEven_mono (Nat.mul_pos x.den_pos (by positivity))
        (Nat.mul_pos y.den_pos (by positivity)) ?_
      calc x.num.natAbs * 10 ^ (-k).toNat * (y.den * 10 ^ k.toNat)
          = x.num.natAbs * y.den * (10 ^ (-k).toNat * 10 ^ k.toNat) := by ring
        _ ≤ y.num.natAbs * x.den * (10 ^ (-k).toNat * 10 ^ k.toNat) :=
            Nat.mul_le_mul_right _ hle
        _ = y.num.natAbs * 10 ^ (-k).toNat * (x.den * 10 ^ k.toNat) := by ring
    exact mul_le_mul_of_nonneg_right (by exact_mod_cast hcoeff) hpow.le
  · -- between the two lies a power of ten
    calc ctx.round x ≤ 10 ^ (ctx.lastExp x.num.natAbs x.den + ctx.prec) := (ctx.round_bounds hpos).2
      _ ≤ 10 ^ (ctx.lastExp y.num.natAbs y.den + ctx.prec - 1) :=
          zpow_le_zpow_right₀ (by norm_num) (by omega)
      _ ≤ ctx.round y := (ctx.round_bounds hy).1

theorem quantize_mono {places : ℕ} {x y : ℚ} (hx : 0 ≤ x) (hxy : x ≤ y) :
    quantize places x ≤ quantize places y := by
  rcases hx.eq_or_lt with rfl | hpos
  · exact (quantize_nonpos le_rfl).trans (quantize_nonneg hxy)
  have hy := hpos.trans_le hxy
  unfold quantize
  rw [Rat.mkRat_eq_div, Rat.mkRat_eq_div, Int.sign_eq_one_of_pos (Rat.num_pos.mpr hpos),
    Int.sign_eq_one_of_pos (Rat.num_pos.mpr hy), abs_of_pos hpos, abs_of_pos hy, one_mul, one_mul]
  have hfloor : ⌊x * 10 ^ places + 1 / 2⌋ ≤ ⌊y * 10 ^ places + 1 / 2⌋ := by
    refine Int.floor_mono ?_
    have := mul_le_mul_of_nonneg_right hxy (by positivity : (0 : ℚ) ≤ 10 ^ places)
    linarith
  push_cast
  exact div_le_div_of_nonneg_right (by exact_mod_cast hfloor) (by positivity)

/-! ### Rounded sums -/

/-- The number has no more decimal places. -/
def HasPlaces (places : ℕ) (x : ℚ) : Prop := ∃ k : ℤ, x = k / 10 ^ places

section Sums

variable {places : ℕ} {x y : ℚ} {xs : List ℚ}

theorem HasPlaces.zero : HasPlaces places 0 := ⟨0, by simp⟩

theorem HasPlaces.add (hx : HasPlaces places x) (hy : HasPlaces places y) :
    HasPlaces places (x + y) := by
  obtain ⟨k, rfl⟩ := hx
  obtain ⟨m, rfl⟩ := hy
  exact ⟨k + m, by push_cast; ring⟩

/-- More places do not hurt. -/
theorem HasPlaces.mono {places' : ℕ} (hle : places ≤ places') (hx : HasPlaces places x) :
    HasPlaces places' x := by
  obtain ⟨k, rfl⟩ := hx
  obtain ⟨n, rfl⟩ := Nat.exists_eq_add_of_le hle
  refine ⟨k * 10 ^ n, ?_⟩
  push_cast
  rw [pow_add, mul_div_mul_right _ _ (by positivity)]

theorem HasPlaces.neg (hx : HasPlaces places x) : HasPlaces places (-x) := by
  obtain ⟨k, rfl⟩ := hx
  exact ⟨-k, by push_cast; ring⟩

theorem HasPlaces.sub (hx : HasPlaces places x) (hy : HasPlaces places y) :
    HasPlaces places (x - y) := sub_eq_add_neg x y ▸ hx.add hy.neg

theorem HasPlaces.list_sum (h : ∀ x ∈ xs, HasPlaces places x) : HasPlaces places xs.sum := by
  induction xs with
  | nil => exact .zero
  | cons x xs ih =>
      rw [List.sum_cons]
      exact (h x List.mem_cons_self).add (ih fun y hy => h y (List.mem_cons_of_mem x hy))

/-- A number of fixed places is left as it is when its digits fit. -/
theorem Context.round_of_places (ctx : Context) (hx : HasPlaces places x)
    (h : |x| * 10 ^ places < 10 ^ ctx.prec) : ctx.round x = x := by
  obtain ⟨k, rfl⟩ := hx
  have hpow : (0 : ℚ) < 10 ^ places := by positivity
  have hdigits : k.natAbs < 10 ^ ctx.prec := by
    rw [abs_div, abs_of_pos hpow, div_mul_cancel₀ _ hpow.ne'] at h
    have hcast : ((k.natAbs : ℕ) : ℚ) = |(k : ℚ)| := by rw [Nat.cast_natAbs, Int.cast_abs]
    rw [← hcast] at h
    exact_mod_cast h
  have hvalue : (k : ℚ) / 10 ^ places = k * 10 ^ (-(places : ℤ)) := by
    rw [zpow_neg, zpow_natCast, div_eq_mul_inv]
  rw [hvalue]
  exact ctx.round_of_digits hdigits

theorem hasPlaces_quantize (places : ℕ) (x : ℚ) : HasPlaces places (quantize places x) := by
  refine ⟨x.num.sign * ⌊|x| * 10 ^ places + 1 / 2⌋, ?_⟩
  unfold quantize
  rw [Rat.mkRat_eq_div]
  push_cast
  rfl

theorem Context.round_quantize (ctx : Context)
    (h : |quantize places x| * 10 ^ places < 10 ^ ctx.prec) :
    ctx.round (quantize places x) = quantize places x :=
  ctx.round_of_places (hasPlaces_quantize places x) h

theorem Context.round_of_quantizeTo {ctx : Context} (h : ctx.quantizeTo places x = .ok y) :
    ctx.round y = y := by
  obtain ⟨hlt, rfl⟩ := Context.quantizeTo_eq_ok.mp h
  exact ctx.round_quantize hlt

/-- The sum of a list, rounded at every term. -/
def Context.total (ctx : Context) (xs : List ℚ) : ℚ := xs.foldl (fun acc x => ctx.round (acc + x)) 0

/-- No term is rounded when the digits suffice for the absolute values of what is added up. -/
theorem Context.foldl_add_eq (ctx : Context) :
    ∀ (xs : List ℚ) (acc : ℚ), HasPlaces places acc → (∀ x ∈ xs, HasPlaces places x) →
      (|acc| + (xs.map fun x => |x|).sum) * 10 ^ places < 10 ^ ctx.prec →
        xs.foldl (fun acc x => ctx.round (acc + x)) acc = acc + xs.sum := by
  intro xs
  have hpow : (0 : ℚ) < 10 ^ places := by positivity
  -- the partial sums stay below the absolute values seen so far
  induction xs with
  | nil => simp
  | cons x xs ih =>
      intro acc hacc hxs hlt
      rw [List.map_cons, List.sum_cons, ← add_assoc] at hlt
      have hx := hacc.add (hxs x List.mem_cons_self)
      have habs : |acc + x| ≤ |acc| + |x| := abs_add_le acc x
      have hnonneg : 0 ≤ (xs.map fun x => |x|).sum := List.sum_nonneg fun y hy => by
        obtain ⟨z, -, rfl⟩ := List.mem_map.mp hy
        exact abs_nonneg z
      have hround : ctx.round (acc + x) = acc + x := by
        refine ctx.round_of_places hx (lt_of_le_of_lt ?_ hlt)
        exact mul_le_mul_of_nonneg_right (by linarith) hpow.le
      rw [List.foldl_cons, hround, ih (acc + x) hx fun y hy => hxs y (List.mem_cons_of_mem x hy)]
      · rw [List.sum_cons, add_assoc]
      · refine lt_of_le_of_lt ?_ hlt
        exact mul_le_mul_of_nonneg_right (by linarith) hpow.le

/-- **No term is rounded** when the digits suffice for the sum of the absolute values. -/
theorem Context.total_eq_sum (ctx : Context) (hplaces : ∀ x ∈ xs, HasPlaces places x)
    (h : (xs.map fun x => |x|).sum * 10 ^ places < 10 ^ ctx.prec) : ctx.total xs = xs.sum := by
  have hsum := ctx.foldl_add_eq xs 0 .zero hplaces (by simpa using h)
  rwa [zero_add] at hsum

/-- No term is rounded when none is negative and the digits suffice for the sum. -/
theorem Context.total_eq_sum_of_nonneg (ctx : Context) (hplaces : ∀ x ∈ xs, HasPlaces places x)
    (hnonneg : ∀ x ∈ xs, 0 ≤ x) (h : xs.sum * 10 ^ places < 10 ^ ctx.prec) :
    ctx.total xs = xs.sum := by
  have habs : xs.map (fun x => |x|) = xs := by
    rw [List.map_congr_left fun x hx => abs_of_nonneg (hnonneg x hx), List.map_id']
  exact ctx.total_eq_sum hplaces (by rwa [habs])

/-- A rounded sum is not below what it starts with when nothing negative is added. -/
theorem Context.le_foldl_add (ctx : Context) :
    ∀ (xs : List ℚ) (acc : ℚ), 0 ≤ acc → ctx.round acc = acc → (∀ x ∈ xs, 0 ≤ x) →
      acc ≤ xs.foldl (fun acc x => ctx.round (acc + x)) acc := by
  intro xs
  induction xs with
  | nil => exact fun acc _ _ _ => le_rfl
  | cons x xs ih =>
      intro acc hacc hround hxs
      have hx := hxs x List.mem_cons_self
      have hle : acc ≤ ctx.round (acc + x) := by
        calc acc = ctx.round acc := hround.symm
          _ ≤ ctx.round (acc + x) := ctx.round_mono hacc (le_add_of_nonneg_right hx)
      exact hle.trans (ih _ (hacc.trans hle) (ctx.round_round _)
        fun y hy => hxs y (List.mem_cons_of_mem x hy))

/-- **A bound on a rounded sum** is one on the sum itself, when the digits suffice for the first
partial sum above it. -/
theorem Context.total_le_iff (ctx : Context) {bound : ℚ} (hplaces : ∀ x ∈ xs, HasPlaces places x)
    (hnonneg : ∀ x ∈ xs, 0 ≤ x) (hbound : ∀ x ∈ xs, x ≤ bound)
    (h : (bound + bound) * 10 ^ places < 10 ^ ctx.prec) :
    ctx.total xs ≤ bound ↔ xs.sum ≤ bound := by
  have hpow : (0 : ℚ) < 10 ^ places := by positivity
  -- up to the first partial sum above the bound, nothing is rounded
  have hfold : ∀ (xs : List ℚ) (acc : ℚ), HasPlaces places acc → 0 ≤ acc → acc ≤ bound →
      (∀ x ∈ xs, HasPlaces places x ∧ 0 ≤ x ∧ x ≤ bound) →
        (xs.foldl (fun acc x => ctx.round (acc + x)) acc ≤ bound ↔ acc + xs.sum ≤ bound) := by
    intro xs
    induction xs with
    | nil => exact fun acc _ _ _ _ => by simp
    | cons x xs ih =>
        intro acc hacc hpos hle hxs
        obtain ⟨⟨hxplaces, hx, hxle⟩, htail⟩ := List.forall_mem_cons.mp hxs
        have hround : ctx.round (acc + x) = acc + x := by
          refine ctx.round_of_places (hacc.add hxplaces) (lt_of_le_of_lt ?_ h)
          rw [abs_of_nonneg (add_nonneg hpos hx)]
          exact mul_le_mul_of_nonneg_right (add_le_add hle hxle) hpow.le
        rw [List.foldl_cons, hround, List.sum_cons, ← add_assoc]
        rcases le_or_gt (acc + x) bound with hlow | hhigh
        · exact ih _ (hacc.add hxplaces) (add_nonneg hpos hx) hlow htail
        · have hrest : 0 ≤ xs.sum := List.sum_nonneg fun y hy => (htail y hy).2.1
          have hfolded := ctx.le_foldl_add xs (acc + x) (add_nonneg hpos hx) hround
            fun y hy => (htail y hy).2.1
          exact iff_of_false (by linarith) (by linarith)
  cases xs with
  | nil => exact Iff.rfl
  | cons x xs =>
      have hpositive : 0 ≤ bound :=
        (hnonneg x List.mem_cons_self).trans (hbound x List.mem_cons_self)
      have hsum := hfold (x :: xs) 0 .zero le_rfl hpositive
        fun y hy => ⟨hplaces y hy, hnonneg y hy, hbound y hy⟩
      rwa [zero_add] at hsum

end Sums

end Decimal
