import Mathlib.Data.Rat.Defs
import Mathlib.Algebra.Order.Field.Basic
import Mathlib.Data.List.TakeWhile
import Mathlib.Tactic.Ring
import Mathlib.Tactic.FieldSimp
import Mathlib.Tactic.NormNum
import FinanceAccounting.Library.Numeral

/-! # Decimal floating point

Arbitrary-precision decimal numbers as triples of a sign, a coefficient and an exponent, with
the operations of the general decimal arithmetic under a context of finite precision: `fix`
rounds half to even and signals overflow, `normalize` rounds and strips trailing zeros, `add`
is the rounded exact sum, and `toChars` is the to-scientific-string conversion.

The two facts about `normalize` are that its results are in normal form
(`normalize_isNormal`), where a number has one representation (`eq_of_sameNumber`), and
that it changes neither the sign nor the value of a number that fits the context
(`normalize_sameNumber`).  Two decimals
with one text are the same triple (`toChars_injective`). -/

/-- A decimal number: `(-1)^sign * coeff * 10^exp`, an infinity, or a NaN with its payload. -/
inductive Decimal where
  | finite (sign : Bool) (coeff : ℕ) (exp : ℤ)
  | infinity (sign : Bool)
  | nan (sign signaling : Bool) (payload : ℕ)
deriving DecidableEq, Repr

namespace Decimal

open Numeral

/-- Precision and exponent range of the arithmetic. -/
structure Context where
  prec : ℕ
  eMin : ℤ
  eMax : ℤ
  prec_pos : 0 < prec
deriving DecidableEq, Repr

/-- Trapped conditions. -/
inductive Signal where
  | invalidOperation
  | overflow
deriving DecidableEq, Repr

namespace Context

/-- The smallest exponent of a subnormal number. -/
def eTiny (ctx : Context) : ℤ := ctx.eMin - ctx.prec + 1

/-- The largest exponent of a number with `prec` digits. -/
def eTop (ctx : Context) : ℤ := ctx.eMax - ctx.prec + 1

end Context

/-- Number of decimal digits of `n`; zero has one. -/
def numDigits (n : ℕ) : ℕ := (Nat.toDigits 10 n).length

/-- `n / 10^k` rounded to the nearest integer, ties to even. -/
def roundHalfEven (n k : ℕ) : ℕ :=
  let q := n / 10 ^ k
  let r := n % 10 ^ k
  if 10 ^ k < 2 * r ∨ (2 * r = 10 ^ k ∧ q % 2 = 1) then q + 1 else q

/-- A rounded coefficient of one digit too many, `10^prec`, gives its last zero to the exponent. -/
def carryDigit (ctx : Context) (coeff : ℕ) (exp : ℤ) : ℕ × ℤ :=
  if ctx.prec < numDigits coeff then (coeff / 10, exp + 1) else (coeff, exp)

/-- Round a finite number to the context. -/
def fixFinite (ctx : Context) (sign : Bool) (coeff : ℕ) (exp : ℤ) : Except Signal Decimal :=
  if coeff = 0 then .ok (.finite sign 0 (min (max exp ctx.eTiny) ctx.eMax))
  else
    let expMin₀ : ℤ := numDigits coeff + exp - ctx.prec
    if ctx.eTop < expMin₀ then .error .overflow
    else
      let expMin := max expMin₀ ctx.eTiny
      if exp < expMin then
        let p := carryDigit ctx (roundHalfEven coeff (expMin - exp).toNat) expMin
        if ctx.eTop < p.2 then .error .overflow else .ok (.finite sign p.1 p.2)
      else .ok (.finite sign coeff exp)

/-- Round to the context; a quiet NaN keeps the digits of its payload that fit. -/
def fix (ctx : Context) : Decimal → Except Signal Decimal
  | .finite sign coeff exp => fixFinite ctx sign coeff exp
  | .infinity sign => .ok (.infinity sign)
  | .nan sign signaling payload => .ok (.nan sign signaling (payload % 10 ^ ctx.prec))

/-- Move trailing zeros of the coefficient into the exponent, at most `fuel` of them. -/
def stripZeros (eMax : ℤ) : ℕ → ℕ → ℤ → ℕ × ℤ
  | 0, coeff, exp => (coeff, exp)
  | fuel + 1, coeff, exp =>
      if coeff % 10 = 0 ∧ exp < eMax then stripZeros eMax fuel (coeff / 10) (exp + 1)
      else (coeff, exp)

/-- Round to the context and strip trailing zeros. -/
def normalize (ctx : Context) : Decimal → Except Signal Decimal
  | .nan sign signaling payload =>
      if signaling then .error .invalidOperation
      else .ok (.nan sign false (payload % 10 ^ ctx.prec))
  | d => (fix ctx d).map fun
      | .finite sign coeff exp =>
          if coeff = 0 then .finite sign 0 0
          else
            let p := stripZeros ctx.eMax (numDigits coeff) coeff exp
            .finite sign p.1 p.2
      | d => d

/-- The coefficient with its sign. -/
def signed (sign : Bool) (coeff : ℕ) : ℤ := if sign then -(coeff : ℤ) else coeff

/-- The rounded sum of two finite numbers; an operand that is not finite decides the result. -/
def add (ctx : Context) : Decimal → Decimal → Except Signal Decimal
  | .finite s₁ c₁ e₁, .finite s₂ c₂ e₂ =>
      let exp := min e₁ e₂
      let total := signed s₁ c₁ * 10 ^ (e₁ - exp).toNat + signed s₂ c₂ * 10 ^ (e₂ - exp).toNat
      let sign := if total = 0 then c₁ = 0 && c₂ = 0 && s₁ && s₂ else decide (total < 0)
      fixFinite ctx sign total.natAbs exp
  | .nan s g p, d => nanResult (.nan s g p) d
  | d, .nan s g p => nanResult (.nan s g p) d
  | .infinity s₁, .infinity s₂ =>
      if s₁ = s₂ then .ok (.infinity s₁) else .error .invalidOperation
  | .infinity s, .finite _ _ _ => .ok (.infinity s)
  | .finite _ _ _, .infinity s => .ok (.infinity s)
where
  nanResult : Decimal → Decimal → Except Signal Decimal
    | .nan _ true _, _ => .error .invalidOperation
    | _, .nan _ true _ => .error .invalidOperation
    | d, _ => fix ctx d

/-- The number with the other sign. -/
def negate : Decimal → Decimal
  | .finite sign coeff exp => .finite (!sign) coeff exp
  | .infinity sign => .infinity (!sign)
  | .nan sign signaling payload => .nan (!sign) signaling payload

/-- The rounded difference. -/
def sub (ctx : Context) (a b : Decimal) : Except Signal Decimal := add ctx a b.negate

/-- The rounded sum of a list, term by term from zero. -/
def sum (ctx : Context) (ds : List Decimal) : Except Signal Decimal :=
  ds.foldlM (add ctx) (.finite false 0 0)

/-- The rational number a finite decimal stands for. -/
def toRat : Decimal → ℚ
  | .finite sign coeff exp => signed sign coeff * (10 : ℚ) ^ exp
  | _ => 0

/-- `==` of numbers; the two zeros are equal, and a NaN equals nothing. -/
def numEq : Decimal → Decimal → Bool
  | .finite s₁ c₁ e₁, .finite s₂ c₂ e₂ =>
      toRat (.finite s₁ c₁ e₁) = toRat (.finite s₂ c₂ e₂)
  | .infinity s₁, .infinity s₂ => s₁ = s₂
  | _, _ => false

/-- `>` of a number and a finite bound. -/
def exceeds (d : Decimal) (bound : ℚ) : Bool :=
  match d with
  | .finite s c e => bound < toRat (.finite s c e)
  | .infinity s => !s
  | .nan _ _ _ => false

/-- `<` of numbers; a comparison with a NaN is invalid. -/
def less : Decimal → Decimal → Except Signal Bool
  | .nan _ _ _, _ => .error .invalidOperation
  | _, .nan _ _ _ => .error .invalidOperation
  | .finite s₁ c₁ e₁, .finite s₂ c₂ e₂ =>
      .ok (toRat (.finite s₁ c₁ e₁) < toRat (.finite s₂ c₂ e₂))
  | .infinity s₁, .infinity s₂ => .ok (s₁ && !s₂)
  | .infinity s, .finite _ _ _ => .ok s
  | .finite _ _ _, .infinity s => .ok !s

/-- Neither below zero nor a NaN. -/
def NonNegative : Decimal → Prop
  | .finite s c _ => s = false ∨ c = 0
  | .infinity s => s = false
  | .nan _ _ _ => False

instance : DecidablePred NonNegative := fun d => by
  cases d <;> unfold NonNegative <;> infer_instance

/-- Two decimals denote the same number, with the same sign of zero. -/
def SameNumber : Decimal → Decimal → Prop
  | .finite s₁ c₁ e₁, .finite s₂ c₂ e₂ =>
      s₁ = s₂ ∧ toRat (.finite s₁ c₁ e₁) = toRat (.finite s₂ c₂ e₂)
  | .infinity s₁, .infinity s₂ => s₁ = s₂
  | .nan s₁ g₁ p₁, .nan s₂ g₂ p₂ => s₁ = s₂ ∧ g₁ = g₂ ∧ p₁ = p₂
  | _, _ => False

/-- Normal forms: no trailing zeros, and one exponent for zero. -/
def IsNormal : Decimal → Prop
  | .finite _ coeff exp => (coeff = 0 ∧ exp = 0) ∨ coeff % 10 ≠ 0
  | .infinity _ => True
  | .nan _ signaling _ => signaling = false

/-! ### Digits -/

theorem numDigits_pos (n : ℕ) : 0 < numDigits n := Nat.length_toDigits_pos

theorem numDigits_le_iff {n k : ℕ} (hk : 0 < k) : numDigits n ≤ k ↔ n < 10 ^ k :=
  Nat.length_toDigits_le_iff (by decide) hk

theorem numDigits_div_ten {n : ℕ} (h : 10 ≤ n) : numDigits (n / 10) + 1 = numDigits n := by
  unfold numDigits
  rw [Nat.toDigits_of_base_le (by decide) h, List.length_append, List.length_singleton]

theorem ten_le_of_mod_eq_zero {n : ℕ} (hn : n ≠ 0) (h : n % 10 = 0) : 10 ≤ n := by
  omega

theorem roundHalfEven_le (n k : ℕ) : roundHalfEven n k ≤ n / 10 ^ k + 1 := by
  unfold roundHalfEven
  dsimp only
  split
  · exact le_rfl
  · exact Nat.le_succ _

/-! ### Rounding -/

/-- The digits of a rounded coefficient fit the precision, after the carry of `99…9 → 100…0`
has been moved into the exponent. -/
theorem numDigits_carryDigit {ctx : Context} {coeff k : ℕ} (e : ℤ)
    (h : numDigits coeff ≤ ctx.prec + k) :
    numDigits (carryDigit ctx (roundHalfEven coeff k) e).1 ≤ ctx.prec := by
  unfold carryDigit
  split
  · have hp := ctx.prec_pos
    have hc : coeff < 10 ^ (ctx.prec + k) := by
      rw [← numDigits_le_iff (by omega)]
      exact h
    have hq : coeff / 10 ^ k < 10 ^ ctx.prec := by
      rw [Nat.div_lt_iff_lt_mul (by positivity), ← pow_add]
      exact hc
    have hr := roundHalfEven_le coeff k
    rw [numDigits_le_iff hp]
    have h10 : 10 ≤ 10 ^ ctx.prec := Nat.le_self_pow (by omega) 10
    dsimp only
    omega
  · rename_i hq
    exact not_lt.mp hq

/-- The adjusted exponent of a rounded number is in range. -/
theorem fixFinite_eq_ok {ctx : Context} {sign : Bool} {coeff : ℕ} {exp : ℤ} {d : Decimal}
    (h : fixFinite ctx sign coeff exp = .ok d) :
    ∃ c e, d = .finite sign c e ∧ (c ≠ 0 → numDigits c + e ≤ ctx.eMax + 1) := by
  unfold fixFinite at h
  split at h
  · obtain rfl := Except.ok.inj h
    exact ⟨_, _, rfl, fun h => absurd rfl h⟩
  · simp only at h
    split at h
    · cases h
    · rename_i hover
      split at h
      · rename_i hlt
        split at h
        · cases h
        · rename_i hcarry
          obtain rfl := Except.ok.inj h
          refine ⟨_, _, rfl, fun _ => ?_⟩
          have hd : numDigits coeff ≤ ctx.prec + (max (numDigits coeff + exp - ctx.prec)
              ctx.eTiny - exp).toNat := by omega
          have hn := numDigits_carryDigit (max (numDigits coeff + exp - ctx.prec) ctx.eTiny) hd
          simp only [Context.eTop] at hcarry
          omega
      · obtain rfl := Except.ok.inj h
        refine ⟨_, _, rfl, fun _ => ?_⟩
        simp only [Context.eTop] at hover
        omega

/-- Stripping keeps the value and leaves no trailing zero, when the exponent has room. -/
theorem stripZeros_spec (eMax : ℤ) :
    ∀ (fuel c : ℕ) (e : ℤ), c ≠ 0 → numDigits c ≤ fuel → numDigits c + e ≤ eMax + 1 →
      (stripZeros eMax fuel c e).1 % 10 ≠ 0 ∧
        ((stripZeros eMax fuel c e).1 : ℚ) * (10 : ℚ) ^ (stripZeros eMax fuel c e).2 =
          (c : ℚ) * (10 : ℚ) ^ e
  | 0, c, e, _, hf, _ => by
      have := numDigits_pos c
      omega
  | fuel + 1, c, e, hc, hf, he => by
      unfold stripZeros
      by_cases hz : c % 10 = 0
      · have h10 := ten_le_of_mod_eq_zero hc hz
        have hn := numDigits_div_ten h10
        have hpos := numDigits_pos (c / 10)
        rw [if_pos ⟨hz, by omega⟩]
        obtain ⟨h₁, h₂⟩ := stripZeros_spec eMax fuel (c / 10) (e + 1)
          (by omega) (by omega) (by omega)
        refine ⟨h₁, h₂.trans ?_⟩
        have hdiv : (c : ℚ) = ((c / 10 : ℕ) : ℚ) * 10 := by
          exact_mod_cast (Nat.div_mul_cancel (Nat.dvd_of_mod_eq_zero hz)).symm
        rw [hdiv, zpow_add_one₀ (by norm_num)]
        ring
      · rw [if_neg fun h => hz h.1]
        exact ⟨hz, rfl⟩

/-- **The result of `normalize` is in normal form.** -/
theorem normalize_isNormal {ctx : Context} {d r : Decimal} (h : normalize ctx d = .ok r) :
    r.IsNormal := by
  cases d with
  | nan sign signaling payload =>
      simp only [normalize] at h
      split at h
      · cases h
      · obtain rfl := Except.ok.inj h
        rfl
  | infinity sign =>
      obtain rfl := Except.ok.inj h
      trivial
  | finite sign coeff exp =>
      simp only [normalize, fix] at h
      cases hf : fixFinite ctx sign coeff exp with
      | error e =>
          rw [hf] at h
          cases h
      | ok d =>
          obtain ⟨c, e, rfl, hadj⟩ := fixFinite_eq_ok hf
          rw [hf] at h
          obtain rfl := Except.ok.inj h
          by_cases hc : c = 0
          · simp [hc, IsNormal]
          · simp only [hc, if_false]
            exact Or.inr (stripZeros_spec _ _ c e hc le_rfl (hadj hc)).1

/-! ### Numbers and normal forms -/

theorem SameNumber.symm {a b : Decimal} (h : SameNumber a b) : SameNumber b a := by
  cases a <;> cases b <;> simp only [SameNumber] at h ⊢
  · exact ⟨h.1.symm, h.2.symm⟩
  · exact h.symm
  · exact ⟨h.1.symm, h.2.1.symm, h.2.2.symm⟩

theorem SameNumber.trans {a b c : Decimal} (h₁ : SameNumber a b) (h₂ : SameNumber b c) :
    SameNumber a c := by
  cases a <;> cases b <;> simp only [SameNumber] at h₁ <;> cases c <;>
    simp only [SameNumber] at h₂ ⊢
  · exact ⟨h₁.1.trans h₂.1, h₁.2.trans h₂.2⟩
  · exact h₁.trans h₂
  · exact ⟨h₁.1.trans h₂.1, h₁.2.1.trans h₂.2.1, h₁.2.2.trans h₂.2.2⟩

theorem SameNumber.refl (a : Decimal) : SameNumber a a := by
  cases a <;> simp [SameNumber]

theorem mul_zpow_ten_ne_zero {c : ℕ} (hc : c ≠ 0) (e : ℤ) : (c : ℚ) * (10 : ℚ) ^ e ≠ 0 :=
  mul_ne_zero (Nat.cast_ne_zero.mpr hc) (zpow_ne_zero _ (by norm_num))

/-- A coefficient without trailing zeros cannot give up exponent. -/
theorem exp_le_of_eq {c₁ c₂ : ℕ} {e₁ e₂ : ℤ} (h₁ : c₁ % 10 ≠ 0)
    (h : (c₁ : ℚ) * (10 : ℚ) ^ e₁ = (c₂ : ℚ) * (10 : ℚ) ^ e₂) : e₂ ≤ e₁ := by
  by_contra hlt
  obtain ⟨k, rfl⟩ : ∃ k : ℕ, e₂ = e₁ + (k + 1 : ℕ) := ⟨(e₂ - e₁ - 1).toNat, by omega⟩
  have hz : (10 : ℚ) ^ e₁ ≠ 0 := zpow_ne_zero _ (by norm_num)
  rw [zpow_add₀ (by norm_num), zpow_natCast, mul_comm ((10 : ℚ) ^ e₁), ← mul_assoc] at h
  have hc : (c₁ : ℚ) = c₂ * 10 ^ (k + 1) := mul_right_cancel₀ hz h
  have hn : c₁ = c₂ * 10 ^ (k + 1) := by exact_mod_cast hc
  apply h₁
  rw [hn, pow_succ, ← mul_assoc]
  exact Nat.mul_mod_left _ _

theorem coeff_exp_unique {c₁ c₂ : ℕ} {e₁ e₂ : ℤ} (h₁ : c₁ % 10 ≠ 0) (h₂ : c₂ % 10 ≠ 0)
    (h : (c₁ : ℚ) * (10 : ℚ) ^ e₁ = (c₂ : ℚ) * (10 : ℚ) ^ e₂) : c₁ = c₂ ∧ e₁ = e₂ := by
  obtain rfl : e₁ = e₂ := le_antisymm (exp_le_of_eq h₂ h.symm) (exp_le_of_eq h₁ h)
  have hz : (10 : ℚ) ^ e₁ ≠ 0 := zpow_ne_zero _ (by norm_num)
  exact ⟨by exact_mod_cast mul_right_cancel₀ hz h, rfl⟩

theorem toRat_finite_eq_iff (s : Bool) {c₁ c₂ : ℕ} {e₁ e₂ : ℤ} :
    toRat (.finite s c₁ e₁) = toRat (.finite s c₂ e₂) ↔
      (c₁ : ℚ) * (10 : ℚ) ^ e₁ = (c₂ : ℚ) * (10 : ℚ) ^ e₂ := by
  cases s <;> simp [toRat, signed]

/-- **Normal forms are unique.** -/
theorem eq_of_sameNumber {a b : Decimal} (ha : a.IsNormal) (hb : b.IsNormal)
    (h : SameNumber a b) : a = b := by
  cases a <;> cases b <;> simp only [SameNumber] at h
  case finite.finite s₁ c₁ e₁ s₂ c₂ e₂ =>
    obtain ⟨rfl, hv⟩ := h
    rw [toRat_finite_eq_iff] at hv
    rcases ha with ⟨rfl, rfl⟩ | ha
    · rcases hb with ⟨rfl, rfl⟩ | hb
      · rfl
      · rw [Nat.cast_zero, zero_mul] at hv
        exact absurd hv.symm (mul_zpow_ten_ne_zero (by omega) _)
    · rcases hb with ⟨rfl, rfl⟩ | hb
      · rw [Nat.cast_zero, zero_mul] at hv
        exact absurd hv (mul_zpow_ten_ne_zero (by omega) _)
      · obtain ⟨rfl, rfl⟩ := coeff_exp_unique ha hb hv
        rfl
  case infinity.infinity => rw [h]
  case nan.nan => rw [h.1, h.2.1, h.2.2]

/-- The number needs no rounding: at most `prec` digits, and an exponent in range. -/
def Fits (ctx : Context) : Decimal → Prop
  | .finite _ coeff exp =>
      coeff = 0 ∨
        (numDigits coeff ≤ ctx.prec ∧ numDigits coeff + exp ≤ ctx.eMax + 1 ∧ ctx.eTiny ≤ exp)
  | .infinity _ => True
  | .nan _ signaling payload => signaling = false ∧ payload < 10 ^ ctx.prec

theorem fixFinite_of_fits {ctx : Context} {s : Bool} {c : ℕ} {e : ℤ} (hc : c ≠ 0)
    (hd : numDigits c ≤ ctx.prec) (he : numDigits c + e ≤ ctx.eMax + 1) (ht : ctx.eTiny ≤ e) :
    fixFinite ctx s c e = .ok (.finite s c e) := by
  unfold fixFinite
  have hover : ¬ ctx.eTop < (numDigits c : ℤ) + e - ctx.prec := by
    simp only [Context.eTop]
    omega
  have hlt : ¬ e < max ((numDigits c : ℤ) + e - ctx.prec) ctx.eTiny := by omega
  simp only [if_neg hc, if_neg hover, if_neg hlt]

/-- **`normalize` changes neither the sign nor the value of a number that fits.** -/
theorem normalize_sameNumber {ctx : Context} {d : Decimal} (h : Fits ctx d) :
    ∃ r, normalize ctx d = .ok r ∧ SameNumber d r := by
  cases d with
  | infinity s => exact ⟨_, rfl, rfl⟩
  | nan s g p =>
      obtain ⟨rfl, hp⟩ := h
      exact ⟨_, rfl, rfl, rfl, (Nat.mod_eq_of_lt hp).symm⟩
  | finite s c e =>
      by_cases hc : c = 0
      · subst hc
        refine ⟨.finite s 0 0, by simp [normalize, fix, fixFinite, Except.map], rfl, ?_⟩
        simp [toRat_finite_eq_iff]
      · obtain ⟨hd, he, ht⟩ := h.resolve_left hc
        have hn : normalize ctx (.finite s c e) =
            .ok (.finite s (stripZeros ctx.eMax (numDigits c) c e).1
              (stripZeros ctx.eMax (numDigits c) c e).2) := by
          simp only [normalize, fix, fixFinite_of_fits hc hd he ht, Except.map, if_neg hc]
        refine ⟨_, hn, rfl, ?_⟩
        rw [toRat_finite_eq_iff]
        exact (stripZeros_spec _ _ c e hc le_rfl he).2.symm

/-! ### Scientific strings -/

/-- Is the number negative, or its zero, infinity or NaN signed? -/
def sign : Decimal → Bool
  | .finite s _ _ => s
  | .infinity s => s
  | .nan s _ _ => s

/-- The digits with the decimal point after `dotplace` of them, padded with zeros. -/
def pointChars (digits : List Char) (dotplace : ℤ) : List Char :=
  if dotplace ≤ 0 then '0' :: '.' :: (List.replicate (-dotplace).toNat '0' ++ digits)
  else if (digits.length : ℤ) ≤ dotplace then
    digits ++ List.replicate (dotplace - digits.length).toNat '0'
  else digits.take dotplace.toNat ++ '.' :: digits.drop dotplace.toNat

/-- The exponent part, absent when it is zero. -/
def exponentChars (e : ℤ) : List Char :=
  if e = 0 then []
  else 'E' :: (if e < 0 then '-' else '+') :: Nat.toDigits 10 e.natAbs

/-- Where the decimal point stands: in the plain position for an exponent that is not positive
and a number that is not too small, after the first digit otherwise. -/
def dotplace (coeff : ℕ) (exp : ℤ) : ℤ :=
  if exp ≤ 0 ∧ -6 < exp + numDigits coeff then exp + numDigits coeff else 1

/-- The text without its sign. -/
def bodyChars : Decimal → List Char
  | .finite _ coeff exp =>
      pointChars (Nat.toDigits 10 coeff) (dotplace coeff exp) ++
        exponentChars (exp + numDigits coeff - dotplace coeff exp)
  | .infinity _ => ['I', 'n', 'f', 'i', 'n', 'i', 't', 'y']
  | .nan _ signaling payload =>
      (if signaling then ['s', 'N', 'a', 'N'] else ['N', 'a', 'N']) ++
        if payload = 0 then [] else Nat.toDigits 10 payload

/-- The to-scientific-string conversion. -/
def toChars (d : Decimal) : List Char := (if d.sign then ['-'] else []) ++ d.bodyChars

theorem dotplace_le (coeff : ℕ) (exp : ℤ) : dotplace coeff exp ≤ numDigits coeff := by
  have := numDigits_pos coeff
  unfold dotplace
  split <;> omega

/-- The point part consists of digits and the point. -/
theorem mem_pointChars {n : ℕ} {dp : ℤ} {c : Char} (h : c ∈ pointChars (Nat.toDigits 10 n) dp) :
    c = '.' ∨ c.isDigit := by
  unfold pointChars at h
  split at h
  · simp only [List.mem_cons, List.mem_append, List.mem_replicate] at h
    rcases h with rfl | rfl | ⟨-, rfl⟩ | h
    · exact Or.inr rfl
    · exact Or.inl rfl
    · exact Or.inr rfl
    · exact Or.inr (isDigit_of_mem h)
  · split at h
    · simp only [List.mem_append, List.mem_replicate] at h
      rcases h with h | ⟨-, rfl⟩
      · exact Or.inr (isDigit_of_mem h)
      · exact Or.inr rfl
    · simp only [List.mem_append, List.mem_cons] at h
      rcases h with h | rfl | h
      · exact Or.inr (isDigit_of_mem (List.mem_of_mem_take h))
      · exact Or.inl rfl
      · exact Or.inr (isDigit_of_mem (List.mem_of_mem_drop h))

/-- The point part starts with a digit. -/
theorem head_pointChars (n : ℕ) (dp : ℤ) :
    ∃ c cs, pointChars (Nat.toDigits 10 n) dp = c :: cs ∧ c.isDigit := by
  obtain ⟨d, ds, hds, hd⟩ := exists_cons_toDigits n
  unfold pointChars
  split
  · exact ⟨_, _, rfl, rfl⟩
  · rename_i hpos
    split
    · exact ⟨d, _, by rw [hds]; rfl, hd⟩
    · obtain ⟨k, hk⟩ : ∃ k, dp.toNat = k + 1 := ⟨dp.toNat - 1, by omega⟩
      exact ⟨d, _, by rw [hds, hk]; rfl, hd⟩

/-- The digits of the point part spell the coefficient. -/
theorem ofDigitChars_pointChars {n : ℕ} {dp : ℤ} (hdp : dp ≤ numDigits n) :
    Nat.ofDigitChars 10 ((pointChars (Nat.toDigits 10 n) dp).filter (· ≠ '.')) 0 = n := by
  have hfilter : ∀ l : List Char, (∀ c ∈ l, c.isDigit) → l.filter (· ≠ '.') = l := by
    intro l hl
    rw [List.filter_eq_self]
    intro c hc
    simpa using ne_of_isDigit (hl c hc) (by decide)
  have hdig : ∀ c ∈ Nat.toDigits 10 n, c.isDigit := fun c hc => isDigit_of_mem hc
  unfold pointChars
  split
  · have hzeros : ∀ c ∈ List.replicate (-dp).toNat '0', c.isDigit := by
      intro c hc
      rw [(List.mem_replicate.mp hc).2]
      rfl
    rw [List.filter_cons_of_pos (by decide), List.filter_cons_of_neg (by decide),
      List.filter_append, hfilter _ hzeros, hfilter _ hdig, Nat.ofDigitChars_cons,
      Nat.ofDigitChars_append, Nat.ofDigitChars_replicate_zero]
    simp
  · split
    · rename_i hle
      have hz : (dp - ((Nat.toDigits 10 n).length : ℤ)).toNat = 0 := by
        unfold numDigits at hdp
        omega
      rw [hz, List.replicate_zero, List.append_nil, hfilter _ hdig,
        Nat.ofDigitChars_ten_toDigits]
    · rw [List.filter_append, List.filter_cons_of_neg (by decide),
        hfilter _ fun c hc => hdig c (List.mem_of_mem_take hc),
        hfilter _ fun c hc => hdig c (List.mem_of_mem_drop hc), List.take_append_drop,
        Nat.ofDigitChars_ten_toDigits]

/-- Number of characters after the first `'.'`. -/
def fractionLength (cs : List Char) : ℕ := (cs.dropWhile (· ≠ '.')).length - 1

theorem dropWhile_append_dot {l : List Char} (h : ∀ c ∈ l, c.isDigit) (r : List Char) :
    (l ++ '.' :: r).dropWhile (· ≠ '.') = '.' :: r := by
  rw [List.dropWhile_append_of_pos, List.dropWhile_cons_of_neg (by decide)]
  intro c hc
  simpa using ne_of_isDigit (h c hc) (by decide)

theorem fractionLength_pointChars {n : ℕ} {dp : ℤ} (hdp : dp ≤ numDigits n) :
    fractionLength (pointChars (Nat.toDigits 10 n) dp) = (numDigits n - dp).toNat := by
  have hdig : ∀ c ∈ Nat.toDigits 10 n, c.isDigit := fun c hc => isDigit_of_mem hc
  unfold pointChars fractionLength numDigits at *
  split
  · have h := dropWhile_append_dot (l := ['0']) (by simp)
      (List.replicate (-dp).toNat '0' ++ Nat.toDigits 10 n)
    rw [List.singleton_append] at h
    rw [h, List.length_cons, List.length_append, List.length_replicate]
    omega
  · split
    · have hz : (dp - ((Nat.toDigits 10 n).length : ℤ)).toNat = 0 := by omega
      rw [hz, List.replicate_zero, List.append_nil, List.dropWhile_eq_nil_iff.mpr]
      · simp only [List.length_nil]
        omega
      · intro c hc
        simpa using ne_of_isDigit (hdig c hc) (by decide)
    · rw [dropWhile_append_dot fun c hc => hdig c (List.mem_of_mem_take hc), List.length_cons,
        List.length_drop]
      omega

theorem exponentChars_injective {e₁ e₂ : ℤ} (h : exponentChars e₁ = exponentChars e₂) :
    e₁ = e₂ := by
  unfold exponentChars at h
  by_cases h₁ : e₁ = 0 <;> by_cases h₂ : e₂ = 0
  · omega
  · simp [h₁, h₂] at h
  · simp [h₁, h₂] at h
  · rw [if_neg h₁, if_neg h₂] at h
    obtain ⟨hs, hd⟩ := List.cons.inj (List.cons.inj h).2
    have hn := toDigits_injective hd
    by_cases hn₁ : e₁ < 0 <;> by_cases hn₂ : e₂ < 0
    · omega
    · simp [hn₁, hn₂] at hs
    · simp [hn₁, hn₂] at hs
    · omega

/-- The exponent part is empty or starts with `'E'`. -/
theorem takeWhile_exponentChars (e : ℤ) : (exponentChars e).takeWhile (· ≠ 'E') = [] := by
  unfold exponentChars
  split <;> simp

/-- The point part ends where the exponent part begins. -/
theorem takeWhile_body (n : ℕ) (dp e : ℤ) :
    (pointChars (Nat.toDigits 10 n) dp ++ exponentChars e).takeWhile (· ≠ 'E') =
      pointChars (Nat.toDigits 10 n) dp := by
  rw [List.takeWhile_append_of_pos, takeWhile_exponentChars, List.append_nil]
  intro c hc
  rcases mem_pointChars hc with rfl | hc
  · decide
  · simpa using ne_of_isDigit hc (by decide)

theorem finite_of_bodyChars_eq {s₁ s₂ : Bool} {c₁ c₂ : ℕ} {e₁ e₂ : ℤ}
    (h : bodyChars (.finite s₁ c₁ e₁) = bodyChars (.finite s₂ c₂ e₂)) : c₁ = c₂ ∧ e₁ = e₂ := by
  simp only [bodyChars] at h
  have hp := congrArg (List.takeWhile (· ≠ 'E')) h
  rw [takeWhile_body, takeWhile_body] at hp
  rw [hp] at h
  have hx := exponentChars_injective (List.append_cancel_left h)
  have hc := congrArg (fun l => Nat.ofDigitChars 10 (l.filter (· ≠ '.')) 0) hp
  simp only [ofDigitChars_pointChars (dotplace_le _ _)] at hc
  have hf := congrArg fractionLength hp
  simp only [fractionLength_pointChars (dotplace_le _ _)] at hf
  have h₁ := dotplace_le c₁ e₁
  have h₂ := dotplace_le c₂ e₂
  subst hc
  exact ⟨rfl, by omega⟩

/-- The body of a finite number starts with a digit. -/
theorem head_bodyChars_finite (s : Bool) (c : ℕ) (e : ℤ) :
    ∃ d ds, bodyChars (.finite s c e) = d :: ds ∧ d.isDigit := by
  obtain ⟨d, ds, h, hd⟩ := head_pointChars c (dotplace c e)
  exact ⟨d, _, by rw [bodyChars, h]; rfl, hd⟩

/-- No body starts with a minus sign. -/
theorem head_bodyChars (d : Decimal) : d.bodyChars.head? ≠ some '-' := by
  cases d with
  | finite s c e =>
      obtain ⟨d, ds, h, hd⟩ := head_bodyChars_finite s c e
      rw [h, List.head?_cons]
      exact fun h => ne_of_isDigit hd (by decide) (Option.some.inj h)
  | infinity s => simp [bodyChars]
  | nan s g p => cases g <;> simp [bodyChars]

theorem bodyChars_finite_ne {s : Bool} {c : ℕ} {e : ℤ} {d : Char} {ds : List Char}
    (hd : d.isDigit = false) : bodyChars (.finite s c e) ≠ d :: ds := by
  obtain ⟨d', ds', h, hd'⟩ := head_bodyChars_finite s c e
  rw [h]
  exact fun h => ne_of_isDigit hd' hd (List.cons.inj h).1

theorem payload_of_eq {p₁ p₂ : ℕ}
    (h : (if p₁ = 0 then [] else Nat.toDigits 10 p₁) = if p₂ = 0 then [] else Nat.toDigits 10 p₂) :
    p₁ = p₂ := by
  split at h <;> split at h
  · omega
  · exact absurd h.symm Nat.toDigits_ne_nil
  · exact absurd h Nat.toDigits_ne_nil
  · exact toDigits_injective h

/-- **Decimals with one text are the same triple.** -/
theorem toChars_injective {a b : Decimal} (h : a.toChars = b.toChars) : a = b := by
  have hsign : a.sign = b.sign := by
    unfold toChars at h
    have ha := head_bodyChars a
    have hb := head_bodyChars b
    cases hsa : a.sign <;> cases hsb : b.sign <;> simp only [hsa, hsb] at h
    · rfl
    · simp only [Bool.false_eq_true, if_false, List.nil_append, if_true] at h
      exact absurd (by rw [h]; rfl) ha
    · simp only [Bool.false_eq_true, if_false, List.nil_append, if_true] at h
      exact absurd (by rw [← h]; rfl) hb
    · rfl
  unfold toChars at h
  rw [hsign] at h
  have hbody : a.bodyChars = b.bodyChars := List.append_cancel_left h
  cases a <;> cases b <;> simp only [sign] at hsign <;> subst hsign
  case finite.finite =>
    obtain ⟨rfl, rfl⟩ := finite_of_bodyChars_eq hbody
    rfl
  case finite.infinity => exact absurd hbody (bodyChars_finite_ne (by decide))
  case finite.nan _ _ _ g p =>
    cases g <;> exact absurd hbody (bodyChars_finite_ne (by decide))
  case infinity.finite => exact absurd hbody.symm (bodyChars_finite_ne (by decide))
  case infinity.infinity => rfl
  case infinity.nan g p => cases g <;> simp [bodyChars] at hbody
  case nan.finite g p _ _ =>
    cases g <;> exact absurd hbody.symm (bodyChars_finite_ne (by decide))
  case nan.infinity g p => cases g <;> simp [bodyChars] at hbody
  case nan.nan g₁ p₁ g₂ p₂ =>
    cases g₁ <;> cases g₂ <;> simp [bodyChars] at hbody
    · rw [payload_of_eq hbody]
    · rw [payload_of_eq hbody]

end Decimal
