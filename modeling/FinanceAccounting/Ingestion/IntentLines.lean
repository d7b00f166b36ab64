import FinanceAccounting.Ingestion.Mapping
import FinanceAccounting.Kernel.AccountingIntent
import FinanceAccounting.Library.DecimalSums

/-! # Amounts and lines of intents

`IntentLine.debit` and `IntentLine.credit` check the currency and that the amount is not below zero,
and the builders of intents ask for the sign of an amount.  A comparison with a NaN raises
`InvalidOperation`; of the other numbers each is positive, zero or negative (`sign_cases`). -/

namespace FinanceAccounting.Ingestion

open Journal (LineSide)

def zeroAmount : Decimal := .finite false 0 0

variable (b : Builtins)

/-- The code that `Currency` normalizes a text to. -/
def currencyCode (currency : String) : String := strip (b.upper currency)

/-- `IntentLine.debit` and `IntentLine.credit`. -/
def newIntentLine (currency role : String) (side : LineSide) (amount : Decimal) :
    Except Raised IntentLine :=
  if b.isCurrency (currencyCode b currency) then
    match amount.less zeroAmount with
    | .error signal => .error (.decimalSignal signal)
    | .ok _ =>
        if h : amount.NonNegative then
          .ok
            { accountRole := role
              side := side
              amount := amount
              currency := currencyCode b currency
              amount_nonneg := h }
        else .error (.valueError "Amount must be non-negative")
  else .error (.valueError ("Invalid ISO 4217 currency code: " ++ currency))

/-- `d > 0`. -/
def isPositive (d : Decimal) : Except Raised Bool :=
  match zeroAmount.less d with
  | .ok positive => .ok positive
  | .error signal => .error (.decimalSignal signal)

/-! ### Signs -/

def Positive (d : Decimal) : Prop := zeroAmount.less d = .ok true

def Negative (d : Decimal) : Prop := d.less zeroAmount = .ok true

def IsZero (d : Decimal) : Prop := d.numEq zeroAmount = true

def IsNaN (d : Decimal) : Prop := zeroAmount.less d = .error .invalidOperation

theorem toRat_zero : zeroAmount.toRat = 0 := by simp [zeroAmount, Decimal.toRat, Decimal.signed]

/-- A number is positive, zero or negative, and a NaN is none of it. -/
theorem sign_cases (d : Decimal) :
    (IsNaN d ∧ isPositive d = .error (.decimalSignal .invalidOperation)) ∨
      (isPositive d = .ok true ∧ Positive d ∧ ¬IsZero d ∧ ¬Negative d) ∨
      (isPositive d = .ok false ∧ IsZero d ∧ ¬Positive d ∧ ¬Negative d) ∨
      (isPositive d = .ok false ∧ Negative d ∧ ¬Positive d ∧ ¬IsZero d) := by
  cases d with
  | finite sign coeff exp =>
      have hzero : ∀ s c e, zeroAmount.less (.finite s c e) =
          .ok (decide (0 < Decimal.toRat (.finite s c e))) := by
        intro s c e
        rw [← toRat_zero]
        rfl
      have hless : (Decimal.finite sign coeff exp).less zeroAmount =
          .ok (decide (Decimal.toRat (.finite sign coeff exp) < 0)) := by
        rw [← toRat_zero]
        rfl
      have heq : (Decimal.finite sign coeff exp).numEq zeroAmount =
          decide (Decimal.toRat (.finite sign coeff exp) = 0) := by
        rw [← toRat_zero]
        rfl
      unfold Positive IsZero Negative isPositive
      rw [hzero, hless, heq]
      rcases lt_trichotomy (Decimal.toRat (.finite sign coeff exp)) 0 with h | h | h
      · refine .inr (.inr (.inr ?_))
        simp [h, h.ne, h.le]
      · refine .inr (.inr (.inl ?_))
        simp [h]
      · refine .inr (.inl ?_)
        simp [h, h.ne', h.le]
  | infinity sign =>
      cases sign with
      | true => exact .inr (.inr (.inr ⟨rfl, rfl, (nomatch ·), (nomatch ·)⟩))
      | false => exact .inr (.inl ⟨rfl, rfl, (nomatch ·), (nomatch ·)⟩)
  | nan sign signaling payload => exact .inl ⟨rfl, rfl⟩

theorem isPositive_cases (d : Decimal) :
    (IsNaN d ∧ isPositive d = .error (.decimalSignal .invalidOperation)) ∨
      (Positive d ∧ ¬IsNaN d ∧ isPositive d = .ok true) ∨
      (¬Positive d ∧ ¬IsNaN d ∧ isPositive d = .ok false) := by
  have hnan : ∀ {p}, isPositive d = .ok p → ¬IsNaN d := by
    intro p hrun h
    unfold isPositive at hrun
    rw [h] at hrun
    cases hrun
  rcases sign_cases d with h | ⟨hrun, hpos, -⟩ | ⟨hrun, -, hpos, -⟩ | ⟨hrun, -, hpos, -⟩
  · exact .inl h
  · exact .inr (.inl ⟨hpos, hnan hrun, hrun⟩)
  · exact .inr (.inr ⟨hpos, hnan hrun, hrun⟩)
  · exact .inr (.inr ⟨hpos, hnan hrun, hrun⟩)

/-- A NaN compares as nothing. -/
theorem IsNaN.not_positive {d : Decimal} (h : IsNaN d) : ¬Positive d := by
  intro hpos
  unfold IsNaN at h
  unfold Positive at hpos
  rw [h] at hpos
  cases hpos

theorem Positive.not_isZero {d : Decimal} (h : Positive d) : ¬IsZero d := by
  rcases sign_cases d with ⟨hnan, -⟩ | ⟨-, -, h', -⟩ | ⟨-, -, h', -⟩ | ⟨-, -, h', -⟩
  · exact absurd h hnan.not_positive
  · exact h'
  · exact absurd h h'
  · exact absurd h h'

theorem IsZero.not_negative {d : Decimal} (h : IsZero d) : ¬Negative d := by
  rcases sign_cases d with ⟨hnan, -⟩ | ⟨-, -, h', -⟩ | ⟨-, -, -, h'⟩ | ⟨-, -, -, h'⟩
  · cases d with
    | finite sign coeff exp => cases hnan
    | infinity sign => cases hnan
    | nan sign signaling payload => exact (nomatch ·)
  · exact absurd h h'
  · exact h'
  · exact absurd h h'

/-- A number on neither side of zero is zero. -/
theorem isZero_of_not {d : Decimal} (hnan : ¬IsNaN d) (hpos : ¬Positive d) (hneg : ¬Negative d) :
    IsZero d := by
  rcases sign_cases d with ⟨h, -⟩ | ⟨-, h, -⟩ | ⟨-, h, -⟩ | ⟨-, h, -⟩
  · exact absurd h hnan
  · exact absurd h hpos
  · exact h
  · exact absurd h hneg

theorem nonNegative_of_positive {d : Decimal} (h : Positive d) : d.NonNegative := by
  cases d with
  | finite sign coeff exp =>
      cases sign with
      | false => exact Or.inl rfl
      | true =>
          have hlt : (0 : ℚ) < Decimal.toRat (.finite true coeff exp) := by
            have h' := Except.ok.inj h
            rw [decide_eq_true_eq] at h'
            rwa [show Decimal.toRat (.finite false 0 0) = 0 from toRat_zero] at h'
          have hle : Decimal.toRat (.finite true coeff exp) ≤ 0 := by
            have hpow : (0 : ℚ) < 10 ^ exp := zpow_pos (by norm_num) exp
            have hcoeff : (0 : ℚ) ≤ coeff := Nat.cast_nonneg coeff
            simp only [Decimal.toRat, Decimal.signed, if_true]
            push_cast
            nlinarith
          exact absurd hlt (not_lt.2 hle)
  | infinity sign =>
      cases sign with
      | false => rfl
      | true => cases h
  | nan sign signaling payload => cases h

theorem not_negative_of_nonNegative {d : Decimal} (h : d.NonNegative) : ¬Negative d := by
  cases d with
  | finite sign coeff exp =>
      intro hneg
      have hlt := Except.ok.inj hneg
      rw [decide_eq_true_eq, show Decimal.toRat (.finite false 0 0) = 0 from toRat_zero] at hlt
      exact absurd hlt (not_lt.2 (Decimal.toRat_nonneg h))
  | infinity sign =>
      obtain rfl : sign = false := h
      exact (nomatch ·)
  | nan sign signaling payload => exact h.elim

/-- A number is negative or it is not below zero. -/
theorem nonNegative_iff {d : Decimal} (h : ¬IsNaN d) : d.NonNegative ↔ ¬Negative d := by
  refine ⟨not_negative_of_nonNegative, fun hneg => ?_⟩
  by_cases hpos : Positive d
  · exact nonNegative_of_positive hpos
  · have hzero := isZero_of_not h hpos hneg
    cases d with
    | finite sign coeff exp =>
        have hvalue : Decimal.toRat (.finite sign coeff exp) = 0 := by
          have h' : decide (Decimal.toRat (.finite sign coeff exp) = zeroAmount.toRat) = true :=
            hzero
          rwa [decide_eq_true_eq, toRat_zero] at h'
        have hpow : (10 : ℚ) ^ exp ≠ 0 := zpow_ne_zero _ (by norm_num)
        have hsigned := (mul_eq_zero.1 hvalue).resolve_right hpow
        refine Or.inr ?_
        cases sign with
        | true => simpa [Decimal.signed] using hsigned
        | false => simpa [Decimal.signed] using hsigned
    | infinity sign => cases hzero
    | nan sign signaling payload => exact absurd rfl h

theorem not_isNaN_of_nonNegative {d : Decimal} (h : d.NonNegative) : ¬IsNaN d := by
  cases d with
  | finite sign coeff exp => exact (nomatch ·)
  | infinity sign => exact (nomatch ·)
  | nan sign signaling payload => exact h.elim

theorem Negative.not_isNaN {d : Decimal} (h : Negative d) : ¬IsNaN d := by
  cases d with
  | finite sign coeff exp => exact (nomatch ·)
  | infinity sign => exact (nomatch ·)
  | nan sign signaling payload => cases h

theorem less_zero_of_not_negative {d : Decimal} (hnan : ¬IsNaN d) (h : ¬Negative d) :
    d.less zeroAmount = .ok false := by
  cases hless : d.less zeroAmount with
  | error signal =>
      cases d with
      | finite sign coeff exp => cases hless
      | infinity sign => cases hless
      | nan sign signaling payload => exact absurd rfl hnan
  | ok below =>
      cases below with
      | false => rfl
      | true => exact absurd hless h

/-- The absolute value of a negative number is not below zero, also when it is rounded. -/
theorem Negative.nonNegative_of_fix {ctx : Decimal.Context} {d y : Decimal} (h : Negative d)
    (hfix : Decimal.fix ctx d.negate = .ok y) : y.NonNegative := by
  cases d with
  | finite sign coeff exp =>
      cases sign with
      | false => exact absurd h (not_negative_of_nonNegative (Or.inl rfl))
      | true =>
          obtain ⟨c, e, rfl, -⟩ := Decimal.fixFinite_eq_ok hfix
          exact Or.inl rfl
  | infinity sign =>
      cases sign with
      | false => cases h
      | true =>
          obtain rfl := Except.ok.inj hfix
          rfl
  | nan sign signaling payload => cases h

/-! ### New lines -/

variable {b} {currency : String}

theorem newIntentLine_of_not_isCurrency {role : String} {side : LineSide} {d : Decimal}
    (h : b.isCurrency (currencyCode b currency) = false) :
    newIntentLine b currency role side d =
      .error (.valueError ("Invalid ISO 4217 currency code: " ++ currency)) := by
  unfold newIntentLine
  rw [h]
  rfl

theorem of_newIntentLine {role : String} {side : LineSide} {d : Decimal} {l : IntentLine}
    (h : newIntentLine b currency role side d = .ok l) :
    b.isCurrency (currencyCode b currency) = true ∧ d.NonNegative ∧ l.accountRole = role ∧
      l.side = side ∧ l.amount = d ∧ l.currency = currencyCode b currency := by
  unfold newIntentLine at h
  split at h
  · rename_i hcurrency
    split at h
    · cases h
    · split at h
      · rename_i hd
        obtain rfl := Except.ok.inj h
        exact ⟨hcurrency, hd, rfl, rfl, rfl, rfl⟩
      · cases h
  · cases h

theorem exists_newIntentLine (role : String) (side : LineSide) {d : Decimal}
    (h : b.isCurrency (currencyCode b currency) = true) (hd : d.NonNegative) :
    ∃ l, newIntentLine b currency role side d = .ok l ∧ l.accountRole = role ∧ l.side = side ∧
      l.amount = d ∧ l.currency = currencyCode b currency := by
  unfold newIntentLine
  rw [if_pos h]
  cases hless : d.less zeroAmount with
  | error signal =>
      cases d with
      | finite sign coeff exp => cases hless
      | infinity sign => cases hless
      | nan sign signaling payload => exact hd.elim
  | ok below => exact ⟨_, dif_pos hd, rfl, rfl, rfl, rfl⟩

end FinanceAccounting.Ingestion
