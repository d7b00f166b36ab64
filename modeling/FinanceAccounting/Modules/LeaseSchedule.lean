import Mathlib.Logic.Function.Iterate
import FinanceAccounting.Kernel.Hashing
import FinanceAccounting.Library.RoundingErrors
import FinanceAccounting.Library.Traversals

/-! # Amortization schedules of leases

`build_amortization_schedule` splits level payments into interest, rounded to the cent in every
period, and principal.  What the rounding leaves is put into the principal of the last line, whose
payment stays the level one; a negative balance is shown as zero.  So a schedule ties out exactly when
the level payments clear the loan to the cent (`schedule_ties_out_iff`).

The first section has loans with level payments for any rule of interest. -/

namespace FinanceAccounting

namespace Date

/-- The next day; none after the last day of the calendar. -/
def next (d : Date) : Option Date :=
  if h : IsDay d.year d.month (d.day + 1) then some (of _ _ _ h)
  else if h : IsDay d.year (d.month + 1) 1 then some (of _ _ _ h)
  else if h : IsDay (d.year + 1) 1 1 then some (of _ _ _ h)
  else none

/-- `date + timedelta(days=n)`. -/
def addDays (d : Date) : ℕ → Option Date
  | 0 => some d
  | n + 1 => (d.addDays n).bind next

/-- Before a day of the calendar come days of the calendar. -/
theorem addDays_isSome_of_le {d : Date} {m n : ℕ} (hle : m ≤ n) (h : (d.addDays n).isSome) :
    (d.addDays m).isSome := by
  induction n, hle using Nat.le_induction with
  | base => exact h
  | succ n _ ih =>
    refine ih ?_
    unfold addDays at h
    cases hday : d.addDays n with
    | none => rw [hday] at h; exact h
    | some _ => rfl

end Date

namespace Lease

open Traversals (bind_eq_ok)

/-! ### Level payments -/

section Loans

variable (interest : ℚ → ℚ) (payment : ℚ)

/-- What is owed after one more payment. -/
def owed (balance : ℚ) : ℚ := balance - (payment - interest balance)

/-- No interest is earned on what is owed, and none is paid on what is not. -/
structure KeepsSign : Prop where
  nonneg : ∀ b, 0 ≤ b → 0 ≤ interest b
  nonpos : ∀ b, b ≤ 0 → interest b ≤ 0

variable {interest payment}

/-- A loan that is overpaid stays so. -/
theorem owed_iterate_neg (hsign : KeepsSign interest) (hpayment : 0 ≤ payment) {balance : ℚ}
    (h : balance < 0) (k : ℕ) : (owed interest payment)^[k] balance < 0 := by
  induction k with
  | zero => exact h
  | succ k ih =>
    rw [Function.iterate_succ_apply']
    have hinterest := hsign.nonpos _ ih.le
    unfold owed at *
    linarith

/-- **A loan that is cleared was never overpaid**, unless the payments are negative. -/
theorem owed_nonneg_iff (hsign : KeepsSign interest) {n : ℕ} (hn : 1 ≤ n) {balance : ℚ}
    (hcleared : (owed interest payment)^[n] balance = 0) :
    (∀ k, 1 ≤ k → k < n → 0 ≤ (owed interest payment)^[k] balance) ↔ 0 ≤ payment ∨ n = 1 := by
  constructor
  · intro hnonneg
    obtain rfl | hn := hn.eq_or_lt
    · exact .inr rfl
    · -- The last payment is what is owed before it and its interest.
      have hlast := hnonneg (n - 1) (by omega) (by omega)
      have hinterest := hsign.nonneg _ hlast
      have hstep : n = n - 1 + 1 := by omega
      rw [hstep, Function.iterate_succ_apply', owed] at hcleared
      left
      linarith
  · intro h k hk hkn
    obtain hpayment | rfl := h
    · by_contra hneg
      push Not at hneg
      have hfinal := owed_iterate_neg hsign hpayment hneg (n - k)
      rw [← Function.iterate_add_apply, Nat.sub_add_cancel hkn.le, hcleared] at hfinal
      exact hfinal.false
    · omega

end Loans

/-! ### The calculations -/

inductive CalculationError where
  | invalidOperation
  | overflowError
deriving DecidableEq, Repr

structure AmortizationScheduleLine where
  period : ℕ
  paymentDate : Date
  payment : ℚ
  interest : ℚ
  principal : ℚ
  balance : ℚ
deriving DecidableEq, Repr

section Definitions

variable (ctx : Decimal.Context)

/-- `x.quantize(Decimal("0.01"))`. -/
def cents (x : ℚ) : Except CalculationError ℚ :=
  if |Decimal.quantizeEven 2 x| * 10 ^ 2 < 10 ^ ctx.prec then .ok (Decimal.quantizeEven 2 x)
  else .error .invalidOperation

/-- The discount factor of a number of periods. -/
def discountFactor (onePlusR : ℚ) (numPeriods : ℕ) : ℚ :=
  (fun factor => ctx.round (factor / onePlusR))^[numPeriods] 1

def presentValue (payment ratePerPeriod : ℚ) (numPeriods : ℤ) : Except CalculationError ℚ :=
  if ratePerPeriod ≤ 0 ∨ numPeriods ≤ 0 then .ok (ctx.round (payment * numPeriods))
  else
    let onePlusR := ctx.round (1 + ratePerPeriod)
    let discountFactor := discountFactor ctx onePlusR numPeriods.toNat
    let pvFactor := ctx.round (ctx.round (1 - discountFactor) / ratePerPeriod)
    cents ctx (ctx.round (payment * pvFactor))

variable (ratePerPeriod payment : ℚ) (numPeriods : ℤ) (startDate : Date)

/-- The last period clears the balance; its payment and its interest stay as they are. -/
def settle (period : ℕ) (principalPortion balance : ℚ) : ℚ × ℚ :=
  if (period : ℤ) = numPeriods ∧ balance ≠ 0 then (ctx.round (principalPortion + balance), 0)
  else (principalPortion, balance)

/-- One turn of the loop: the line, and the balance it leaves. -/
def scheduleLine (period : ℕ) (balance : ℚ) :
    Except CalculationError (AmortizationScheduleLine × ℚ) := do
  let interest ← cents ctx (ctx.round (balance * ratePerPeriod))
  let principalPortion := ctx.round (payment - interest)
  let settled := settle ctx numPeriods period principalPortion (ctx.round (balance - principalPortion))
  let paymentDate ← ((startDate.addDays (30 * period)).elim (.error .overflowError) .ok :
    Except CalculationError Date)
  return ({ period := period
            paymentDate := paymentDate
            payment := payment
            interest := interest
            principal := settled.1
            balance := max settled.2 0 }, settled.2)

/-- The lines of a number of periods from one on. -/
def scheduleFrom : ℕ → ℕ → ℚ → Except CalculationError (List AmortizationScheduleLine)
  | 0, _, _ => .ok []
  | remaining + 1, period, balance => do
    let (line, balance) ← scheduleLine ctx ratePerPeriod payment numPeriods startDate period balance
    return line :: (← scheduleFrom remaining (period + 1) balance)

def buildAmortizationSchedule (principal : ℚ) :
    Except CalculationError (List AmortizationScheduleLine) :=
  scheduleFrom ctx ratePerPeriod payment numPeriods startDate numPeriods.toNat 1 principal

/-- The interest of a period, rounded as the calculation rounds it. -/
def interestOn (balance : ℚ) : ℚ := Decimal.quantizeEven 2 (ctx.round (balance * ratePerPeriod))

/-- The digits of the context hold the amounts of a period. -/
def DigitsHold (balance : ℚ) : Prop :=
  let interest := interestOn ctx ratePerPeriod balance
  |interest| * 10 ^ 2 < 10 ^ ctx.prec ∧ ctx.round (payment - interest) = payment - interest ∧
    ctx.round (balance - (payment - interest)) = balance - (payment - interest)

instance (balance : ℚ) : Decidable (DigitsHold ctx ratePerPeriod payment balance) :=
  inferInstanceAs (Decidable (_ ∧ _ ∧ _))

end Definitions

/-- Each balance is the one before it less the principal. -/
def Chained : ℚ → List AmortizationScheduleLine → Prop
  | _, [] => True
  | balance, line :: lines => line.balance = balance - line.principal ∧ Chained line.balance lines

/-- A schedule that ties out. -/
structure TiesOut (principal : ℚ) (numPeriods : ℤ) (lines : List AmortizationScheduleLine) : Prop where
  length_eq : (lines.length : ℤ) = numPeriods
  payment_eq : ∀ line ∈ lines, line.payment = line.interest + line.principal
  balances : Chained principal lines
  nonneg : ∀ line ∈ lines, 0 ≤ line.balance
  last : ∃ line, lines.getLast? = some line ∧ line.balance = 0
  sum : (lines.map (·.principal)).sum = principal

section Laws

variable {ctx : Decimal.Context} {ratePerPeriod payment : ℚ} {numPeriods : ℤ} {startDate : Date}

theorem keepsSign_interestOn (hrate : 0 ≤ ratePerPeriod) :
    KeepsSign (interestOn ctx ratePerPeriod) where
  nonneg _ hb := Decimal.quantizeEven_nonneg (ctx.round_nonneg (mul_nonneg hb hrate))
  nonpos _ hb :=
    Decimal.quantizeEven_nonpos (ctx.round_nonpos (mul_nonpos_of_nonpos_of_nonneg hb hrate))

theorem cents_eq_ok {x y : ℚ} :
    cents ctx x = .ok y ↔
      |Decimal.quantizeEven 2 x| * 10 ^ 2 < 10 ^ ctx.prec ∧ Decimal.quantizeEven 2 x = y := by
  unfold cents
  split
  · simp [*]
  · simp [*]

/-- What a turn of the loop makes. -/
theorem scheduleLine_eq_ok {period : ℕ} {balance : ℚ} {made : AmortizationScheduleLine × ℚ} :
    scheduleLine ctx ratePerPeriod payment numPeriods startDate period balance = .ok made ↔
      let interest := interestOn ctx ratePerPeriod balance
      let portion := ctx.round (payment - interest)
      let settled := settle ctx numPeriods period portion (ctx.round (balance - portion))
      |interest| * 10 ^ 2 < 10 ^ ctx.prec ∧ ∃ date, startDate.addDays (30 * period) = some date ∧
        made = (⟨period, date, payment, interest, settled.1, max settled.2 0⟩, settled.2) := by
  unfold scheduleLine
  simp only [bind_eq_ok, cents_eq_ok]
  constructor
  · rintro ⟨_, ⟨hfits, rfl⟩, date, hdate, hmade⟩
    cases hday : startDate.addDays (30 * period) with
    | none => rw [hday] at hdate; cases hdate
    | some day =>
      rw [hday] at hdate
      cases hdate
      cases hmade
      exact ⟨hfits, date, rfl, rfl⟩
  · rintro ⟨hfits, date, hdate, rfl⟩
    refine ⟨_, ⟨hfits, rfl⟩, date, ?_, rfl⟩
    rw [hdate]
    rfl

theorem length_scheduleFrom : ∀ (remaining period : ℕ) {balance : ℚ}
    {lines : List AmortizationScheduleLine},
    scheduleFrom ctx ratePerPeriod payment numPeriods startDate remaining period balance = .ok lines →
      lines.length = remaining
  | 0, _, _, _, h => by cases h; rfl
  | remaining + 1, period, _, _, h => by
    simp only [scheduleFrom, bind_eq_ok] at h
    obtain ⟨_, -, rest, hrest, h⟩ := h
    cases h
    rw [List.length_cons, length_scheduleFrom remaining (period + 1) hrest]

/-- The lines tie out from a balance on. -/
def Tied : ℚ → List AmortizationScheduleLine → Prop
  | balance, [] => balance = 0
  | balance, line :: lines =>
    line.payment = line.interest + line.principal ∧ line.balance = balance - line.principal ∧
      0 ≤ line.balance ∧ Tied line.balance lines

/-- The schedule from a balance on exists and ties out. -/
def TiesFrom (ctx : Decimal.Context) (ratePerPeriod payment : ℚ) (numPeriods : ℤ) (startDate : Date)
    (remaining period : ℕ) (balance : ℚ) : Prop :=
  ∃ lines, scheduleFrom ctx ratePerPeriod payment numPeriods startDate remaining period balance =
    .ok lines ∧ Tied balance lines

/-- **A period before the last ties out** when the digits hold its amounts and it is not overpaid. -/
theorem tiesFrom_step {remaining period : ℕ} {balance : ℚ} (hperiod : (period : ℤ) ≠ numPeriods) :
    TiesFrom ctx ratePerPeriod payment numPeriods startDate (remaining + 1) period balance ↔
      DigitsHold ctx ratePerPeriod payment balance ∧ (startDate.addDays (30 * period)).isSome ∧
        0 ≤ owed (interestOn ctx ratePerPeriod) payment balance ∧
        TiesFrom ctx ratePerPeriod payment numPeriods startDate remaining (period + 1)
          (owed (interestOn ctx ratePerPeriod) payment balance) := by
  have hsettle : ∀ p b, settle ctx numPeriods period p b = (p, b) := fun _ _ =>
    if_neg fun h => hperiod h.1
  simp only [TiesFrom, scheduleFrom, bind_eq_ok, scheduleLine_eq_ok, hsettle, DigitsHold, owed,
    Option.isSome_iff_exists]
  constructor
  · rintro ⟨_, ⟨_, ⟨hfits, date, hdate, rfl⟩, lines, hlines, h⟩, htied⟩
    cases h
    obtain ⟨hpayment, hbalance, hnonneg, htied⟩ := htied
    have hportion := eq_sub_of_add_eq' hpayment.symm
    dsimp only at hbalance hnonneg hportion
    rw [hportion] at hbalance hnonneg hlines htied
    rw [hbalance] at hnonneg
    -- The balance shown is not negative, so it is the one carried on, with all its digits.
    have hleft := hbalance
    rw [max_eq_left (ctx.round_nonneg hnonneg)] at hleft
    rw [hbalance] at htied
    rw [hleft] at hlines
    exact ⟨⟨hfits, hportion, hleft⟩, ⟨date, hdate⟩, hnonneg, lines, hlines, htied⟩
  · rintro ⟨⟨hfits, hportion, hleft⟩, ⟨date, hdate⟩, hnonneg, lines, hlines, htied⟩
    refine ⟨_, ⟨_, ⟨hfits, date, hdate, rfl⟩, lines, ?_, rfl⟩, ?_⟩
    · rwa [hportion, hleft]
    · rw [hportion, hleft, max_eq_left hnonneg]
      exact ⟨(add_sub_cancel _ _).symm, rfl, hnonneg, htied⟩

/-- **The last period ties out** when the digits hold its amounts and its payment clears the balance. -/
theorem tiesFrom_last {period : ℕ} {balance : ℚ} :
    TiesFrom ctx ratePerPeriod payment numPeriods startDate 1 period balance ↔
      DigitsHold ctx ratePerPeriod payment balance ∧ (startDate.addDays (30 * period)).isSome ∧
        owed (interestOn ctx ratePerPeriod) payment balance = 0 := by
  simp only [TiesFrom, scheduleFrom, bind_eq_ok, scheduleLine_eq_ok, DigitsHold, owed,
    Option.isSome_iff_exists]
  constructor
  · rintro ⟨_, ⟨_, ⟨hfits, date, hdate, rfl⟩, _, hlines, h⟩, htied⟩
    cases hlines
    cases h
    obtain ⟨hpayment, hbalance, -, hzero⟩ := htied
    rw [hzero] at hbalance
    have hprincipal := eq_sub_of_add_eq' hpayment.symm
    dsimp only at hbalance hprincipal
    rw [hprincipal] at hbalance
    -- Whether or not the line was adjusted, its principal is a rounded number.
    have hportion : ctx.round (payment - interestOn ctx ratePerPeriod balance) =
        payment - interestOn ctx ratePerPeriod balance := by
      unfold settle at hprincipal
      split at hprincipal
      · rw [← hprincipal, ctx.round_round]
      · exact hprincipal
    exact ⟨⟨hfits, hportion, by rw [← hbalance, ctx.round_zero]⟩, ⟨date, hdate⟩, hbalance.symm⟩
  · rintro ⟨⟨hfits, hportion, hleft⟩, ⟨date, hdate⟩, hcleared⟩
    rw [hcleared] at hleft
    refine ⟨_, ⟨_, ⟨hfits, date, hdate, rfl⟩, [], rfl, rfl⟩, ?_⟩
    rw [hportion, hcleared, hleft, settle, if_neg fun h => h.2 rfl]
    exact ⟨(add_sub_cancel _ _).symm, by simpa using hcleared.symm, le_max_right _ _, max_self _⟩

/-- **The schedule of the periods from one on ties out** when the digits hold all amounts, the
calendar has the days, no balance is negative and the last payment clears what is owed. -/
theorem tiesFrom_iff : ∀ (remaining period : ℕ) {balance : ℚ},
    (period + remaining : ℤ) = numPeriods →
      (TiesFrom ctx ratePerPeriod payment numPeriods startDate (remaining + 1) period balance ↔
        (∀ k ≤ remaining, DigitsHold ctx ratePerPeriod payment
          ((owed (interestOn ctx ratePerPeriod) payment)^[k] balance)) ∧
        (∀ k ≤ remaining, (startDate.addDays (30 * (period + k))).isSome) ∧
        (∀ k, 1 ≤ k → k < remaining + 1 → 0 ≤ (owed (interestOn ctx ratePerPeriod) payment)^[k] balance) ∧
        (owed (interestOn ctx ratePerPeriod) payment)^[remaining + 1] balance = 0)
  | 0, period, balance, _ => by
    rw [tiesFrom_last]
    simp only [Nat.le_zero_eq, forall_eq, Function.iterate_zero_apply, zero_add,
      Function.iterate_one, add_zero]
    constructor
    · rintro ⟨hdigits, hday, hcleared⟩
      exact ⟨hdigits, hday, fun k hk hlt => absurd hk (by omega), hcleared⟩
    · rintro ⟨hdigits, hday, -, hcleared⟩
      exact ⟨hdigits, hday, hcleared⟩
  | remaining + 1, period, balance, h => by
    rw [tiesFrom_step (by push_cast at h; omega), tiesFrom_iff remaining (period + 1) (by push_cast at *; omega)]
    simp only [← Function.iterate_succ_apply (owed (interestOn ctx ratePerPeriod) payment)]
    constructor
    · rintro ⟨hdigits, hday, hnonneg, hdigits', hdays, hnonneg', hcleared⟩
      refine ⟨fun k hk => ?_, fun k hk => ?_, fun k hk hlt => ?_, hcleared⟩
      · cases k with
        | zero => exact hdigits
        | succ k => exact hdigits' k (by omega)
      · cases k with
        | zero => exact hday
        | succ k => rw [← Nat.add_assoc, Nat.add_right_comm]; exact hdays k (by omega)
      · obtain _ | _ | k := k
        · omega
        · exact hnonneg
        · exact hnonneg' (k + 1) (by omega) (by omega)
    · rintro ⟨hdigits, hdays, hnonneg, hcleared⟩
      refine ⟨hdigits 0 (by omega), hdays 0 (by omega), hnonneg 1 le_rfl (by omega),
        fun k hk => hdigits (k + 1) (by omega), fun k hk => ?_,
        fun k hk hlt => hnonneg (k + 1) (by omega) (by omega), hcleared⟩
      rw [Nat.add_right_comm, Nat.add_assoc]
      exact hdays (k + 1) (by omega)

/-- The lines that tie out from a balance on are chained, and their principal is that balance. -/
theorem Tied.laws : ∀ {balance : ℚ} {lines : List AmortizationScheduleLine}, Tied balance lines →
    (∀ line ∈ lines, line.payment = line.interest + line.principal) ∧ Chained balance lines ∧
      (∀ line ∈ lines, 0 ≤ line.balance) ∧ (∀ line, lines.getLast? = some line → line.balance = 0) ∧
      (lines.map (·.principal)).sum = balance
  | balance, [], h => by simp_all [Tied, Chained]
  | balance, line :: lines, ⟨hpayment, hbalance, hnonneg, h⟩ => by
    obtain ⟨hpayments, hchained, hnonnegs, hlast, hsum⟩ := h.laws
    refine ⟨List.forall_mem_cons.mpr ⟨hpayment, hpayments⟩, ⟨hbalance, hchained⟩,
      List.forall_mem_cons.mpr ⟨hnonneg, hnonnegs⟩, fun last hmem => ?_, ?_⟩
    · cases lines with
      | nil =>
        cases hmem
        exact h
      | cons _ _ => exact hlast last (by simpa [List.getLast?_cons_cons] using hmem)
    · rw [List.map_cons, List.sum_cons, hsum, hbalance]
      ring

theorem tied_of_chained : ∀ {balance : ℚ} {lines : List AmortizationScheduleLine}, lines ≠ [] →
    (∀ line ∈ lines, line.payment = line.interest + line.principal) → Chained balance lines →
      (∀ line ∈ lines, 0 ≤ line.balance) → (∀ line, lines.getLast? = some line → line.balance = 0) →
        Tied balance lines
  | _, [], h, _, _, _, _ => absurd rfl h
  | _, [line], _, hpayment, hchained, hnonneg, hlast => by
    rw [List.forall_mem_cons] at hpayment hnonneg
    exact ⟨hpayment.1, hchained.1, hnonneg.1, hlast line rfl⟩
  | _, line :: next :: lines, _, hpayment, hchained, hnonneg, hlast => by
    rw [List.forall_mem_cons] at hpayment hnonneg
    exact ⟨hpayment.1, hchained.1, hnonneg.1, tied_of_chained (List.cons_ne_nil _ _) hpayment.2
      hchained.2 hnonneg.2 (by simpa [List.getLast?_cons_cons] using hlast)⟩

theorem tiesOut_iff {principal : ℚ} {lines : List AmortizationScheduleLine} (hperiods : 1 ≤ numPeriods) :
    TiesOut principal numPeriods lines ↔ (lines.length : ℤ) = numPeriods ∧ Tied principal lines := by
  constructor
  · intro h
    have hne : lines ≠ [] := by
      rintro rfl
      have := h.length_eq
      simp only [List.length_nil] at this
      omega
    obtain ⟨last, hmem, hzero⟩ := h.last
    refine ⟨h.length_eq, tied_of_chained hne h.payment_eq h.balances h.nonneg fun line hline => ?_⟩
    rw [hmem] at hline
    cases hline
    exact hzero
  · rintro ⟨hlength, htied⟩
    obtain ⟨hpayment, hchained, hnonneg, hlast, hsum⟩ := htied.laws
    cases hget : lines.getLast? with
    | none =>
      rw [List.getLast?_eq_none_iff] at hget
      rw [hget, List.length_nil] at hlength
      omega
    | some line => exact ⟨hlength, hpayment, hchained, hnonneg, ⟨line, hget, hlast line hget⟩, hsum⟩

/-- **A schedule ties out** exactly when the level payments, with the interest rounded in every period,
clear the loan to the cent, the payments are not negative or only one, the digits of the context hold
the amounts and the calendar has the days. -/
theorem schedule_ties_out_iff {principal : ℚ} (hrate : 0 ≤ ratePerPeriod) (hperiods : 1 ≤ numPeriods)
    (hprincipal : presentValue ctx payment ratePerPeriod numPeriods = .ok principal) :
    (∃ lines, buildAmortizationSchedule ctx ratePerPeriod payment numPeriods startDate principal =
      .ok lines ∧ TiesOut principal numPeriods lines) ↔
    (owed (interestOn ctx ratePerPeriod) payment)^[numPeriods.toNat] principal = 0 ∧
      (0 ≤ payment ∨ numPeriods = 1) ∧
      (∀ k < numPeriods.toNat, DigitsHold ctx ratePerPeriod payment
        ((owed (interestOn ctx ratePerPeriod) payment)^[k] principal)) ∧
      (startDate.addDays (30 * numPeriods.toNat)).isSome := by
  obtain ⟨n, rfl⟩ : ∃ n : ℕ, numPeriods = n + 1 := ⟨numPeriods.toNat - 1, by omega⟩
  have hnat : ((n : ℤ) + 1).toNat = n + 1 := by omega
  have hties : (∃ lines, buildAmortizationSchedule ctx ratePerPeriod payment (n + 1) startDate
        principal = .ok lines ∧ TiesOut principal (n + 1) lines) ↔
      TiesFrom ctx ratePerPeriod payment (n + 1) startDate (n + 1) 1 principal := by
    refine exists_congr fun lines => ?_
    unfold buildAmortizationSchedule
    rw [hnat, tiesOut_iff hperiods]
    refine and_congr_right fun hlines => and_iff_right ?_
    rw [length_scheduleFrom _ _ hlines]
    push_cast
    rfl
  rw [hties, tiesFrom_iff n 1 (by push_cast; omega), hnat]
  have hsign := @keepsSign_interestOn ctx _ hrate
  have hdays : (∀ k ≤ n, (startDate.addDays (30 * (1 + k))).isSome) ↔
      (startDate.addDays (30 * (n + 1))).isSome := by
    constructor
    · intro h
      rw [Nat.add_comm]
      exact h n le_rfl
    · exact fun h k hk => Date.addDays_isSome_of_le (by omega) h
  simp only [Nat.lt_succ_iff, hdays]
  constructor
  · rintro ⟨hdigits, hday, hnonneg, hcleared⟩
    have hpayment := (owed_nonneg_iff hsign (by omega) hcleared).mp
      fun k hk hlt => hnonneg k hk (by omega)
    exact ⟨hcleared, hpayment.imp_right (by omega), hdigits, hday⟩
  · rintro ⟨hcleared, hpayment, hdigits, hday⟩
    have hnonneg := (owed_nonneg_iff hsign (by omega) hcleared).mpr
      (hpayment.imp_right (by omega))
    exact ⟨hdigits, hday, fun k hk hlt => hnonneg k hk (by omega), hcleared⟩

end Laws

/-- A lease with payments of 100, from 1 January 2024. -/
def sampleSchedule (ratePerPeriod principal : ℚ) (numPeriods : ℤ) :
    Except CalculationError (List AmortizationScheduleLine) :=
  buildAmortizationSchedule Hashing.defaultContext ratePerPeriod 100 numPeriods
    (.of 2024 1 1 (by decide)) principal

theorem schedule_ties_out_five_percent :
    ∃ lines, sampleSchedule (1 / 20) (18594 / 100) 2 = .ok lines ∧ TiesOut (18594 / 100) 2 lines :=
  (schedule_ties_out_iff (by norm_num) (by norm_num) (by decide +kernel)).mpr
    ⟨by decide +kernel, by decide, by decide +kernel, by decide +kernel⟩

/-- **The last payment is not the sum of its interest and principal**: of 100 at 0.4 per cent, 0.40 is
interest and 99.61 is principal. -/
theorem schedule_exceeds_payment :
    presentValue Hashing.defaultContext 100 (1 / 250) 2 = .ok (19881 / 100) ∧
    ¬∃ lines, sampleSchedule (1 / 250) (19881 / 100) 2 = .ok lines ∧
      TiesOut (19881 / 100) 2 lines := by
  refine ⟨by decide +kernel, ?_⟩
  rintro ⟨lines, hlines, hties⟩
  have hvalue : (sampleSchedule (1 / 250) (19881 / 100) 2).toOption.map (fun lines =>
      lines.all fun line => line.payment = line.interest + line.principal) = some false := by
    decide +kernel
  have hall : lines.all (fun line => line.payment = line.interest + line.principal) = true := by
    simpa using hties.payment_eq
  rw [hlines] at hvalue
  exact Bool.false_ne_true ((Option.some.inj hvalue).symm.trans hall)

end Lease
end FinanceAccounting
