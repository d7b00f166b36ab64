import FinanceAccounting.Kernel.Valuation

/-! # The cascade of indirect costs

`execute_cascade` applies rates one after the other, each to the balance of a pool or to all costs
so far, and puts what it allocates in another pool; `build_dcaa_cascade` is the standard cascade of
fringe, overhead and general and administrative costs.

Pools and rates are dicts: what is missing counts as nothing. -/

namespace FinanceAccounting.AllocationCascade

open Valuation (Money)

inductive AllocationBase where
  | poolBalance
  | cumulative
deriving DecidableEq, Repr

structure AllocationStep where
  poolFrom : String
  poolTo : String
  rateType : String
  base : AllocationBase := .poolBalance
  description : String := ""
deriving DecidableEq, Repr

structure AllocationStepResult where
  step : AllocationStep
  sourceBalance : Money
  rateApplied : ℚ
  amountAllocated : Money
  cumulativeBase : Money
deriving DecidableEq, Repr

/-- `dict[str, Money]`. -/
abbrev Balances := String → Option Money

/-- `dict[str, Decimal]`. -/
abbrev Rates := String → Option ℚ

/-- What the rate of a step is applied to. -/
def AllocationStep.baseAmount (step : AllocationStep) (source cumulative : Money) : Money :=
  match step.base with
  | .poolBalance => source
  | .cumulative => cumulative

variable (ctx : Decimal.Context)

/-- One step: its result, and the balances after it. -/
def executeStep (rates : Rates) (currency : String) (step : AllocationStep) (balances : Balances)
    (cumulative : Money) : Except Decimal.Signal (AllocationStepResult × Balances) := do
  let source := (balances step.poolFrom).getD ⟨0, currency⟩
  let baseAmount := step.baseAmount source cumulative
  let rate := (rates step.rateType).getD 0
  let allocated ← ctx.quantizeTo 2 (ctx.round (baseAmount.amount * rate))
  let target := (balances step.poolTo).getD ⟨0, currency⟩
  let balances := Function.update balances step.poolTo
    (some ⟨ctx.round (target.amount + allocated), currency⟩)
  let cumulative : Money :=
    ⟨ctx.round (ctx.round (cumulative.amount + source.amount) + allocated), currency⟩
  return ({ step, sourceBalance := source, rateApplied := rate
            amountAllocated := ⟨allocated, currency⟩, cumulativeBase := cumulative }, balances)

/-- What a step does whose amount can be rounded to two places. -/
theorem executeStep_eq (step : AllocationStep) (balances : Balances) (cumulative : Money)
    {rates : Rates} {currency : String} {source : Money} {rate allocated : ℚ}
    (hsource : (balances step.poolFrom).getD ⟨0, currency⟩ = source)
    (hrate : (rates step.rateType).getD 0 = rate)
    (hallocated : ctx.quantizeTo 2
      (ctx.round ((step.baseAmount source cumulative).amount * rate)) = .ok allocated) :
    ∃ target : Money, executeStep ctx rates currency step balances cumulative = .ok
      ({ step, sourceBalance := source, rateApplied := rate
         amountAllocated := ⟨allocated, currency⟩
         cumulativeBase :=
          ⟨ctx.round (ctx.round (cumulative.amount + source.amount) + allocated), currency⟩ },
        Function.update balances step.poolTo (some target)) := by
  refine ⟨⟨ctx.round (((balances step.poolTo).getD ⟨0, currency⟩).amount + allocated), currency⟩, ?_⟩
  unfold executeStep
  dsimp only
  rw [hsource, hrate, hallocated]
  rfl

/-- The loop of `execute_cascade`. -/
def executeSteps (rates : Rates) (currency : String) :
    List AllocationStep → Balances → Money →
      Except Decimal.Signal (List AllocationStepResult × Balances)
  | [], balances, _ => .ok ([], balances)
  | step :: steps, balances, cumulative => do
      let (result, balances) ← executeStep ctx rates currency step balances cumulative
      let (results, balances) ←
        executeSteps rates currency steps balances result.cumulativeBase
      return (result :: results, balances)

/-- `execute_cascade`. -/
def executeCascade (steps : List AllocationStep) (balances : Balances) (rates : Rates)
    (currency : String) : Except Decimal.Signal (List AllocationStepResult × Balances) :=
  executeSteps ctx rates currency steps balances ⟨0, currency⟩

theorem executeSteps_cons {rates : Rates} {currency : String} {step : AllocationStep}
    {steps : List AllocationStep} {balances balances' balances'' : Balances} {cumulative : Money}
    {result : AllocationStepResult} {results : List AllocationStepResult}
    (h : executeStep ctx rates currency step balances cumulative = .ok (result, balances'))
    (hrest : executeSteps ctx rates currency steps balances' result.cumulativeBase =
      .ok (results, balances'')) :
    executeSteps ctx rates currency (step :: steps) balances cumulative =
      .ok (result :: results, balances'') := by
  unfold executeSteps
  rw [h]
  dsimp only [bind, Except.bind]
  rw [hrest]
  rfl

def fringeStep : AllocationStep where
  poolFrom := "DIRECT_LABOR"
  poolTo := "FRINGE"
  rateType := "fringe"
  description := "Apply fringe benefits rate to direct labor"

def overheadStep : AllocationStep where
  poolFrom := "DIRECT_COST"
  poolTo := "OVERHEAD"
  rateType := "overhead"
  base := .cumulative
  description := "Apply overhead rate to direct costs plus fringe"

def gaStep : AllocationStep where
  poolFrom := "TOTAL_DIRECT"
  poolTo := "G&A"
  rateType := "g&a"
  base := .cumulative
  description := "Apply G&A rate to total costs"

/-- `build_dcaa_cascade`. -/
def buildDcaaCascade : List AllocationStep := [fringeStep, overheadStep, gaStep]

end FinanceAccounting.AllocationCascade
