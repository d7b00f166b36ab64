import FinanceAccounting.Engines.Billing

/-! # The incurred cost submission

Schedule H of the submission applies the claimed rate of every indirect pool to the base of every
contract, schedule I adds the indirect costs of a contract to its direct costs.  The base of a pool
follows from its name. -/

namespace FinanceAccounting.IncurredCost

open Billing (CostBreakdown Builtins)
open Valuation (Money)

/-- The direct costs of a contract: the fields and the checks are those of a cost breakdown. -/
structure ContractCostInput extends CostBreakdown where
  contractNumber : String
  contractType : String

structure IndirectPoolInput where
  poolName : String
  poolCosts : Money
  allocationBase : Money
  claimedRate : ℚ
  baseDescription : String
  computedRate : Option ℚ := none
  nonneg : 0 ≤ claimedRate ∧ 0 ≤ poolCosts.amount ∧ 0 ≤ allocationBase.amount

structure ScheduleHLine where
  contractNumber : String
  poolName : String
  allocationBase : Money
  claimedRate : ℚ
  appliedAmount : Money
deriving DecidableEq, Repr

structure ScheduleH where
  lines : List ScheduleHLine
  totalIndirectApplied : Money
deriving DecidableEq, Repr

variable (b : Builtins)

/-- `_get_pool_allocation_base`. -/
def poolAllocationBase (cc : ContractCostInput) (poolName currency : String) : Money :=
  let poolUpper := b.upper poolName
  if poolUpper = "FRINGE" then cc.directLabor
  else if poolUpper = "OVERHEAD" then
    -- labor without the fringe: nothing is cascaded, here or in schedule I
    cc.directLabor
  else if poolUpper ∈ ["G&A", "GA", "G_AND_A"] then cc.totalDirect b
  else if poolUpper ∈ ["MATERIAL_HANDLING", "MAT_HANDLING"] then
    cc.directMaterial.getD ⟨0, currency⟩
  else cc.totalDirect b

/-- The claimed rate of a pool, applied to a contract. -/
def appliedAmount (cc : ContractCostInput) (pool : IndirectPoolInput) (currency : String) :
    Except Decimal.Signal ℚ :=
  b.ctx.quantizeTo 2
    (b.ctx.round ((poolAllocationBase b cc pool.poolName currency).amount * pool.claimedRate))

/-- The line of a contract and a pool. -/
def scheduleHLine (currency : String) (cc : ContractCostInput) (pool : IndirectPoolInput) :
    Except Decimal.Signal ScheduleHLine :=
  (appliedAmount b cc pool currency).map fun applied =>
    { contractNumber := cc.contractNumber
      poolName := pool.poolName
      allocationBase := poolAllocationBase b cc pool.poolName currency
      claimedRate := pool.claimedRate
      appliedAmount := ⟨applied, currency⟩ }

/-- `compile_schedule_h`. -/
def compileScheduleH (contractCosts : List ContractCostInput)
    (indirectPools : List IndirectPoolInput) (currency : String) :
    Except Decimal.Signal ScheduleH := do
  let lines ← (contractCosts.flatMap fun cc => indirectPools.map fun pool => (cc, pool)).mapM
    fun p => scheduleHLine b currency p.1 p.2
  return {
    lines := lines
    totalIndirectApplied := ⟨b.ctx.total (lines.map (·.appliedAmount.amount)), currency⟩ }

end FinanceAccounting.IncurredCost
