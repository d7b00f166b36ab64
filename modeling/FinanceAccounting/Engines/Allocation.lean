import FinanceAccounting.Library.Ranking
import FinanceAccounting.Kernel.Valuation

/-! # The allocation engine

`AllocationEngine.allocate` splits an amount over targets: in the order of their dates or
priorities, each up to what is eligible, or by ratios that are rounded to the places of the
currency, one target taking what is left over.  Amounts are rational numbers, rounded to the
context by every operation. -/

namespace FinanceAccounting.AllocationEngine

open Ranking (ascending descending)
open Valuation (Money sumOf)

inductive AllocationMethod where
  | prorata
  | fifo
  | lifo
  | specific
  | weighted
  | equal
deriving DecidableEq, Repr

structure AllocationTarget where
  targetId : String
  targetType : String := "invoice"
  eligibleAmount : Option Money := none
  weight : ℚ := 1
  priority : ℤ := 0
  date : Option Date := none

structure AllocationLine where
  targetId : String
  targetType : String
  allocated : Money
  remaining : Money
  isFullyAllocated : Bool
deriving DecidableEq, Repr

structure AllocationResult where
  sourceAmount : Money
  method : AllocationMethod
  lines : List AllocationLine
  totalAllocated : Money
  unallocated : Money
  roundingAdjustment : Money
deriving DecidableEq, Repr

inductive AllocationError where
  | valueError (message : String)
  | assertionError
  | invalidOperation
deriving DecidableEq, Repr

/-- The decimal context, and the decimal places of a currency. -/
structure Arithmetic where
  ctx : Decimal.Context
  decimalPlaces : String → ℕ

/-- The default context, where every currency has cents. -/
def dollars : Arithmetic := ⟨Hashing.defaultContext, fun _ => 2⟩

variable (a : Arithmetic)

/-- `quantize` to the places of a currency, halves away from zero; the result must have no more
digits than the context. -/
def quantizeHalfUp (currency : String) (x : ℚ) : Except AllocationError ℚ :=
  let places := a.decimalPlaces currency
  if |Decimal.quantize places x| * 10 ^ places < 10 ^ a.ctx.prec then
    .ok (Decimal.quantize places x)
  else .error .invalidOperation

/-- `Money.__sub__`. -/
def subMoney (x y : Money) : Except AllocationError Money :=
  if x.currency = y.currency then .ok ⟨a.ctx.round (x.amount - y.amount), x.currency⟩
  else
    .error (.valueError ("Cannot subtract Money with different currencies: " ++ x.currency ++
      " and " ++ y.currency))

/-! ### Ratios -/

/-- The line of a target that gets an amount: no more than what is eligible. -/
def ratioLine (currency : String) (target : AllocationTarget) (allocated : ℚ) :
    Except AllocationError AllocationLine :=
  match target.eligibleAmount with
  | none => .ok ⟨target.targetId, target.targetType, ⟨allocated, currency⟩, ⟨0, currency⟩, true⟩
  | some eligible => do
      let remaining ← subMoney a eligible ⟨allocated, currency⟩
      if remaining.amount < 0 then
        return ⟨target.targetId, target.targetType, eligible, ⟨0, currency⟩, true⟩
      else
        return ⟨target.targetId, target.targetType, ⟨allocated, currency⟩, remaining,
          remaining.amount = 0⟩

/-- The loop over the targets: the one at the index `roundingTarget` gets the rest. -/
def ratioLines (amount : Money) (ratio : AllocationTarget → ℚ) (roundingTarget : ℕ) :
    ℕ → ℚ → List AllocationTarget → Except AllocationError (List AllocationLine)
  | _, _, [] => .ok []
  | i, allocatedSoFar, target :: targets =>
      if i = roundingTarget then do
        let line ← ratioLine a amount.currency target (a.ctx.round (amount.amount - allocatedSoFar))
        let lines ← ratioLines amount ratio roundingTarget (i + 1) allocatedSoFar targets
        return line :: lines
      else do
        let allocated ← quantizeHalfUp a amount.currency (a.ctx.round (amount.amount * ratio target))
        let line ← ratioLine a amount.currency target allocated
        let lines ← ratioLines amount ratio roundingTarget (i + 1)
          (a.ctx.round (allocatedSoFar + allocated)) targets
        return line :: lines

/-- `_allocate_by_ratio`; without an index the last target is the rounding target. -/
def allocateByRatioTo (amount : Money) (ratio : AllocationTarget → ℚ)
    (targets : List AllocationTarget) (method : AllocationMethod)
    (roundingTargetIndex : Option ℕ) : Except AllocationError AllocationResult := do
  let roundingTarget := roundingTargetIndex.getD (targets.length - 1)
  let lines ← ratioLines a amount ratio roundingTarget 0 0 targets
  let total := sumOf a.ctx (lines.map (·.allocated.amount))
  let unallocated ← subMoney a amount ⟨total, amount.currency⟩
  if a.ctx.round (total + unallocated.amount) = amount.amount then
    let naive ← targets.mapM fun target =>
      quantizeHalfUp a amount.currency (a.ctx.round (amount.amount * ratio target))
    return {
      sourceAmount := amount
      method := method
      lines := lines
      totalAllocated := ⟨total, amount.currency⟩
      unallocated := unallocated
      roundingAdjustment := ⟨a.ctx.round (amount.amount - sumOf a.ctx naive), amount.currency⟩ }
  else .error .assertionError

/-- `_allocate_by_ratio`, as the methods call it. -/
def allocateByRatio (amount : Money) (targets : List AllocationTarget) (method : AllocationMethod)
    (ratio : AllocationTarget → ℚ) : Except AllocationError AllocationResult :=
  allocateByRatioTo a amount ratio targets method none

/-- The eligible amounts, which must be there and in the currency of the payment. -/
def eligibleAmounts (amount : Money) : List AllocationTarget → Except AllocationError (List ℚ)
  | [] => .ok []
  | target :: targets =>
      match target.eligibleAmount with
      | none =>
          .error (.valueError ("Target " ++ target.targetId ++
            " missing eligible_amount for prorata"))
      | some eligible =>
          if eligible.currency = amount.currency then do
            let rest ← eligibleAmounts amount targets
            return eligible.amount :: rest
          else
            .error (.valueError ("Currency mismatch: " ++ eligible.currency ++ " vs " ++
              amount.currency))

/-- The result when nothing is allocated. -/
def allocateNothing (amount : Money) (method : AllocationMethod) (lines : List AllocationLine) :
    AllocationResult where
  sourceAmount := amount
  method := method
  lines := lines
  totalAllocated := ⟨0, amount.currency⟩
  unallocated := amount
  roundingAdjustment := ⟨0, amount.currency⟩

def allocateProrata (amount : Money) (targets : List AllocationTarget) :
    Except AllocationError AllocationResult := do
  let eligible ← eligibleAmounts amount targets
  let total := sumOf a.ctx eligible
  if total = 0 then
    return allocateNothing amount .prorata (targets.map fun t =>
      ⟨t.targetId, t.targetType, ⟨0, amount.currency⟩,
        t.eligibleAmount.getD ⟨0, amount.currency⟩, true⟩)
  else
    allocateByRatio a amount targets .prorata fun t =>
      a.ctx.round ((t.eligibleAmount.getD ⟨0, amount.currency⟩).amount / total)

def allocateWeighted (amount : Money) (targets : List AllocationTarget) :
    Except AllocationError AllocationResult :=
  let total := sumOf a.ctx (targets.map (·.weight))
  if total = 0 then .error (.valueError "Total weight cannot be zero")
  else allocateByRatio a amount targets .weighted fun t => a.ctx.round (t.weight / total)

def allocateEqual (amount : Money) (targets : List AllocationTarget) :
    Except AllocationError AllocationResult :=
  allocateByRatio a amount targets .equal fun _ => a.ctx.round (1 / targets.length)

/-! ### One after the other -/

/-- The loop over the sorted targets: the lines, and what is left. -/
def sequentialLines (currency : String) : ℚ → List AllocationTarget → List AllocationLine × ℚ
  | left, [] => ([], left)
  | left, target :: targets =>
      if left ≤ 0 then
        let (lines, rest) := sequentialLines currency left targets
        (⟨target.targetId, target.targetType, ⟨0, currency⟩,
          target.eligibleAmount.getD ⟨0, currency⟩, false⟩ :: lines, rest)
      else
        let eligible := (target.eligibleAmount.map (·.amount)).getD left
        let allocated := min left eligible
        let remaining := a.ctx.round (eligible - allocated)
        let (lines, rest) := sequentialLines currency (a.ctx.round (left - allocated)) targets
        (⟨target.targetId, target.targetType, ⟨allocated, currency⟩, ⟨remaining, currency⟩,
          remaining = 0⟩ :: lines, rest)

/-- `_allocate_sequential`; currencies are not compared. -/
def allocateSequential (amount : Money) (sortedTargets : List AllocationTarget)
    (method : AllocationMethod) : AllocationResult :=
  let (lines, left) := sequentialLines a amount.currency amount.amount sortedTargets
  { sourceAmount := amount
    method := method
    lines := lines
    totalAllocated := ⟨a.ctx.round (amount.amount - left), amount.currency⟩
    unallocated := ⟨left, amount.currency⟩
    roundingAdjustment := ⟨0, amount.currency⟩ }

/-- A target without a date comes first, by oldest, or last. -/
def fifoOrder (targets : List AllocationTarget) : List AllocationTarget :=
  ascending (Ranking.lexKey (fun t => ((t.date.map Date.key).getD 10101 : ℤ)) (·.priority)) targets

def lifoOrder (targets : List AllocationTarget) : List AllocationTarget :=
  descending (Ranking.lexKey (fun t => ((t.date.map Date.key).getD 99991231 : ℤ)) (-·.priority))
    targets

/-- `allocate`. -/
def allocate (amount : Money) (targets : List AllocationTarget) (method : AllocationMethod) :
    Except AllocationError AllocationResult :=
  if targets.isEmpty then .ok (allocateNothing amount method [])
  else
    match method with
    | .prorata => allocateProrata a amount targets
    | .fifo => .ok (allocateSequential a amount (fifoOrder targets) .fifo)
    | .lifo => .ok (allocateSequential a amount (lifoOrder targets) .lifo)
    | .specific => .ok (allocateSequential a amount (ascending (·.priority) targets) .specific)
    | .weighted => allocateWeighted a amount targets
    | .equal => allocateEqual a amount targets

end FinanceAccounting.AllocationEngine
