import FinanceAccounting.Library.RoundingErrors
import FinanceAccounting.Kernel.Valuation

/-! # Variances

`VarianceCalculator` computes what an actual price or quantity costs more than the expected one, and
allocates a variance over targets by weight.  Amounts are rational numbers, rounded to the context by
every operation; the texts of the descriptions are left out. -/

namespace FinanceAccounting.Variance

open Valuation (Money sumOf)

inductive VarianceType where
  | price
  | quantity
  | fx
  | standardCost
deriving DecidableEq, Repr

structure VarianceResult where
  varianceType : VarianceType
  expected : Money
  actual : Money
  variance : Money
  isFavorable : Bool
deriving DecidableEq, Repr

/-- A target `(id, type, weight)` of an allocation. -/
structure VarianceTarget where
  targetId : String
  targetType : String
  weight : ℚ
deriving DecidableEq, Repr

structure VarianceAllocation where
  targetId : String
  targetType : String
  allocatedVariance : Money
  allocationBasis : ℚ
deriving DecidableEq, Repr

inductive VarianceError where
  | valueError (message : String)
  | invalidOperation
deriving DecidableEq, Repr

variable (ctx : Decimal.Context)

/-- The variance of two totals in one currency; less than expected is favorable. -/
def ofTotals (varianceType : VarianceType) (expected actual : ℚ) (currency : String) :
    VarianceResult :=
  let variance := ctx.round (actual - expected)
  { varianceType := varianceType
    expected := ⟨expected, currency⟩
    actual := ⟨actual, currency⟩
    variance := ⟨variance, currency⟩
    isFavorable := variance < 0 }

/-- `price_variance`. -/
def priceVariance (expectedPrice actualPrice : Money) (quantity : ℚ) :
    Except VarianceError VarianceResult :=
  if expectedPrice.currency = actualPrice.currency then
    .ok (ofTotals ctx .price (ctx.round (expectedPrice.amount * quantity))
      (ctx.round (actualPrice.amount * quantity)) expectedPrice.currency)
  else
    .error (.valueError ("Currency mismatch: expected " ++ expectedPrice.currency ++ ", got " ++
      actualPrice.currency))

/-- `quantity_variance`. -/
def quantityVariance (expectedQuantity actualQuantity : ℚ) (standardPrice : Money) : VarianceResult :=
  ofTotals ctx .quantity (ctx.round (standardPrice.amount * expectedQuantity))
    (ctx.round (standardPrice.amount * actualQuantity)) standardPrice.currency

/-- `quantize(Decimal("0.01"))`: halves to even, as the context rounds. -/
def quantizeCents (x : ℚ) : Except VarianceError ℚ :=
  if |Decimal.quantizeEven 2 x| * 10 ^ 2 < 10 ^ ctx.prec then .ok (Decimal.quantizeEven 2 x)
  else .error .invalidOperation

/-- The loop of `allocate_variance`: the last target gets the remainder. -/
def allocateLoop (variance : Money) (totalWeight : ℚ) :
    ℚ → List VarianceTarget → Except VarianceError (List VarianceAllocation)
  | _, [] => .ok []
  | allocatedSoFar, [target] =>
      .ok [⟨target.targetId, target.targetType,
        ⟨ctx.round (variance.amount - allocatedSoFar), variance.currency⟩,
        ctx.round (target.weight / totalWeight)⟩]
  | allocatedSoFar, target :: next :: rest => do
      let ratio := ctx.round (target.weight / totalWeight)
      let allocated ← quantizeCents ctx (ctx.round (variance.amount * ratio))
      let others ← allocateLoop variance totalWeight (ctx.round (allocatedSoFar + allocated))
        (next :: rest)
      return ⟨target.targetId, target.targetType, ⟨allocated, variance.currency⟩, ratio⟩ :: others

/-- `allocate_variance`. -/
def allocateVariance (variance : Money) (targets : List VarianceTarget) :
    Except VarianceError (List VarianceAllocation) :=
  if targets.isEmpty then .ok []
  else
    let totalWeight := sumOf ctx (targets.map (·.weight))
    if totalWeight = 0 then .error (.valueError "Total weight cannot be zero")
    else allocateLoop ctx variance totalWeight 0 targets

end FinanceAccounting.Variance
