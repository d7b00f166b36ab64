import FinanceAccounting.Kernel.Valuation

/-! # Government contract billing

`calculate_billing` makes the invoice of a period: direct costs with their indirect costs and the
fee, hours at their rates, or completed milestones, by the type of the contract; the gross amount is
capped by the funding and by the ceiling of the contract, and a part of it is withheld.  Amounts are
rational numbers, rounded to the context by every operation.

Currency codes are normalized. -/

namespace FinanceAccounting.Billing

open Valuation (Money)

/-! ### Inputs -/

inductive BillingContractType where
  | cpff
  | cpif
  | cpaf
  | tm
  | lh
  | ffp
  | fpi
deriving DecidableEq, Repr

def BillingContractType.value : BillingContractType → String
  | .cpff => "CPFF"
  | .cpif => "CPIF"
  | .cpaf => "CPAF"
  | .tm => "T&M"
  | .lh => "LH"
  | .ffp => "FFP"
  | .fpi => "FPI"

inductive BillingLineType where
  | directLabor
  | directMaterial
  | subcontract
  | travel
  | odc
  | fringe
  | overhead
  | ga
  | fee
  | milestone
  | withholding
deriving DecidableEq, Repr

inductive BillingError where
  | valueError (message : String)
  | decimal (signal : Decimal.Signal)
deriving DecidableEq, Repr

/-- Direct costs of a period. -/
structure CostBreakdown where
  directLabor : Money
  directMaterial : Option Money := none
  subcontract : Option Money := none
  travel : Option Money := none
  odc : Option Money := none
  directLabor_nonneg : 0 ≤ directLabor.amount
  others_nonneg : ∀ m ∈ [directMaterial, subcontract, travel, odc], 0 ≤ (m.map (·.amount)).getD 0

structure IndirectRates where
  fringe : ℚ := 0
  overhead : ℚ := 0
  ga : ℚ := 0
  materialHandling : ℚ := 0
  nonneg : 0 ≤ fringe ∧ 0 ≤ overhead ∧ 0 ≤ ga ∧ 0 ≤ materialHandling

structure LaborRateEntry where
  laborCategory : String
  hours : ℚ
  billingRate : ℚ
  nonneg : 0 ≤ hours ∧ 0 ≤ billingRate

structure MilestoneEntry where
  milestoneId : String
  description : String
  amount : ℚ
  completionPct : ℚ
  amount_nonneg : 0 ≤ amount
  completionPct_bounds : 0 ≤ completionPct ∧ completionPct ≤ 100

structure BillingInput where
  contractType : BillingContractType
  currency : String
  costBreakdown : Option CostBreakdown := none
  indirectRates : Option IndirectRates := none
  feeRate : ℚ := 0
  feeCeiling : Option ℚ := none
  laborEntries : List LaborRateEntry := []
  materialPassthrough : Option Money := none
  milestones : List MilestoneEntry := []
  withholdingPct : ℚ := 0
  cumulativeBilled : ℚ := 0
  fundingLimit : Option ℚ := none
  ceilingAmount : Option ℚ := none

structure BillingLineItem where
  lineType : BillingLineType
  description : String
  amount : Money
  rate : Option ℚ := none
  baseAmount : Option Money := none
  quantity : Option ℚ := none
deriving DecidableEq, Repr

structure BillingResult where
  contractType : BillingContractType
  lineItems : List BillingLineItem
  totalDirectCost : Money
  totalIndirectCost : Money
  totalCost : Money
  feeAmount : Money
  grossBilling : Money
  withholdingAmount : Money
  netBilling : Money
  fundingLimited : Bool
  ceilingLimited : Bool
deriving DecidableEq, Repr

/-- The decimal context, the text of a number, and `upper`, which leaves a text of capital letters
and signs as it is. -/
structure Builtins where
  ctx : Decimal.Context
  str : ℚ → String
  upper : String → String
  upper_eq_self : ∀ s : String, (∀ c ∈ s.toList, c.val < 128 ∧ c.isLower = false) → upper s = s

section Engine

variable (b : Builtins)

/-! ### Costs -/

/-- `quantize` to two places, halves away from zero. -/
def twoPlaces (x : ℚ) : Except BillingError ℚ := (b.ctx.quantizeTo 2 x).mapError .decimal

/-- `_apply_rate`. -/
def applyRate (base rate : ℚ) (currency : String) : Except BillingError Money :=
  (twoPlaces b (b.ctx.round (base * rate))).map fun amount => ⟨amount, currency⟩

/-- The direct costs besides labor, as far as they are given. -/
def CostBreakdown.others (c : CostBreakdown) : List Money :=
  [c.directMaterial, c.subcontract, c.travel, c.odc].reduceOption

def CostBreakdown.totalDirect (c : CostBreakdown) : Money where
  amount := (c.others.map (·.amount)).foldl (fun total x => b.ctx.round (total + x))
    c.directLabor.amount
  currency := c.directLabor.currency

structure IndirectCosts where
  fringe : Money
  overhead : Money
  ga : Money
  materialHandling : Money
deriving DecidableEq, Repr

/-- `calculate_indirect_costs`. -/
def calculateIndirectCosts (c : CostBreakdown) (rates : IndirectRates) (currency : String) :
    Except BillingError IndirectCosts := do
  let fringe ← applyRate b c.directLabor.amount rates.fringe currency
  let overheadBase := b.ctx.round (c.directLabor.amount + fringe.amount)
  let overhead ← applyRate b overheadBase rates.overhead currency
  let gaBase := b.ctx.round (b.ctx.round ((c.totalDirect b).amount + fringe.amount) +
    overhead.amount)
  let ga ← applyRate b gaBase rates.ga currency
  let handlingBase := (c.directMaterial.map (·.amount)).getD 0
  let materialHandling ← applyRate b handlingBase rates.materialHandling currency
  return ⟨fringe, overhead, ga, materialHandling⟩

/-- `fringe.amount + overhead.amount + ga.amount + mat_handling.amount`. -/
def IndirectCosts.total (i : IndirectCosts) : ℚ :=
  b.ctx.round (b.ctx.round (b.ctx.round (i.fringe.amount + i.overhead.amount) + i.ga.amount) +
    i.materialHandling.amount)

/-! ### Fee, funding, ceiling and withholding -/

/-- What earlier amounts leave of a limit, not less than nothing. -/
def remainingOf (limit used : ℚ) : ℚ :=
  let remaining := b.ctx.round (limit - used)
  if remaining < 0 then 0 else remaining

/-- An amount, capped by what is left of a limit. -/
def capAt (limit : Option ℚ) (used amount : ℚ) : ℚ × Bool :=
  match limit with
  | none => (amount, false)
  | some limit =>
      if remainingOf b limit used < amount then (remainingOf b limit used, true)
      else (amount, false)

/-- `calculate_fee`. -/
def calculateFee (totalCost feeRate : ℚ) (feeCeiling : Option ℚ) (cumulativeFee : ℚ)
    (currency : String) : Except BillingError (Money × Bool) :=
  (twoPlaces b (b.ctx.round (totalCost * feeRate))).map fun rawFee =>
    let (fee, hit) := capAt b feeCeiling cumulativeFee rawFee
    (⟨fee, currency⟩, hit)

/-- `apply_funding_limit`. -/
def applyFundingLimit (billingAmount cumulativeBilled : ℚ) (fundingLimit : Option ℚ)
    (currency : String) : Money × Bool :=
  let (amount, limited) := capAt b fundingLimit cumulativeBilled billingAmount
  (⟨amount, currency⟩, limited)

/-- `apply_withholding`: what is withheld, and what is left. -/
def applyWithholding (grossAmount withholdingPct : ℚ) (currency : String) :
    Except BillingError (Money × Money) :=
  (twoPlaces b (b.ctx.round (grossAmount * withholdingPct))).map fun withholding =>
    (⟨withholding, currency⟩, ⟨b.ctx.round (grossAmount - withholding), currency⟩)

/-! ### Cost plus -/

/-- The line of a cost, unless there is none. -/
def costLine (lineType : BillingLineType) (description : String) :
    Option Money → List BillingLineItem
  | none => []
  | some m => if 0 < m.amount then [{ lineType, description, amount := m }] else []

/-- The line of an indirect cost, unless it is nothing. -/
def indirectLine (lineType : BillingLineType) (description : String) (amount : Money) (rate : ℚ)
    (base : Money) : List BillingLineItem :=
  if 0 < amount.amount then
    [{ lineType, description, amount, rate := some rate, baseAmount := some base }]
  else []

/-- The lines of the costs; material handling has none. -/
def costLines (costs : CostBreakdown) (rates : IndirectRates) (i : IndirectCosts)
    (currency : String) : List BillingLineItem :=
  let overheadBase := b.ctx.round (costs.directLabor.amount + i.fringe.amount)
  let gaBase := b.ctx.round (b.ctx.round ((costs.totalDirect b).amount + i.fringe.amount) +
    i.overhead.amount)
  [{ lineType := .directLabor, description := "Direct Labor", amount := costs.directLabor }] ++
    costLine .directMaterial "Direct Material" costs.directMaterial ++
    costLine .subcontract "Subcontract" costs.subcontract ++
    costLine .travel "Travel" costs.travel ++
    costLine .odc "Other Direct Costs" costs.odc ++
    indirectLine .fringe "Fringe Benefits" i.fringe rates.fringe costs.directLabor ++
    indirectLine .overhead "Overhead" i.overhead rates.overhead ⟨overheadBase, currency⟩ ++
    indirectLine .ga "General & Administrative" i.ga rates.ga ⟨gaBase, currency⟩

/-- `_calculate_cost_plus_billing`; the fee is compared with its ceiling as if none had been
earned before. -/
def calculateCostPlusBilling (bi : BillingInput) : Except BillingError BillingResult :=
  match bi.costBreakdown, bi.indirectRates with
  | none, _ => .error (.valueError "cost_breakdown required for cost-plus contracts")
  | some _, none => .error (.valueError "indirect_rates required for cost-plus contracts")
  | some costs, some rates => do
      let currency := bi.currency
      let i ← calculateIndirectCosts b costs rates currency
      let totalDirect := costs.totalDirect b
      let totalIndirect : Money := ⟨i.total b, currency⟩
      let totalCost : Money := ⟨b.ctx.round (totalDirect.amount + totalIndirect.amount), currency⟩
      let (fee, _) ← calculateFee b totalCost.amount bi.feeRate bi.feeCeiling 0 currency
      let gross := b.ctx.round (totalCost.amount + fee.amount)
      let (funded, fundingLimited) :=
        applyFundingLimit b gross bi.cumulativeBilled bi.fundingLimit currency
      let (capped, ceilingLimited) := capAt b bi.ceilingAmount bi.cumulativeBilled funded.amount
      let (withholding, net) ← applyWithholding b capped bi.withholdingPct currency
      return {
        contractType := bi.contractType
        lineItems := costLines b costs rates i currency ++
          indirectLine .fee ("Fee (" ++ bi.contractType.value ++ ")") fee bi.feeRate totalCost ++
          (if 0 < withholding.amount then
            [{ lineType := .withholding
               description := "Withholding (" ++ b.str (b.ctx.round (bi.withholdingPct * 100)) ++ "%)"
               amount := ⟨-withholding.amount, currency⟩, rate := some bi.withholdingPct }]
          else [])
        totalDirectCost := totalDirect
        totalIndirectCost := totalIndirect
        totalCost := totalCost
        feeAmount := fee
        grossBilling := ⟨capped, currency⟩
        withholdingAmount := withholding
        netBilling := net
        fundingLimited := fundingLimited
        ceilingLimited := ceilingLimited }

/-! ### Hours and milestones -/

/-- What the contracts without a fee have in common: the total is capped and withheld from. -/
def billTotal (bi : BillingInput) (lines : List BillingLineItem) (total : ℚ)
    (ceilingAmount : Option ℚ) : Except BillingError BillingResult := do
  let currency := bi.currency
  let (funded, fundingLimited) :=
    applyFundingLimit b total bi.cumulativeBilled bi.fundingLimit currency
  let (capped, ceilingLimited) := capAt b ceilingAmount bi.cumulativeBilled funded.amount
  let (withholding, net) ← applyWithholding b capped bi.withholdingPct currency
  return {
    contractType := bi.contractType
    lineItems := lines
    totalDirectCost := ⟨total, currency⟩
    totalIndirectCost := ⟨0, currency⟩
    totalCost := ⟨total, currency⟩
    feeAmount := ⟨0, currency⟩
    grossBilling := ⟨capped, currency⟩
    withholdingAmount := withholding
    netBilling := net
    fundingLimited := fundingLimited
    ceilingLimited := ceilingLimited }

/-- `LaborRateEntry.amount`. -/
def LaborRateEntry.amount (entry : LaborRateEntry) : Except BillingError ℚ :=
  twoPlaces b (b.ctx.round (entry.hours * entry.billingRate))

/-- The lines of the labor entries, and their total. -/
def laborLines (currency : String) : ℚ → List LaborRateEntry →
    Except BillingError (List BillingLineItem × ℚ)
  | total, [] => .ok ([], total)
  | total, entry :: entries => do
      let amount ← entry.amount b
      let (lines, total) ← laborLines currency (b.ctx.round (total + amount)) entries
      return ({ lineType := .directLabor
                description := "Labor: " ++ entry.laborCategory
                amount := ⟨amount, currency⟩
                rate := some entry.billingRate
                quantity := some entry.hours } :: lines, total)

/-- `_calculate_tm_billing`. -/
def calculateTmBilling (bi : BillingInput) : Except BillingError BillingResult := do
  let (lines, totalLabor) ← laborLines b bi.currency 0 bi.laborEntries
  let material := bi.materialPassthrough.filter fun m => 0 < m.amount
  billTotal b bi (lines ++ costLine .directMaterial "Materials at Cost" material)
    (b.ctx.round (totalLabor + (material.map (·.amount)).getD 0)) bi.ceilingAmount

/-- `_calculate_lh_billing`. -/
def calculateLhBilling (bi : BillingInput) : Except BillingError BillingResult := do
  let (lines, totalLabor) ← laborLines b bi.currency 0 bi.laborEntries
  billTotal b bi lines totalLabor bi.ceilingAmount

/-- The milestones that are billed. -/
def completed (milestones : List MilestoneEntry) : List MilestoneEntry :=
  milestones.filter fun m => 100 ≤ m.completionPct

/-- `_calculate_ffp_billing`; the ceiling is not looked at. -/
def calculateFfpBilling (bi : BillingInput) : Except BillingError BillingResult :=
  billTotal b bi
    ((completed bi.milestones).map fun m =>
      { lineType := .milestone
        description := "Milestone: " ++ m.description
        amount := ⟨m.amount, bi.currency⟩ })
    (b.ctx.total ((completed bi.milestones).map (·.amount))) none

/-- `_calculate_fpi_billing`. -/
def calculateFpiBilling (bi : BillingInput) : Except BillingError BillingResult :=
  calculateFfpBilling b
    { contractType := .fpi
      currency := bi.currency
      milestones := bi.milestones
      withholdingPct := bi.withholdingPct
      cumulativeBilled := bi.cumulativeBilled
      fundingLimit := bi.fundingLimit
      ceilingAmount := bi.ceilingAmount }

/-- `calculate_billing`. -/
def calculateBilling (bi : BillingInput) : Except BillingError BillingResult :=
  match bi.contractType with
  | .cpff | .cpif | .cpaf => calculateCostPlusBilling b bi
  | .tm => calculateTmBilling b bi
  | .lh => calculateLhBilling b bi
  | .ffp => calculateFfpBilling b bi
  | .fpi => calculateFpiBilling b bi

end Engine

end FinanceAccounting.Billing
