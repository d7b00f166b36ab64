import FinanceAccounting.Modules.Service
import FinanceAccounting.Engines.Allocation

/-! # The fixed asset service

`FixedAssetService` records what happens to assets: each method asks the workflow executor, posts
an event under the policies of the module and adds a row of its own.  The register has a row for
an acquired asset; depreciation, disposals, transfers, revaluations and components have rows in
other tables. -/

namespace FinanceAccounting.FixedAssets

open UnitOfWork (Session Result)
open ModulePosting (ModulePostingStatus)
open AllocationEngine (AllocationTarget AllocationMethod AllocationResult Arithmetic)
open PolicyBridge
open Modules

/-! ### Policies -/

def costGuard : GuardCondition where
  expression := .le "cost" 0
  reasonCode := "INVALID_COST"

def usefulLifeGuard : GuardCondition where
  expression := .lt "useful_life_months" 1
  reasonCode := "INVALID_USEFUL_LIFE"

def depreciationGuard : GuardCondition where
  expression := .le "depreciation_amount" 0
  reasonCode := "INVALID_DEPRECIATION"

def assetAcquisitionCash : AccountingPolicy :=
  pairPolicy "AssetAcquisitionCash" "asset.acquisition" "FIXED_ASSET" "CASH"
    [.equals "payment_method" "CASH"] [costGuard, usefulLifeGuard]

def assetAcquisitionOnAccount : AccountingPolicy :=
  pairPolicy "AssetAcquisitionOnAccount" "asset.acquisition" "FIXED_ASSET" "AP"
    [.equals "payment_method" "ON_ACCOUNT"] [costGuard, usefulLifeGuard]

def assetCipCapitalized : AccountingPolicy :=
  pairPolicy "AssetCIPCapitalized" "asset.cip_capitalized" "FIXED_ASSET" "CIP" [] [costGuard]

def assetDepreciation : AccountingPolicy :=
  pairPolicy "AssetDepreciation" "asset.depreciation" "DEPRECIATION_EXPENSE"
    "ACCUMULATED_DEPRECIATION" [] [depreciationGuard]

def assetDisposalGain : AccountingPolicy where
  name := "AssetDisposalGain"
  eventType := "asset.disposal"
  clauses := [.equals "disposal_type" "SALE"]
  ledgerEffects := [⟨"GL", "CASH", "FIXED_ASSET"⟩]
  lineMappings := [
    { role := "CASH", side := .debit, fromContext := some "proceeds" },
    { role := "ACCUMULATED_DEPRECIATION", side := .debit,
      fromContext := some "accumulated_depreciation" },
    { role := "LOSS_ON_DISPOSAL", side := .debit, fromContext := some "loss_amount" },
    { role := "FIXED_ASSET", side := .credit, fromContext := some "original_cost" },
    { role := "GAIN_ON_DISPOSAL", side := .credit, fromContext := some "gain_amount" }]

def assetDisposalLoss : AccountingPolicy where
  name := "AssetDisposalLoss"
  eventType := "asset.disposal"
  clauses := [.equals "disposal_type" "RETIREMENT"]
  ledgerEffects := [⟨"GL", "ACCUMULATED_DEPRECIATION", "FIXED_ASSET"⟩]
  lineMappings := [
    { role := "CASH", side := .debit, fromContext := some "proceeds" },
    { role := "ACCUMULATED_DEPRECIATION", side := .debit,
      fromContext := some "accumulated_depreciation" },
    { role := "LOSS_ON_DISPOSAL", side := .debit, fromContext := some "loss_amount" },
    { role := "FIXED_ASSET", side := .credit, fromContext := some "original_cost" }]

/-- Its effect names other roles than its mappings, which decide. -/
def assetImpairment : AccountingPolicy where
  name := "AssetImpairment"
  eventType := "asset.disposal"
  clauses := [.equals "disposal_type" "WRITE_OFF"]
  ledgerEffects := [⟨"GL", "IMPAIRMENT_LOSS", "FIXED_ASSET"⟩]
  lineMappings := [
    { role := "IMPAIRMENT_LOSS", side := .debit },
    { role := "ACCUMULATED_DEPRECIATION", side := .credit }]

def assetScrap : AccountingPolicy where
  name := "AssetScrap"
  eventType := "asset.scrap"
  ledgerEffects := [⟨"GL", "ACCUMULATED_DEPRECIATION", "FIXED_ASSET"⟩]
  lineMappings := [
    { role := "ACCUMULATED_DEPRECIATION", side := .debit,
      fromContext := some "accumulated_depreciation" },
    { role := "LOSS_ON_DISPOSAL", side := .debit, fromContext := some "book_value" },
    { role := "FIXED_ASSET", side := .credit, fromContext := some "original_cost" }]

def assetMassDepreciation : AccountingPolicy :=
  pairPolicy "AssetMassDepreciation" "asset.mass_depreciation" "DEPRECIATION_EXPENSE"
    "ACCUMULATED_DEPRECIATION" [] []

def assetTransferred : AccountingPolicy :=
  pairPolicy "AssetTransferred" "asset.transfer" "FIXED_ASSET" "FIXED_ASSET" [] []

def assetRevalued : AccountingPolicy :=
  pairPolicy "AssetRevalued" "asset.revaluation" "FIXED_ASSET" "GAIN_ON_DISPOSAL" [] []

def assetComponentDepreciation : AccountingPolicy :=
  pairPolicy "AssetComponentDepreciation" "asset.component_depreciation" "DEPRECIATION_EXPENSE"
    "ACCUMULATED_DEPRECIATION" [] []

/-- `_ALL_PROFILES`. -/
def allProfiles : List AccountingPolicy :=
  [assetAcquisitionCash, assetAcquisitionOnAccount, assetCipCapitalized, assetDepreciation,
    assetDisposalGain, assetDisposalLoss, assetImpairment, assetScrap, assetMassDepreciation,
    assetTransferred, assetRevalued, assetComponentDepreciation]

/-! ### Rows -/

structure AssetModel where
  id : UUID
  assetNumber : String
  description : String
  categoryId : UUID
  acquisitionDate : Date
  inServiceDate : Date
  acquisitionCost : ℚ
  salvageValue : ℚ
  usefulLifeMonths : ℤ
  accumulatedDepreciation : ℚ
  netBookValue : ℚ
  status : String
deriving DecidableEq, Repr

structure DepreciationSchedule where
  assetId : UUID
  periodDate : Date
  depreciationAmount : ℚ
  accumulatedDepreciation : ℚ
  netBookValue : ℚ
  isPosted : Bool
deriving DecidableEq, Repr

structure AssetDisposal where
  assetId : UUID
  disposalDate : Date
  disposalType : String
  proceeds : ℚ
  accumulatedDepreciationAtDisposal : ℚ
  netBookValueAtDisposal : ℚ
  gainLoss : ℚ
deriving DecidableEq, Repr

structure AssetTransfer where
  assetId : UUID
  transferDate : Date
  fromCostCenter : String
  toCostCenter : String
  transferredBy : UUID
deriving DecidableEq, Repr

structure AssetRevaluation where
  assetId : UUID
  revaluationDate : Date
  oldCarryingValue : ℚ
  newFairValue : ℚ
  revaluationSurplus : ℚ
deriving DecidableEq, Repr

structure DepreciationComponent where
  assetId : UUID
  componentName : String
  cost : ℚ
  usefulLifeMonths : ℤ
  depreciationMethod : String
  accumulatedDepreciation : ℚ
deriving DecidableEq, Repr

inductive AssetRecord where
  | asset (row : AssetModel)
  | schedule (row : DepreciationSchedule)
  | disposal (row : AssetDisposal)
  | transfer (row : AssetTransfer)
  | revaluation (row : AssetRevaluation)
  | component (row : DepreciationComponent)
deriving DecidableEq, Repr

/-! ### Events -/

def acquisitionEvent (assetId : UUID) (cost : ℚ) (assetClass : Option String)
    (usefulLifeMonths : ℤ) (paymentMethod currency : String) (description : Option String) :
    Event where
  eventType := "asset.acquisition"
  payload := payloadOf [
    ("cost", .number cost),
    ("asset_class", optionalText assetClass),
    ("useful_life_months", .number usefulLifeMonths),
    ("payment_method", .text paymentMethod),
    ("description", optionalText description),
    ("asset_id", .text assetId.str)]
  amount := cost
  currency := currency

def cipEvent (assetId : UUID) (cost : ℚ) (projectId : Option String) (currency : String)
    (description : Option String) : Event where
  eventType := "asset.cip_capitalized"
  payload := payloadOf [
    ("cost", .number cost),
    ("asset_id", .text assetId.str),
    ("project_id", optionalText projectId),
    ("description", optionalText description)]
  amount := cost
  currency := currency

def depreciationEvent (assetId : UUID) (amount : ℚ) (periodId : Option String)
    (depreciationMethod currency : String) : Event where
  eventType := "asset.depreciation"
  payload := payloadOf [
    ("depreciation_amount", .number amount),
    ("asset_id", .text assetId.str),
    ("period_id", optionalText periodId),
    ("depreciation_method", .text depreciationMethod)]
  amount := amount
  currency := currency

section Rounded

variable (ctx : Decimal.Context)

/-- The book value of a disposal, where both parts are given. -/
def bookValue (originalCost accumulatedDepreciation : Option ℚ) : Option ℚ :=
  match originalCost, accumulatedDepreciation with
  | some cost, some depreciation => some (ctx.round (cost - depreciation))
  | _, _ => none

def disposalEvent (assetId : UUID) (proceeds : ℚ)
    (originalCost accumulatedDepreciation : Option ℚ) (disposalType currency : String) :
    Event :=
  let book := bookValue ctx originalCost accumulatedDepreciation
  { eventType := "asset.disposal"
    payload := payloadOf (
      [("asset_id", .text assetId.str), ("proceeds", .number proceeds),
        ("disposal_type", .text disposalType)] ++
      optionalAmount "original_cost" originalCost ++
      optionalAmount "accumulated_depreciation" accumulatedDepreciation ++
      optionalAmount "book_value" book ++
      optionalAmount "gain_amount" (book.map fun b => max 0 (ctx.round (proceeds - b))) ++
      optionalAmount "loss_amount" (book.map fun b => max 0 (ctx.round (b - proceeds))))
    amount := book.elim proceeds (max proceeds)
    currency := currency }

def impairmentEvent (assetId : UUID) (impairmentAmount : ℚ) (allocation : Option AllocationResult)
    (currency : String) : Event where
  eventType := "asset.disposal"
  payload := payloadOf [
    ("asset_id", .text assetId.str),
    ("impairment_amount", .number impairmentAmount),
    ("disposal_type", .text "WRITE_OFF"),
    ("proceeds", .number 0),
    ("has_allocation", .flag allocation.isSome),
    ("allocation_count", .number (allocation.elim 0 fun r =>
      (r.lines.filter (·.allocated.amount ≠ 0)).length))]
  amount := impairmentAmount
  currency := currency

def scrapEvent (assetId : UUID) (originalCost accumulatedDepreciation : ℚ)
    (reasonCode currency : String) : Event :=
  let book := ctx.round (originalCost - accumulatedDepreciation)
  { eventType := "asset.scrap"
    payload := payloadOf [
      ("asset_id", .text assetId.str),
      ("original_cost", .number originalCost),
      ("accumulated_depreciation", .number accumulatedDepreciation),
      ("book_value", .number book),
      ("reason_code", .text reasonCode)]
    amount := book
    currency := currency }

def massDepreciationEvent (assetId : UUID) (amount : ℚ) (currency : String) : Event where
  eventType := "asset.mass_depreciation"
  payload := payloadOf [
    ("asset_id", .text assetId.str),
    ("depreciation_amount", .number amount)]
  amount := amount
  currency := currency

def transferEvent (assetId : UUID) (fromCostCenter toCostCenter : String) (transferValue : ℚ)
    (currency : String) : Event where
  eventType := "asset.transfer"
  payload := payloadOf [
    ("asset_id", .text assetId.str),
    ("from_cost_center", .text fromCostCenter),
    ("to_cost_center", .text toCostCenter)]
  amount := transferValue
  currency := currency

def revaluationEvent (assetId : UUID) (oldCarryingValue newFairValue : ℚ) (currency : String) :
    Event :=
  let surplus := ctx.round (newFairValue - oldCarryingValue)
  { eventType := "asset.revaluation"
    payload := payloadOf [
      ("asset_id", .text assetId.str),
      ("old_carrying_value", .number oldCarryingValue),
      ("new_fair_value", .number newFairValue),
      ("surplus", .number surplus)]
    amount := ctx.round |surplus|
    currency := currency }

def componentDepreciationEvent (assetId : UUID) (componentName : String) (amount : ℚ)
    (currency : String) : Event where
  eventType := "asset.component_depreciation"
  payload := payloadOf [
    ("asset_id", .text assetId.str),
    ("component_name", .text componentName),
    ("depreciation_amount", .number amount)]
  amount := amount
  currency := currency

end Rounded

/-! ### The rows that are added -/

def acquiredAsset (assetId : UUID) (cost : ℚ) (effectiveDate : Date) (categoryId : UUID)
    (usefulLifeMonths : ℤ) (description : Option String) : AssetModel where
  id := assetId
  assetNumber := assetId.str
  description := description.getD ""
  categoryId := categoryId
  acquisitionDate := effectiveDate
  inServiceDate := effectiveDate
  acquisitionCost := cost
  salvageValue := 0
  usefulLifeMonths := usefulLifeMonths
  accumulatedDepreciation := 0
  netBookValue := cost
  status := "in_service"

/-- The cumulative values are placeholders. -/
def depreciationRow (assetId : UUID) (amount : ℚ) (effectiveDate : Date) :
    DepreciationSchedule where
  assetId := assetId
  periodDate := effectiveDate
  depreciationAmount := amount
  accumulatedDepreciation := amount
  netBookValue := 0
  isPosted := true

def disposalRow (ctx : Decimal.Context) (assetId : UUID) (proceeds : ℚ) (effectiveDate : Date)
    (originalCost accumulatedDepreciation : Option ℚ) (disposalType : String) : AssetDisposal :=
  let book := bookValue ctx originalCost accumulatedDepreciation
  { assetId := assetId
    disposalDate := effectiveDate
    disposalType := disposalType.toLower
    proceeds := proceeds
    accumulatedDepreciationAtDisposal := accumulatedDepreciation.getD 0
    netBookValueAtDisposal := book.getD 0
    gainLoss := book.elim 0 fun b => ctx.round (proceeds - b) }

def componentRow (assetId : UUID) (componentName : String) (amount : ℚ) :
    DepreciationComponent where
  assetId := assetId
  componentName := componentName
  cost := amount
  usefulLifeMonths := 0
  depreciationMethod := "straight_line"
  accumulatedDepreciation := amount

/-! ### Methods -/

/-- The impairment over the components, if there are any. -/
def impairmentAllocation (a : Arithmetic) (impairmentAmount : ℚ)
    (componentTargets : Option (List AllocationTarget)) (allocationMethod : AllocationMethod)
    (currency : String) : Except AllocationEngine.AllocationError (Option AllocationResult) :=
  match componentTargets with
  | none | some [] => .ok none
  | some targets =>
      (AllocationEngine.allocate a ⟨impairmentAmount, currency⟩ targets allocationMethod).map some

section Methods

variable (a : Arithmetic) {σ : Type*} (env : Env σ AssetRecord)

def recordAssetAcquisition (assetId : UUID) (cost : ℚ) (effectiveDate : Date)
    (actorId categoryId : UUID) (assetClass : Option String) (usefulLifeMonths : ℤ)
    (paymentMethod currency : String) (description : Option String) (s : Session σ) :
    Result ServiceError σ ModulePostingStatus :=
  env.guardedPosting
    (draftPost "assets_record_acquisition" "asset" assetId actorId (some cost) currency)
    (acquisitionEvent assetId cost assetClass usefulLifeMonths paymentMethod currency description)
    [.asset (acquiredAsset assetId cost effectiveDate categoryId usefulLifeMonths description)] s

/-- No row is added to the register. -/
def recordCipCapitalized (assetId : UUID) (cost : ℚ) (actorId : UUID) (projectId : Option String)
    (currency : String) (description : Option String) (s : Session σ) :
    Result ServiceError σ ModulePostingStatus :=
  env.guardedPosting
    (draftPost "assets_record_cip_capitalized" "asset" assetId actorId (some cost) currency)
    (cipEvent assetId cost projectId currency description) [] s

def recordDepreciation (assetId : UUID) (amount : ℚ) (effectiveDate : Date) (actorId : UUID)
    (periodId : Option String) (depreciationMethod currency : String) (s : Session σ) :
    Result ServiceError σ ModulePostingStatus :=
  env.guardedPosting
    (draftPost "assets_record_depreciation" "asset" assetId actorId (some amount) currency)
    (depreciationEvent assetId amount periodId depreciationMethod currency)
    [.schedule (depreciationRow assetId amount effectiveDate)] s

def recordDisposal (assetId : UUID) (proceeds : ℚ) (effectiveDate : Date) (actorId : UUID)
    (originalCost accumulatedDepreciation : Option ℚ) (disposalType currency : String)
    (s : Session σ) : Result ServiceError σ ModulePostingStatus :=
  env.guardedPosting
    (draftPost "assets_record_disposal" "asset" assetId actorId (some proceeds) currency)
    (disposalEvent a.ctx assetId proceeds originalCost accumulatedDepreciation disposalType
      currency)
    [.disposal (disposalRow a.ctx assetId proceeds effectiveDate originalCost
      accumulatedDepreciation disposalType)] s

/-- A refused transition raises: the result is built without its `event_id`. -/
def recordImpairment (assetId : UUID) (impairmentAmount : ℚ) (actorId : UUID)
    (componentTargets : Option (List AllocationTarget)) (allocationMethod : AllocationMethod)
    (currency : String) (s : Session σ) :
    Result ServiceError σ (Option AllocationResult × ModulePostingStatus) :=
  rollingBack <|
    (env.executeTransition (draftPost "assets_record_impairment" "asset" assetId actorId
      (some impairmentAmount) currency) s).andThen fun r s =>
        if !r.success then (.error .typeError, s)
        else
          match impairmentAllocation a impairmentAmount componentTargets allocationMethod currency with
          | .error _ => (.error .raised, s)
          | .ok allocation =>
              (env.postEvent 0 (impairmentEvent assetId impairmentAmount allocation currency)
                s).andThen fun status s =>
                  (env.commitOrRollback status s).andThen fun _ s => (.ok (allocation, status), s)

/-- No row is added. -/
def recordScrap (assetId : UUID) (originalCost accumulatedDepreciation : ℚ) (actorId : UUID)
    (reasonCode currency : String) (s : Session σ) : Result ServiceError σ ModulePostingStatus :=
  env.guardedPosting
    (draftPost "assets_record_scrap" "asset" assetId actorId
      (some (a.ctx.round (originalCost - accumulatedDepreciation))) currency)
    (scrapEvent a.ctx assetId originalCost accumulatedDepreciation reasonCode currency) [] s

/-- The loop of `run_mass_depreciation`; an entry without its keys, or whose amount is no number,
raises. -/
def massPostings (currency : String) : ℕ → List (Option (UUID × ℚ)) → Session σ →
    Result ServiceError σ (List ModulePostingStatus)
  | _, [], s => (.ok [], s)
  | _, none :: _, s => (.error .valueError, s)
  | n, some (assetId, amount) :: assets, s =>
      (env.postEvent n (massDepreciationEvent assetId amount currency) s).andThen fun status s =>
        (massPostings currency (n + 1) assets s).andThen fun statuses s =>
          (.ok (status :: statuses), s)

def runMassDepreciation (assets : List (Option (UUID × ℚ))) (batchId actorId : UUID)
    (currency : String) (s : Session σ) : Result ServiceError σ (List ModulePostingStatus) :=
  rollingBack <|
    (env.executeTransition (draftPost "assets_run_mass_depreciation" "mass_depreciation" batchId
      actorId none "USD") s).andThen fun r s =>
        if !r.success then (.error .typeError, s)
        else
          (massPostings env currency 0 assets s).andThen fun statuses s =>
            if statuses.all succeeded then
              (env.commit s).andThen fun _ s => (.ok statuses, s)
            else (.ok statuses, s.rollback)

/-- The session is not committed. -/
def recordAssetTransfer (assetId : UUID) (fromCostCenter toCostCenter : String)
    (transferValue : ℚ) (effectiveDate : Date) (actorId : UUID) (currency : String)
    (s : Session σ) : Result ServiceError σ (AssetTransfer × ModulePostingStatus) :=
  let transfer : AssetTransfer := {
    assetId := assetId
    transferDate := effectiveDate
    fromCostCenter := fromCostCenter
    toCostCenter := toCostCenter
    transferredBy := actorId }
  rollingBack <|
    (env.executeTransition (draftPost "assets_record_asset_transfer" "asset_transfer" assetId
      actorId (some transferValue) currency) s).andThen fun r s =>
        if !r.success then (.error .typeError, s)
        else
          (env.postEvent 0 (transferEvent assetId fromCostCenter toCostCenter transferValue
            currency) s).andThen fun status s =>
              let s := if succeeded status then env.addRow (.transfer transfer) s else s.rollback
              (.ok (transfer, status), s)

/-- The session is not committed. -/
def recordRevaluation (assetId : UUID) (oldCarryingValue newFairValue : ℚ) (effectiveDate : Date)
    (actorId : UUID) (currency : String) (s : Session σ) :
    Result ServiceError σ (AssetRevaluation × ModulePostingStatus) :=
  let surplus := a.ctx.round (newFairValue - oldCarryingValue)
  let revaluation : AssetRevaluation := {
    assetId := assetId
    revaluationDate := effectiveDate
    oldCarryingValue := oldCarryingValue
    newFairValue := newFairValue
    revaluationSurplus := surplus }
  rollingBack <|
    (env.executeTransition (draftPost "assets_record_revaluation" "asset" assetId actorId
      (some (a.ctx.round |surplus|)) currency) s).andThen fun r s =>
        if !r.success then (.error .typeError, s)
        else
          (env.postEvent 0 (revaluationEvent a.ctx assetId oldCarryingValue newFairValue currency)
            s).andThen fun status s =>
              let s :=
                if succeeded status then env.addRow (.revaluation revaluation) s else s.rollback
              (.ok (revaluation, status), s)

def recordComponentDepreciation (assetId : UUID) (componentName : String) (amount : ℚ)
    (actorId : UUID) (currency : String) (s : Session σ) :
    Result ServiceError σ ModulePostingStatus :=
  env.guardedPosting
    (draftPost "assets_record_component_depreciation" "asset_component" assetId actorId
      (some amount) currency)
    (componentDepreciationEvent assetId componentName amount currency)
    [.component (componentRow assetId componentName amount)] s

end Methods

/-! ### Calls -/

/-- The posting methods with their arguments. -/
inductive Call where
  | recordAssetAcquisition (assetId : UUID) (cost : ℚ) (effectiveDate : Date)
      (actorId categoryId : UUID) (assetClass : Option String) (usefulLifeMonths : ℤ)
      (paymentMethod currency : String) (description : Option String)
  | recordCipCapitalized (assetId : UUID) (cost : ℚ) (actorId : UUID) (projectId : Option String)
      (currency : String) (description : Option String)
  | recordDepreciation (assetId : UUID) (amount : ℚ) (effectiveDate : Date) (actorId : UUID)
      (periodId : Option String) (depreciationMethod currency : String)
  | recordDisposal (assetId : UUID) (proceeds : ℚ) (effectiveDate : Date) (actorId : UUID)
      (originalCost accumulatedDepreciation : Option ℚ) (disposalType currency : String)
  | recordImpairment (assetId : UUID) (impairmentAmount : ℚ) (actorId : UUID)
      (componentTargets : Option (List AllocationTarget)) (allocationMethod : AllocationMethod)
      (currency : String)
  | recordScrap (assetId : UUID) (originalCost accumulatedDepreciation : ℚ) (actorId : UUID)
      (reasonCode currency : String)
  | runMassDepreciation (assets : List (Option (UUID × ℚ))) (batchId actorId : UUID)
      (currency : String)
  | recordAssetTransfer (assetId : UUID) (fromCostCenter toCostCenter : String)
      (transferValue : ℚ) (effectiveDate : Date) (actorId : UUID) (currency : String)
  | recordRevaluation (assetId : UUID) (oldCarryingValue newFairValue : ℚ) (effectiveDate : Date)
      (actorId : UUID) (currency : String)
  | recordComponentDepreciation (assetId : UUID) (componentName : String) (amount : ℚ)
      (actorId : UUID) (currency : String)

/-- The call, with the statuses of its postings. -/
def Call.run {σ : Type*} (a : Arithmetic) (env : Env σ AssetRecord) (c : Call) (s : Session σ) :
    Result ServiceError σ (List ModulePostingStatus) :=
  match c with
  | .recordAssetAcquisition assetId cost effectiveDate actorId categoryId assetClass
      usefulLifeMonths paymentMethod currency description =>
      mapOk ([·]) (FixedAssets.recordAssetAcquisition env assetId cost effectiveDate actorId
        categoryId assetClass usefulLifeMonths paymentMethod currency description s)
  | .recordCipCapitalized assetId cost actorId projectId currency description =>
      mapOk ([·]) (FixedAssets.recordCipCapitalized env assetId cost actorId projectId currency
        description s)
  | .recordDepreciation assetId amount effectiveDate actorId periodId depreciationMethod currency =>
      mapOk ([·]) (FixedAssets.recordDepreciation env assetId amount effectiveDate actorId periodId
        depreciationMethod currency s)
  | .recordDisposal assetId proceeds effectiveDate actorId originalCost accumulatedDepreciation
      disposalType currency =>
      mapOk ([·]) (FixedAssets.recordDisposal a env assetId proceeds effectiveDate actorId
        originalCost accumulatedDepreciation disposalType currency s)
  | .recordImpairment assetId impairmentAmount actorId componentTargets allocationMethod currency =>
      mapOk (fun r => [r.2]) (FixedAssets.recordImpairment a env assetId impairmentAmount actorId
        componentTargets allocationMethod currency s)
  | .recordScrap assetId originalCost accumulatedDepreciation actorId reasonCode currency =>
      mapOk ([·]) (FixedAssets.recordScrap a env assetId originalCost accumulatedDepreciation
        actorId reasonCode currency s)
  | .runMassDepreciation assets batchId actorId currency =>
      FixedAssets.runMassDepreciation env assets batchId actorId currency s
  | .recordAssetTransfer assetId fromCostCenter toCostCenter transferValue effectiveDate actorId
      currency =>
      mapOk (fun r => [r.2]) (FixedAssets.recordAssetTransfer env assetId fromCostCenter
        toCostCenter transferValue effectiveDate actorId currency s)
  | .recordRevaluation assetId oldCarryingValue newFairValue effectiveDate actorId currency =>
      mapOk (fun r => [r.2]) (FixedAssets.recordRevaluation a env assetId oldCarryingValue
        newFairValue effectiveDate actorId currency s)
  | .recordComponentDepreciation assetId componentName amount actorId currency =>
      mapOk ([·]) (FixedAssets.recordComponentDepreciation env assetId componentName amount actorId
        currency s)

/-! ### The four patterns -/

/-- What a call asks for and writes, by the pattern its method follows. -/
inductive Plan where
  /-- A refused transition returns early. -/
  | guarded (transition : TransitionCall) (event : Event) (rows : List AssetRecord)
  /-- A refused transition raises, and so may what the event is made from. -/
  | checked (transition : TransitionCall) (event : Option Event)
  | mass (transition : TransitionCall) (events : List (Option Event))
  | uncommitted (transition : TransitionCall) (event : Event) (row : AssetRecord)

section Plan

variable {σ : Type*} (env : Env σ AssetRecord)

/-- A loop of postings, which an entry may end. -/
def postings : ℕ → List (Option Event) → Session σ →
    Result ServiceError σ (List ModulePostingStatus)
  | _, [], s => (.ok [], s)
  | _, none :: _, s => (.error .valueError, s)
  | n, some event :: events, s =>
      (env.postEvent n event s).andThen fun status s =>
        (postings (n + 1) events s).andThen fun statuses s => (.ok (status :: statuses), s)

def Plan.run : Plan → Session σ → Result ServiceError σ (List ModulePostingStatus)
  | .guarded t event rows, s => mapOk ([·]) (env.guardedPosting t event rows s)
  | .checked t event, s =>
      rollingBack <| (env.executeTransition t s).andThen fun r s =>
        if !r.success then (.error .typeError, s)
        else
          match event with
          | none => (.error .raised, s)
          | some event =>
              (env.postEvent 0 event s).andThen fun status s =>
                (env.commitOrRollback status s).andThen fun _ s => (.ok [status], s)
  | .mass t events, s =>
      rollingBack <| (env.executeTransition t s).andThen fun r s =>
        if !r.success then (.error .typeError, s)
        else
          (postings env 0 events s).andThen fun statuses s =>
            if statuses.all succeeded then (env.commit s).andThen fun _ s => (.ok statuses, s)
            else (.ok statuses, s.rollback)
  | .uncommitted t event row, s =>
      rollingBack <| (env.executeTransition t s).andThen fun r s =>
        if !r.success then (.error .typeError, s)
        else
          (env.postEvent 0 event s).andThen fun status s =>
            (.ok [status], if succeeded status then env.addRow row s else s.rollback)

end Plan

/-- The plan of a call. -/
def Call.plan (a : Arithmetic) : Call → Plan
  | .recordAssetAcquisition assetId cost effectiveDate actorId categoryId assetClass
      usefulLifeMonths paymentMethod currency description =>
      .guarded (draftPost "assets_record_acquisition" "asset" assetId actorId (some cost) currency)
        (acquisitionEvent assetId cost assetClass usefulLifeMonths paymentMethod currency
          description)
        [.asset (acquiredAsset assetId cost effectiveDate categoryId usefulLifeMonths description)]
  | .recordCipCapitalized assetId cost actorId projectId currency description =>
      .guarded
        (draftPost "assets_record_cip_capitalized" "asset" assetId actorId (some cost) currency)
        (cipEvent assetId cost projectId currency description) []
  | .recordDepreciation assetId amount effectiveDate actorId periodId depreciationMethod currency =>
      .guarded
        (draftPost "assets_record_depreciation" "asset" assetId actorId (some amount) currency)
        (depreciationEvent assetId amount periodId depreciationMethod currency)
        [.schedule (depreciationRow assetId amount effectiveDate)]
  | .recordDisposal assetId proceeds effectiveDate actorId originalCost accumulatedDepreciation
      disposalType currency =>
      .guarded
        (draftPost "assets_record_disposal" "asset" assetId actorId (some proceeds) currency)
        (disposalEvent a.ctx assetId proceeds originalCost accumulatedDepreciation disposalType
          currency)
        [.disposal (disposalRow a.ctx assetId proceeds effectiveDate originalCost
          accumulatedDepreciation disposalType)]
  | .recordImpairment assetId impairmentAmount actorId componentTargets allocationMethod currency =>
      .checked
        (draftPost "assets_record_impairment" "asset" assetId actorId (some impairmentAmount)
          currency)
        ((impairmentAllocation a impairmentAmount componentTargets allocationMethod
          currency).toOption.map fun allocation =>
            impairmentEvent assetId impairmentAmount allocation currency)
  | .recordScrap assetId originalCost accumulatedDepreciation actorId reasonCode currency =>
      .guarded
        (draftPost "assets_record_scrap" "asset" assetId actorId
          (some (a.ctx.round (originalCost - accumulatedDepreciation))) currency)
        (scrapEvent a.ctx assetId originalCost accumulatedDepreciation reasonCode currency) []
  | .runMassDepreciation assets batchId actorId currency =>
      .mass
        (draftPost "assets_run_mass_depreciation" "mass_depreciation" batchId actorId none "USD")
        (assets.map (Option.map fun p => massDepreciationEvent p.1 p.2 currency))
  | .recordAssetTransfer assetId fromCostCenter toCostCenter transferValue effectiveDate actorId
      currency =>
      .uncommitted
        (draftPost "assets_record_asset_transfer" "asset_transfer" assetId actorId
          (some transferValue) currency)
        (transferEvent assetId fromCostCenter toCostCenter transferValue currency)
        (.transfer ⟨assetId, effectiveDate, fromCostCenter, toCostCenter, actorId⟩)
  | .recordRevaluation assetId oldCarryingValue newFairValue effectiveDate actorId currency =>
      let surplus := a.ctx.round (newFairValue - oldCarryingValue)
      .uncommitted
        (draftPost "assets_record_revaluation" "asset" assetId actorId
          (some (a.ctx.round |surplus|)) currency)
        (revaluationEvent a.ctx assetId oldCarryingValue newFairValue currency)
        (.revaluation ⟨assetId, effectiveDate, oldCarryingValue, newFairValue, surplus⟩)
  | .recordComponentDepreciation assetId componentName amount actorId currency =>
      .guarded
        (draftPost "assets_record_component_depreciation" "asset_component" assetId actorId
          (some amount) currency)
        (componentDepreciationEvent assetId componentName amount currency)
        [.component (componentRow assetId componentName amount)]

/-! ### Every call follows its plan -/

section RunPlan

variable {a : Arithmetic} {σ : Type*} {env : Env σ AssetRecord}

theorem massPostings_eq (currency : String) (n : ℕ) (assets : List (Option (UUID × ℚ)))
    (s : Session σ) : massPostings env currency n assets s =
      postings env n (assets.map (Option.map fun p => massDepreciationEvent p.1 p.2 currency)) s :=
    by
  induction assets generalizing n s with
  | nil => rfl
  | cons asset assets ih =>
      cases asset with
      | none => rfl
      | some p =>
          rw [massPostings, List.map_cons, Option.map_some, postings]
          simp only [ih]

/-- **A call does what its plan says.** -/
theorem run_eq_plan (c : Call) (s : Session σ) : c.run a env s = (c.plan a).run env s := by
  cases c with
  | recordImpairment assetId impairmentAmount actorId componentTargets allocationMethod currency =>
      simp only [Call.run, Call.plan, Plan.run, recordImpairment, mapOk_rollingBack, mapOk_andThen]
      congr 2
      funext r s
      cases hr : r.success with
      | false => rfl
      | true =>
          cases impairmentAllocation a impairmentAmount componentTargets allocationMethod
            currency with
          | error e => rfl
          | ok allocation => simp [mapOk_andThen, Except.toOption]
  | runMassDepreciation assets batchId actorId currency =>
      simp only [Call.run, Call.plan, Plan.run, runMassDepreciation, massPostings_eq]
  | recordAssetTransfer assetId fromCostCenter toCostCenter transferValue effectiveDate actorId
      currency =>
      simp only [Call.run, Call.plan, Plan.run, recordAssetTransfer, mapOk_rollingBack,
        mapOk_andThen]
      congr 2
      funext r s
      cases hr : r.success with
      | false => rfl
      | true => simp [mapOk_andThen]
  | recordRevaluation assetId oldCarryingValue newFairValue effectiveDate actorId currency =>
      simp only [Call.run, Call.plan, Plan.run, recordRevaluation, mapOk_rollingBack,
        mapOk_andThen]
      congr 2
      funext r s
      cases hr : r.success with
      | false => rfl
      | true => simp [mapOk_andThen]
  | _ => rfl

end RunPlan

end FinanceAccounting.FixedAssets
