import FinanceAccounting.Modules.Books
import FinanceAccounting.Modules.FixedAssets

/-! # Signed adjustments

Six methods take a signed amount: the closing entry, the roll of retained earnings and the
translation adjustment of the general ledger, the remeasurement of a lease, the revaluation of an
asset and the modification of a contract.  Each posts the absolute amount under a policy with one
debit and one credit, so the sign is lost: `adjustment_iff` says for which amounts the adjusted
account changes by the amount, and `entries_cancel_iff` for which the entries of opposite amounts
cancel. -/

namespace FinanceAccounting.Adjustments

open UnitOfWork (Session Result)
open ModulePosting (ModulePostingStatus)
open Journal (LineSide)
open PolicyBridge
open Modules
open FixedAssets (AssetRecord)
open AllocationEngine (Arithmetic)

/-! ### Policies -/

def amountGuard : GuardCondition where
  expression := .le "amount" 0
  reasonCode := "INVALID_AMOUNT"

def yearEndClose : AccountingPolicy :=
  pairPolicy "YearEndClose" "gl.year_end_close" "INCOME_SUMMARY" "RETAINED_EARNINGS" [] []

def glRetainedEarningsRoll : AccountingPolicy :=
  pairPolicy "GLRetainedEarningsRoll" "gl.retained_earnings_roll" "INCOME_SUMMARY"
    "RETAINED_EARNINGS" [] [amountGuard]

def fxTranslationAdjustment : AccountingPolicy :=
  pairPolicy "FXTranslationAdjustment" "fx.translation_adjustment" "UNREALIZED_FX_LOSS"
    "CUMULATIVE_TRANSLATION_ADJ" [] [amountGuard]

def leaseModified : AccountingPolicy :=
  pairPolicy "LeaseModified" "lease.modified" "ROU_ASSET" "LEASE_LIABILITY" [] [amountGuard]

def revenueModificationCumulative : AccountingPolicy :=
  pairPolicy "RevenueModificationCumulative" "revenue.modification_cumulative"
    "ACCOUNTS_RECEIVABLE" "REVENUE" [] [amountGuard]

def revenueModificationProspective : AccountingPolicy :=
  pairPolicy "RevenueModificationProspective" "revenue.modification_prospective"
    "DEFERRED_REVENUE" "REVENUE" [] [amountGuard]

/-- The policies of the modules that these events can match. -/
def policies : List AccountingPolicy :=
  [yearEndClose, glRetainedEarningsRoll, fxTranslationAdjustment, leaseModified,
    FixedAssets.assetRevalued, revenueModificationCumulative, revenueModificationProspective]

/-! ### Rows -/

structure LeaseModification where
  leaseId : UUID
  modificationDate : Date
  description : String
  remeasurementAmount : ℚ
  actorId : UUID

inductive ModificationType where
  | cumulativeCatchUp
  | prospective
  | separateContract
deriving DecidableEq, Repr

def ModificationType.value : ModificationType → String
  | .cumulativeCatchUp => "cumulative_catch_up"
  | .prospective => "prospective"
  | .separateContract => "separate_contract"

structure ContractModification where
  contractId : UUID
  modificationDate : Date
  modificationType : ModificationType
  description : String
  priceChange : ℚ
  actorId : UUID

inductive AdjustmentRow where
  | lease (row : LeaseModification)
  | contract (row : ContractModification)
  | asset (row : AssetRecord)

/-! ### Methods -/

section Methods

variable (ctx : Decimal.Context) {σ : Type*} (env : Env σ AdjustmentRow)

def closingEntryEvent (periodId : String) (netIncome : Option ℚ) (currency : String) : Event where
  eventType := "gl.year_end_close"
  payload := payloadOf [
    ("period_id", .text periodId),
    ("net_income", (netIncome.map .number).getD .null),
    ("closing_type", .text "YEAR_END")]
  amount := netIncome.elim 0 fun x => ctx.round |x|
  currency := currency

def recordClosingEntry (entityId : UUID) (periodId : String) (actorId : UUID)
    (netIncome : Option ℚ) (currency : String) (s : Session σ) :
    Result ServiceError σ ModulePostingStatus :=
  let event := closingEntryEvent ctx periodId netIncome currency
  env.guardedPosting
    (draftPost "gl_closing_entry" "gl_closing_entry" entityId actorId (some event.amount) currency)
    event [] s

def retainedEarningsRollEvent (fiscalYear : ℤ) (netIncome : ℚ) (currency : String) : Event where
  eventType := "gl.retained_earnings_roll"
  payload := payloadOf [("fiscal_year", .number fiscalYear), ("net_income", .number netIncome)]
  amount := ctx.round |netIncome|
  currency := currency

def recordRetainedEarningsRoll (entityId : UUID) (fiscalYear : ℤ) (netIncome : ℚ) (actorId : UUID)
    (currency : String) (s : Session σ) : Result ServiceError σ ModulePostingStatus :=
  let event := retainedEarningsRollEvent ctx fiscalYear netIncome currency
  env.guardedPosting
    (draftPost "gl_retained_earnings_roll" "gl_retained_earnings_roll" entityId actorId
      (some event.amount) currency) event [] s

def ctaEvent (entityId period : String) (ctaAmount : ℚ) (currency : String)
    (sourceCurrency : Option String) : Event where
  eventType := "fx.translation_adjustment"
  payload := payloadOf [
    ("entity_id", .text entityId),
    ("period", .text period),
    ("cta_amount", .number ctaAmount),
    ("source_currency", optionalText sourceCurrency)]
  amount := ctx.round |ctaAmount|
  currency := currency

def recordCta (workflowEntity : UUID) (entityId period : String) (ctaAmount : ℚ) (actorId : UUID)
    (currency : String) (sourceCurrency : Option String) (s : Session σ) :
    Result ServiceError σ ModulePostingStatus :=
  let event := ctaEvent ctx entityId period ctaAmount currency sourceCurrency
  env.guardedPosting
    (draftPost "gl_cta" "gl_cta" workflowEntity actorId (some event.amount) currency) event [] s

def leaseEvent (leaseId : UUID) (remeasurementAmount : ℚ) (description currency : String) :
    Event where
  eventType := "lease.modified"
  payload := payloadOf [
    ("lease_id", .text leaseId.str),
    ("description", .text description),
    ("remeasurement_amount", .number remeasurementAmount)]
  amount := ctx.round |remeasurementAmount|
  currency := currency

def modifyLease (leaseId : UUID) (modificationDate : Date) (remeasurementAmount : ℚ)
    (actorId : UUID) (description currency : String) (s : Session σ) :
    Result ServiceError σ (LeaseModification × ModulePostingStatus) :=
  let modification : LeaseModification :=
    ⟨leaseId, modificationDate, description, remeasurementAmount, actorId⟩
  let event := leaseEvent ctx leaseId remeasurementAmount description currency
  (env.guardedPosting
    (draftPost "lease_modify_lease" "lease" leaseId actorId (some event.amount) currency) event
    [.lease modification] s).andThen fun status s => (.ok (modification, status), s)

/-- `assess_modification_type`. -/
def assessModificationType (addsDistinctGoods priceReflectsSsp remainingGoodsDistinct : Bool) :
    ModificationType :=
  if addsDistinctGoods && priceReflectsSsp then .separateContract
  else if remainingGoodsDistinct then .prospective
  else .cumulativeCatchUp

/-- `event_type_map`. -/
def ModificationType.eventType : ModificationType → String
  | .prospective => "revenue.modification_prospective"
  | .cumulativeCatchUp | .separateContract => "revenue.modification_cumulative"

def contractEvent (contractId : UUID) (priceChange : ℚ) (modType : ModificationType)
    (description currency : String) : Event where
  eventType := modType.eventType
  payload := payloadOf [
    ("contract_id", .text contractId.str),
    ("modification_type", .text modType.value),
    ("price_change", .number priceChange),
    ("description", .text description)]
  amount := ctx.round |priceChange|
  currency := currency

/-- An exception of the executor is not followed by a rollback here. -/
def modifyContract (contractId : UUID) (modificationDate : Date) (priceChange : ℚ)
    (addsDistinctGoods priceReflectsSsp remainingGoodsDistinct : Bool) (actorId : UUID)
    (description currency : String) (s : Session σ) :
    Result ServiceError σ (ContractModification × ModulePostingStatus) :=
  (env.runWorkflowGuard (draftPost "revenue_modify_contract" "revenue_contract" contractId actorId
    (some (ctx.round |priceChange|)) currency) s).andThen fun failure s =>
      match failure with
      | some status =>
          (.ok (⟨contractId, modificationDate, .cumulativeCatchUp, description, priceChange,
            actorId⟩, status), s)
      | none =>
          let modType :=
            assessModificationType addsDistinctGoods priceReflectsSsp remainingGoodsDistinct
          let modification : ContractModification :=
            ⟨contractId, modificationDate, modType, description, priceChange, actorId⟩
          rollingBack <|
            (env.postEvent 0 (contractEvent ctx contractId priceChange modType description
              currency) s).andThen fun status s =>
                let s := if succeeded status then env.addRow (.contract modification) s else s
                (env.commitOrRollback status s).andThen fun _ s => (.ok (modification, status), s)

end Methods

/-! ### Calls -/

/-- The six methods with their arguments. -/
inductive Adjustment where
  | recordClosingEntry (entityId : UUID) (periodId : String) (actorId : UUID)
      (netIncome : Option ℚ) (currency : String)
  | recordRetainedEarningsRoll (entityId : UUID) (fiscalYear : ℤ) (netIncome : ℚ) (actorId : UUID)
      (currency : String)
  | recordCta (workflowEntity : UUID) (entityId period : String) (ctaAmount : ℚ) (actorId : UUID)
      (currency : String) (sourceCurrency : Option String)
  | modifyLease (leaseId : UUID) (modificationDate : Date) (remeasurementAmount : ℚ)
      (actorId : UUID) (description currency : String)
  | recordRevaluation (assetId : UUID) (oldCarryingValue newFairValue : ℚ) (effectiveDate : Date)
      (actorId : UUID) (currency : String)
  | modifyContract (contractId : UUID) (modificationDate : Date) (priceChange : ℚ)
      (addsDistinctGoods priceReflectsSsp remainingGoodsDistinct : Bool) (actorId : UUID)
      (description currency : String)

namespace Adjustment

def run (a : Arithmetic) {σ : Type*} (env : Env σ AdjustmentRow) (c : Adjustment) (s : Session σ) :
    Result ServiceError σ ModulePostingStatus :=
  match c with
  | .recordClosingEntry entityId periodId actorId netIncome currency =>
      Adjustments.recordClosingEntry a.ctx env entityId periodId actorId netIncome currency s
  | .recordRetainedEarningsRoll entityId fiscalYear netIncome actorId currency =>
      Adjustments.recordRetainedEarningsRoll a.ctx env entityId fiscalYear netIncome actorId
        currency s
  | .recordCta workflowEntity entityId period ctaAmount actorId currency sourceCurrency =>
      Adjustments.recordCta a.ctx env workflowEntity entityId period ctaAmount actorId currency
        sourceCurrency s
  | .modifyLease leaseId modificationDate remeasurementAmount actorId description currency =>
      mapOk (·.2) (Adjustments.modifyLease a.ctx env leaseId modificationDate remeasurementAmount
        actorId description currency s)
  | .recordRevaluation assetId oldCarryingValue newFairValue effectiveDate actorId currency =>
      mapOk (·.2) (FixedAssets.recordRevaluation a (env.through .asset) assetId oldCarryingValue
        newFairValue effectiveDate actorId currency s)
  | .modifyContract contractId modificationDate priceChange addsDistinctGoods priceReflectsSsp
      remainingGoodsDistinct actorId description currency =>
      mapOk (·.2) (Adjustments.modifyContract a.ctx env contractId modificationDate priceChange
        addsDistinctGoods priceReflectsSsp remainingGoodsDistinct actorId description currency s)

/-- The signed amount of a call. -/
def amount : Adjustment → ℚ
  | .recordClosingEntry _ _ _ netIncome _ => netIncome.getD 0
  | .recordRetainedEarningsRoll _ _ netIncome _ _ => netIncome
  | .recordCta _ _ _ ctaAmount _ _ _ => ctaAmount
  | .modifyLease _ _ remeasurementAmount _ _ _ => remeasurementAmount
  | .recordRevaluation _ oldCarryingValue newFairValue _ _ _ => newFairValue - oldCarryingValue
  | .modifyContract _ _ priceChange _ _ _ _ _ _ => priceChange

def event (ctx : Decimal.Context) : Adjustment → Event
  | .recordClosingEntry _ periodId _ netIncome currency =>
      closingEntryEvent ctx periodId netIncome currency
  | .recordRetainedEarningsRoll _ fiscalYear netIncome _ currency =>
      retainedEarningsRollEvent ctx fiscalYear netIncome currency
  | .recordCta _ entityId period ctaAmount _ currency sourceCurrency =>
      ctaEvent ctx entityId period ctaAmount currency sourceCurrency
  | .modifyLease leaseId _ remeasurementAmount _ description currency =>
      leaseEvent ctx leaseId remeasurementAmount description currency
  | .recordRevaluation assetId oldCarryingValue newFairValue _ _ currency =>
      FixedAssets.revaluationEvent ctx assetId oldCarryingValue newFairValue currency
  | .modifyContract contractId _ priceChange addsDistinctGoods priceReflectsSsp
      remainingGoodsDistinct _ description currency =>
      contractEvent ctx contractId priceChange
        (assessModificationType addsDistinctGoods priceReflectsSsp remainingGoodsDistinct)
        description currency

/-- The roles that the entry debits and credits. -/
def roles : Adjustment → String × String
  | .recordClosingEntry .. | .recordRetainedEarningsRoll .. => ("INCOME_SUMMARY", "RETAINED_EARNINGS")
  | .recordCta .. => ("UNREALIZED_FX_LOSS", "CUMULATIVE_TRANSLATION_ADJ")
  | .modifyLease .. => ("ROU_ASSET", "LEASE_LIABILITY")
  | .recordRevaluation .. => ("FIXED_ASSET", "GAIN_ON_DISPOSAL")
  | .modifyContract _ _ _ addsDistinctGoods priceReflectsSsp remainingGoodsDistinct _ _ _ =>
      match assessModificationType addsDistinctGoods priceReflectsSsp remainingGoodsDistinct with
      | .prospective => ("DEFERRED_REVENUE", "REVENUE")
      | .cumulativeCatchUp | .separateContract => ("ACCOUNTS_RECEIVABLE", "REVENUE")

/-- The side on which the adjusted account grows. -/
def direction : Adjustment → LineSide
  | .recordRevaluation .. => .debit
  | _ => .credit

/-- The adjusted account. -/
def account (c : Adjustment) : String :=
  match c.direction with
  | .debit => c.roles.1
  | .credit => c.roles.2

/-- How far the adjusted account has grown in its direction from one set of lines to another. -/
def growth (ctx : Decimal.Context) (c : Adjustment) (before after : List LedgerLine) : ℚ :=
  let currency := (c.event ctx).currency
  let change := balance "GL" c.account currency after - balance "GL" c.account currency before
  match c.direction with
  | .debit => change
  | .credit => -change

end Adjustment

/-! ### What is posted -/

section Posted

variable {a : Arithmetic} {constraint : List AdjustmentRow → Bool} {answers : Answers}
variable {c : Adjustment} {s s' : Session (Books AdjustmentRow Unit)}

/-- A posted call has added the lines that the policies make of its event. -/
theorem lines_of_run
    (h : c.run a (booksEnv a.ctx policies constraint answers) s = (.ok .posted, s')) :
    ∃ lines, interpret a.ctx policies (c.event a.ctx) = .posted lines ∧
      s'.current.lines = s.current.lines ++ lines := by
  cases c with
  | recordClosingEntry entityId periodId actorId netIncome currency =>
      exact guardedPosting_posted h
  | recordRetainedEarningsRoll entityId fiscalYear netIncome actorId currency =>
      exact guardedPosting_posted h
  | recordCta workflowEntity entityId period ctaAmount actorId currency sourceCurrency =>
      exact guardedPosting_posted h
  | modifyLease leaseId modificationDate remeasurementAmount actorId description currency =>
      obtain ⟨result, s₁, hmodify, hsnd⟩ := Result.andThen_eq_ok.mp h
      obtain ⟨status, s₂, hposting, hpair⟩ := Result.andThen_eq_ok.mp hmodify
      cases hpair
      cases hsnd
      exact guardedPosting_posted hposting
  | recordRevaluation assetId oldCarryingValue newFairValue effectiveDate actorId currency =>
      obtain ⟨result, s₁, hrevaluation, hsnd⟩ := Result.andThen_eq_ok.mp h
      obtain ⟨r, s₂, htransition, hrest⟩ :=
        Result.andThen_eq_ok.mp (Env.rollingBack_eq_ok hrevaluation)
      have hexecute : (booksEnv a.ctx policies constraint answers).executeTransition
          (draftPost "assets_record_revaluation" "asset" assetId actorId
            (some (a.ctx.round |a.ctx.round (newFairValue - oldCarryingValue)|)) currency) s =
              (.ok r, s₂) := htransition
      obtain ⟨requests, rfl⟩ := booksEnv_executeTransition hexecute
      cases hsuccess : r.success with
      | false =>
          simp only [hsuccess] at hrest
          cases hrest
      | true =>
          simp only [hsuccess, Bool.not_true, Bool.false_eq_true, if_false] at hrest
          obtain ⟨status, s₃, hpost, hpair⟩ := Result.andThen_eq_ok.mp hrest
          cases hpair
          cases hsnd
          have hposting : (booksEnv a.ctx policies constraint answers).postEvent 0
              (FixedAssets.revaluationEvent a.ctx assetId oldCarryingValue newFairValue currency)
              (s.flush (s.current.request requests)) = (.ok .posted, s₃) := hpost
          obtain ⟨lines, hinterpret, rfl⟩ := booksEnv_postEvent_posted hposting
          exact ⟨lines, hinterpret, rfl⟩
  | modifyContract contractId modificationDate priceChange addsDistinctGoods priceReflectsSsp
      remainingGoodsDistinct actorId description currency =>
      obtain ⟨result, s₁, hcontract, hsnd⟩ := Result.andThen_eq_ok.mp h
      obtain ⟨failure, s₂, hguard, hrest⟩ := Result.andThen_eq_ok.mp hcontract
      obtain ⟨r, s₃, htransition, hfailure⟩ := Result.andThen_eq_ok.mp hguard
      obtain ⟨requests, rfl⟩ := booksEnv_executeTransition htransition
      cases hfailure
      cases hsuccess : r.success with
      | false =>
          simp only [guardFailureResult, hsuccess, Bool.false_eq_true, if_false] at hrest
          cases hrest
          have hfalse := not_succeeded_refusal r.approvalRequired
          have hstatus : (if r.approvalRequired then ModulePostingStatus.guardBlocked
              else .guardRejected) = .posted := Except.ok.inj (Prod.mk.inj hsnd).1
          rw [hstatus] at hfalse
          cases hfalse
      | true =>
          simp only [guardFailureResult, hsuccess, if_true] at hrest
          obtain ⟨status, s₄, hpost, hfinish⟩ :=
            Result.andThen_eq_ok.mp (Env.rollingBack_eq_ok hrest)
          obtain ⟨_, s₅, hcommit, hpair⟩ := Result.andThen_eq_ok.mp hfinish
          cases hpair
          cases hsnd
          obtain ⟨lines, hinterpret, rfl⟩ := booksEnv_postEvent_posted hpost
          obtain ⟨t, hflush, rfl⟩ := Env.commit_eq_ok hcommit
          obtain ⟨rfl, _⟩ := booksEnv_flush hflush
          exact ⟨lines, hinterpret, rfl⟩

/-- The event of an absolute amount, under a policy whose guards do not fire, is posted. -/
theorem interpret_abs {e : Event} {x : ℚ} {name eventType debitRole creditRole : String}
    {clauses : List WhereClause} {guards : List GuardCondition}
    (hfound : findForEvent policies e.eventType e.payload =
      some (pairPolicy name eventType debitRole creditRole clauses guards))
    (hguard : (pairPolicy name eventType debitRole creditRole clauses guards).firedGuard
      e.payload = none)
    (hamount : e.amount = a.ctx.round |x|) : interpret a.ctx policies e =
      .posted (pairLines debitRole creditRole (a.ctx.round |x|) e.currency) := by
  have hnonneg : 0 ≤ a.ctx.round |x| := a.ctx.round_nonneg (abs_nonneg x)
  rw [interpret_pair hfound hguard, hamount, if_pos hnonneg]

/-- **The event of a call is posted**, with the absolute amount on both of its roles. -/
theorem interpret_event (a : Arithmetic) (c : Adjustment) :
    interpret a.ctx policies (c.event a.ctx) = .posted (pairLines c.roles.1 c.roles.2
      (a.ctx.round |c.amount|) (c.event a.ctx).currency) := by
  cases c with
  | recordClosingEntry entityId periodId actorId netIncome currency =>
      have hamount : netIncome.elim 0 (fun x => a.ctx.round |x|) =
          a.ctx.round |netIncome.getD 0| := by
        cases netIncome with
        | none => simp
        | some x => rfl
      have hfound : findForEvent policies "gl.year_end_close"
          (closingEntryEvent a.ctx periodId netIncome currency).payload = some yearEndClose := rfl
      exact interpret_abs hfound rfl hamount
  | recordRetainedEarningsRoll entityId fiscalYear netIncome actorId currency =>
      have hfound : findForEvent policies "gl.retained_earnings_roll"
          (retainedEarningsRollEvent a.ctx fiscalYear netIncome currency).payload =
            some glRetainedEarningsRoll := rfl
      exact interpret_abs hfound rfl rfl
  | recordCta workflowEntity entityId period ctaAmount actorId currency sourceCurrency =>
      have hfound : findForEvent policies "fx.translation_adjustment"
          (ctaEvent a.ctx entityId period ctaAmount currency sourceCurrency).payload =
            some fxTranslationAdjustment := rfl
      exact interpret_abs hfound rfl rfl
  | modifyLease leaseId modificationDate remeasurementAmount actorId description currency =>
      have hfound : findForEvent policies "lease.modified"
          (leaseEvent a.ctx leaseId remeasurementAmount description currency).payload =
            some leaseModified := rfl
      exact interpret_abs hfound rfl rfl
  | recordRevaluation assetId oldCarryingValue newFairValue effectiveDate actorId currency =>
      have hamount : a.ctx.round |a.ctx.round (newFairValue - oldCarryingValue)| =
          a.ctx.round |newFairValue - oldCarryingValue| := by
        rw [a.ctx.abs_round, a.ctx.round_round]
      have hfound : findForEvent policies "asset.revaluation" (FixedAssets.revaluationEvent a.ctx
          assetId oldCarryingValue newFairValue currency).payload =
            some FixedAssets.assetRevalued := rfl
      exact interpret_abs hfound rfl hamount
  | modifyContract contractId modificationDate priceChange addsDistinctGoods priceReflectsSsp
      remainingGoodsDistinct actorId description currency =>
      simp only [Adjustment.event, Adjustment.roles, Adjustment.amount]
      cases assessModificationType addsDistinctGoods priceReflectsSsp remainingGoodsDistinct with
      | prospective =>
          have hfound : findForEvent policies "revenue.modification_prospective" (contractEvent
              a.ctx contractId priceChange .prospective description currency).payload =
                some revenueModificationProspective := rfl
          exact interpret_abs hfound rfl rfl
      | cumulativeCatchUp =>
          have hfound : findForEvent policies "revenue.modification_cumulative" (contractEvent
              a.ctx contractId priceChange .cumulativeCatchUp description currency).payload =
                some revenueModificationCumulative := rfl
          exact interpret_abs hfound rfl rfl
      | separateContract =>
          have hfound : findForEvent policies "revenue.modification_cumulative" (contractEvent
              a.ctx contractId priceChange .separateContract description currency).payload =
                some revenueModificationCumulative := rfl
          exact interpret_abs hfound rfl rfl

theorem debit_ne_credit (c : Adjustment) : c.roles.1 ≠ c.roles.2 := by
  cases c with
  | modifyContract contractId modificationDate priceChange addsDistinctGoods priceReflectsSsp
      remainingGoodsDistinct actorId description currency =>
      simp only [Adjustment.roles]
      cases assessModificationType addsDistinctGoods priceReflectsSsp remainingGoodsDistinct <;>
        decide
  | _ => simp [Adjustment.roles]

/-- A posted call makes the adjusted account grow by what is stored of the absolute amount. -/
theorem growth_of_run
    (h : c.run a (booksEnv a.ctx policies constraint answers) s = (.ok .posted, s')) :
    c.growth a.ctx s.current.lines s'.current.lines = stored (a.ctx.round |c.amount|) := by
  obtain ⟨lines, hinterpret, hlines⟩ := lines_of_run h
  rw [interpret_event, Posting.posted.injEq] at hinterpret
  have hne := debit_ne_credit c
  rw [hlines, ← hinterpret]
  unfold Adjustment.growth Adjustment.account
  cases hdirection : c.direction with
  | debit => simp [pairLines, LedgerLine.signed, hne.symm]
  | credit => simp [pairLines, LedgerLine.signed, hne]

end Posted

/-! ### Direction -/

/-- The same adjustment with the opposite amount. -/
structure Opposite (ctx : Decimal.Context) (c c' : Adjustment) : Prop where
  roles : c'.roles = c.roles
  currency : (c'.event ctx).currency = (c.event ctx).currency
  amount : c'.amount = -c.amount

/-- What one pair of sets of lines changes, the other takes back, account by account. -/
def Cancel (before after before' after' : List LedgerLine) : Prop :=
  ∀ ledger role currency,
    balance ledger role currency after - balance ledger role currency before =
      -(balance ledger role currency after' - balance ledger role currency before')

section Direction

variable {a : Arithmetic} {constraint : List AdjustmentRow → Bool} {answers answers' : Answers}
variable {c c' : Adjustment} {s s' t t' : Session (Books AdjustmentRow Unit)}

theorem stored_nonneg {x : ℚ} (h : 0 ≤ x) : 0 ≤ stored x := Decimal.quantize_nonneg h

theorem growth_eq_amount_iff
    (h : c.run a (booksEnv a.ctx policies constraint answers) s = (.ok .posted, s')) :
    c.growth a.ctx s.current.lines s'.current.lines = c.amount ↔
      0 ≤ c.amount ∧ stored (a.ctx.round c.amount) = c.amount := by
  rw [growth_of_run h]
  constructor
  · intro heq
    have hnonneg : 0 ≤ c.amount := by
      rw [← heq]
      exact stored_nonneg (a.ctx.round_nonneg (abs_nonneg _))
    rw [abs_of_nonneg hnonneg] at heq
    exact ⟨hnonneg, heq⟩
  · rintro ⟨hnonneg, heq⟩
    rw [abs_of_nonneg hnonneg]
    exact heq

/-- The entries of opposite amounts are the same, so they cancel only when nothing is posted. -/
theorem entries_cancel_iff (hopposite : Opposite a.ctx c c')
    (h : c.run a (booksEnv a.ctx policies constraint answers) s = (.ok .posted, s'))
    (h' : c'.run a (booksEnv a.ctx policies constraint answers') t = (.ok .posted, t')) :
    Cancel s.current.lines s'.current.lines t.current.lines t'.current.lines ↔
      stored (a.ctx.round |c.amount|) = 0 := by
  obtain ⟨lines, hinterpret, hlines⟩ := lines_of_run h
  obtain ⟨lines', hinterpret', hlines'⟩ := lines_of_run h'
  rw [interpret_event, Posting.posted.injEq] at hinterpret hinterpret'
  rw [hopposite.roles, hopposite.currency, hopposite.amount, abs_neg, hinterpret] at hinterpret'
  subst hinterpret'
  unfold Cancel
  simp only [hlines, hlines', balance_append, add_sub_cancel_left, ← hinterpret]
  constructor
  · intro hcancel
    have hdebit := hcancel "GL" c.roles.1 (c.event a.ctx).currency
    simp [pairLines, LedgerLine.signed, (debit_ne_credit c).symm] at hdebit
    linarith
  · intro hzero ledger role currency
    simp [pairLines, LedgerLine.signed, hzero]

/-- **An adjustment keeps its direction exactly when its amount is not negative** and is stored as
it is; the entries of opposite amounts cancel exactly when nothing of the amount is stored. -/
theorem adjustment_iff
    (h : c.run a (booksEnv a.ctx policies constraint answers) s = (.ok .posted, s')) :
    (c.growth a.ctx s.current.lines s'.current.lines = c.amount ↔
      0 ≤ c.amount ∧ stored (a.ctx.round c.amount) = c.amount) ∧
    ∀ (c' : Adjustment) (answers' : Answers) (t t' : Session (Books AdjustmentRow Unit)),
      Opposite a.ctx c c' →
        c'.run a (booksEnv a.ctx policies constraint answers') t = (.ok .posted, t') →
          (Cancel s.current.lines s'.current.lines t.current.lines t'.current.lines ↔
            stored (a.ctx.round |c.amount|) = 0) :=
  ⟨growth_eq_amount_iff h, fun _ _ _ _ hopposite h' => entries_cancel_iff hopposite h h'⟩

end Direction

/-! ### A loss -/

/-- Twenty-eight digits. -/
def sampleArithmetic : Arithmetic where
  ctx := Hashing.defaultContext
  decimalPlaces _ := 2

/-- The roll of a net income of this amount. -/
def sampleRoll (netIncome : ℚ) : Adjustment :=
  .recordRetainedEarningsRoll ⟨1⟩ 2024 netIncome ⟨5⟩ "USD"

def noBooks : Session (Books AdjustmentRow Unit) := Session.start { store := () }

/-- What the roll leaves when everything is let through. -/
def rolled (netIncome : ℚ) : Session (Books AdjustmentRow Unit) :=
  ((sampleRoll netIncome).run sampleArithmetic
    (booksEnv sampleArithmetic.ctx policies (fun _ => true) permissive) noBooks).2

theorem adjustment_of_gain :
    (sampleRoll 100).growth sampleArithmetic.ctx noBooks.current.lines (rolled 100).current.lines =
      100 := by
  have h : (sampleRoll 100).run sampleArithmetic
      (booksEnv sampleArithmetic.ctx policies (fun _ => true) permissive) noBooks =
        (.ok .posted, rolled 100) := by
    refine Prod.ext_iff.mpr ⟨?_, rfl⟩
    decide +kernel
  refine (adjustment_iff h).1.mpr ⟨by norm_num [Adjustment.amount, sampleRoll], ?_⟩
  decide +kernel

/-- **A loss is rolled as a gain.** -/
theorem adjustment_of_loss :
    ¬((sampleRoll (-100)).growth sampleArithmetic.ctx noBooks.current.lines
      (rolled (-100)).current.lines = -100) := by
  decide +kernel

end FinanceAccounting.Adjustments
