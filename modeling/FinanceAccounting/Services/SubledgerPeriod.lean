import FinanceAccounting.Kernel.SubledgerControl

/-! # The close of a subledger period

`SubledgerPeriodService.close_subledger_period` compares a subledger with its GL control account
at the end of a period and closes its period, or reports the difference.  The health check of the
period close compares the same two in its own way.

`checks_agree_iff` says when the two comparisons come to the same answer, and `closed_reconciles_iff`
when a closed subledger reconciles in every currency.  A status row and a failure report of the
service have no `created_by_id`, so the database refuses both. -/

namespace FinanceAccounting.PeriodClose

/-- The subledgers a close looks at. -/
inductive SubledgerType where
  | ap
  | ar
  | inventory
  | bank
deriving DecidableEq, Repr

def SubledgerType.value : SubledgerType → String
  | .ap => "AP"
  | .ar => "AR"
  | .inventory => "INVENTORY"
  | .bank => "BANK"

/-- `_SL_CLOSE_ORDER`. -/
def slCloseOrder : List SubledgerType := [.ap, .ar, .inventory, .bank]

inductive SubledgerPeriodStatus where
  | open
  | reconciling
  | closed
deriving DecidableEq, Repr

end FinanceAccounting.PeriodClose

namespace FinanceAccounting.SubledgerPeriod

open Hashing (defaultContext)
open JournalWriter (BindingRecord)
open PeriodClose (SubledgerPeriodStatus slCloseOrder)
open Subledger
open UnitOfWork (Session Result)
open Valuation (Money)

/-! ### Tables -/

/-- A row of `subledger_period_status`. -/
structure PeriodStatusRow where
  status : SubledgerPeriodStatus
  closedAt : Option Datetime := none
  closedBy : Option UUID := none
  reconciliationReportId : Option UUID := none

/-- A row of `reconciliation_failure_reports`. -/
structure FailureReport where
  id : UUID
  subledgerType : String
  periodCode : String
  glControlBalance : ℚ
  slAggregateBalance : ℚ
  deltaAmount : ℚ
  currency : String
  checkedAt : Datetime

/-- The ledger, the subledgers and the state of their periods; a subledger has one row for a
period at most. -/
structure Books where
  journal : Journal
  entries : List SubledgerEntry
  status : SubledgerType → String → Option PeriodStatusRow
  reports : List FailureReport

def Books.setStatus (books : Books) (t : SubledgerType) (periodCode : String)
    (row : PeriodStatusRow) : Books :=
  { books with
    status := Function.update books.status t
      (Function.update (books.status t) periodCode (some row)) }

@[simp] theorem Books.status_setStatus (books : Books) (t : SubledgerType) (periodCode : String)
    (row : PeriodStatusRow) : (books.setStatus t periodCode row).status t periodCode = some row := by
  simp [setStatus]

@[simp] theorem Books.setStatus_setStatus (books : Books) (t : SubledgerType) (periodCode : String)
    (row row' : PeriodStatusRow) :
    (books.setStatus t periodCode row).setStatus t periodCode row' =
      books.setStatus t periodCode row' := by
  simp [setStatus]

/-! ### The service -/

structure Services where
  registry : SubledgerControlRegistry
  /-- The bindings of the role resolver. -/
  bindings : String → Option BindingRecord
  /-- The code of `Currency(code)`, which raises for what is not a currency. -/
  currencyCode : String → Option String
  text : AmountText

inductive PeriodServiceError where
  | integrityError
  | valueError (message : String)
deriving DecidableEq, Repr

/-- The flush of a new row; `created_by_id` is NOT NULL in every tracked table. -/
def insertTracked (createdById : Option UUID) (books : Books) (s : Session Books) :
    Result PeriodServiceError Books Unit :=
  match createdById with
  | none => (.error .integrityError, s.rollback)
  | some _ => (.ok (), s.flush books)

/-- `_get_or_create_status`, which gives the row no `created_by_id`. -/
def getOrCreateStatus (t : SubledgerType) (periodCode : String) (s : Session Books) :
    Result PeriodServiceError Books PeriodStatusRow :=
  match s.current.status t periodCode with
  | some row => (.ok row, s)
  | none =>
      let row : PeriodStatusRow := { status := .open }
      (insertTracked none (s.current.setStatus t periodCode row) s).andThen fun _ s => (.ok row, s)

/-- The two balances of a comparison in a currency. -/
structure Balances where
  subledger : ℚ
  control : ℚ
  currency : String

/-- What becomes of the comparison at the close. -/
inductive Enforcement where
  /-- No contract that is enforced at the close, or no control account. -/
  | skipped
  | raised (message : String)
  | reconciled (balances : Balances) (violations : List ReconciliationViolation)

/-- The comparison in the currency of the contract. -/
def enforce (svc : Services) (books : Books) (t : SubledgerType) (periodEnd : Date) :
    Enforcement :=
  match svc.registry.get t with
  | none => .skipped
  | some contract =>
      if !contract.enforceOnClose then .skipped
      else
        match svc.bindings contract.controlAccountRole with
        | none => .skipped
        | some account =>
            let currency := contract.binding.currency
            match svc.currencyCode currency with
            | none => .raised ("Invalid ISO 4217 currency code: " ++ currency)
            | some code =>
                let control :=
                  contract.controlBalance books.journal account.accountId periodEnd currency
                let subledger := aggregateBalance books.entries t periodEnd currency
                match validatePeriodClose svc.text contract ⟨subledger, code⟩ ⟨control, code⟩ with
                | .error message => .raised message
                | .ok violations => .reconciled ⟨subledger, control, currency⟩ violations

/-- The comparison does not look at the status. -/
theorem enforce_setStatus (svc : Services) (books : Books) (t t' : SubledgerType)
    (periodCode : String) (row : PeriodStatusRow) (periodEnd : Date) :
    enforce svc (books.setStatus t' periodCode row) t periodEnd = enforce svc books t periodEnd :=
  rfl

/-- One call, with the values it draws. -/
structure CloseCall where
  subledgerType : SubledgerType
  periodCode : String
  periodEnd : Date
  actorId : Option UUID := none
  now : Datetime
  reportId : UUID

/-- `close_subledger_period`. -/
def closeSubledgerPeriod (svc : Services) (c : CloseCall) (s : Session Books) :
    Result PeriodServiceError Books PeriodStatusRow :=
  (getOrCreateStatus c.subledgerType c.periodCode s).andThen fun row s =>
    if row.status = .closed then (.ok row, s)
    else
      let set (row : PeriodStatusRow) (books : Books) :=
        books.setStatus c.subledgerType c.periodCode row
      let s := s.flush (set { row with status := .reconciling } s.current)
      let closed := { row with status := .closed, closedAt := some c.now, closedBy := c.actorId }
      match enforce svc s.current c.subledgerType c.periodEnd with
      | .skipped => (.ok closed, s.flush (set closed s.current))
      | .raised message => (.error (.valueError message), s)
      | .reconciled b violations =>
          if violations.any (·.blocking) then
            let report : FailureReport := {
              id := c.reportId
              subledgerType := c.subledgerType.value
              periodCode := c.periodCode
              glControlBalance := b.control
              slAggregateBalance := b.subledger
              deltaAmount := defaultContext.round (b.subledger - b.control)
              currency := b.currency
              checkedAt := c.now }
            let books := { s.current with reports := s.current.reports ++ [report] }
            (insertTracked none books s).andThen fun _ s =>
              let stays :=
                { row with status := .open, reconciliationReportId := some c.reportId }
              (.ok stays, s.flush (set stays s.current))
          else (.ok closed, s.flush (set closed s.current))

/-- The call gets to the comparison and finds a violation that blocks the close. -/
def findsBlocking (svc : Services) (c : CloseCall) (books : Books) : Bool :=
  (books.status c.subledgerType c.periodCode).any (·.status ≠ .closed) &&
    match enforce svc books c.subledgerType c.periodEnd with
    | .reconciled _ violations => violations.any (·.blocking)
    | _ => false

/-! ### The health check -/

/-- The subledgers of the close order among all. -/
def closeType : PeriodClose.SubledgerType → SubledgerType
  | .ap => .ap
  | .ar => .ar
  | .inventory => .inventory
  | .bank => .bank

/-- The subledger in the close order, if it is there. -/
def healthType (t : SubledgerType) : Option PeriodClose.SubledgerType :=
  slCloseOrder.find? (closeType · = t)

/-- The GL accounts the health check compares with. -/
def controlCode : PeriodClose.SubledgerType → String
  | .ap => "2000"
  | .ar => "1200"
  | .inventory => "1400"
  | .bank => "1000"

/-- A difference that the health check reports, in the category `sl_variance`. -/
structure CloseVariance where
  subledgerType : String
  accountCode : String
  amount : ℚ
  currency : String
  severity : String := "blocking"

/-- The reference data of the orchestrator. -/
structure Orchestrator where
  accountIdForCode : String → Option UUID
  currencyCode : String → Option String

section Sides

variable (o : Orchestrator) (books : Books) (t : PeriodClose.SubledgerType) (periodEnd : Date)
variable (currency : String)

/-- The balance of the subledger, and none for a currency that raises. -/
def Orchestrator.slAmount : ℚ :=
  match o.currencyCode currency with
  | some _ => aggregateBalance books.entries (closeType t) periodEnd currency
  | none => 0

/-- Debits less credits of the account, whatever the subledger, and none for a code without one. -/
def Orchestrator.glAmount : ℚ :=
  match o.accountIdForCode (controlCode t) with
  | some accountId => glBalance books.journal accountId periodEnd currency
  | none => 0

/-- The difference the health check sees. -/
def Orchestrator.variance : ℚ :=
  defaultContext.round (o.slAmount books t periodEnd currency - o.glAmount books t periodEnd currency)

end Sides

/-- `health_check`, by the differences of the subledgers. -/
def Orchestrator.healthCheck (o : Orchestrator) (books : Books) (periodEnd : Date)
    (currency : String) : List CloseVariance :=
  slCloseOrder.filterMap fun t =>
    let variance := o.variance books t periodEnd currency
    if variance = 0 then none
    else
      some {
        subledgerType := t.value
        accountCode := controlCode t
        amount := variance
        currency }

/-- The health check reports a reconciliation failure for the subledger. -/
def Orchestrator.Reports (o : Orchestrator) (books : Books) (t : SubledgerType)
    (periodEnd : Date) (currency : String) : Prop :=
  ∃ e ∈ o.healthCheck books periodEnd currency, e.subledgerType = t.value

theorem healthType_eq_some {t : SubledgerType} {t' : PeriodClose.SubledgerType} :
    healthType t = some t' ↔ closeType t' = t := by
  cases t <;> cases t' <;> decide

theorem reports_iff {o : Orchestrator} {books : Books} {t : SubledgerType} {periodEnd : Date}
    {currency : String} : o.Reports books t periodEnd currency ↔
      ∃ t', healthType t = some t' ∧ o.variance books t' periodEnd currency ≠ 0 := by
  simp only [healthType_eq_some]
  have horder : ∀ t' : PeriodClose.SubledgerType, t' ∈ slCloseOrder := by
    intro t'
    cases t' <;> decide
  have hvalue : ∀ t' : PeriodClose.SubledgerType, t'.value = t.value ↔ closeType t' = t := by
    intro t'
    cases t' <;> cases t <;> decide
  simp only [Orchestrator.Reports, Orchestrator.healthCheck, List.mem_filterMap]
  constructor
  · rintro ⟨e, ⟨t', -, he⟩, htype⟩
    split at he
    · cases he
    · rename_i hne
      cases he
      exact ⟨t', (hvalue t').mp htype, hne⟩
  · rintro ⟨t', htype, hne⟩
    let e : CloseVariance :=
      { subledgerType := t'.value
        accountCode := controlCode t'
        amount := o.variance books t' periodEnd currency
        currency }
    exact ⟨e, ⟨t', horder t', if_neg hne⟩, (hvalue t').mpr htype⟩

/-! ### What the close compares -/

section Enforced

variable {svc : Services} {books : Books} {t : SubledgerType} {periodEnd : Date}
variable {contract : SubledgerControlContract} {b : Balances}
variable {violations : List ReconciliationViolation}

/-- The difference is beyond the tolerance; an exact match never is. -/
def Exceeds (contract : SubledgerControlContract) (b : Balances) : Prop :=
  defaultContext.round (b.subledger - b.control) ≠ 0 ∧ ¬contract.Within b.subledger b.control

theorem exceeds_iff {contract : SubledgerControlContract} {b : Balances} :
    Exceeds contract b ↔ b.subledger ≠ b.control ∧ ¬contract.Within b.subledger b.control := by
  rw [Exceeds, Ne, Decimal.Context.round_eq_zero, sub_eq_zero]

/-- The two sides in a currency, with the control account as the contract sees it. -/
def balances (svc : Services) (books : Books) (contract : SubledgerControlContract)
    (periodEnd : Date) (currency : String) : Balances where
  subledger := aggregateBalance books.entries contract.subledgerType periodEnd currency
  control :=
    match svc.bindings contract.controlAccountRole with
    | some account => contract.controlBalance books.journal account.accountId periodEnd currency
    | none => 0
  currency := currency

/-- The comparison is made at the close. -/
structure Enforced (svc : Services) (contract : SubledgerControlContract) : Prop where
  onClose : contract.enforceOnClose = true
  account : (svc.bindings contract.controlAccountRole).isSome
  currency : (svc.currencyCode contract.binding.currency).isSome

theorem validatePeriodClose_eq (text : AmountText) (code : String) (hclose : contract.enforceOnClose)
    (subledger control : ℚ) :
    ∃ violations, validatePeriodClose text contract ⟨subledger, code⟩ ⟨control, code⟩ =
        .ok violations ∧
      (violations.any (·.blocking) = true ↔ Exceeds contract ⟨subledger, control, code⟩) := by
  unfold validatePeriodClose
  rw [if_neg (by simp [hclose])]
  refine ⟨_, by rw [reconcile, if_neg (by simp)]; rfl, ?_⟩
  simp only [Exceeds, SubledgerControlContract.Within, decide_eq_true_eq]
  split
  · rename_i hzero
    simp [hzero]
  · rename_i hne
    split
    · rename_i hwithin
      simp [hwithin]
    · rename_i hwithin
      simp [hne, hwithin]

variable (books periodEnd) in
/-- Where the comparison is made, it is between the balances in the currency of the contract. -/
theorem enforce_of_enforced (hcontract : svc.registry.get t = some contract)
    (h : Enforced svc contract) :
    ∃ violations, enforce svc books t periodEnd =
        .reconciled (balances svc books contract periodEnd contract.binding.currency) violations ∧
      (violations.any (·.blocking) = true ↔
        Exceeds contract (balances svc books contract periodEnd contract.binding.currency)) := by
  obtain ⟨account, haccount⟩ := Option.isSome_iff_exists.mp h.account
  obtain ⟨code, hcode⟩ := Option.isSome_iff_exists.mp h.currency
  have htype : contract.subledgerType = t := svc.registry.get_type t contract hcontract
  obtain ⟨violations, hvalidate, hblocking⟩ :=
    validatePeriodClose_eq svc.text code h.onClose
      (aggregateBalance books.entries t periodEnd contract.binding.currency)
      (contract.controlBalance books.journal account.accountId periodEnd contract.binding.currency)
  refine ⟨violations, ?_, ?_⟩
  · simp only [enforce, hcontract, h.onClose, Bool.not_true, Bool.false_eq_true, if_false, haccount,
      hcode, hvalidate, balances, htype]
  · rw [hblocking]
    simp only [balances, haccount, htype, Exceeds]

variable (books periodEnd) in
/-- Where it is not made, nothing is found. -/
theorem enforce_of_not_enforced (hcontract : svc.registry.get t = some contract)
    (h : ¬Enforced svc contract) :
    enforce svc books t periodEnd = .skipped ∨
      ∃ message, enforce svc books t periodEnd = .raised message := by
  unfold enforce
  rw [hcontract]
  dsimp only
  cases hclose : contract.enforceOnClose with
  | false => exact Or.inl rfl
  | true =>
      cases haccount : svc.bindings contract.controlAccountRole with
      | none => exact Or.inl rfl
      | some account =>
          cases hcode : svc.currencyCode contract.binding.currency with
          | none => exact Or.inr ⟨_, rfl⟩
          | some code => exact absurd ⟨hclose, by simp [haccount], by simp [hcode]⟩ h

end Enforced

/-! ### Both comparisons -/

section Agreement

variable {svc : Services} {c : CloseCall} {books : Books} {contract : SubledgerControlContract}

/-- The close gets to the comparison: the period of the subledger has a row that is not CLOSED,
and the contract is enforced. -/
structure Compares (svc : Services) (c : CloseCall) (books : Books)
    (contract : SubledgerControlContract) : Prop where
  row : (books.status c.subledgerType c.periodCode).any (·.status ≠ .closed) = true
  enforced : Enforced svc contract

/-- The close is blocked by the difference. -/
def Blocked (svc : Services) (c : CloseCall) (books : Books)
    (contract : SubledgerControlContract) : Prop :=
  Compares svc c books contract ∧
    Exceeds contract (balances svc books contract c.periodEnd contract.binding.currency)

theorem findsBlocking_iff (hcontract : svc.registry.get c.subledgerType = some contract) :
    findsBlocking svc c books = true ↔ Blocked svc c books contract := by
  unfold findsBlocking Blocked
  rw [Bool.and_eq_true]
  by_cases henforced : Enforced svc contract
  · obtain ⟨violations, henforce, hblocking⟩ :=
      enforce_of_enforced books c.periodEnd hcontract henforced
    rw [henforce]
    simp only [hblocking]
    exact ⟨fun h => ⟨⟨h.1, henforced⟩, h.2⟩, fun h => ⟨h.1.row, h.2⟩⟩
  · have hnone : ¬(Compares svc c books contract) := fun h => henforced h.enforced
    rcases enforce_of_not_enforced books c.periodEnd hcontract henforced with henforce | ⟨message, henforce⟩
    · simp [henforce, hnone]
    · simp [henforce, hnone]

/-- The balances of the close. -/
def closeBalances (svc : Services) (c : CloseCall) (books : Books)
    (contract : SubledgerControlContract) : Balances :=
  balances svc books contract c.periodEnd contract.binding.currency

/-- The health check looks at the account and the currency of the contract. -/
structure SameSides (o : Orchestrator) (svc : Services) (contract : SubledgerControlContract)
    (t : PeriodClose.SubledgerType) (currency : String) (account : BindingRecord) : Prop where
  bound : svc.bindings contract.controlAccountRole = some account
  coded : o.accountIdForCode (controlCode t) = some account.accountId
  currency_eq : currency = contract.binding.currency
  known : (o.currencyCode currency).isSome

/-- Where the two comparisons come to one answer.  The health check takes debits less credits of an
account of its own for every contract, and any difference for a failure. -/
inductive Alike (o : Orchestrator) (svc : Services) (c : CloseCall) (books : Books)
    (contract : SubledgerControlContract) (currency : String) : Prop
  /-- The health check leaves the subledger out. -/
  | uncoded (hcode : healthType c.subledgerType = none)
      (h : Compares svc c books contract → ¬Exceeds contract (closeBalances svc c books contract))
  /-- The close does not compare. -/
  | skipped {t : PeriodClose.SubledgerType} (hcode : healthType c.subledgerType = some t)
      (hskips : ¬Compares svc c books contract)
      (h : o.slAmount books t c.periodEnd currency = o.glAmount books t c.periodEnd currency)
  /-- A debit-normal contract on one account: no difference, or one beyond the tolerance. -/
  | debitNormal {t : PeriodClose.SubledgerType} {account : BindingRecord} {sl gl : ℚ}
      (hcode : healthType c.subledgerType = some t) (hcompares : Compares svc c books contract)
      (hsame : SameSides o svc contract t currency account)
      (hnormal : contract.binding.isDebitNormal = true)
      (hsl : sl = (closeBalances svc c books contract).subledger)
      (hgl : gl = glBalance books.journal account.accountId c.periodEnd currency)
      (h : sl = gl ∨ ¬contract.Within sl gl)
  /-- A credit-normal contract on one account: the health check finds no difference where the subledger
  is the balance with the wrong sign. -/
  | creditNormal {t : PeriodClose.SubledgerType} {account : BindingRecord} {sl gl : ℚ}
      (hcode : healthType c.subledgerType = some t) (hcompares : Compares svc c books contract)
      (hsame : SameSides o svc contract t currency account)
      (hnormal : contract.binding.isDebitNormal = false)
      (hsl : sl = (closeBalances svc c books contract).subledger)
      (hgl : gl = glBalance books.journal account.accountId c.periodEnd currency)
      (h : sl = gl ∧ (sl = 0 ∨ contract.Within sl (-sl)) ∨
        sl ≠ gl ∧ sl ≠ -gl ∧ ¬contract.Within sl (-gl))
  /-- Another account or another currency: no difference for either check, or one for both. -/
  | elsewhere {t : PeriodClose.SubledgerType} (hcode : healthType c.subledgerType = some t)
      (hcompares : Compares svc c books contract)
      (hother : ∀ account, ¬SameSides o svc contract t currency account)
      (h : o.slAmount books t c.periodEnd currency = o.glAmount books t c.periodEnd currency ∧
          ¬Exceeds contract (closeBalances svc c books contract) ∨
        o.slAmount books t c.periodEnd currency ≠ o.glAmount books t c.periodEnd currency ∧
          Exceeds contract (closeBalances svc c books contract))

variable (books) in
/-- On one account the sides of the health check are those of the contract, the account as it is. -/
theorem SameSides.amounts {o : Orchestrator} {t : PeriodClose.SubledgerType} {currency : String}
    {account : BindingRecord} (hcontract : svc.registry.get c.subledgerType = some contract)
    (hcode : healthType c.subledgerType = some t)
    (h : SameSides o svc contract t currency account) :
    o.slAmount books t c.periodEnd currency = (closeBalances svc c books contract).subledger ∧
      o.glAmount books t c.periodEnd currency =
        glBalance books.journal account.accountId c.periodEnd currency := by
  obtain ⟨-, hcoded, rfl, hknown⟩ := h
  obtain ⟨code, hcode'⟩ := Option.isSome_iff_exists.mp hknown
  have htype : closeType t = contract.subledgerType :=
    (healthType_eq_some.mp hcode).trans (svc.registry.get_type _ contract hcontract).symm
  constructor
  · rw [Orchestrator.slAmount, hcode', htype]
    rfl
  · rw [Orchestrator.glAmount, hcoded]

/-- The control balance of a contract on that account has the sign of the contract. -/
theorem SameSides.control {o : Orchestrator} {t : PeriodClose.SubledgerType} {currency : String}
    {account : BindingRecord} (h : SameSides o svc contract t currency account) :
    (closeBalances svc c books contract).control =
      contract.normalize (glBalance books.journal account.accountId c.periodEnd currency) := by
  obtain ⟨hbound, -, rfl, -⟩ := h
  rw [closeBalances, balances, hbound]
  rfl

/-- On a credit-normal account the balances differ in one comparison exactly if they do in the other. -/
theorem creditNormal_iff {sl gl : ℚ} :
    (sl ≠ gl ↔ sl ≠ -gl ∧ ¬contract.Within sl (-gl)) ↔
      sl = gl ∧ (sl = 0 ∨ contract.Within sl (-sl)) ∨
        sl ≠ gl ∧ sl ≠ -gl ∧ ¬contract.Within sl (-gl) := by
  by_cases heq : sl = gl
  · subst heq
    simp only [ne_eq, not_true_eq_false, false_iff, true_and, false_and, or_false, self_eq_neg,
      not_and_or, not_not]
  · simp only [ne_eq, heq, not_false_eq_true, true_iff, false_and, true_and, false_or]

/-- When they agree on one account, by the normal balance of the contract. -/
theorem SameSides.sides_iff {o : Orchestrator} {t : PeriodClose.SubledgerType} {currency : String}
    {account : BindingRecord} {sl gl : ℚ} (hcontract : svc.registry.get c.subledgerType = some contract)
    (hcode : healthType c.subledgerType = some t)
    (hsl : sl = (closeBalances svc c books contract).subledger)
    (hgl : gl = glBalance books.journal account.accountId c.periodEnd currency)
    (h : SameSides o svc contract t currency account) :
    (o.slAmount books t c.periodEnd currency ≠ o.glAmount books t c.periodEnd currency ↔
        Exceeds contract (closeBalances svc c books contract)) ↔
      if contract.binding.isDebitNormal then sl = gl ∨ ¬contract.Within sl gl
      else sl = gl ∧ (sl = 0 ∨ contract.Within sl (-sl)) ∨
        sl ≠ gl ∧ sl ≠ -gl ∧ ¬contract.Within sl (-gl) := by
  obtain ⟨hsl', hgl'⟩ := h.amounts books hcontract hcode
  rw [hsl', hgl', exceeds_iff, h.control, SubledgerControlContract.normalize, ← hsl, ← hgl]
  split
  · constructor
    · exact fun h => or_iff_not_imp_left.mpr fun hne => (h.mp hne).2
    · exact fun h => ⟨fun hne => ⟨hne, h.resolve_left hne⟩, And.left⟩
  · exact creditNormal_iff

/-- **The health check and the close agree exactly in these cases.** -/
theorem checks_agree_iff (o : Orchestrator) (svc : Services) (c : CloseCall) (books : Books)
    (contract : SubledgerControlContract) (currency : String)
    (hcontract : svc.registry.get c.subledgerType = some contract) :
    (o.Reports books c.subledgerType c.periodEnd currency ↔ findsBlocking svc c books = true) ↔
      Alike o svc c books contract currency := by
  rw [findsBlocking_iff hcontract, reports_iff]
  have hblocked : Blocked svc c books contract ↔ Compares svc c books contract ∧
      Exceeds contract (closeBalances svc c books contract) := Iff.rfl
  have hvariance : ∀ t, o.variance books t c.periodEnd currency ≠ 0 ↔
      o.slAmount books t c.periodEnd currency ≠ o.glAmount books t c.periodEnd currency := by
    intro t
    rw [Orchestrator.variance, Ne, Decimal.Context.round_eq_zero, sub_eq_zero]
  rw [hblocked]
  constructor
  · intro h
    cases hcode : healthType c.subledgerType with
    | none =>
        refine .uncoded hcode fun hcompares hexceeds => ?_
        obtain ⟨t, ht, -⟩ := h.mpr ⟨hcompares, hexceeds⟩
        rw [hcode] at ht
        cases ht
    | some t =>
        simp only [hcode, Option.some.injEq, exists_eq_left', hvariance] at h
        by_cases hcompares : Compares svc c books contract
        · simp only [hcompares, true_and] at h
          by_cases hsame : ∃ account, SameSides o svc contract t currency account
          · obtain ⟨account, hsame⟩ := hsame
            have hsides := (hsame.sides_iff hcontract hcode rfl rfl).mp h
            cases hnormal : contract.binding.isDebitNormal with
            | true =>
                rw [if_pos hnormal] at hsides
                exact .debitNormal hcode hcompares hsame hnormal rfl rfl hsides
            | false =>
                rw [if_neg (by simp [hnormal])] at hsides
                exact .creditNormal hcode hcompares hsame hnormal rfl rfl hsides
          · refine .elsewhere hcode hcompares (not_exists.mp hsame) ?_
            by_cases heq : o.slAmount books t c.periodEnd currency =
                o.glAmount books t c.periodEnd currency
            · exact Or.inl ⟨heq, fun hexceeds => h.mpr hexceeds heq⟩
            · exact Or.inr ⟨heq, h.mp heq⟩
        · simp only [hcompares, false_and, iff_false, not_not] at h
          exact .skipped hcode hcompares h
  · intro h
    cases h with
    | uncoded hcode h =>
        refine iff_of_false ?_ fun hb => h hb.1 hb.2
        rintro ⟨t, ht, -⟩
        rw [hcode] at ht
        cases ht
    | skipped hcode hskips h =>
        simp only [hcode, Option.some.injEq, exists_eq_left', hvariance, hskips, false_and, iff_false,
          not_not]
        exact h
    | debitNormal hcode hcompares hsame hnormal hsl hgl h =>
        simp only [hcode, Option.some.injEq, exists_eq_left', hvariance, hcompares, true_and]
        refine (hsame.sides_iff hcontract hcode hsl hgl).mpr ?_
        rwa [if_pos hnormal]
    | creditNormal hcode hcompares hsame hnormal hsl hgl h =>
        simp only [hcode, Option.some.injEq, exists_eq_left', hvariance, hcompares, true_and]
        refine (hsame.sides_iff hcontract hcode hsl hgl).mpr ?_
        rwa [if_neg (by simp [hnormal])]
    | elsewhere hcode hcompares hother h =>
        simp only [hcode, Option.some.injEq, exists_eq_left', hvariance, hcompares, true_and]
        rcases h with ⟨heq, hnot⟩ | ⟨hne, hexceeds⟩
        · exact iff_of_false (not_not.mpr heq) hnot
        · exact iff_of_true hne hexceeds

end Agreement

/-! ### The state that a close leaves -/

section Closed

variable {svc : Services} {c : CloseCall} {books : Books} {contract : SubledgerControlContract}

/-- The subledger or its control account has entries in the currency. -/
def HasEntries (svc : Services) (books : Books) (contract : SubledgerControlContract) (asOf : Date)
    (currency : String) : Prop :=
  subledgerRows books.entries contract.subledgerType asOf currency ≠ [] ∨
    ∃ account ∈ svc.bindings contract.controlAccountRole,
      ∃ line ∈ books.journal.ledgerLines asOf currency, line.accountId = account.accountId

/-- SL-G3: in every currency the two are at most the tolerance apart. -/
def Reconciled (svc : Services) (books : Books) (contract : SubledgerControlContract)
    (asOf : Date) : Prop :=
  ∀ currency, HasEntries svc books contract asOf currency →
    contract.Within (balances svc books contract asOf currency).subledger
      (balances svc books contract asOf currency).control

/-- A stored failure report with the balances of a currency that does not reconcile, and their
difference as the table documents it. -/
def ReportsDifference (svc : Services) (c : CloseCall) (books : Books)
    (contract : SubledgerControlContract) : Prop :=
  ∃ report ∈ books.reports,
    let b := balances svc books contract c.periodEnd report.currency
    report.subledgerType = c.subledgerType.value ∧ report.periodCode = c.periodCode ∧
      report.glControlBalance = b.control ∧ report.slAggregateBalance = b.subledger ∧
      report.deltaAmount = defaultContext.round (b.control - b.subledger) ∧
      ¬contract.Within b.subledger b.control

/-- The status of the period after a call. -/
def statusAfter (svc : Services) (c : CloseCall) (books : Books) : Option SubledgerPeriodStatus :=
  ((closeSubledgerPeriod svc c (Session.start books)).2.current.status c.subledgerType
    c.periodCode).map (·.status)

/-- SL-G6: a CLOSED period reconciles; where it does not, the period is OPEN and the difference
reported. -/
structure ClosesRightly (svc : Services) (c : CloseCall) (books : Books)
    (contract : SubledgerControlContract) : Prop where
  closed : statusAfter svc c books = some .closed → Reconciled svc books contract c.periodEnd
  open_ : ¬Reconciled svc books contract c.periodEnd → statusAfter svc c books = some .open ∧
    ReportsDifference svc c (closeSubledgerPeriod svc c (Session.start books)).2.current contract

/-- The session after a call: the store is as before, or the row has another status. -/
inductive CloseOutcome (svc : Services) (c : CloseCall) (books : Books)
    (contract : SubledgerControlContract) : Books → Prop where
  /-- No row: a new one is refused. -/
  | refused (h : books.status c.subledgerType c.periodCode = none) :
      CloseOutcome svc c books contract books
  | already {row : PeriodStatusRow}
      (h : books.status c.subledgerType c.periodCode = some row) (hclosed : row.status = .closed) :
      CloseOutcome svc c books contract books
  /-- The report is refused. -/
  | blocked (h : Blocked svc c books contract) : CloseOutcome svc c books contract books
  | moved {row : PeriodStatusRow} (h : row.status ≠ .open)
      (hblocked : ¬Blocked svc c books contract) :
      CloseOutcome svc c books contract (books.setStatus c.subledgerType c.periodCode row)

/-- **What a call does**; it never stores a report. -/
theorem close_cases (hcontract : svc.registry.get c.subledgerType = some contract) :
    CloseOutcome svc c books contract
      (closeSubledgerPeriod svc c (Session.start books)).2.current := by
  cases hrow : books.status c.subledgerType c.periodCode with
  | none =>
      have hafter : (closeSubledgerPeriod svc c (Session.start books)).2.current = books := by
        simp only [closeSubledgerPeriod, getOrCreateStatus, Session.start, hrow, insertTracked,
          Result.error_andThen, Session.current_rollback]
      rw [hafter]
      exact .refused hrow
  | some row =>
      have hget : getOrCreateStatus c.subledgerType c.periodCode (Session.start books) =
          (.ok row, Session.start books) := by
        simp only [getOrCreateStatus, Session.start, hrow]
      unfold closeSubledgerPeriod
      rw [hget, Result.ok_andThen]
      by_cases hclosed : row.status = .closed
      · rw [if_pos hclosed]
        exact .already hrow hclosed
      · rw [if_neg hclosed]
        have hstart : (Session.start books).current = books := rfl
        dsimp only
        rw [hstart, Session.current_flush, enforce_setStatus]
        by_cases henforced : Enforced svc contract
        · have hcompares : Compares svc c books contract := ⟨by simp [hrow, hclosed], henforced⟩
          obtain ⟨violations, henforce, hblocking⟩ :=
            enforce_of_enforced books c.periodEnd hcontract henforced
          rw [henforce]
          dsimp only
          split
          · rename_i hblocks
            exact .blocked ⟨hcompares, hblocking.mp hblocks⟩
          · rename_i hblocks
            rw [Session.current_flush, Books.setStatus_setStatus]
            exact .moved (by simp) fun h => hblocks (hblocking.mpr h.2)
        · have hblocked : ¬Blocked svc c books contract := fun h => henforced h.1.enforced
          rcases enforce_of_not_enforced books c.periodEnd hcontract henforced with
            henforce | ⟨message, henforce⟩
          · rw [henforce]
            dsimp only
            rw [Session.current_flush, Books.setStatus_setStatus]
            exact .moved (by simp) hblocked
          · rw [henforce]
            exact .moved (by simp) hblocked

/-- **A closed subledger reconciles, and where it does not the difference is reported, exactly
where it reconciles anyway**, or where the period is OPEN, the comparison in the currency of the
contract blocks the close, and the report is there already. -/
theorem closed_reconciles_iff (svc : Services) (c : CloseCall) (books : Books)
    (contract : SubledgerControlContract)
    (hcontract : svc.registry.get c.subledgerType = some contract) :
    ClosesRightly svc c books contract ↔
      Reconciled svc books contract c.periodEnd ∨
        ((books.status c.subledgerType c.periodCode).map (·.status) = some .open ∧
          Blocked svc c books contract ∧ ReportsDifference svc c books contract) := by
  have hcases : CloseOutcome svc c books contract
      (closeSubledgerPeriod svc c (Session.start books)).2.current := close_cases hcontract
  constructor
  · intro h
    by_cases hreconciled : Reconciled svc books contract c.periodEnd
    · exact Or.inl hreconciled
    · obtain ⟨hopen, hreport⟩ := h.open_ hreconciled
      unfold statusAfter at hopen
      right
      generalize (closeSubledgerPeriod svc c (Session.start books)).2.current = after at *
      cases hcases with
      | refused hnone => simp [hnone] at hopen
      | already hrow hclosed => simp [hrow, hclosed] at hopen
      | blocked hblocked => exact ⟨hopen, hblocked, hreport⟩
      | moved hne _ =>
          rw [Books.status_setStatus, Option.map_some, Option.some.injEq] at hopen
          exact absurd hopen hne
  · rintro (hreconciled | ⟨hopen, hblocked, hreport⟩)
    · exact ⟨fun _ => hreconciled, fun hnot => absurd hreconciled hnot⟩
    · have hafter : (closeSubledgerPeriod svc c (Session.start books)).2.current = books := by
        generalize (closeSubledgerPeriod svc c (Session.start books)).2.current = after at hcases ⊢
        cases hcases with
        | refused => rfl
        | already => rfl
        | blocked => rfl
        | moved _ hnot => exact absurd hblocked hnot
      have hstatus : statusAfter svc c books = some .open := by
        rw [statusAfter, hafter]
        exact hopen
      refine ⟨fun hclosed => ?_, fun _ => ⟨hstatus, hafter.symm ▸ hreport⟩⟩
      rw [hstatus] at hclosed
      cases hclosed

end Closed

/-! ### A sample subledger -/

/-- The contract of a payables subledger in US dollars. -/
def samplePayables : SubledgerControlContract where
  binding := {
    subledgerType := .ap
    controlAccountRole := "AP_CONTROL"
    controlAccountCode := "2000"
    isDebitNormal := false
    currency := "USD" }
  tolerance := { toleranceType := .none }

def sampleServices : Services where
  registry := SubledgerControlRegistry.empty.register samplePayables
  bindings role := if role = "AP_CONTROL" then some ⟨⟨0xc2⟩, "2000"⟩ else none
  currencyCode := some
  text _ := ""

def sampleEntry (currency : String) : SubledgerEntry where
  subledgerType := "AP"
  entityId := "V-1"
  journalEntryId := ⟨0xe1⟩
  sourceDocumentType := "INVOICE_RECEIVED"
  sourceDocumentId := "1"
  sourceLineId := some "0"
  debitAmount := none
  creditAmount := some 100
  currency := currency
  effectiveDate := sampleTime.date

def sampleLine (accountId : UUID) (side : Journal.LineSide) (lineSeq : ℤ) :
    Journal.JournalLine where
  accountId := accountId
  side := side
  amount := .finite false 10000 (-2)
  currency := "USD"
  dimensions := none
  isRounding := false
  lineMemo := none
  exchangeRateId := none
  lineSeq := lineSeq

/-- A posted sale: debit cash, credit revenue. -/
def sampleSale : Journal.JournalEntry where
  id := ⟨0xe1⟩
  sourceEventId := ⟨0xe2⟩
  sourceEventType := "SALE"
  occurredAt := sampleTime
  effectiveDate := sampleTime.date
  actorId := ⟨0xac⟩
  status := .posted
  idempotencyKey := "sale"
  postingRuleVersion := 1
  coaVersion := some 1
  dimensionSchemaVersion := some 1
  roundingPolicyVersion := some 1
  currencyRegistryVersion := some 1
  seq := some 1
  entryMetadata := none
  description := none
  lines := [sampleLine ⟨0xc1⟩ .debit 0, sampleLine ⟨0xc2⟩ .credit 1]

def sampleJournal : Journal where
  entries := [sampleSale]
  counter := 1
  ids_nodup := by simp
  keys_nodup := by simp
  reversals_nodup := by simp [sampleSale]
  reversal_keys := by simp [sampleSale]

/-- An open period; the control account is credited with 100 US dollars. -/
def sampleBooks (entries : List SubledgerEntry) : Books where
  journal := sampleJournal
  entries := entries
  status _ _ := some { status := .open }
  reports := []

def sampleCall : CloseCall where
  subledgerType := .ap
  periodCode := "2025-01"
  periodEnd := sampleTime.date
  now := sampleTime
  reportId := ⟨0xf9⟩

def sampleOrchestrator : Orchestrator where
  accountIdForCode code := if code = "2000" then some ⟨0xc2⟩ else none
  currencyCode := some

theorem get_samplePayables : sampleServices.registry.get .ap = some samplePayables := rfl

theorem checks_agree_sample : Alike sampleOrchestrator sampleServices sampleCall
    (sampleBooks []) samplePayables "USD" := by
  refine (checks_agree_iff sampleOrchestrator sampleServices sampleCall (sampleBooks [])
    samplePayables "USD" get_samplePayables).mp ?_
  rw [reports_iff]
  have hblocking : findsBlocking sampleServices sampleCall (sampleBooks []) = true := by
    decide +kernel
  have hvariance : sampleOrchestrator.variance (sampleBooks []) .ap sampleCall.periodEnd "USD" ≠ 0 := by
    decide +kernel
  exact iff_of_true ⟨.ap, rfl, hvariance⟩ hblocking

/-- **A payables subledger that reconciles fails the health check**: the check subtracts debits
less credits of the account from credits less debits of the subledger. -/
theorem health_check_ignores_side :
    sampleServices.registry.get sampleCall.subledgerType = some samplePayables ∧
    ¬(sampleOrchestrator.Reports (sampleBooks [sampleEntry "USD"]) sampleCall.subledgerType
        sampleCall.periodEnd "USD" ↔
      findsBlocking sampleServices sampleCall (sampleBooks [sampleEntry "USD"]) = true) := by
  have hblocking :
      findsBlocking sampleServices sampleCall (sampleBooks [sampleEntry "USD"]) = false := by
    decide +kernel
  have hvariance : sampleOrchestrator.variance (sampleBooks [sampleEntry "USD"]) .ap
      sampleCall.periodEnd "USD" ≠ 0 := by
    decide +kernel
  rw [hblocking]
  refine ⟨get_samplePayables, fun h => ?_⟩
  exact Bool.false_ne_true (h.mp (reports_iff.mpr ⟨.ap, rfl, hvariance⟩))

theorem reconciled_sample : Reconciled sampleServices (sampleBooks [sampleEntry "USD"])
    samplePayables sampleTime.date := by
  intro currency hentries
  by_cases hcurrency : currency = "USD"
  · subst hcurrency
    decide +kernel
  · have hne : "USD" ≠ currency := fun h => hcurrency h.symm
    rcases hentries with hrows | ⟨account, -, line, hline, -⟩
    · exact absurd (by simp [subledgerRows, sampleBooks, sampleEntry, hne]) hrows
    · simp [Journal.ledgerLines, sampleBooks, sampleJournal, sampleSale,
        sampleLine, hne] at hline

theorem closed_reconciles_sample : ClosesRightly sampleServices sampleCall
    (sampleBooks [sampleEntry "USD"]) samplePayables :=
  (closed_reconciles_iff sampleServices sampleCall (sampleBooks [sampleEntry "USD"])
    samplePayables get_samplePayables).mpr (Or.inl reconciled_sample)

/-- **A period is closed although the subledger has an entry in euros that the ledger lacks**:
only the currency of the contract is compared. -/
theorem closed_with_euro_difference :
    sampleServices.registry.get sampleCall.subledgerType = some samplePayables ∧
      samplePayables.enforceOnClose = true ∧
      ¬ClosesRightly sampleServices sampleCall
        (sampleBooks [sampleEntry "USD", sampleEntry "EUR"]) samplePayables := by
  refine ⟨get_samplePayables, rfl, fun h => ?_⟩
  have hclosed : statusAfter sampleServices sampleCall
      (sampleBooks [sampleEntry "USD", sampleEntry "EUR"]) = some .closed := by
    decide +kernel
  have hentries : HasEntries sampleServices (sampleBooks [sampleEntry "USD", sampleEntry "EUR"])
      samplePayables sampleTime.date "EUR" := by
    left
    simp [subledgerRows, sampleBooks, sampleEntry, samplePayables,
      SubledgerControlContract.subledgerType, SubledgerType.value]
  have hwithin := h.closed hclosed "EUR" hentries
  revert hwithin
  decide +kernel

end FinanceAccounting.SubledgerPeriod
