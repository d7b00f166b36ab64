import FinanceAccounting.Kernel.JournalWriter
import FinanceAccounting.Kernel.LedgerBalance
import FinanceAccounting.Kernel.Valuation

/-! # Subledger control

The control contracts of the subledgers: a contract names the GL control account of a subledger
by a role and says how far the two balances may be apart.  `SubledgerReconciler` compares the two
balances when a period is closed.

Balances are rational numbers.  The database sums exactly; every operation on a sum rounds to
the decimal context. -/

namespace FinanceAccounting.Subledger

open Hashing (defaultContext)
open Journal (LineSide)
open JournalWriter (BindingRecord WriteError)
open Valuation (Money)

/-! ### Contracts -/

inductive SubledgerType where
  | ap
  | ar
  | inventory
  | fixedAssets
  | bank
  | payroll
  | wip
  | intercompany
deriving DecidableEq, Repr

namespace SubledgerType

def all : List SubledgerType :=
  [ap, ar, inventory, fixedAssets, bank, payroll, wip, intercompany]

def value : SubledgerType → String
  | ap => "AP"
  | ar => "AR"
  | inventory => "INVENTORY"
  | fixedAssets => "FIXED_ASSETS"
  | bank => "BANK"
  | payroll => "PAYROLL"
  | wip => "WIP"
  | intercompany => "INTERCOMPANY"

/-- `SubledgerType(value)`. -/
def ofValue (value : String) : Option SubledgerType := all.find? (·.value = value)

/-- The types whose balance is credits less debits. -/
def creditNormal (t : SubledgerType) : Bool := t = ap || t = payroll

end SubledgerType

inductive ToleranceType where
  | absolute
  | percentage
  | none
deriving DecidableEq, Repr

structure ReconciliationTolerance where
  toleranceType : ToleranceType
  absoluteAmount : ℚ := 0
  percentage : ℚ := 0
  maxAbsoluteCap : Option ℚ := none

namespace ReconciliationTolerance

/-- The variance that is allowed at a balance. -/
def threshold (t : ReconciliationTolerance) (balance : ℚ) : ℚ :=
  match t.toleranceType with
  | .none => 0
  | .absolute => t.absoluteAmount
  | .percentage =>
      let share := defaultContext.round (defaultContext.round (|balance| * t.percentage) / 100)
      match t.maxAbsoluteCap with
      | some cap => min share cap
      | none => share

/-- `is_within_tolerance`. -/
def isWithinTolerance (t : ReconciliationTolerance) (variance balance : ℚ) : Bool :=
  |variance| ≤ t.threshold balance

end ReconciliationTolerance

structure ControlAccountBinding where
  subledgerType : SubledgerType
  controlAccountRole : String
  controlAccountCode : String
  isDebitNormal : Bool
  currency : String

structure SubledgerControlContract where
  binding : ControlAccountBinding
  tolerance : ReconciliationTolerance
  enforceOnPost : Bool := true
  enforceOnClose : Bool := true

namespace SubledgerControlContract

def subledgerType (k : SubledgerControlContract) : SubledgerType := k.binding.subledgerType

def controlAccountRole (k : SubledgerControlContract) : String := k.binding.controlAccountRole

end SubledgerControlContract

/-- The registered contracts, each under its own type. -/
structure SubledgerControlRegistry where
  get : SubledgerType → Option SubledgerControlContract
  get_type : ∀ t k, get t = some k → k.subledgerType = t

namespace SubledgerControlRegistry

def empty : SubledgerControlRegistry where
  get _ := none
  get_type _ _ h := by cases h

def register (registry : SubledgerControlRegistry) (k : SubledgerControlContract) :
    SubledgerControlRegistry where
  get := Function.update registry.get k.subledgerType (some k)
  get_type t k' h := by
    by_cases ht : t = k.subledgerType
    · subst ht
      rw [Function.update_self] at h
      cases h
      rfl
    · rw [Function.update_of_ne ht] at h
      exact registry.get_type t k' h

end SubledgerControlRegistry

/-! ### Balances -/

/-- A row of `subledger_entries`. -/
structure SubledgerEntry where
  subledgerType : String
  entityId : String
  journalEntryId : UUID
  sourceDocumentType : String
  sourceDocumentId : String
  sourceLineId : Option String
  debitAmount : Option ℚ
  creditAmount : Option ℚ
  currency : String
  effectiveDate : Date

/-- A row as debits less credits see it. -/
def SubledgerEntry.debit (e : SubledgerEntry) : ℚ := e.debitAmount.getD 0 - e.creditAmount.getD 0

/-- The rows of a subledger in a currency up to a day. -/
def subledgerRows (rows : List SubledgerEntry) (t : SubledgerType) (asOf : Date)
    (currency : String) : List SubledgerEntry :=
  rows.filter fun e => e.subledgerType = t.value && e.currency = currency && e.effectiveDate ≤ asOf

/-- Debits less credits of a subledger. -/
def netDebit (rows : List SubledgerEntry) (t : SubledgerType) (asOf : Date)
    (currency : String) : ℚ :=
  ((subledgerRows rows t asOf currency).map (·.debit)).sum

/-- `SubledgerSelector.get_aggregate_balance`. -/
def aggregateBalance (rows : List SubledgerEntry) (t : SubledgerType) (asOf : Date)
    (currency : String) : ℚ :=
  let net := netDebit rows t asOf currency
  defaultContext.round (if t.creditNormal then -net else net)

/-- `LedgerSelector.account_balance(…)[0].balance`, or zero without posted lines. -/
def glBalance (j : Journal) (accountId : UUID) (asOf : Date) (currency : String) : ℚ :=
  defaultContext.round (j.accountBalance accountId asOf currency)

/-- The balance of the control account in the sign convention of the contract. -/
def SubledgerControlContract.normalize (k : SubledgerControlContract) (balance : ℚ) : ℚ :=
  if k.binding.isDebitNormal then balance else -balance

def SubledgerControlContract.controlBalance (k : SubledgerControlContract) (j : Journal)
    (accountId : UUID) (asOf : Date) (currency : String) : ℚ :=
  k.normalize (glBalance j accountId asOf currency)

/-! ### The reconciler -/

structure ReconciliationResult where
  subledgerBalance : Money
  controlAccountBalance : Money
  variance : Money
  isReconciled : Bool
  isWithinTolerance : Bool

structure ReconciliationViolation where
  subledgerType : SubledgerType
  result : ReconciliationResult
  violationType : String
  message : String
  severity : String := "error"
  blocking : Bool := true

/-- The text of an amount; its exponent is up to the database. -/
abbrev AmountText := ℚ → String

def moneyText (text : AmountText) (m : Money) : String := text m.amount ++ " " ++ m.currency

/-- `SubledgerReconciler.reconcile`, or the text of its `ValueError`. -/
def reconcile (k : SubledgerControlContract) (subledgerBalance controlAccountBalance : Money) :
    Except String ReconciliationResult :=
  if subledgerBalance.currency ≠ controlAccountBalance.currency then
    .error ("Currency mismatch: subledger=" ++ subledgerBalance.currency ++ ", control=" ++
      controlAccountBalance.currency)
  else
    let variance : Money :=
      ⟨defaultContext.round (subledgerBalance.amount - controlAccountBalance.amount),
        subledgerBalance.currency⟩
    .ok {
      subledgerBalance
      controlAccountBalance
      variance
      isReconciled := variance.amount = 0
      isWithinTolerance :=
        k.tolerance.isWithinTolerance variance.amount controlAccountBalance.amount }

def validatePeriodClose (text : AmountText) (k : SubledgerControlContract)
    (subledgerBalance controlAccountBalance : Money) :
    Except String (List ReconciliationViolation) :=
  if !k.enforceOnClose then .ok []
  else
    (reconcile k subledgerBalance controlAccountBalance).map fun result =>
      if result.isReconciled then []
      else if result.isWithinTolerance then
        [{ subledgerType := k.subledgerType
           result
           violationType := "tolerance_warning"
           message := "Warning: " ++ k.subledgerType.value ++ " has variance of " ++
             moneyText text result.variance ++ " (within tolerance)"
           severity := "warning"
           blocking := false }]
      else
        [{ subledgerType := k.subledgerType
           result
           violationType := "period_close_blocked"
           message := "Cannot close period: " ++ k.subledgerType.value ++
             " is not reconciled with control account. Variance: " ++
             moneyText text result.variance }]

/-- The two balances are at most the tolerance apart. -/
def SubledgerControlContract.Within (k : SubledgerControlContract) (subledger control : ℚ) : Prop :=
  k.tolerance.isWithinTolerance (defaultContext.round (subledger - control)) control = true

instance (k : SubledgerControlContract) (subledger control : ℚ) :
    Decidable (k.Within subledger control) := by
  unfold SubledgerControlContract.Within
  infer_instance

end FinanceAccounting.Subledger
