import Mathlib.Algebra.Order.Ring.Rat
import FinanceAccounting.Kernel.Journal

/-! # Balances of the ledger

The ledger is a view of the POSTED journal lines: `LedgerSelector` has no stored balances, it
sums the lines of an account in a currency up to a day.  Here are these sums, over any set of
accounts (`netDebit`), and the accounts of the chart. -/

namespace FinanceAccounting

open Journal (JournalEntry JournalLine LineSide)

/-! ### Lines and their sums -/

namespace Journal

/-- A line as debits less credits see it. -/
def JournalLine.debit (line : JournalLine) : ℚ :=
  match line.side with
  | .debit => line.amount.toRat
  | .credit => -line.amount.toRat

/-- `_base_query`, in one currency. -/
def ledgerLines (j : Journal) (asOf : Date) (currency : String) : List JournalLine :=
  ((j.entries.filter fun e => e.status = .posted && e.effectiveDate ≤ asOf).flatMap
    (·.lines)).filter (·.currency = currency)

/-- Debits less credits over a set of accounts. -/
def netDebit (j : Journal) (p : UUID → Bool) (asOf : Date) (currency : String) : ℚ :=
  (((j.ledgerLines asOf currency).filter (p ·.accountId)).map (·.debit)).sum

/-- `account_balance`. -/
def accountBalance (j : Journal) (accountId : UUID) (asOf : Date) (currency : String) : ℚ :=
  j.netDebit (· = accountId) asOf currency

/-- The total of one side. -/
def sideTotal (j : Journal) (p : UUID → Bool) (side : LineSide) (asOf : Date)
    (currency : String) : ℚ :=
  (((j.ledgerLines asOf currency).filter fun line => p line.accountId && line.side = side).map
    (·.amount.toRat)).sum

end Journal

/-! ### The chart of accounts -/

inductive AccountType where
  | asset
  | liability
  | equity
  | revenue
  | expense
deriving DecidableEq, Repr

structure Account where
  code : String
  accountType : AccountType
  isActive : Bool := true
  tags : Option (List String) := none

/-! ### The trial balance -/

structure ReportingConfig where
  defaultCurrency : String := "USD"
  includeInactive : Bool := false
  includeZeroBalances : Bool := false

end FinanceAccounting
