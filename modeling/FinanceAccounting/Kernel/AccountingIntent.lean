import FinanceAccounting.Kernel.Hashing
import FinanceAccounting.Kernel.Journal

/-! # Accounting intents

What the economic layer asks the journal to post: for each ledger its lines, on account roles
instead of accounts, with the versions of the reference data.  Amounts are never negative and
no intent or ledger is empty; both are part of the types.  Totals are sums of the `decimal`
module at its 28 digits, so a ledger is balanced when the rounded sums agree. -/

namespace FinanceAccounting

open Journal (LineSide Dimensions)
open Hashing (defaultContext)

structure IntentLine where
  accountRole : String
  side : LineSide
  amount : Decimal
  currency : String
  dimensions : Option Dimensions := none
  memo : Option String := none
  isRounding : Bool := false
  amount_nonneg : amount.NonNegative

structure LedgerIntent where
  ledgerId : String
  lines : List IntentLine
  lines_ne_nil : lines ≠ []

namespace LedgerIntent

/-- All currencies, in the order of the lines. -/
def currencies (l : LedgerIntent) : List String := (l.lines.map (·.currency)).dedup

/-- Sum of the amounts of one side in a currency. -/
def total (l : LedgerIntent) (side : LineSide) (currency : String) :
    Except Decimal.Signal Decimal :=
  Decimal.sum defaultContext
    ((l.lines.filter fun line => line.side = side ∧ line.currency = currency).map (·.amount))

def totalDebits (l : LedgerIntent) (currency : String) : Except Decimal.Signal Decimal :=
  l.total .debit currency

def totalCredits (l : LedgerIntent) (currency : String) : Except Decimal.Signal Decimal :=
  l.total .credit currency

end LedgerIntent

structure AccountingIntentSnapshot where
  coaVersion : ℤ
  dimensionSchemaVersion : ℤ
  roundingPolicyVersion : ℤ := 1
  currencyRegistryVersion : ℤ := 1
  fullSnapshotId : Option UUID := none

structure AccountingIntent where
  econEventId : UUID
  sourceEventId : UUID
  profileId : String
  profileVersion : ℤ
  effectiveDate : Date
  ledgerIntents : List LedgerIntent
  ledgerIntents_ne_nil : ledgerIntents ≠ []
  snapshot : AccountingIntentSnapshot
  description : Option String := none
  createdAt : Option Datetime := none

namespace AccountingIntent

/-- `f"{self.econ_event_id}:{ledger_id}:{self.profile_version}"`. -/
def idempotencyKey (i : AccountingIntent) (ledgerId : String) : String :=
  i.econEventId.str ++ ":" ++ ledgerId ++ ":" ++ toString i.profileVersion

end AccountingIntent

structure ResolvedIntentLine where
  accountId : UUID
  accountCode : String
  accountRole : String
  side : LineSide
  amount : Decimal
  currency : String
  dimensions : Option Dimensions
  memo : Option String
  isRounding : Bool
  lineSeq : ℕ

end FinanceAccounting
