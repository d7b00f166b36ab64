import Mathlib.Data.List.Sort
import FinanceAccounting.Library.Rounding
import FinanceAccounting.Kernel.Hashing
import FinanceAccounting.Kernel.LedgerBalance

/-! # Financial statements

The trial balance and the balance sheet of `ReportingService`.  The ledger selector sums the
posted lines of every account; the service loads the accounts that it reports on, and pure
functions turn the sums into natural balances, drop those that are zero and put the rest into
sections.

Amounts are rational numbers; sums and differences are rounded as the decimal context does. -/

namespace FinanceAccounting.Reporting

open Hashing (defaultContext)

/-! ### Accounts -/

inductive NormalBalance where
  | debit
  | credit
deriving DecidableEq, Repr

/-- A row of `accounts`, with what the reports show of it. -/
structure Account extends FinanceAccounting.Account where
  name : String
  normalBalance : NormalBalance
  parentId : Option UUID := none

/-- The rows of `accounts`. -/
abbrev Accounts := UUID → Option Account

structure AccountInfo where
  accountId : UUID
  code : String
  name : String
  accountType : AccountType
  normalBalance : NormalBalance
  tags : List String := []
  parentId : Option UUID := none

def accountTypeValue : AccountType → String
  | .asset => "asset"
  | .liability => "liability"
  | .equity => "equity"
  | .revenue => "revenue"
  | .expense => "expense"

/-! ### Configuration -/

structure AccountClassification where
  currentAssetPrefixes : List String := ["10", "11", "12", "13", "14"]
  nonCurrentAssetPrefixes : List String := ["15", "16", "17", "18", "19"]
  currentLiabilityPrefixes : List String := ["20", "21", "22", "23", "24"]
  nonCurrentLiabilityPrefixes : List String := ["25", "26", "27", "28", "29"]
  cogsPrefixes : List String := ["50"]
  otherIncomePrefixes : List String := ["42", "43", "44"]
  otherExpensePrefixes : List String := ["60", "61", "62"]
  cashAccountPrefixes : List String := ["1000", "1020", "1030", "1040"]

def matchesPrefix (code : String) (prefixes : List String) : Bool :=
  prefixes.any fun p => p.toList.isPrefixOf code.toList

structure ReportingConfig extends FinanceAccounting.ReportingConfig where
  classification : AccountClassification := {}
  entityName : String := "Company"
  currency_length : defaultCurrency.length = 3 := by decide

/-! ### The ledger selector -/

structure TrialBalanceRow where
  accountId : UUID
  accountCode : String
  accountName : String
  currency : String
  debitTotal : ℚ
  creditTotal : ℚ
deriving DecidableEq

/-- The row of an account. -/
def trialBalanceRow (j : Journal) (asOf : Date) (currency : String) (accountId : UUID)
    (account : Account) : TrialBalanceRow where
  accountId := accountId
  accountCode := account.code
  accountName := account.name
  currency := currency
  debitTotal := j.sideTotal (· = accountId) .debit asOf currency
  creditTotal := j.sideTotal (· = accountId) .credit asOf currency

/-- `LedgerSelector.trial_balance`, with a day and a currency.  `collate` is the order that the
database has on codes. -/
def selectTrialBalance (collate : String → String → Bool) (accounts : Accounts) (j : Journal)
    (asOf : Date) (currency : String) : List TrialBalanceRow :=
  (((j.ledgerLines asOf currency).map (·.accountId)).dedup.filterMap fun accountId =>
    (accounts accountId).map (trialBalanceRow j asOf currency accountId)).insertionSort
      fun a b => collate a.accountCode b.accountCode = true

/-! ### Natural balances -/

def computeNaturalBalance (debitTotal creditTotal : ℚ) : NormalBalance → ℚ
  | .debit => defaultContext.round (debitTotal - creditTotal)
  | .credit => defaultContext.round (creditTotal - debitTotal)

structure TrialBalanceLineItem where
  accountId : UUID
  accountCode : String
  accountName : String
  accountType : String
  debitBalance : ℚ
  creditBalance : ℚ
  netBalance : ℚ
deriving DecidableEq

section Functions

variable (accounts : UUID → Option AccountInfo) (config : ReportingConfig)

/-- The item of a row. -/
def enrichRow (row : TrialBalanceRow) : Option TrialBalanceLineItem :=
  match accounts row.accountId with
  | none => none
  | some acct =>
      let natural := computeNaturalBalance row.debitTotal row.creditTotal acct.normalBalance
      if !config.includeZeroBalances && natural = 0 then none
      else some {
        accountId := row.accountId
        accountCode := row.accountCode
        accountName := row.accountName
        accountType := accountTypeValue acct.accountType
        debitBalance := row.debitTotal
        creditBalance := row.creditTotal
        netBalance := natural }

/-- `sorted(items, key=lambda x: x.account_code)`. -/
def sortByCode (items : List TrialBalanceLineItem) : List TrialBalanceLineItem :=
  items.insertionSort fun a b => a.accountCode ≤ b.accountCode

def enrichTrialBalance (rows : List TrialBalanceRow) : List TrialBalanceLineItem :=
  sortByCode (rows.filterMap (enrichRow accounts config))

/-- The natural balances of the accounts of a type. -/
def naturalOfType (accountType : AccountType) (row : TrialBalanceRow) : Option ℚ :=
  match accounts row.accountId with
  | none => none
  | some acct =>
      if acct.accountType = accountType then
        some (computeNaturalBalance row.debitTotal row.creditTotal acct.normalBalance)
      else none

def computeNetIncomeFromTb (rows : List TrialBalanceRow) : ℚ :=
  let revenue := defaultContext.total (rows.filterMap (naturalOfType accounts .revenue))
  let expense := defaultContext.total (rows.filterMap (naturalOfType accounts .expense))
  defaultContext.round (revenue - expense)

def sumNaturalBalances (items : List TrialBalanceLineItem) : ℚ :=
  defaultContext.total (items.map (·.netBalance))

/-! ### Reports -/

inductive ReportType where
  | trialBalance
  | balanceSheet
  | incomeStatement
  | cashFlow
  | equityChanges
  | segment
deriving DecidableEq

structure ReportMetadata where
  reportType : ReportType
  entityName : String
  currency : String
  asOfDate : Date
  generatedAt : Datetime
  periodStart : Option Date := none
  periodEnd : Option Date := none
  comparativeDate : Option Date := none
  dimensionsFilter : Option (List (String × String)) := none

structure TrialBalanceReport where
  metadata : ReportMetadata
  lines : List TrialBalanceLineItem
  totalDebits : ℚ
  totalCredits : ℚ
  isBalanced : Bool
  comparativeLines : Option (List TrialBalanceLineItem) := none
  comparativeTotalDebits : Option ℚ := none
  comparativeTotalCredits : Option ℚ := none

def buildTrialBalance (rows : List TrialBalanceRow) (metadata : ReportMetadata)
    (comparativeRows : Option (List TrialBalanceRow)) : TrialBalanceReport :=
  let items := enrichTrialBalance accounts config rows
  let totalDebits := defaultContext.total (items.map (·.debitBalance))
  let totalCredits := defaultContext.total (items.map (·.creditBalance))
  let comparativeItems := comparativeRows.map (enrichTrialBalance accounts config)
  { metadata := metadata
    lines := items
    totalDebits := totalDebits
    totalCredits := totalCredits
    isBalanced := totalDebits = totalCredits
    comparativeLines := comparativeItems
    comparativeTotalDebits :=
      comparativeItems.map fun items => defaultContext.total (items.map (·.debitBalance))
    comparativeTotalCredits :=
      comparativeItems.map fun items => defaultContext.total (items.map (·.creditBalance)) }

/-! ### The balance sheet -/

inductive SectionKey where
  | currentAssets
  | nonCurrentAssets
  | currentLiabilities
  | nonCurrentLiabilities
  | equity
deriving DecidableEq

/-- The section of an item; revenue and expense accounts have none. -/
def sectionOf (item : TrialBalanceLineItem) : Option SectionKey :=
  match accounts item.accountId with
  | none => none
  | some acct =>
      match acct.accountType with
      | .asset =>
          if matchesPrefix item.accountCode config.classification.nonCurrentAssetPrefixes then
            some .nonCurrentAssets
          else some .currentAssets
      | .liability =>
          if matchesPrefix item.accountCode config.classification.nonCurrentLiabilityPrefixes then
            some .nonCurrentLiabilities
          else some .currentLiabilities
      | .equity => some .equity
      | .revenue => none
      | .expense => none

def classifyForBalanceSheet (items : List TrialBalanceLineItem) (k : SectionKey) :
    List TrialBalanceLineItem :=
  items.filter fun item => sectionOf accounts config item = some k

structure BalanceSheetSection where
  label : String
  lines : List TrialBalanceLineItem
  total : ℚ

def makeSection (label : String) (items : List TrialBalanceLineItem) : BalanceSheetSection where
  label := label
  lines := sortByCode items
  total := sumNaturalBalances (sortByCode items)

inductive BalanceSheetFormat where
  | classified
  | unclassified
deriving DecidableEq

structure BalanceSheet where
  metadata : ReportMetadata
  format : BalanceSheetFormat
  currentAssets : BalanceSheetSection
  nonCurrentAssets : BalanceSheetSection
  totalAssets : ℚ
  currentLiabilities : BalanceSheetSection
  nonCurrentLiabilities : BalanceSheetSection
  totalLiabilities : ℚ
  equity : BalanceSheetSection
  totalEquity : ℚ
  totalLiabilitiesAndEquity : ℚ
  isBalanced : Bool

structure BalanceSheetReport extends BalanceSheet where
  comparative : Option BalanceSheet := none

/-- The balance sheet of one day. -/
def balanceSheetOf (rows : List TrialBalanceRow) (metadata : ReportMetadata) : BalanceSheet :=
  let items := enrichTrialBalance accounts config rows
  let netIncome := computeNetIncomeFromTb accounts rows
  let classified := classifyForBalanceSheet accounts config items
  let currentAssets := makeSection "Current Assets" (classified .currentAssets)
  let nonCurrentAssets := makeSection "Non-Current Assets" (classified .nonCurrentAssets)
  let totalAssets := defaultContext.round (currentAssets.total + nonCurrentAssets.total)
  let currentLiabilities := makeSection "Current Liabilities" (classified .currentLiabilities)
  let nonCurrentLiabilities :=
    makeSection "Non-Current Liabilities" (classified .nonCurrentLiabilities)
  let totalLiabilities :=
    defaultContext.round (currentLiabilities.total + nonCurrentLiabilities.total)
  let equityTotal :=
    defaultContext.round (sumNaturalBalances (classified .equity) + netIncome)
  let totalLAndE := defaultContext.round (totalLiabilities + equityTotal)
  { metadata := metadata
    format := .classified
    currentAssets := currentAssets
    nonCurrentAssets := nonCurrentAssets
    totalAssets := totalAssets
    currentLiabilities := currentLiabilities
    nonCurrentLiabilities := nonCurrentLiabilities
    totalLiabilities := totalLiabilities
    equity := {
      label := "Equity"
      lines := sortByCode (classified .equity)
      total := equityTotal }
    totalEquity := equityTotal
    totalLiabilitiesAndEquity := totalLAndE
    isBalanced := totalAssets = totalLAndE }

def buildBalanceSheet (rows : List TrialBalanceRow) (metadata : ReportMetadata)
    (comparativeRows : Option (List TrialBalanceRow)) : BalanceSheetReport where
  toBalanceSheet := balanceSheetOf accounts config rows metadata
  comparative := comparativeRows.map fun rows => balanceSheetOf accounts config rows metadata

end Functions

/-! ### The service -/

/-- What the service is built with, and the order that the database has on codes. -/
structure ReportingService where
  config : ReportingConfig
  collate : String → String → Bool

namespace ReportingService

variable (service : ReportingService) (accounts : Accounts) (j : Journal) (now : Datetime)

/-- `_load_accounts`. -/
def loadAccounts (accountId : UUID) : Option AccountInfo :=
  match accounts accountId with
  | none => none
  | some acct =>
      if !service.config.includeInactive && !acct.isActive then none
      else some {
        accountId := accountId
        code := acct.code
        name := acct.name
        accountType := acct.accountType
        normalBalance := acct.normalBalance
        tags := acct.tags.getD []
        parentId := acct.parentId }

/-- `currency or self._config.default_currency`. -/
def currencyOf (currency : Option String) : String :=
  match currency with
  | none => service.config.defaultCurrency
  | some "" => service.config.defaultCurrency
  | some currency => currency

def buildMetadata (reportType : ReportType) (asOfDate : Date) (currency : String)
    (comparativeDate : Option Date) : ReportMetadata where
  reportType := reportType
  entityName := service.config.entityName
  currency := currency
  asOfDate := asOfDate
  generatedAt := now
  comparativeDate := comparativeDate

def trialBalance (asOfDate : Date) (currency : Option String) (comparativeDate : Option Date) :
    TrialBalanceReport :=
  let curr := service.currencyOf currency
  buildTrialBalance (service.loadAccounts accounts) service.config
    (selectTrialBalance service.collate accounts j asOfDate curr)
    (service.buildMetadata now .trialBalance asOfDate curr comparativeDate)
    (comparativeDate.map fun day => selectTrialBalance service.collate accounts j day curr)

def balanceSheet (asOfDate : Date) (currency : Option String) (comparativeDate : Option Date) :
    BalanceSheetReport :=
  let curr := service.currencyOf currency
  buildBalanceSheet (service.loadAccounts accounts) service.config
    (selectTrialBalance service.collate accounts j asOfDate curr)
    (service.buildMetadata now .balanceSheet asOfDate curr comparativeDate)
    (comparativeDate.map fun day => selectTrialBalance service.collate accounts j day curr)

end ReportingService

end FinanceAccounting.Reporting
