import FinanceAccounting.Reporting.AccountBalances

/-! # Changes in equity

`build_equity_changes` counts the net income into the equity at the end of a period and not into that
at its beginning.  So a report ends where the balance sheet does, and the next report begins there if
and only if the income accounts have been closed (`equity_rolls_forward_iff`). -/

namespace FinanceAccounting.Reporting

open Hashing (defaultContext)

/-! ### The report -/

structure EquityMovement where
  description : String
  amount : ℚ
deriving DecidableEq

structure EquityChangesReport where
  metadata : ReportMetadata
  beginningEquity : ℚ
  movements : List EquityMovement
  endingEquity : ℚ
  netIncome : ℚ
  dividendsDeclared : ℚ
  otherChanges : ℚ
  reconciles : Bool

/-- `"dividend" in name.lower()`; no letter but those of the alphabet turns into one of the word. -/
def namesDividend (name : String) : Bool :=
  name.toLower.toList.tails.any ("dividend".toList.isPrefixOf ·)

variable {service : ReportingService} {accounts : Accounts}

def buildEquityChanges (loaded : Loaded service accounts)
    (currentRows priorRows : List TrialBalanceRow) (metadata : ReportMetadata) :
    EquityChangesReport :=
  let get := service.loadAccounts accounts
  let currentBal := balanceByAccount get currentRows
  let priorBal := balanceByAccount get priorRows
  let beginningEquity := sumBalancesFor get priorBal (·.accountType = .equity)
  let netIncome := computeNetIncomeFromTb get currentRows
  let endingEquityAccounts := sumBalancesFor get currentBal (·.accountType = .equity)
  let endingEquity := defaultContext.round (endingEquityAccounts + netIncome)
  let dividends := defaultContext.total ((loaded.items.filter fun acct =>
    acct.accountType = .equity && namesDividend acct.name).map fun acct =>
      change currentBal priorBal acct.accountId)
  let otherChanges := defaultContext.round (defaultContext.round
    (defaultContext.round (endingEquity - beginningEquity) - netIncome) + dividends)
  let movements := [⟨"Net Income", netIncome⟩] ++
    (if dividends ≠ 0 then [⟨"Dividends Declared", -dividends⟩] else []) ++
    (if otherChanges ≠ 0 then [⟨"Other Changes", otherChanges⟩] else [])
  let totalMovements := defaultContext.total (movements.map EquityMovement.amount)
  { metadata := metadata
    beginningEquity := beginningEquity
    movements := movements
    endingEquity := endingEquity
    netIncome := netIncome
    dividendsDeclared := dividends
    otherChanges := otherChanges
    reconciles := defaultContext.round (beginningEquity + totalMovements) = endingEquity }

/-! ### Consecutive reports -/

variable {j : Journal} {asOf : Date} {currency : String}

/-- The equity accounts of a trial balance. -/
theorem sum_equity (hstored : Stored j) (hfits : turnover j asOf currency * 10 ^ 9 < 10 ^ 28) :
    sumBalancesFor (service.loadAccounts accounts) (balanceByAccount (service.loadAccounts accounts)
        (service.rows accounts j asOf currency)) (·.accountType = .equity) =
      ((service.rows accounts j asOf currency).map (service.ofType accounts .equity)).sum := by
  rw [sumBalancesFor_eq, ← total_ofType hstored hfits]
  congr 1
  refine List.filterMap_congr fun row _ => ?_
  unfold naturalOfType
  cases service.loadAccounts accounts row.accountId with
  | none => rfl
  | some acct => by_cases htype : acct.accountType = .equity <;> simp [Option.filter_some, htype]

/-- **When equity rolls forward.**  Of three days with entries in any order, the equity in which the
report of the first period ends is that of the balance sheet; it is that in which the report of the
second period begins if and only if the revenue and expense accounts of the reports add up to
nothing. -/
theorem equity_rolls_forward_iff (loaded : Loaded service accounts) (d₀ d₁ d₂ : Date)
    (metadata : ReportMetadata) (hstored : Stored j)
    (hfits : turnover j d₁ currency * 10 ^ 9 < 10 ^ 28) :
    (buildEquityChanges loaded (service.rows accounts j d₁ currency)
        (service.rows accounts j d₀ currency) metadata).endingEquity =
      (buildBalanceSheet (service.loadAccounts accounts) service.config
        (service.rows accounts j d₁ currency) metadata none).totalEquity ∧
    ((buildEquityChanges loaded (service.rows accounts j d₁ currency)
        (service.rows accounts j d₀ currency) metadata).endingEquity =
      (buildEquityChanges loaded (service.rows accounts j d₂ currency)
        (service.rows accounts j d₁ currency) metadata).beginningEquity ↔
      j.netDebit (fun a => isIncome accounts a && service.regular accounts a) d₁ currency =
        j.netDebit (fun a => isIncome accounts a && service.contra accounts a) d₁ currency) := by
  set rows := service.rows accounts j d₁ currency with hrows
  have hequity := @sum_equity service accounts _ _ _ hstored hfits
  have hincome := @netIncome_eq_sum service accounts _ _ _ hstored hfits
  have hending : (buildEquityChanges loaded rows (service.rows accounts j d₀ currency)
      metadata).endingEquity = (rows.map (service.ofType accounts .equity)).sum +
        (rows.map fun row => service.ofType accounts .revenue row -
          service.ofType accounts .expense row).sum := by
    show defaultContext.round (sumBalancesFor _ _ _ + computeNetIncomeFromTb _ _) = _
    rw [hequity, hincome, ← List.sum_map_add]
    exact round_of_parts hfits fun row hrow => (part_types hstored hfits hrow).2.2.2.1
  refine ⟨?_, ?_⟩
  · rw [hending, ← List.sum_map_add]
    exact (@balanceSheet_totals service accounts _ _ _ hstored hfits _ _ rfl).2.2.2.symm
  · have hbeginning : (buildEquityChanges loaded (service.rows accounts j d₂ currency) rows
        metadata).beginningEquity = (rows.map (service.ofType accounts .equity)).sum := hequity
    rw [hending, hbeginning, add_eq_left, sum_income hstored hfits, sub_eq_zero]
    exact eq_comm

/-! ### A sale that is not closed -/

/-- The cash account and the one that is credited. -/
def sampleLoaded (creditType : AccountType) :
    Loaded sampleService (sampleAccounts true creditType) :=
  .ofIds [⟨0xa1⟩, ⟨0xa2⟩] (by decide) fun id hid => by
    simp only [List.mem_cons, List.not_mem_nil, or_false, not_or] at hid
    unfold sampleAccounts
    rw [if_neg hid.1, if_neg hid.2]

/-- The report from one day to another. -/
def sampleEquity (creditType : AccountType) (current prior : Date) : EquityChangesReport :=
  buildEquityChanges (sampleLoaded creditType)
    (sampleService.rows (sampleAccounts true creditType) Reversal.sampleJournal current "USD")
    (sampleService.rows (sampleAccounts true creditType) Reversal.sampleJournal prior "USD")
    (sampleService.buildMetadata sampleTime .equityChanges current "USD" none)

theorem equity_rolls_forward_capital :
    (sampleEquity .equity (january 31 (by decide)) (january 1 (by decide))).endingEquity =
      (sampleEquity .equity (february 28 (by decide)) (january 31 (by decide))).beginningEquity :=
  (equity_rolls_forward_iff (sampleLoaded .equity) (january 1 (by decide)) (january 31 (by decide))
    (february 28 (by decide)) (sampleService.buildMetadata sampleTime .equityChanges
      (january 31 (by decide)) "USD" none) stored_sampleJournal (by decide +kernel)).2.mpr
        (by decide +kernel)

/-- **What a sale has earned is lost between two reports**, and each of them says that it
reconciles. -/
theorem equity_drifts :
    (sampleEquity .revenue (january 31 (by decide)) (january 1 (by decide))).endingEquity ≠
      (sampleEquity .revenue (february 28 (by decide)) (january 31 (by decide))).beginningEquity ∧
    (sampleEquity .revenue (january 31 (by decide)) (january 1 (by decide))).reconciles = true ∧
    (sampleEquity .revenue (february 28 (by decide)) (january 31 (by decide))).reconciles = true := by
  decide +kernel

end FinanceAccounting.Reporting
