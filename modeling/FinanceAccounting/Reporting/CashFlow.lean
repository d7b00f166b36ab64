import FinanceAccounting.Reporting.EquityChanges

/-! # The cash flow statement

`build_cash_flow_statement` starts from the net income of the trial balance, adds back what the tagged
expenses have grown by, and puts the changes of the other accounts into sections by the prefixes of
their codes.  `cash_flow_reconciles_iff` says when the result is the change in cash: what each account
is counted too often or not at all, and what income was carried from before, must cancel out. -/

namespace FinanceAccounting.Reporting

open Decimal (HasPlaces)
open Hashing (defaultContext)
open Journal (JournalLine)
open KeyedSums

/-! ### The statement -/

structure CashFlowLineItem where
  description : String
  amount : ℚ
deriving DecidableEq

structure CashFlowSection where
  label : String
  lines : List CashFlowLineItem
  total : ℚ

structure CashFlowStatementReport where
  metadata : ReportMetadata
  netIncome : ℚ
  operatingAdjustments : CashFlowSection
  workingCapitalChanges : CashFlowSection
  netCashFromOperations : ℚ
  investingActivities : CashFlowSection
  netCashFromInvesting : ℚ
  financingActivities : CashFlowSection
  netCashFromFinancing : ℚ
  netChangeInCash : ℚ
  beginningCash : ℚ
  endingCash : ℚ
  cashChangeReconciles : Bool

section Classification

variable (clf : AccountClassification) (acct : AccountInfo)

def isCash : Bool := matchesPrefix acct.code clf.cashAccountPrefixes

/-- A depreciation, amortization or impairment. -/
def isNoncash : Bool :=
  acct.accountType = .expense &&
    ["depreciation", "amortization", "impairment"].any (acct.tags.contains ·)

def isCurrentAsset : Bool :=
  acct.accountType = .asset && matchesPrefix acct.code clf.currentAssetPrefixes

def isCurrentLiability : Bool :=
  acct.accountType = .liability && matchesPrefix acct.code clf.currentLiabilityPrefixes

def isNonCurrentAsset : Bool :=
  acct.accountType = .asset && matchesPrefix acct.code clf.nonCurrentAssetPrefixes

/-- A non-current liability or equity. -/
def isFinancing : Bool :=
  (acct.accountType = .liability && matchesPrefix acct.code clf.nonCurrentLiabilityPrefixes) ||
    acct.accountType = .equity

/-! The line of an account in each section, and whether its change flows out. -/

def adjustmentLine : Option (String × Bool) :=
  if isNoncash acct then some ("Add back: " ++ acct.name, false) else none

def workingCapitalLine : Option (String × Bool) :=
  if isCash clf acct then none
  else if isCurrentAsset clf acct then some ("Change in " ++ acct.name, true)
  else if isCurrentLiability clf acct then some ("Change in " ++ acct.name, false)
  else none

def investingLine : Option (String × Bool) :=
  if isNonCurrentAsset clf acct then some ("Change in " ++ acct.name, true) else none

def financingLine : Option (String × Bool) :=
  if isFinancing clf acct then some ("Change in " ++ acct.name, false) else none

end Classification

/-- A section: an account has a line when it changes and the section wants it, with its change or
the opposite. -/
def cashFlowSection (label : String) (items : List AccountInfo) (change : UUID → ℚ)
    (line : AccountInfo → Option (String × Bool)) : CashFlowSection :=
  let lines := items.filterMap fun acct =>
    (line acct).bind fun (description, outflow) =>
      let x := change acct.accountId
      if x = 0 then none else some ⟨description, if outflow then -x else x⟩
  { label := label
    lines := lines
    total := defaultContext.total (lines.map CashFlowLineItem.amount) }

variable {service : ReportingService} {accounts : Accounts}

def buildCashFlowStatement (loaded : Loaded service accounts)
    (currentRows priorRows : List TrialBalanceRow) (metadata : ReportMetadata) :
    CashFlowStatementReport :=
  let clf := service.config.classification
  let get := service.loadAccounts accounts
  let netIncome := computeNetIncomeFromTb get currentRows
  let currentBal := balanceByAccount get currentRows
  let priorBal := balanceByAccount get priorRows
  let change := change currentBal priorBal
  let adjustments :=
    cashFlowSection "Non-Cash Adjustments" loaded.items change adjustmentLine
  let workingCapital :=
    cashFlowSection "Changes in Working Capital" loaded.items change (workingCapitalLine clf)
  let operations := defaultContext.round
    (defaultContext.round (netIncome + adjustments.total) + workingCapital.total)
  let investing :=
    cashFlowSection "Investing Activities" loaded.items change (investingLine clf)
  let financing :=
    cashFlowSection "Financing Activities" loaded.items change (financingLine clf)
  let beginningCash := sumBalancesFor get priorBal (isCash clf)
  let endingCash := sumBalancesFor get currentBal (isCash clf)
  let netChange := defaultContext.round
    (defaultContext.round (operations + investing.total) + financing.total)
  { metadata := metadata
    netIncome := netIncome
    operatingAdjustments := adjustments
    workingCapitalChanges := workingCapital
    netCashFromOperations := operations
    investingActivities := investing
    netCashFromInvesting := investing.total
    financingActivities := financing
    netCashFromFinancing := financing.total
    netChangeInCash := netChange
    beginningCash := beginningCash
    endingCash := endingCash
    cashChangeReconciles := defaultContext.round (endingCash - beginningCash) = netChange }

/-! ### What is counted -/

/-- How often the change of an account is counted too much, on the debit side: once it is not
counted, every section and the cash count it. -/
def surplus (clf : AccountClassification) : Option AccountInfo → ℤ
  | none => 1
  | some acct =>
      let cash := (isCash clf acct).toInt
      match acct.accountType with
      | .asset => 1 - cash - (!isCash clf acct && isCurrentAsset clf acct).toInt -
          (isNonCurrentAsset clf acct).toInt
      | .liability => 1 + cash - (!isCash clf acct && isCurrentLiability clf acct).toInt -
          (isFinancing clf acct).toInt
      | .equity => cash
      | .revenue => cash
      | .expense => (isNoncash acct).toInt - cash

/-- What is counted too much in the rows. -/
def ReportingService.surplusOf (service : ReportingService) (accounts : Accounts)
    (rows : List TrialBalanceRow) : ℚ :=
  (rows.map fun row => (surplus service.config.classification
    (service.loadAccounts accounts row.accountId) : ℚ) * net row).sum

/-- The revenue and expense accounts of the rows, on the debit side. -/
def ReportingService.incomeDebit (service : ReportingService) (accounts : Accounts)
    (rows : List TrialBalanceRow) : ℚ :=
  (rows.map fun row => if (service.loadAccounts accounts row.accountId).any fun acct =>
    acct.accountType = .revenue || acct.accountType = .expense then net row else 0).sum

/-- What the loaded accounts of the rows have on their normal sides, with weights. -/
def ReportingService.sideSum (service : ReportingService) (accounts : Accounts)
    (rows : List TrialBalanceRow) (f : AccountInfo → ℚ) : ℚ :=
  (rows.map fun row => service.weightOf accounts (fun acct => signOf acct.normalBalance * f acct)
    row.accountId * net row).sum

/-! ### Changes that are not rounded -/

/-- How the change of an account comes into a section. -/
def inSection (line : AccountInfo → Option (String × Bool)) (acct : AccountInfo) : ℚ :=
  match line acct with
  | none => 0
  | some (_, outflow) => if outflow then -1 else 1

section Laws

variable {j : Journal} {current prior : Date} {currency : String}

theorem within_accountDebit (hstored : Stored j) (asOf : Date) (accountId : UUID) :
    Within (weight j asOf currency accountId) (accountDebit j asOf currency accountId) := by
  refine Within.list_sum fun line hline => ?_
  have hplaces := hstored.places (List.mem_of_mem_filter hline)
  unfold JournalLine.debit
  cases line.side with
  | debit => exact ⟨hplaces, le_rfl⟩
  | credit => exact Within.neg ⟨hplaces, le_rfl⟩

/-- What the accounts have posted to them is within the turnover. -/
theorem sum_weight_ids_le {ids : List UUID} (hnodup : ids.Nodup) (asOf : Date) :
    (ids.map (weight j asOf currency)).sum ≤ turnover j asOf currency := by
  have hsum := @sum_mul_by_key _ _ _ JournalLine.accountId _ _ _ hnodup (j.ledgerLines asOf currency)
    (fun _ => (1 : ℚ))
    fun line => |line.amount.toRat|
  simp only [one_mul] at hsum
  have hle : (ids.map (weight j asOf currency)).sum ≤ _ := hsum.le
  refine hle.trans (List.sum_le_sum fun line _ => ?_)
  split
  · exact le_rfl
  · exact abs_nonneg _

/-- What an account has changed by, on its normal side. -/
def changeOf (j : Journal) (current prior : Date) (currency : String) (acct : AccountInfo) : ℚ :=
  signOf acct.normalBalance * (accountDebit j current currency acct.accountId -
    accountDebit j prior currency acct.accountId)

theorem within_changeOf (hstored : Stored j) (acct : AccountInfo) :
    Within (weight j current currency acct.accountId + weight j prior currency acct.accountId)
      (changeOf j current prior currency acct) := by
  have hwithin := (@within_accountDebit _ currency hstored current acct.accountId).sub
    (@within_accountDebit _ currency hstored prior acct.accountId)
  unfold changeOf
  cases acct.normalBalance with
  | debit => simpa only [signOf, one_mul] using hwithin
  | credit => simpa only [signOf, neg_one_mul] using hwithin.neg

variable (loaded : Loaded service accounts)

section Fits

variable (hstored : Stored j)
variable (hfits : (turnover j current currency + turnover j prior currency) * 10 ^ 9 < 10 ^ 28)

theorem turnover_nonneg (asOf : Date) : 0 ≤ turnover j asOf currency := by
  refine List.sum_nonneg fun x hx => ?_
  obtain ⟨line, -, rfl⟩ := List.mem_map.mp hx
  exact abs_nonneg _

include loaded in
theorem sum_weights_le : (loaded.items.map fun acct => weight j current currency acct.accountId +
    weight j prior currency acct.accountId).sum ≤
      turnover j current currency + turnover j prior currency := by
  rw [List.sum_map_add]
  refine add_le_add ?_ ?_
  · have hle := @sum_weight_ids_le j currency _ loaded.ids_nodup current
    rwa [List.map_map] at hle
  · have hle := @sum_weight_ids_le j currency _ loaded.ids_nodup prior
    rwa [List.map_map] at hle

include hstored hfits

theorem change_eq {acct : AccountInfo} (hacct : acct ∈ loaded.items) :
    change (balanceByAccount (service.loadAccounts accounts) (service.rows accounts j current currency))
      (balanceByAccount (service.loadAccounts accounts) (service.rows accounts j prior currency))
      acct.accountId = changeOf j current prior currency acct := by
  have hload := (loaded.mem_iff acct).mp hacct
  have hcurrent := @turnover_nonneg j currency current
  have hprior := @turnover_nonneg j currency prior
  unfold change
  rw [balanceOf_eq hstored (by linarith) hload, balanceOf_eq hstored (by linarith) hload, ← mul_sub]
  refine (within_changeOf hstored acct).round (lt_of_le_of_lt ?_ hfits)
  refine mul_le_mul_of_nonneg_right (le_trans ?_ (sum_weights_le loaded)) (by positivity)
  refine List.single_le_sum (fun x hx => ?_) _ (List.mem_map_of_mem (f := fun acct : AccountInfo =>
    weight j current currency acct.accountId + weight j prior currency acct.accountId) hacct)
  obtain ⟨a, -, rfl⟩ := List.mem_map.mp hx
  exact add_nonneg (weight_nonneg a.accountId) (weight_nonneg a.accountId)

/-- **The total of a section** is the sum of the changes that come into it. -/
theorem section_total (label : String) (line : AccountInfo → Option (String × Bool)) :
    (cashFlowSection label loaded.items (change
        (balanceByAccount (service.loadAccounts accounts) (service.rows accounts j current currency))
        (balanceByAccount (service.loadAccounts accounts) (service.rows accounts j prior currency)))
          line).total =
      (loaded.items.map fun acct => inSection line acct * changeOf j current prior currency acct).sum ∧
    Within (turnover j current currency + turnover j prior currency)
      (loaded.items.map fun acct =>
        inSection line acct * changeOf j current prior currency acct).sum := by
  have hparts : ∀ acct ∈ loaded.items, Within (weight j current currency acct.accountId +
      weight j prior currency acct.accountId)
        (inSection line acct * changeOf j current prior currency acct) := by
    intro acct _
    refine (within_changeOf hstored acct).mul_sign ?_
    unfold inSection
    split
    · exact .inl rfl
    · split
      · exact .inr (.inr rfl)
      · exact .inr (.inl rfl)
  have hsum := Within.list_sum hparts
  refine ⟨?_, hsum.1, hsum.2.trans (sum_weights_le loaded)⟩
  unfold cashFlowSection
  dsimp only
  rw [List.map_filterMap]
  refine total_filterMap (.refl _) (fun acct hacct => ?_) hparts
    (lt_of_le_of_lt (mul_le_mul_of_nonneg_right (sum_weights_le loaded) (by positivity)) hfits)
  rw [change_eq loaded hstored hfits hacct, inSection]
  cases line acct with
  | none => exact (zero_mul _).symm
  | some entry =>
      obtain ⟨description, outflow⟩ := entry
      by_cases hzero : changeOf j current prior currency acct = 0
      · simp [hzero]
      · cases outflow <;> simp [hzero]

end Fits

/-- What an account is counted too much is what all sections and the cash say of it. -/
theorem surplus_eq {clf : AccountClassification} {acct : AccountInfo}
    (hnormal : acct.normalBalance = usualBalance acct.accountType) :
    (surplus clf (some acct) : ℚ) =
      1 - (if acct.accountType = .revenue || acct.accountType = .expense then 1 else 0) +
        signOf acct.normalBalance * (inSection adjustmentLine acct +
          inSection (workingCapitalLine clf) acct + inSection (investingLine clf) acct +
            inSection (financingLine clf) acct - if isCash clf acct then 1 else 0) := by
  have hnoncash : inSection adjustmentLine acct = ((isNoncash acct).toInt : ℚ) := by
    unfold inSection adjustmentLine
    cases isNoncash acct <;> simp
  have hcapital : inSection (workingCapitalLine clf) acct =
      (((!isCash clf acct && isCurrentLiability clf acct).toInt : ℤ) : ℚ) -
        ((!isCash clf acct && isCurrentAsset clf acct).toInt : ℤ) := by
    unfold inSection workingCapitalLine isCurrentAsset isCurrentLiability
    cases isCash clf acct <;> cases matchesPrefix acct.code clf.currentAssetPrefixes <;>
      cases matchesPrefix acct.code clf.currentLiabilityPrefixes <;> cases acct.accountType <;> simp
  have hinvesting : inSection (investingLine clf) acct = -((isNonCurrentAsset clf acct).toInt : ℚ) := by
    unfold inSection investingLine
    cases isNonCurrentAsset clf acct <;> simp
  have hfinancing : inSection (financingLine clf) acct = ((isFinancing clf acct).toInt : ℚ) := by
    unfold inSection financingLine
    cases isFinancing clf acct <;> simp
  have hcash : (if isCash clf acct then (1 : ℚ) else 0) = ((isCash clf acct).toInt : ℚ) := by
    cases isCash clf acct <;> simp
  rw [hnoncash, hcapital, hinvesting, hfinancing, hcash, hnormal]
  unfold surplus isNoncash isCurrentAsset isCurrentLiability isNonCurrentAsset isFinancing
  cases htype : acct.accountType with
  | asset =>
      simp [htype, usualBalance, signOf]
      ring
  | liability =>
      simp [htype, usualBalance, signOf]
      ring
  | equity => simp [htype, usualBalance, signOf]
  | revenue => simp [htype, usualBalance, signOf]
  | expense =>
      simp [htype, usualBalance, signOf]

/-- The change of a section, in the rows of the two days. -/
theorem sum_changes (f : AccountInfo → ℚ) :
    (loaded.items.map fun acct => f acct * changeOf j current prior currency acct).sum =
      service.sideSum accounts (service.rows accounts j current currency) f -
        service.sideSum accounts (service.rows accounts j prior currency) f := by
  have hday : ∀ asOf, service.sideSum accounts (service.rows accounts j asOf currency) f =
      (loaded.items.map fun acct => signOf acct.normalBalance * f acct *
        accountDebit j asOf currency acct.accountId).sum := by
    intro asOf
    rw [sum_loaded loaded]
    refine sum_weighted_rows fun accountId hnone => ?_
    rw [ReportingService.weightOf, loadAccounts_of_none hnone]
    rfl
  rw [hday, hday, ← sum_map_sub]
  congr 1
  refine List.map_congr_left fun acct _ => ?_
  unfold changeOf
  ring

section Day

variable (hstored : Stored j) {asOf : Date} (hfits : turnover j asOf currency * 10 ^ 9 < 10 ^ 28)

include hstored hfits

/-- The balance of the cash accounts. -/
theorem cash_eq : sumBalancesFor (service.loadAccounts accounts) (balanceByAccount
    (service.loadAccounts accounts) (service.rows accounts j asOf currency))
      (isCash service.config.classification) =
        service.sideSum accounts (service.rows accounts j asOf currency)
          (fun acct => if isCash service.config.classification acct then 1 else 0) ∧
    Within (turnover j asOf currency) (service.sideSum accounts
      (service.rows accounts j asOf currency)
        fun acct => if isCash service.config.classification acct then 1 else 0) := by
  have hparts : ∀ row ∈ service.rows accounts j asOf currency,
      Within (weight j asOf currency row.accountId) (service.weightOf accounts (fun acct =>
        signOf acct.normalBalance * if isCash service.config.classification acct then 1 else 0)
          row.accountId * net row) := by
    intro row hrow
    have hnet : Within (weight j asOf currency row.accountId) (net row) :=
      (parts_of_mem hstored hrow).2.2
    have hzero : Within (weight j asOf currency row.accountId) 0 := Part.zero
    unfold ReportingService.weightOf
    cases service.loadAccounts accounts row.accountId with
    | none => simpa using hzero
    | some acct =>
        cases hcash : isCash service.config.classification acct with
        | false => simpa [hcash] using hzero
        | true =>
            cases hside : acct.normalBalance with
            | debit => simpa [hcash, hside, signOf] using hnet
            | credit => simpa [hcash, hside, signOf] using hnet.neg
  have hsum := Within.list_sum hparts
  refine ⟨?_, hsum.1, hsum.2.trans sum_weight_le⟩
  rw [sumBalancesFor_eq]
  refine total_filterMap (.refl _) (fun row hrow => ?_) hparts
    (lt_of_le_of_lt (mul_le_mul_of_nonneg_right sum_weight_le (by positivity)) hfits)
  unfold ReportingService.weightOf
  cases service.loadAccounts accounts row.accountId with
  | none => simp
  | some acct =>
      rw [Option.filter_some]
      cases hcash : isCash service.config.classification acct with
      | false => simp [hcash]
      | true =>
          simp only [hcash, if_true, Option.map_some, Option.getD_some, mul_one]
          rw [natural_of_mem hstored hfits hrow]
          cases acct.normalBalance <;> simp [signOf]

/-- With accounts of the usual sides, the net income is what the income accounts have. -/
theorem netIncome_eq_incomeDebit (hnormal : ∀ acct ∈ loaded.items,
    acct.normalBalance = usualBalance acct.accountType) :
    computeNetIncomeFromTb (service.loadAccounts accounts) (service.rows accounts j asOf currency) =
      -service.incomeDebit accounts (service.rows accounts j asOf currency) ∧
    Within (turnover j asOf currency)
      (-service.incomeDebit accounts (service.rows accounts j asOf currency)) := by
  have hrow : ∀ row ∈ service.rows accounts j asOf currency,
      service.ofType accounts .revenue row - service.ofType accounts .expense row =
        -if (service.loadAccounts accounts row.accountId).any fun acct =>
          acct.accountType = .revenue || acct.accountType = .expense then net row else 0 := by
    intro row hrow
    unfold ReportingService.ofType naturalOfType
    cases hacct : service.loadAccounts accounts row.accountId with
    | none => simp
    | some acct =>
        have hside := hnormal acct ((loaded.mem_iff acct).mpr (loadAccounts_accountId hacct ▸ hacct))
        simp only [natural_of_mem hstored hfits hrow, hside, Option.any_some]
        rcases acct with ⟨-, -, -, accountType, -, -, -⟩
        cases accountType <;> simp [usualBalance]
  have hincome : ((service.rows accounts j asOf currency).map fun row =>
      service.ofType accounts .revenue row - service.ofType accounts .expense row).sum =
        -service.incomeDebit accounts (service.rows accounts j asOf currency) := by
    rw [List.map_congr_left hrow, ReportingService.incomeDebit, List.sum_neg, List.map_map]
    rfl
  have hsum := Within.list_sum fun row hrow => (@part_types service accounts _ _ _ _ hstored hfits hrow).2.2.1
  rw [hincome] at hsum
  exact ⟨(netIncome_eq_sum hstored hfits).trans hincome, hsum.1, hsum.2.trans sum_weight_le⟩

end Day

/-- What is counted too much, from the rows of a trial balance that balances. -/
theorem surplusOf_eq {asOf : Date} (hnormal : ∀ acct ∈ loaded.items,
      acct.normalBalance = usualBalance acct.accountType)
    (hbalanced : ((service.rows accounts j asOf currency).map net).sum = 0) :
    service.surplusOf accounts (service.rows accounts j asOf currency) =
      service.sideSum accounts (service.rows accounts j asOf currency) (inSection adjustmentLine) +
        service.sideSum accounts (service.rows accounts j asOf currency)
          (inSection (workingCapitalLine service.config.classification)) +
        service.sideSum accounts (service.rows accounts j asOf currency)
          (inSection (investingLine service.config.classification)) +
        service.sideSum accounts (service.rows accounts j asOf currency)
          (inSection (financingLine service.config.classification)) -
        service.sideSum accounts (service.rows accounts j asOf currency)
          (fun acct => if isCash service.config.classification acct then 1 else 0) -
        service.incomeDebit accounts (service.rows accounts j asOf currency) := by
  refine Eq.trans ?_ ((congrArg (_ + ·) hbalanced).trans (add_zero _))
  unfold ReportingService.surplusOf ReportingService.sideSum ReportingService.incomeDebit
  rw [← List.sum_map_add, ← List.sum_map_add, ← List.sum_map_add, ← sum_map_sub, ← sum_map_sub,
    ← List.sum_map_add]
  congr 1
  refine List.map_congr_left fun row _ => ?_
  unfold ReportingService.weightOf
  cases hacct : service.loadAccounts accounts row.accountId with
  | none => simp [surplus]
  | some acct =>
      rw [surplus_eq (hnormal acct ((loaded.mem_iff acct).mpr (loadAccounts_accountId hacct ▸ hacct)))]
      simp only [Option.map_some, Option.getD_some, Option.any_some]
      split
      · ring
      · ring

/-- **When the cash flow statement reconciles.**  With accounts of the usual sides and trial balances
that balance and fit the decimal context, it does if and only if what the accounts are counted too
much has changed by the income that was carried into the period. -/
theorem cash_flow_reconciles_iff (metadata : ReportMetadata) (hstored : Stored j)
    (hnormal : ∀ acct ∈ loaded.items, acct.normalBalance = usualBalance acct.accountType)
    (hcurrent : ((service.rows accounts j current currency).map net).sum = 0)
    (hprior : ((service.rows accounts j prior currency).map net).sum = 0)
    (hfits : 5 * (turnover j current currency + turnover j prior currency) * 10 ^ 9 < 10 ^ 28) :
    (buildCashFlowStatement loaded (service.rows accounts j current currency)
        (service.rows accounts j prior currency) metadata).cashChangeReconciles = true ↔
      service.surplusOf accounts (service.rows accounts j current currency) -
          service.surplusOf accounts (service.rows accounts j prior currency) =
        service.incomeDebit accounts (service.rows accounts j prior currency) := by
  set clf := service.config.classification with hclf
  have hnonneg := @turnover_nonneg j currency current
  have hnonneg' := @turnover_nonneg j currency prior
  have hboth : (turnover j current currency + turnover j prior currency) * 10 ^ 9 < 10 ^ 28 := by
    linarith
  obtain ⟨hincome, hincome'⟩ := @netIncome_eq_incomeDebit _ _ _ currency loaded hstored
    current (by linarith) hnormal
  obtain ⟨hadjust, hadjust'⟩ := section_total loaded hstored hboth "Non-Cash Adjustments" adjustmentLine
  obtain ⟨hcapital, hcapital'⟩ := section_total loaded hstored hboth "Changes in Working Capital"
    (workingCapitalLine clf)
  obtain ⟨hinvest, hinvest'⟩ := section_total loaded hstored hboth "Investing Activities"
    (investingLine clf)
  obtain ⟨hfinance, hfinance'⟩ := section_total loaded hstored hboth "Financing Activities"
    (financingLine clf)
  obtain ⟨hending, hending'⟩ := @cash_eq service accounts _ currency hstored current
    (by linarith)
  obtain ⟨hbeginning, hbeginning'⟩ := @cash_eq service accounts _ currency hstored prior
    (by linarith)
  have hreconciles : (buildCashFlowStatement loaded (service.rows accounts j current currency)
      (service.rows accounts j prior currency) metadata).cashChangeReconciles = true ↔ _ :=
    decide_eq_true_iff
  rw [hreconciles, hincome, hadjust, hcapital, hinvest, hfinance, hending, hbeginning]
  rw [(hincome'.add hadjust').round (by linarith),
    ((hincome'.add hadjust').add hcapital').round (by linarith),
    (((hincome'.add hadjust').add hcapital').add hinvest').round (by linarith),
    ((((hincome'.add hadjust').add hcapital').add hinvest').add hfinance').round (by linarith),
    (hending'.sub hbeginning').round hboth, surplusOf_eq loaded hnormal hcurrent,
    surplusOf_eq loaded hnormal hprior, sum_changes, sum_changes, sum_changes, sum_changes]
  constructor
  · intro h
    linarith
  · intro h
    linarith

end Laws

/-! ### The month after a sale -/

/-- The statement from one day to another. -/
def sampleCashFlow (current prior : Date) : CashFlowStatementReport :=
  buildCashFlowStatement (sampleLoaded .revenue)
    (sampleService.rows (sampleAccounts true .revenue) Reversal.sampleJournal current "USD")
    (sampleService.rows (sampleAccounts true .revenue) Reversal.sampleJournal prior "USD")
    (sampleService.buildMetadata sampleTime .cashFlow current "USD" none)

theorem normal_sampleLoaded : ∀ acct ∈ (sampleLoaded .revenue).items,
    acct.normalBalance = usualBalance acct.accountType := by
  decide +kernel

theorem cash_flow_reconciles_january :
    (sampleCashFlow (january 31 (by decide)) (january 1 (by decide))).cashChangeReconciles = true :=
  (cash_flow_reconciles_iff (sampleLoaded .revenue) (sampleService.buildMetadata sampleTime .cashFlow
    (january 31 (by decide)) "USD" none) stored_sampleJournal normal_sampleLoaded (by decide +kernel)
      (by decide +kernel) (by decide +kernel)).mpr (by decide +kernel)

/-- **The sale of January is net income of February**, where cash does not change. -/
theorem cash_flow_repeats_income :
    (∀ acct ∈ (sampleLoaded .revenue).items,
      acct.normalBalance = usualBalance acct.accountType) ∧
    (∀ day ∈ [january 31 (by decide), february 28 (by decide)],
      ((sampleService.rows (sampleAccounts true .revenue) Reversal.sampleJournal day "USD").map
        net).sum = 0) ∧
    (sampleCashFlow (february 28 (by decide)) (january 31 (by decide))).cashChangeReconciles =
      false := by
  refine ⟨normal_sampleLoaded, ?_⟩
  decide +kernel

end FinanceAccounting.Reporting
