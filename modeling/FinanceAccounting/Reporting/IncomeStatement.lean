import FinanceAccounting.Reporting.BalanceLaws

/-! # The income statement

`ReportingService.income_statement` takes the trial balance of the last day of its period, so income
and expenses from before the first day count as well.  `income_statement_covers_iff` says when the
net income is still that of the period: what the income accounts carry into it is made up for by the
accounts that are left out and those on the other side than their type.  The sections divide the
accounts, so both formats end in the same net income. -/

namespace FinanceAccounting

open Journal (JournalLine)

/-- The posted lines that are dated in a period. -/
def Journal.periodLines (j : Journal) (start stop : Date) (currency : String) :
    List JournalLine :=
  ((j.entries.filter fun e =>
    e.status = .posted && start ≤ e.effectiveDate && e.effectiveDate ≤ stop).flatMap
      (·.lines)).filter (·.currency = currency)

/-- The posted lines up to a day that are dated before the period. -/
def Journal.carriedLines (j : Journal) (start stop : Date) (currency : String) :
    List JournalLine :=
  ((j.entries.filter fun e =>
    e.status = .posted && !decide (start ≤ e.effectiveDate) && e.effectiveDate ≤ stop).flatMap
      (·.lines)).filter (·.currency = currency)

namespace Reporting

open Decimal (HasPlaces)
open Hashing (defaultContext)
open KeyedSums

/-! ### The report -/

section Functions

variable (accounts : UUID → Option AccountInfo) (config : ReportingConfig)

inductive IncomeSectionKey where
  | revenue
  | cogs
  | operatingExpenses
  | otherIncome
  | otherExpenses
deriving DecidableEq

/-- The section of an item; the accounts of the balance sheet have none. -/
def incomeSectionOf (item : TrialBalanceLineItem) : Option IncomeSectionKey :=
  match accounts item.accountId with
  | none => none
  | some acct =>
      match acct.accountType with
      | .revenue =>
          if matchesPrefix item.accountCode config.classification.otherIncomePrefixes then
            some .otherIncome
          else some .revenue
      | .expense =>
          if matchesPrefix item.accountCode config.classification.cogsPrefixes then some .cogs
          else if matchesPrefix item.accountCode config.classification.otherExpensePrefixes then
            some .otherExpenses
          else some .operatingExpenses
      | .asset => none
      | .liability => none
      | .equity => none

def classifyForIncomeStatement (items : List TrialBalanceLineItem) (k : IncomeSectionKey) :
    List TrialBalanceLineItem :=
  items.filter fun item => incomeSectionOf accounts config item = some k

structure IncomeStatementSection where
  label : String
  lines : List TrialBalanceLineItem
  total : ℚ

def makeIsSection (label : String) (items : List TrialBalanceLineItem) :
    IncomeStatementSection where
  label := label
  lines := sortByCode items
  total := sumNaturalBalances (sortByCode items)

inductive IncomeStatementFormat where
  | singleStep
  | multiStep
deriving DecidableEq

structure IncomeStatement where
  metadata : ReportMetadata
  format : IncomeStatementFormat
  totalRevenue : ℚ
  totalExpenses : ℚ
  netIncome : ℚ
  revenueSection : Option IncomeStatementSection := none
  cogsSection : Option IncomeStatementSection := none
  grossProfit : Option ℚ := none
  operatingExpenseSection : Option IncomeStatementSection := none
  operatingIncome : Option ℚ := none
  otherIncomeSection : Option IncomeStatementSection := none
  otherExpenseSection : Option IncomeStatementSection := none
  incomeBeforeTax : Option ℚ := none

structure IncomeStatementReport extends IncomeStatement where
  comparative : Option IncomeStatement := none

/-- The income statement of one trial balance. -/
def incomeStatementOf (rows : List TrialBalanceRow) (metadata : ReportMetadata)
    (format : IncomeStatementFormat) : IncomeStatement :=
  let items := enrichTrialBalance accounts config rows
  let classified := classifyForIncomeStatement accounts config items
  let revenue := makeIsSection "Revenue" (classified .revenue)
  let cogs := makeIsSection "Cost of Goods Sold" (classified .cogs)
  let opex := makeIsSection "Operating Expenses" (classified .operatingExpenses)
  let otherIncome := makeIsSection "Other Income" (classified .otherIncome)
  let otherExpense := makeIsSection "Other Expenses" (classified .otherExpenses)
  let totalRevenue := defaultContext.round (revenue.total + otherIncome.total)
  let totalExpenses :=
    defaultContext.round (defaultContext.round (cogs.total + opex.total) + otherExpense.total)
  let netIncome := defaultContext.round (totalRevenue - totalExpenses)
  let grossProfit := defaultContext.round (revenue.total - cogs.total)
  let operatingIncome := defaultContext.round (grossProfit - opex.total)
  let incomeBeforeTax := defaultContext.round
    (defaultContext.round (operatingIncome + otherIncome.total) - otherExpense.total)
  match format with
  | .singleStep => {
      metadata := metadata
      format := format
      totalRevenue := totalRevenue
      totalExpenses := totalExpenses
      netIncome := netIncome }
  | .multiStep => {
      metadata := metadata
      format := format
      totalRevenue := totalRevenue
      totalExpenses := totalExpenses
      netIncome := netIncome
      revenueSection := some revenue
      cogsSection := some cogs
      grossProfit := some grossProfit
      operatingExpenseSection := some opex
      operatingIncome := some operatingIncome
      otherIncomeSection := some otherIncome
      otherExpenseSection := some otherExpense
      incomeBeforeTax := some incomeBeforeTax }

def buildIncomeStatement (rows : List TrialBalanceRow) (metadata : ReportMetadata)
    (format : IncomeStatementFormat) (comparativeRows : Option (List TrialBalanceRow)) :
    IncomeStatementReport where
  toIncomeStatement := incomeStatementOf accounts config rows metadata format
  comparative :=
    comparativeRows.map fun rows => incomeStatementOf accounts config rows metadata format

end Functions

/-- `income_statement`; the start of the period is shown and not used, that of the period it is
compared with is not even shown. -/
def ReportingService.incomeStatement (service : ReportingService) (accounts : Accounts)
    (j : Journal) (now : Datetime) (periodStart periodEnd : Date) (currency : Option String)
    (format : IncomeStatementFormat) (_comparativeStart comparativeEnd : Option Date) :
    IncomeStatementReport :=
  let curr := service.currencyOf currency
  buildIncomeStatement (service.loadAccounts accounts) service.config
    (selectTrialBalance service.collate accounts j periodEnd curr)
    { service.buildMetadata now .incomeStatement periodEnd curr none with
      periodStart := some periodStart
      periodEnd := some periodEnd }
    format
    (comparativeEnd.map fun day => selectTrialBalance service.collate accounts j day curr)

/-! ### The income of a period -/

/-- A revenue or expense account. -/
def isIncome (accounts : Accounts) (accountId : UUID) : Bool :=
  (accounts accountId).any fun a => a.accountType = .revenue || a.accountType = .expense

/-- Revenue less expenses of some lines. -/
def incomeOf (accounts : Accounts) (lines : List JournalLine) : ℚ :=
  -((lines.filter (isIncome accounts ·.accountId)).map (·.debit)).sum

/-- The income accounts that are left out add to what is carried, and those on the other side than
their type add twice: they are counted, and with the wrong sign. -/
def ReportingService.misstated (service : ReportingService) (accounts : Accounts) (j : Journal)
    (asOf : Date) (currency : String) : ℚ :=
  j.netDebit (fun a => isIncome accounts a && service.leftOut accounts a) asOf currency +
    2 * j.netDebit (fun a => isIncome accounts a && service.contra accounts a) asOf currency

section Laws

variable {service : ReportingService} {accounts : Accounts} {j : Journal} {asOf start stop : Date}
variable {currency : String} {row : TrialBalanceRow}

/-- What a row has for a section. -/
def ReportingService.incomePart (service : ReportingService) (accounts : Accounts)
    (k : IncomeSectionKey) (row : TrialBalanceRow) : ℚ :=
  (service.itemPart accounts (fun item =>
    incomeSectionOf (service.loadAccounts accounts) service.config item = some k) row).getD 0

/-- The revenue sections. -/
def IncomeSectionKey.isRevenue : IncomeSectionKey → Bool
  | .revenue | .otherIncome => true
  | .cogs | .operatingExpenses | .otherExpenses => false

/-- An item of an income account is in a section of its type. -/
theorem incomeSectionOf_cases {loaded : UUID → Option AccountInfo} {config : ReportingConfig}
    {item : TrialBalanceLineItem} {acct : AccountInfo} (h : loaded item.accountId = some acct) :
    (acct.accountType = .revenue ∧
        ∃ key, key.isRevenue = true ∧ incomeSectionOf loaded config item = some key) ∨
      (acct.accountType = .expense ∧
        ∃ key, key.isRevenue = false ∧ incomeSectionOf loaded config item = some key) ∨
      (acct.accountType ≠ .revenue ∧ acct.accountType ≠ .expense ∧
        incomeSectionOf loaded config item = none) := by
  unfold incomeSectionOf
  rw [h]
  dsimp only
  cases htype : acct.accountType with
  | revenue =>
      refine Or.inl ⟨rfl, ?_⟩
      dsimp only
      split
      · exact ⟨.otherIncome, rfl, rfl⟩
      · exact ⟨.revenue, rfl, rfl⟩
  | expense =>
      refine Or.inr (Or.inl ⟨rfl, ?_⟩)
      dsimp only
      split
      · exact ⟨.cogs, rfl, rfl⟩
      · split
        · exact ⟨.otherExpenses, rfl, rfl⟩
        · exact ⟨.operatingExpenses, rfl, rfl⟩
  | _ => simp

/-- **The sections divide the income accounts**: a row is in one of them at most, with what it has
for its type. -/
theorem incomeParts_of_row (row : TrialBalanceRow) : ∃ key x,
    (x = 0 ∨ ∃ normal, x = computeNaturalBalance row.debitTotal row.creditTotal normal) ∧
      (∀ k, service.incomePart accounts k row = if key = k then x else 0) ∧
      service.ofType accounts .revenue row = (if key.isRevenue then x else 0) ∧
      service.ofType accounts .expense row = if key.isRevenue then 0 else x := by
  unfold ReportingService.incomePart ReportingService.itemPart ReportingService.ofType
    naturalOfType enrichRow
  cases hacct : service.loadAccounts accounts row.accountId with
  | none => exact ⟨.revenue, 0, Or.inl rfl, by simp⟩
  | some acct =>
      dsimp only
      split
      · rename_i hzero
        have hnatural : computeNaturalBalance row.debitTotal row.creditTotal acct.normalBalance = 0 := by
          simp only [Bool.and_eq_true, decide_eq_true_eq] at hzero
          exact hzero.2
        rw [hnatural]
        refine ⟨.revenue, 0, Or.inl rfl, by simp, ?_, ?_⟩
        · split <;> simp
        · split <;> simp
      · obtain ⟨htype, key, hkey, hsection⟩ | ⟨htype, key, hkey, hsection⟩ |
            ⟨hrevenue, hexpense, hsection⟩ :=
          @incomeSectionOf_cases _ service.config {
            accountId := row.accountId
            accountCode := row.accountCode
            accountName := row.accountName
            accountType := accountTypeValue acct.accountType
            debitBalance := row.debitTotal
            creditBalance := row.creditTotal
            netBalance :=
              computeNaturalBalance row.debitTotal row.creditTotal acct.normalBalance } _ hacct
        · refine ⟨key, _, Or.inr ⟨acct.normalBalance, rfl⟩, fun k => ?_, ?_, ?_⟩
          · rw [Option.filter_some, hsection]
            by_cases hk : key = k <;> simp [hk]
          · simp [htype, hkey]
          · simp [htype, hkey]
        · refine ⟨key, _, Or.inr ⟨acct.normalBalance, rfl⟩, fun k => ?_, ?_, ?_⟩
          · rw [Option.filter_some, hsection]
            by_cases hk : key = k <;> simp [hk]
          · simp [htype, hkey]
          · simp [htype, hkey]
        · refine ⟨.revenue, 0, Or.inl rfl, fun k => ?_, ?_, ?_⟩
          · rw [Option.filter_some, hsection]
            simp
          · simp [hrevenue]
          · simp [hexpense]

section Exact

variable (hstored : Stored j) (hfits : turnover j asOf currency * 10 ^ 9 < 10 ^ 28)

include hstored hfits

/-- What the totals of the income statement add up for a row. -/
theorem part_income (hrow : row ∈ service.rows accounts j asOf currency)
    {p : IncomeSectionKey → ℚ} (hp : ∀ k, p k = service.incomePart accounts k row) :
    Part j asOf currency row (p .revenue + p .otherIncome) ∧
      Part j asOf currency row (p .cogs + p .operatingExpenses) ∧
      Part j asOf currency row (p .cogs + p .operatingExpenses + p .otherExpenses) ∧
      Part j asOf currency row (p .revenue - p .cogs) ∧
      Part j asOf currency row (p .revenue - p .cogs - p .operatingExpenses) ∧
      Part j asOf currency row
        (p .revenue - p .cogs - p .operatingExpenses + p .otherIncome) ∧
      Part j asOf currency row
        (p .revenue - p .cogs - p .operatingExpenses + p .otherIncome - p .otherExpenses) ∧
      Part j asOf currency row (p .revenue + p .otherIncome -
        (p .cogs + p .operatingExpenses + p .otherExpenses)) := by
  obtain ⟨key, x, hx, hparts, -⟩ := @incomeParts_of_row service accounts row
  have hpart : Part j asOf currency row x := by
    rcases hx with rfl | ⟨normal, rfl⟩
    · exact .zero
    · exact part_natural hstored hfits hrow normal
  cases key <;> simp [hp, hparts, Part.zero, hpart, hpart.neg]

/-- **The totals of the income statement** are sums over the rows; the income before tax is the
net income. -/
theorem incomeStatement_totals {report : IncomeStatement} {metadata : ReportMetadata}
    {format : IncomeStatementFormat}
    (hreport : report = incomeStatementOf (service.loadAccounts accounts) service.config
      (service.rows accounts j asOf currency) metadata format) :
    report.netIncome = ((service.rows accounts j asOf currency).map fun row =>
        service.ofType accounts .revenue row - service.ofType accounts .expense row).sum ∧
      ∀ x ∈ report.incomeBeforeTax, x = report.netIncome := by
  set rows := service.rows accounts j asOf currency with hrows
  have hsection : ∀ k, sumNaturalBalances (sortByCode (classifyForIncomeStatement
      (service.loadAccounts accounts) service.config (enrichTrialBalance
        (service.loadAccounts accounts) service.config rows) k)) =
      (rows.map (service.incomePart accounts k)).sum := fun k =>
    sum_filtered hstored hfits (sortByCode_perm _)
  have hparts : ∀ row ∈ rows, _ := fun row hrow =>
    @part_income service accounts _ _ _ _ hstored hfits hrow _ fun _ => rfl
  have hround : ∀ {f : TrialBalanceRow → ℚ}, (∀ row ∈ rows, Part j asOf currency row (f row)) →
      defaultContext.round (rows.map f).sum = (rows.map f).sum := fun h => round_of_parts hfits h
  have htypes : ∀ row, service.incomePart accounts .revenue row +
      service.incomePart accounts .otherIncome row -
        (service.incomePart accounts .cogs row + service.incomePart accounts .operatingExpenses row +
          service.incomePart accounts .otherExpenses row) =
      service.ofType accounts .revenue row - service.ofType accounts .expense row := by
    intro row
    obtain ⟨key, x, -, hkeys, hrevenue, hexpense⟩ :=
      @incomeParts_of_row service accounts row
    rw [hrevenue, hexpense]
    cases key <;> simp [hkeys, IncomeSectionKey.isRevenue]
  have hnet : report.netIncome = (rows.map fun row =>
      service.ofType accounts .revenue row - service.ofType accounts .expense row).sum := by
    have hvalue : report.netIncome = defaultContext.round
        (defaultContext.round ((rows.map (service.incomePart accounts .revenue)).sum +
          (rows.map (service.incomePart accounts .otherIncome)).sum) -
        defaultContext.round (defaultContext.round
          ((rows.map (service.incomePart accounts .cogs)).sum +
            (rows.map (service.incomePart accounts .operatingExpenses)).sum) +
          (rows.map (service.incomePart accounts .otherExpenses)).sum)) := by
      subst hreport
      simp only [← hsection]
      cases format <;> rfl
    rw [hvalue]
    simp only [← List.sum_map_add, ← htypes]
    rw [hround fun row hrow => (hparts row hrow).1, hround fun row hrow => (hparts row hrow).2.1]
    simp only [← List.sum_map_add]
    rw [hround fun row hrow => (hparts row hrow).2.2.1, ← sum_map_sub]
    exact hround fun row hrow => (hparts row hrow).2.2.2.2.2.2.2
  refine ⟨hnet, fun x hx => ?_⟩
  cases format with
  | singleStep =>
      subst hreport
      cases hx
  | multiStep =>
      have hvalue : report.incomeBeforeTax = some (defaultContext.round (defaultContext.round
          (defaultContext.round (defaultContext.round
            ((rows.map (service.incomePart accounts .revenue)).sum -
              (rows.map (service.incomePart accounts .cogs)).sum) -
            (rows.map (service.incomePart accounts .operatingExpenses)).sum) +
          (rows.map (service.incomePart accounts .otherIncome)).sum) -
          (rows.map (service.incomePart accounts .otherExpenses)).sum)) := by
        subst hreport
        simp only [← hsection]
        rfl
      rw [hvalue, Option.mem_some_iff] at hx
      rw [hnet, ← hx, ← sum_map_sub, hround fun row hrow => (hparts row hrow).2.2.2.1, ← sum_map_sub,
        hround fun row hrow => (hparts row hrow).2.2.2.2.1, ← List.sum_map_add,
        hround fun row hrow => (hparts row hrow).2.2.2.2.2.1, ← sum_map_sub,
        hround fun row hrow => (hparts row hrow).2.2.2.2.2.2.1]
      congr 1
      refine List.map_congr_left fun row _ => ?_
      rw [← htypes]
      ring

end Exact

/-- The balances of the income accounts that come into the reports. -/
theorem sum_income (hstored : Stored j) (hfits : turnover j asOf currency * 10 ^ 9 < 10 ^ 28) :
    ((service.rows accounts j asOf currency).map fun row =>
      service.ofType accounts .revenue row - service.ofType accounts .expense row).sum =
    j.netDebit (fun a => isIncome accounts a && service.contra accounts a) asOf currency -
      j.netDebit (fun a => isIncome accounts a && service.regular accounts a) asOf currency := by
  have hnone : ∀ q : UUID → Bool, ∀ accountId, accounts accountId = none →
      (isIncome accounts accountId && q accountId) = false := fun q accountId h => by
    rw [isIncome, h, Option.any_none, Bool.false_and]
  rw [← @sum_net_rows service _ _ _ _ _ (hnone _), ← @sum_net_rows service _ _ _ _ _ (hnone _),
    ← sum_map_sub]
  congr 1
  refine List.map_congr_left fun row hrow => ?_
  unfold ReportingService.ofType naturalOfType ReportingService.contra ReportingService.regular
    isIncome
  cases hacct : service.loadAccounts accounts row.accountId with
  | none => simp
  | some acct =>
      have hchart : ∃ a, accounts row.accountId = some a ∧ a.accountType = acct.accountType := by
        unfold ReportingService.loadAccounts at hacct
        split at hacct
        · cases hacct
        · rename_i a ha
          split at hacct
          · cases hacct
          · obtain rfl := Option.some.inj hacct
            exact ⟨a, ha, rfl⟩
      obtain ⟨a, ha, htype⟩ := hchart
      simp only [natural_of_mem hstored hfits hrow, ha, Option.any_some, htype]
      rcases acct with ⟨-, -, -, accountType, normalBalance, -, -⟩
      cases accountType <;> cases normalBalance <;> simp [usualBalance]

/-- What is posted up to the end of a period was carried into it or lies in it. -/
theorem incomeOf_split (accounts : Accounts) (j : Journal) (start stop : Date) (currency : String) :
    incomeOf accounts (j.carriedLines start stop currency) +
        incomeOf accounts (j.periodLines start stop currency) =
      -j.netDebit (isIncome accounts) stop currency := by
  have hperm : (j.carriedLines start stop currency ++ j.periodLines start stop currency).Perm
      (j.ledgerLines stop currency) := by
    unfold Journal.carriedLines Journal.periodLines Journal.ledgerLines
    rw [← List.filter_append, ← List.flatMap_append]
    refine (List.Perm.flatMap_right _ ?_).filter _
    have hsplit := List.filter_append_perm (fun e : Journal.JournalEntry => start ≤ e.effectiveDate)
      (j.entries.filter fun e => e.status = .posted && e.effectiveDate ≤ stop)
    rw [List.filter_filter, List.filter_filter] at hsplit
    refine List.perm_append_comm.trans (Eq.subst (motive := fun l => List.Perm l _) ?_ hsplit)
    congr 1
    · exact List.filter_congr fun e _ => by grind
    · exact List.filter_congr fun e _ => by grind
  unfold incomeOf Journal.netDebit
  rw [← ((hperm.filter _).map _).sum_eq, List.filter_append, List.map_append, List.sum_append]
  ring

end Laws

/-- **When the income statement covers its period.**  With a turnover whose digits fit the decimal
context, the net income is that of the lines dated in the period if and only if the income carried
into it makes up for the accounts that are misstated.  Both formats report the same net income, which
is the income before tax.  The net incomes of two periods add up to that of their union if and only
if the first one reports none. -/
theorem income_statement_covers_iff (service : ReportingService) (accounts : Accounts) (j : Journal)
    (now : Datetime) (start stop : Date) (currency : Option String)
    (format : IncomeStatementFormat) (comparativeStart comparativeEnd : Option Date)
    (hstored : Stored j) (hfits : turnover j stop (service.currencyOf currency) * 10 ^ 9 < 10 ^ 28) :
    ((service.incomeStatement accounts j now start stop currency format comparativeStart
        comparativeEnd).netIncome =
          incomeOf accounts (j.periodLines start stop (service.currencyOf currency)) ↔
      incomeOf accounts (j.carriedLines start stop (service.currencyOf currency)) +
        service.misstated accounts j stop (service.currencyOf currency) = 0) ∧
    (∀ format', (service.incomeStatement accounts j now start stop currency format' comparativeStart
        comparativeEnd).netIncome = (service.incomeStatement accounts j now start stop currency format
          comparativeStart comparativeEnd).netIncome) ∧
    (∀ x ∈ (service.incomeStatement accounts j now start stop currency format comparativeStart
        comparativeEnd).incomeBeforeTax, x = (service.incomeStatement accounts j now start stop
          currency format comparativeStart comparativeEnd).netIncome) ∧
    ∀ next last, (service.incomeStatement accounts j now start stop currency format comparativeStart
        comparativeEnd).netIncome + (service.incomeStatement accounts j now next last currency format
          comparativeStart comparativeEnd).netIncome =
        (service.incomeStatement accounts j now start last currency format comparativeStart
          comparativeEnd).netIncome ↔
      j.netDebit (fun a => isIncome accounts a && service.regular accounts a) stop
          (service.currencyOf currency) =
        j.netDebit (fun a => isIncome accounts a && service.contra accounts a) stop
          (service.currencyOf currency) := by
  have hnet : ∀ format', (service.incomeStatement accounts j now start stop currency format'
      comparativeStart comparativeEnd).netIncome =
        j.netDebit (fun a => isIncome accounts a && service.contra accounts a) stop
            (service.currencyOf currency) -
          j.netDebit (fun a => isIncome accounts a && service.regular accounts a) stop
            (service.currencyOf currency) := fun format' =>
    (incomeStatement_totals hstored hfits rfl).1.trans (sum_income hstored hfits)
  have hsplit := incomeOf_split accounts j start stop (service.currencyOf currency)
  rw [← @netDebit_partition service accounts] at hsplit
  refine ⟨?_, fun format' => (hnet format').trans (hnet format).symm,
    (incomeStatement_totals hstored hfits rfl).2, fun next last => ?_⟩
  · rw [hnet, ReportingService.misstated]
    constructor
    · intro h
      linarith
    · intro h
      linarith
  · have hunion : (service.incomeStatement accounts j now start last currency format
        comparativeStart comparativeEnd).netIncome = (service.incomeStatement accounts j now next last
          currency format comparativeStart comparativeEnd).netIncome := by
      cases format <;> rfl
    rw [hunion, add_eq_right, hnet, sub_eq_zero]
    exact eq_comm

/-! ### A sale and the month after it -/

def january (day : ℕ) (h : Date.IsDay 2025 1 day) : Date := Date.of 2025 1 day h

def february (day : ℕ) (h : Date.IsDay 2025 2 day) : Date := Date.of 2025 2 day h

theorem income_statement_covers_january :
    (sampleService.incomeStatement (sampleAccounts true .revenue) Reversal.sampleJournal sampleTime
      (january 1 (by decide)) (january 31 (by decide)) none .multiStep none none).netIncome =
      incomeOf (sampleAccounts true .revenue)
        (Reversal.sampleJournal.periodLines (january 1 (by decide)) (january 31 (by decide)) "USD") :=
  (income_statement_covers_iff sampleService (sampleAccounts true .revenue) Reversal.sampleJournal
    sampleTime (january 1 (by decide)) (january 31 (by decide)) none .multiStep none none
      stored_sampleJournal (by decide +kernel)).1.mpr (by decide +kernel)

/-- **The sale of January is income of February too**, and of both months twice. -/
theorem income_statement_repeats :
    (sampleService.incomeStatement (sampleAccounts true .revenue) Reversal.sampleJournal sampleTime
        (february 1 (by decide)) (february 28 (by decide)) none .multiStep none none).netIncome ≠
      incomeOf (sampleAccounts true .revenue)
        (Reversal.sampleJournal.periodLines (february 1 (by decide)) (february 28 (by decide)) "USD") ∧
    (sampleService.incomeStatement (sampleAccounts true .revenue) Reversal.sampleJournal sampleTime
        (january 1 (by decide)) (january 31 (by decide)) none .multiStep none none).netIncome +
      (sampleService.incomeStatement (sampleAccounts true .revenue) Reversal.sampleJournal sampleTime
        (february 1 (by decide)) (february 28 (by decide)) none .multiStep none none).netIncome ≠
      (sampleService.incomeStatement (sampleAccounts true .revenue) Reversal.sampleJournal sampleTime
        (january 1 (by decide)) (february 28 (by decide)) none .multiStep none none).netIncome := by
  decide +kernel

end Reporting

end FinanceAccounting
