import Mathlib.Algebra.BigOperators.Group.Finset.Basic
import FinanceAccounting.Kernel.Reversal
import FinanceAccounting.Reporting.Statements
import FinanceAccounting.Library.KeyedSums

/-! # When the statements balance

Entries that balance make debits and credits of all accounts together agree.  The statements
leave accounts out, those that are inactive, and they count the balance of an account by its
normal side, whatever its type says.

`statements_balanced_iff` is the exact condition: the balances of the accounts left out add up to
zero, and so do those of the accounts whose normal side is not that of their type. -/

namespace FinanceAccounting.Reporting

open Decimal (HasPlaces)
open Hashing (defaultContext)
open Journal (JournalEntry JournalLine LineSide)
open KeyedSums

/-- The side of most accounts of a type. -/
def usualBalance : AccountType → NormalBalance
  | .asset => .debit
  | .expense => .debit
  | .liability => .credit
  | .equity => .credit
  | .revenue => .credit

/-- The account does not come into the reports. -/
def ReportingService.leftOut (service : ReportingService) (accounts : Accounts) (accountId : UUID) :
    Bool := (service.loadAccounts accounts accountId).isNone

/-- The account comes into the reports, on the other side than most of its type. -/
def ReportingService.contra (service : ReportingService) (accounts : Accounts) (accountId : UUID) :
    Bool :=
  (service.loadAccounts accounts accountId).any fun a =>
    a.normalBalance ≠ usualBalance a.accountType

/-- The account comes into the reports, on the usual side. -/
def ReportingService.regular (service : ReportingService) (accounts : Accounts) (accountId : UUID) :
    Bool :=
  (service.loadAccounts accounts accountId).any fun a =>
    a.normalBalance = usualBalance a.accountType

/-- All that is posted in a currency up to a day. -/
def turnover (j : Journal) (asOf : Date) (currency : String) : ℚ :=
  ((j.ledgerLines asOf currency).map fun line => |line.amount.toRat|).sum

/-! ### Rows of the selector -/

section Rows

variable {j : Journal} {asOf : Date} {currency : String} {accounts : Accounts}
variable {collate : String → String → Bool} {row : TrialBalanceRow}

/-- What is posted to an account. -/
def weight (j : Journal) (asOf : Date) (currency : String) (accountId : UUID) : ℚ :=
  (((j.ledgerLines asOf currency).filter (·.accountId = accountId)).map
    fun line => |line.amount.toRat|).sum

/-- The accounts with lines. -/
def usedAccounts (j : Journal) (asOf : Date) (currency : String) : List UUID :=
  ((j.ledgerLines asOf currency).map (·.accountId)).dedup

theorem mem_selectTrialBalance (h : row ∈ selectTrialBalance collate accounts j asOf currency) :
    ∃ accountId account, accounts accountId = some account ∧
      row = trialBalanceRow j asOf currency accountId account := by
  unfold selectTrialBalance at h
  rw [List.mem_insertionSort, List.mem_filterMap] at h
  obtain ⟨accountId, -, h⟩ := h
  obtain ⟨account, haccount, rfl⟩ := Option.map_eq_some_iff.mp h
  exact ⟨accountId, account, haccount, rfl⟩

theorem sum_filterMap {α β : Type} (l : List α) (g : α → Option β) (f : β → ℚ) :
    ((l.filterMap g).map f).sum = (l.map fun x => ((g x).map f).getD 0).sum := by
  induction l with
  | nil => rfl
  | cons x l ih =>
      rw [List.filterMap_cons, List.map_cons, List.sum_cons, ← ih]
      cases g x with
      | none => simp
      | some y => simp

/-- A sum over the rows is a sum over the accounts with lines. -/
theorem sum_rows (f : TrialBalanceRow → ℚ) (g : UUID → ℚ)
    (hsome : ∀ accountId account, accounts accountId = some account →
      f (trialBalanceRow j asOf currency accountId account) = g accountId)
    (hnone : ∀ accountId, accounts accountId = none → g accountId = 0) :
    ((selectTrialBalance collate accounts j asOf currency).map f).sum =
      ((usedAccounts j asOf currency).map g).sum := by
  unfold selectTrialBalance
  rw [((List.perm_insertionSort _ _).map f).sum_eq, sum_filterMap]
  congr 1
  refine List.map_congr_left fun accountId _ => ?_
  cases haccount : accounts accountId with
  | none => simp [hnone accountId haccount]
  | some account => simp [hsome accountId account haccount]

/-- A sum by accounts. -/
theorem sum_usedAccounts (j : Journal) (asOf : Date) (currency : String) (p : UUID → Bool)
    (f : JournalLine → ℚ) :
    ((usedAccounts j asOf currency).map fun accountId =>
      if p accountId then
        (((j.ledgerLines asOf currency).filter (·.accountId = accountId)).map f).sum
      else 0).sum =
        (((j.ledgerLines asOf currency).filter (p ·.accountId)).map f).sum := by
  rw [sum_filter_eq_sum (usedAccounts j asOf currency).toFinset, List.sum_toFinset]
  · exact List.nodup_dedup _
  · intro line hline
    unfold usedAccounts
    rw [List.mem_toFinset, List.mem_dedup]
    exact List.mem_map_of_mem hline

end Rows

/-! ### Sums that are not rounded -/

section Exact

variable {j : Journal} {asOf : Date} {currency : String} {accounts : Accounts}
variable {collate : String → String → Bool} {row : TrialBalanceRow} {lines : List JournalLine}

/-- Amounts have the nine places of their column. -/
def Stored (j : Journal) : Prop := ∀ e ∈ j.entries, ∀ line ∈ e.lines, HasPlaces 9 line.amount.toRat

theorem Stored.places (h : Stored j) {line : JournalLine} (hline : line ∈ j.ledgerLines asOf currency) :
    HasPlaces 9 line.amount.toRat := by
  unfold Journal.ledgerLines at hline
  obtain ⟨e, he, hline⟩ := List.mem_flatMap.mp (List.mem_of_mem_filter hline)
  exact h e (List.mem_of_mem_filter he) line hline

/-- The amounts of one side of an account. -/
def onSide (lines : List JournalLine) (accountId : UUID) (side : LineSide) : List ℚ :=
  (lines.filter fun line => line.accountId = accountId && line.side = side).map (·.amount.toRat)

theorem abs_onSide_add_le (lines : List JournalLine) (accountId : UUID) :
    |(onSide lines accountId .debit).sum| + |(onSide lines accountId .credit).sum| ≤
      ((lines.filter (·.accountId = accountId)).map fun line => |line.amount.toRat|).sum := by
  induction lines with
  | nil => simp [onSide]
  | cons line lines ih =>
      unfold onSide at ih ⊢
      rw [sum_filter_cons, sum_filter_cons, sum_filter_cons]
      by_cases haccount : line.accountId = accountId
      · cases hside : line.side with
        | debit =>
            simp only [haccount, decide_true, Bool.true_and, if_true, reduceCtorEq, decide_false,
              Bool.false_eq_true, if_false, zero_add]
            have := abs_add_le line.amount.toRat (onSide lines accountId .debit).sum
            unfold onSide at this
            linarith
        | credit =>
            simp only [haccount, decide_true, Bool.true_and, if_true, reduceCtorEq, decide_false,
              Bool.false_eq_true, if_false, zero_add]
            have := abs_add_le line.amount.toRat (onSide lines accountId .credit).sum
            unfold onSide at this
            linarith
      · simp only [haccount, decide_false, Bool.false_and, Bool.false_eq_true, if_false, zero_add]
        exact ih

/-- The totals of a row have nine places and are within the weight of its account. -/
theorem totals_of_mem (hstored : Stored j)
    (h : row ∈ selectTrialBalance collate accounts j asOf currency) :
    HasPlaces 9 row.debitTotal ∧ HasPlaces 9 row.creditTotal ∧
      |row.debitTotal| + |row.creditTotal| ≤ weight j asOf currency row.accountId := by
  obtain ⟨accountId, account, -, rfl⟩ := mem_selectTrialBalance h
  have hplaces : ∀ side, HasPlaces 9 (onSide (j.ledgerLines asOf currency) accountId side).sum := by
    intro side
    refine HasPlaces.list_sum fun x hx => ?_
    obtain ⟨line, hline, rfl⟩ := List.mem_map.mp hx
    exact hstored.places (List.mem_of_mem_filter hline)
  exact ⟨hplaces .debit, hplaces .credit, abs_onSide_add_le _ accountId⟩

theorem weight_nonneg (accountId : UUID) : 0 ≤ weight j asOf currency accountId := by
  refine List.sum_nonneg fun x hx => ?_
  obtain ⟨line, -, rfl⟩ := List.mem_map.mp hx
  exact abs_nonneg _

theorem sum_map_sub {α : Type} (l : List α) (c d : α → ℚ) :
    (l.map fun x => c x - d x).sum = (l.map c).sum - (l.map d).sum := by
  induction l with
  | nil => simp
  | cons x l ih =>
      rw [List.map_cons, List.sum_cons, ih, List.map_cons, List.sum_cons, List.map_cons,
        List.sum_cons, add_sub_add_comm]

/-- The weights of the rows are within the turnover. -/
theorem sum_weight_le :
    ((selectTrialBalance collate accounts j asOf currency).map fun row =>
      weight j asOf currency row.accountId).sum ≤ turnover j asOf currency := by
  rw [sum_rows _ (fun accountId =>
    if (accounts accountId).isSome then weight j asOf currency accountId else 0)]
  · have hall : ((usedAccounts j asOf currency).map (weight j asOf currency)).sum =
        turnover j asOf currency := by
      have hsum := sum_usedAccounts j asOf currency (fun _ => true) fun line =>
        |line.amount.toRat|
      rw [List.filter_true] at hsum
      exact hsum
    rw [← hall]
    refine List.sum_le_sum fun accountId _ => ?_
    split
    · exact le_rfl
    · exact weight_nonneg accountId
  · intro accountId account haccount
    rw [haccount, if_pos (Option.isSome_some)]
    rfl
  · intro accountId haccount
    rw [haccount, if_neg (by simp)]

/-- A quantity that is not more than what is posted to the account of a row. -/
def Part (j : Journal) (asOf : Date) (currency : String) (row : TrialBalanceRow) (x : ℚ) : Prop :=
  HasPlaces 9 x ∧ |x| ≤ weight j asOf currency row.accountId

theorem Part.zero : Part j asOf currency row 0 := ⟨.zero, by simpa using weight_nonneg row.accountId⟩

theorem Part.neg {x : ℚ} (h : Part j asOf currency row x) : Part j asOf currency row (-x) :=
  ⟨h.1.neg, (abs_neg x).le.trans h.2⟩

/-- What the turnover says of parts of the rows. -/
theorem sum_abs_lt (hfits : turnover j asOf currency * 10 ^ 9 < 10 ^ 28) {c : TrialBalanceRow → ℚ}
    (hc : ∀ row ∈ selectTrialBalance collate accounts j asOf currency,
      c row ≤ weight j asOf currency row.accountId) :
    ((selectTrialBalance collate accounts j asOf currency).map c).sum * 10 ^ 9 <
      10 ^ defaultContext.prec := by
  refine lt_of_le_of_lt ?_ hfits
  refine mul_le_mul_of_nonneg_right ?_ (by positivity)
  exact (List.sum_le_sum hc).trans sum_weight_le

/-- A sum over the rows is not rounded. -/
theorem round_of_parts (hfits : turnover j asOf currency * 10 ^ 9 < 10 ^ 28)
    {c : TrialBalanceRow → ℚ}
    (hc : ∀ row ∈ selectTrialBalance collate accounts j asOf currency,
      Part j asOf currency row (c row)) :
    defaultContext.round ((selectTrialBalance collate accounts j asOf currency).map c).sum =
      ((selectTrialBalance collate accounts j asOf currency).map c).sum := by
  have hplaces : HasPlaces 9
      ((selectTrialBalance collate accounts j asOf currency).map c).sum :=
    HasPlaces.list_sum fun x hx => by
      obtain ⟨row, hrow, rfl⟩ := List.mem_map.mp hx
      exact (hc row hrow).1
  refine defaultContext.round_of_places hplaces ?_
  refine lt_of_le_of_lt ?_ (sum_abs_lt hfits fun row hrow => (hc row hrow).2)
  refine mul_le_mul_of_nonneg_right ?_ (by positivity)
  have hle := List.le_sum_of_subadditive (fun x : ℚ => |x|) abs_zero.le abs_add_le
    ((selectTrialBalance collate accounts j asOf currency).map c)
  rwa [List.map_map] at hle

/-- **A sum of parts of rows is not rounded**, in whatever order they are added. -/
theorem total_of_parts (hfits : turnover j asOf currency * 10 ^ 9 < 10 ^ 28)
    {g : TrialBalanceRow → Option ℚ} {xs : List ℚ}
    (hxs : xs.Perm ((selectTrialBalance collate accounts j asOf currency).filterMap g))
    (hg : ∀ row ∈ selectTrialBalance collate accounts j asOf currency, ∀ x ∈ g row,
      Part j asOf currency row x) :
    defaultContext.total xs =
      ((selectTrialBalance collate accounts j asOf currency).map fun row => (g row).getD 0).sum := by
  have hsum : ∀ f : ℚ → ℚ, (xs.map f).sum =
      ((selectTrialBalance collate accounts j asOf currency).map fun row =>
        ((g row).map f).getD 0).sum := fun f => by
    rw [(hxs.map f).sum_eq, sum_filterMap]
  have hplaces : ∀ x ∈ xs, HasPlaces 9 x := by
    intro x hx
    obtain ⟨row, hrow, hx⟩ := List.mem_filterMap.mp (hxs.mem_iff.mp hx)
    exact (hg row hrow x hx).1
  rw [defaultContext.total_eq_sum hplaces]
  · have hid := hsum id
    simpa only [List.map_id, Option.map_id, id_eq] using hid
  · rw [hsum]
    refine sum_abs_lt hfits fun row hrow => ?_
    cases hx : g row with
    | none => exact weight_nonneg row.accountId
    | some x => exact (hg row hrow x hx).2

/-- Debits less credits of a row. -/
def net (row : TrialBalanceRow) : ℚ := row.debitTotal - row.creditTotal

theorem parts_of_mem (hstored : Stored j)
    (h : row ∈ selectTrialBalance collate accounts j asOf currency) :
    Part j asOf currency row row.debitTotal ∧ Part j asOf currency row row.creditTotal ∧
      Part j asOf currency row (net row) := by
  obtain ⟨hdebit, hcredit, hle⟩ := totals_of_mem hstored h
  have hd := abs_nonneg row.debitTotal
  have hc := abs_nonneg row.creditTotal
  refine ⟨⟨hdebit, by linarith⟩, ⟨hcredit, by linarith⟩, hdebit.sub hcredit, ?_⟩
  exact (abs_sub row.debitTotal row.creditTotal).trans hle

/-- The natural balance of a row is not rounded. -/
theorem natural_of_mem (hstored : Stored j) (hfits : turnover j asOf currency * 10 ^ 9 < 10 ^ 28)
    (h : row ∈ selectTrialBalance collate accounts j asOf currency) (normal : NormalBalance) :
    computeNaturalBalance row.debitTotal row.creditTotal normal =
      if normal = .debit then net row else -net row := by
  obtain ⟨-, -, hplaces, hle⟩ := parts_of_mem hstored h
  have hweight : weight j asOf currency row.accountId ≤ turnover j asOf currency := by
    have hmem : weight j asOf currency row.accountId ∈
        (selectTrialBalance collate accounts j asOf currency).map fun row =>
          weight j asOf currency row.accountId := List.mem_map.mpr ⟨row, h, rfl⟩
    refine le_trans (List.single_le_sum (fun x hx => ?_) _ hmem) sum_weight_le
    obtain ⟨row', -, rfl⟩ := List.mem_map.mp hx
    exact weight_nonneg row'.accountId
  have hround : defaultContext.round (net row) = net row := by
    refine defaultContext.round_of_places hplaces (lt_of_le_of_lt ?_ hfits)
    exact mul_le_mul_of_nonneg_right (hle.trans hweight) (by positivity)
  cases normal with
  | debit => exact hround
  | credit =>
      show defaultContext.round (row.creditTotal - row.debitTotal) = -net row
      rw [← neg_sub, Decimal.Context.round_neg]
      exact congrArg Neg.neg hround

end Exact

/-! ### Reports -/

section Reports

variable {service : ReportingService} {accounts : Accounts} {j : Journal} {asOf : Date}
variable {currency : String} {row : TrialBalanceRow} {k : SectionKey}

/-- The rows that the service has. -/
def ReportingService.rows (service : ReportingService) (accounts : Accounts) (j : Journal)
    (asOf : Date) (currency : String) : List TrialBalanceRow :=
  selectTrialBalance service.collate accounts j asOf currency

/-- What a row has for the accounts of a type. -/
def ReportingService.ofType (service : ReportingService) (accounts : Accounts) (t : AccountType)
    (row : TrialBalanceRow) : ℚ :=
  (naturalOfType (service.loadAccounts accounts) t row).getD 0

/-- What a row has for a section. -/
def ReportingService.sectionPart (service : ReportingService) (accounts : Accounts)
    (k : SectionKey) (row : TrialBalanceRow) : Option ℚ :=
  ((enrichRow (service.loadAccounts accounts) service.config row).filter fun item =>
    sectionOf (service.loadAccounts accounts) service.config item = some k).map (·.netBalance)

theorem sortByCode_perm (items : List TrialBalanceLineItem) : (sortByCode items).Perm items :=
  List.perm_insertionSort _ _

/-- What a row has among the items with a property. -/
def ReportingService.itemPart (service : ReportingService) (accounts : Accounts)
    (q : TrialBalanceLineItem → Bool) (row : TrialBalanceRow) : Option ℚ :=
  ((enrichRow (service.loadAccounts accounts) service.config row).filter q).map (·.netBalance)

theorem filtered_perm (q : TrialBalanceLineItem → Bool) (rows : List TrialBalanceRow) :
    (((enrichTrialBalance (service.loadAccounts accounts) service.config rows).filter q).map
        (·.netBalance)).Perm (rows.filterMap (service.itemPart accounts q)) := by
  have hfilter : rows.filterMap (service.itemPart accounts q) =
      ((rows.filterMap (enrichRow (service.loadAccounts accounts) service.config)).filter q).map
        (·.netBalance) := by
    rw [List.filter_filterMap, List.map_filterMap]
    rfl
  rw [hfilter]
  exact ((sortByCode_perm _).filter _).map _

/-- The sections of the assets have the asset accounts, and so on. -/
theorem sections_of_row (row : TrialBalanceRow) :
    (service.sectionPart accounts .currentAssets row).getD 0 +
        (service.sectionPart accounts .nonCurrentAssets row).getD 0 =
      service.ofType accounts .asset row ∧
    (service.sectionPart accounts .currentLiabilities row).getD 0 +
        (service.sectionPart accounts .nonCurrentLiabilities row).getD 0 =
      service.ofType accounts .liability row ∧
    (service.sectionPart accounts .equity row).getD 0 = service.ofType accounts .equity row := by
  unfold ReportingService.sectionPart ReportingService.ofType naturalOfType enrichRow
  cases hacct : service.loadAccounts accounts row.accountId with
  | none => simp
  | some acct =>
      dsimp only
      split
      · rename_i hzero
        have hnatural : computeNaturalBalance row.debitTotal row.creditTotal acct.normalBalance = 0 := by
          simp only [Bool.and_eq_true, decide_eq_true_eq] at hzero
          exact hzero.2
        rw [hnatural]
        cases acct.accountType <;> simp
      · simp only [sectionOf, hacct, Option.filter_some]
        cases matchesPrefix row.accountCode service.config.classification.nonCurrentAssetPrefixes <;>
          cases matchesPrefix row.accountCode
            service.config.classification.nonCurrentLiabilityPrefixes <;>
          cases acct.accountType <;> simp

/-- Of all types, a row has one at most. -/
theorem types_of_row (service : ReportingService) (accounts : Accounts) (row : TrialBalanceRow) :
    (∀ t, service.ofType accounts t row = 0) ∨ ∃ accountType normal, ∀ t,
      service.ofType accounts t row = if accountType = t then
        computeNaturalBalance row.debitTotal row.creditTotal normal else 0 := by
  unfold ReportingService.ofType naturalOfType
  cases hacct : service.loadAccounts accounts row.accountId with
  | none => exact .inl fun t => rfl
  | some acct =>
      refine .inr ⟨acct.accountType, acct.normalBalance, fun t => ?_⟩
      dsimp only
      split
      · rfl
      · rfl

theorem enrichRow_eq_some {config : ReportingConfig} {loaded : UUID → Option AccountInfo}
    {item : TrialBalanceLineItem} (h : enrichRow loaded config row = some item) :
    ∃ acct, loaded row.accountId = some acct ∧ item.debitBalance = row.debitTotal ∧
      item.creditBalance = row.creditTotal ∧ item.netBalance =
        computeNaturalBalance row.debitTotal row.creditTotal acct.normalBalance := by
  unfold enrichRow at h
  split at h
  · cases h
  · rename_i acct hacct
    dsimp only at h
    split at h
    · cases h
    · obtain rfl := Option.some.inj h
      exact ⟨acct, hacct, rfl, rfl, rfl⟩

section Exact

variable (hstored : Stored j) (hfits : turnover j asOf currency * 10 ^ 9 < 10 ^ 28)

include hstored hfits

theorem part_natural (hrow : row ∈ service.rows accounts j asOf currency) (normal : NormalBalance) :
    Part j asOf currency row (computeNaturalBalance row.debitTotal row.creditTotal normal) := by
  have hnet := (parts_of_mem hstored hrow).2.2
  rw [natural_of_mem hstored hfits hrow]
  split
  · exact hnet
  · exact hnet.neg

/-- What the totals of the balance sheet add up for a row. -/
theorem part_types (hrow : row ∈ service.rows accounts j asOf currency) :
    Part j asOf currency row (service.ofType accounts .asset row) ∧
      Part j asOf currency row (service.ofType accounts .liability row) ∧
      Part j asOf currency row
        (service.ofType accounts .revenue row - service.ofType accounts .expense row) ∧
      Part j asOf currency row (service.ofType accounts .equity row +
        (service.ofType accounts .revenue row - service.ofType accounts .expense row)) ∧
      Part j asOf currency row (service.ofType accounts .liability row +
        (service.ofType accounts .equity row +
          (service.ofType accounts .revenue row - service.ofType accounts .expense row))) := by
  rcases types_of_row service accounts row with h | ⟨accountType, normal, h⟩
  · simp [h, Part.zero]
  · have hnatural := part_natural hstored hfits hrow normal
    cases accountType <;> simp [h, Part.zero, hnatural, hnatural.neg]

omit hstored in
/-- The sum of two quantities of the rows is not rounded when their sums are parts. -/
theorem round_add {c d e : TrialBalanceRow → ℚ} (hadd : ∀ row, c row + d row = e row)
    (he : ∀ row ∈ service.rows accounts j asOf currency, Part j asOf currency row (e row)) :
    defaultContext.round (((service.rows accounts j asOf currency).map c).sum +
        ((service.rows accounts j asOf currency).map d).sum) =
      ((service.rows accounts j asOf currency).map e).sum := by
  rw [← List.sum_map_add]
  simp only [hadd]
  exact round_of_parts hfits he

/-- The total of the items with a property. -/
theorem sum_filtered {q : TrialBalanceLineItem → Bool} {items : List TrialBalanceLineItem}
    (hitems : items.Perm ((enrichTrialBalance (service.loadAccounts accounts) service.config
      (service.rows accounts j asOf currency)).filter q)) :
    sumNaturalBalances items = ((service.rows accounts j asOf currency).map fun row =>
      (service.itemPart accounts q row).getD 0).sum := by
  refine total_of_parts hfits ((hitems.map _).trans (filtered_perm q _)) fun row hrow x hx => ?_
  obtain ⟨item, hitem, rfl⟩ := Option.map_eq_some_iff.mp hx
  obtain ⟨acct, -, -, -, hnet⟩ := enrichRow_eq_some (Option.filter_eq_some_iff.mp hitem).1
  rw [hnet]
  exact part_natural hstored hfits hrow acct.normalBalance

/-- The total of a section. -/
theorem sum_section {items : List TrialBalanceLineItem}
    (hitems : items.Perm (classifyForBalanceSheet (service.loadAccounts accounts) service.config
      (enrichTrialBalance (service.loadAccounts accounts) service.config
        (service.rows accounts j asOf currency)) k)) :
    sumNaturalBalances items = ((service.rows accounts j asOf currency).map fun row =>
      (service.sectionPart accounts k row).getD 0).sum :=
  sum_filtered hstored hfits hitems

/-- The income or the expenses. -/
theorem total_ofType (t : AccountType) :
    defaultContext.total ((service.rows accounts j asOf currency).filterMap
        (naturalOfType (service.loadAccounts accounts) t)) =
      ((service.rows accounts j asOf currency).map (service.ofType accounts t)).sum := by
  refine total_of_parts hfits (.refl _) fun row hrow x hx => ?_
  unfold naturalOfType at hx
  split at hx
  · cases hx
  · rename_i acct hacct
    split at hx
    · obtain rfl := Option.some.inj hx
      exact part_natural hstored hfits hrow acct.normalBalance
    · cases hx

/-- The net income is a sum over the rows. -/
theorem netIncome_eq_sum : computeNetIncomeFromTb (service.loadAccounts accounts)
    (service.rows accounts j asOf currency) = ((service.rows accounts j asOf currency).map
      fun row => service.ofType accounts .revenue row - service.ofType accounts .expense row).sum := by
  unfold computeNetIncomeFromTb
  dsimp only
  rw [total_ofType hstored hfits, total_ofType hstored hfits, ← sum_map_sub]
  exact round_of_parts hfits fun row hrow => (part_types hstored hfits hrow).2.2.1

/-- **The totals of the balance sheet** are sums over the rows. -/
theorem balanceSheet_totals {sheet : BalanceSheet} {metadata : ReportMetadata}
    (hsheet : sheet = balanceSheetOf (service.loadAccounts accounts) service.config
      (service.rows accounts j asOf currency) metadata) :
    sheet.totalAssets =
        ((service.rows accounts j asOf currency).map (service.ofType accounts .asset)).sum ∧
      sheet.totalLiabilitiesAndEquity = sheet.totalLiabilities + sheet.totalEquity ∧
      sheet.totalLiabilitiesAndEquity = ((service.rows accounts j asOf currency).map fun row =>
        service.ofType accounts .liability row + (service.ofType accounts .equity row +
          (service.ofType accounts .revenue row - service.ofType accounts .expense row))).sum ∧
      sheet.totalEquity = ((service.rows accounts j asOf currency).map fun row =>
        service.ofType accounts .equity row +
          (service.ofType accounts .revenue row - service.ofType accounts .expense row)).sum := by
  have hparts : ∀ row ∈ service.rows accounts j asOf currency, _ := fun row hrow =>
    part_types hstored hfits hrow
  have hassets : sheet.totalAssets =
      ((service.rows accounts j asOf currency).map (service.ofType accounts .asset)).sum := by
    subst hsheet
    show defaultContext.round (sumNaturalBalances (sortByCode _) +
      sumNaturalBalances (sortByCode _)) = _
    rw [sum_section hstored hfits (sortByCode_perm _), sum_section hstored hfits (sortByCode_perm _)]
    exact round_add hfits (fun row => (sections_of_row row).1) fun row hrow => (hparts row hrow).1
  have hliabilities : sheet.totalLiabilities =
      ((service.rows accounts j asOf currency).map (service.ofType accounts .liability)).sum := by
    subst hsheet
    show defaultContext.round (sumNaturalBalances (sortByCode _) +
      sumNaturalBalances (sortByCode _)) = _
    rw [sum_section hstored hfits (sortByCode_perm _), sum_section hstored hfits (sortByCode_perm _)]
    exact round_add hfits (fun row => (sections_of_row row).2.1) fun row hrow =>
      (hparts row hrow).2.1
  have hequity : sheet.totalEquity = ((service.rows accounts j asOf currency).map fun row =>
      service.ofType accounts .equity row +
        (service.ofType accounts .revenue row - service.ofType accounts .expense row)).sum := by
    subst hsheet
    show defaultContext.round (sumNaturalBalances _ + computeNetIncomeFromTb _ _) = _
    rw [netIncome_eq_sum hstored hfits, sum_section hstored hfits (.refl _)]
    refine round_add hfits (fun row => ?_) fun row hrow => (hparts row hrow).2.2.2.1
    rw [(sections_of_row row).2.2]
  have hboth : sheet.totalLiabilitiesAndEquity =
      defaultContext.round (sheet.totalLiabilities + sheet.totalEquity) := by
    subst hsheet
    rfl
  refine ⟨hassets, ?_, ?_, hequity⟩
  · rw [hboth, hliabilities, hequity, ← List.sum_map_add]
    exact round_of_parts hfits fun row hrow => (hparts row hrow).2.2.2.2
  · rw [hboth, hliabilities, hequity]
    exact round_add hfits (fun row => rfl) fun row hrow => (hparts row hrow).2.2.2.2

/-- **The totals of the trial balance** differ by what the rows of the loaded accounts have. -/
theorem trialBalance_totals {report : TrialBalanceReport} {metadata : ReportMetadata}
    {comparativeRows : Option (List TrialBalanceRow)}
    (hreport : report = buildTrialBalance (service.loadAccounts accounts) service.config
      (service.rows accounts j asOf currency) metadata comparativeRows) :
    report.totalDebits - report.totalCredits =
      ((service.rows accounts j asOf currency).map fun row =>
        if service.leftOut accounts row.accountId then 0 else net row).sum := by
  have htotal : ∀ f : TrialBalanceLineItem → ℚ, (∀ row ∈ service.rows accounts j asOf currency,
      ∀ item, enrichRow (service.loadAccounts accounts) service.config row = some item →
        Part j asOf currency row (f item)) →
      defaultContext.total ((enrichTrialBalance (service.loadAccounts accounts) service.config
        (service.rows accounts j asOf currency)).map f) =
          ((service.rows accounts j asOf currency).map fun row =>
            ((enrichRow (service.loadAccounts accounts) service.config row).map f).getD 0).sum := by
    intro f hf
    have hperm := (sortByCode_perm ((service.rows accounts j asOf currency).filterMap
      (enrichRow (service.loadAccounts accounts) service.config))).map f
    rw [List.map_filterMap] at hperm
    refine total_of_parts hfits hperm fun row hrow x hx => ?_
    obtain ⟨item, hitem, rfl⟩ := Option.map_eq_some_iff.mp hx
    exact hf row hrow item hitem
  have hdebits := htotal (·.debitBalance) fun row hrow item hitem => by
    obtain ⟨-, -, hdebit, -⟩ := enrichRow_eq_some hitem
    exact hdebit ▸ (parts_of_mem hstored hrow).1
  have hcredits := htotal (·.creditBalance) fun row hrow item hitem => by
    obtain ⟨-, -, -, hcredit, -⟩ := enrichRow_eq_some hitem
    exact hcredit ▸ (parts_of_mem hstored hrow).2.1
  subst hreport
  show defaultContext.total _ - defaultContext.total _ = _
  rw [hdebits, hcredits, ← sum_map_sub]
  congr 1
  refine List.map_congr_left fun row hrow => ?_
  unfold ReportingService.leftOut
  cases hitem : enrichRow (service.loadAccounts accounts) service.config row with
  | some item =>
      obtain ⟨acct, hacct, hdebit, hcredit, -⟩ := enrichRow_eq_some hitem
      rw [hacct]
      simp [hdebit, hcredit, net]
  | none =>
      cases hacct : service.loadAccounts accounts row.accountId with
      | none => simp
      | some acct =>
          have hzero : computeNaturalBalance row.debitTotal row.creditTotal acct.normalBalance = 0 := by
            simp only [enrichRow, hacct] at hitem
            split at hitem
            · rename_i hzero
              simp only [Bool.and_eq_true, decide_eq_true_eq] at hzero
              exact hzero.2
            · cases hitem
          have hnet : net row = 0 := by
            rw [natural_of_mem hstored hfits hrow] at hzero
            split at hzero
            · exact hzero
            · exact neg_eq_zero.mp hzero
          simp [hnet]

end Exact

end Reports

/-! ### Balances of accounts -/

section Balances

variable {service : ReportingService} {accounts : Accounts} {j : Journal} {asOf : Date}
variable {currency : String}

theorem net_trialBalanceRow (accountId : UUID) (account : Account) :
    net (trialBalanceRow j asOf currency accountId account) =
      (((j.ledgerLines asOf currency).filter (·.accountId = accountId)).map (·.debit)).sum := by
  show (onSide (j.ledgerLines asOf currency) accountId .debit).sum -
    (onSide (j.ledgerLines asOf currency) accountId .credit).sum = _
  generalize j.ledgerLines asOf currency = lines
  induction lines with
  | nil => simp [onSide]
  | cons line lines ih =>
      unfold onSide at ih ⊢
      rw [sum_filter_cons, sum_filter_cons, sum_filter_cons, ← ih]
      by_cases haccount : line.accountId = accountId
      · cases hside : line.side with
        | debit => simp [haccount, Journal.JournalLine.debit, hside, add_sub_assoc]
        | credit =>
            simp [haccount, Journal.JournalLine.debit, hside]
            ring
      · simp [haccount]

/-- What the rows of some loaded accounts have is the balance of these accounts. -/
theorem sum_net_rows {p : UUID → Bool}
    (hp : ∀ accountId, accounts accountId = none → p accountId = false) :
    ((service.rows accounts j asOf currency).map fun row =>
      if p row.accountId then net row else 0).sum = j.netDebit p asOf currency := by
  unfold ReportingService.rows Journal.netDebit
  rw [← sum_usedAccounts]
  refine sum_rows _ _ (fun accountId account haccount => ?_) fun accountId haccount => ?_
  · rw [net_trialBalanceRow]
    rfl
  · rw [hp accountId haccount, if_neg Bool.false_ne_true]

theorem loadAccounts_of_none {accountId : UUID} (h : accounts accountId = none) :
    service.loadAccounts accounts accountId = none := by
  unfold ReportingService.loadAccounts
  rw [h]

/-- An account is regular, contra or left out. -/
theorem netDebit_partition (p : UUID → Bool) :
    j.netDebit (fun a => p a && service.regular accounts a) asOf currency +
        j.netDebit (fun a => p a && service.contra accounts a) asOf currency +
        j.netDebit (fun a => p a && service.leftOut accounts a) asOf currency =
      j.netDebit p asOf currency := by
  have haccount : ∀ (a : UUID) (x : ℚ), (if p a && service.regular accounts a then x else 0) +
      (if p a && service.contra accounts a then x else 0) +
        (if p a && service.leftOut accounts a then x else 0) = if p a then x else 0 := by
    intro a x
    unfold ReportingService.regular ReportingService.contra ReportingService.leftOut
    cases service.loadAccounts accounts a with
    | none => simp
    | some acct => by_cases husual : acct.normalBalance = usualBalance acct.accountType <;> simp [husual]
  unfold Journal.netDebit
  induction j.ledgerLines asOf currency with
  | nil => simp
  | cons line lines ih =>
      rw [sum_filter_cons, sum_filter_cons, sum_filter_cons, sum_filter_cons]
      linarith [haccount line.accountId line.debit]

/-- All accounts together are balanced when all entries are. -/
theorem sum_debit_eq_zero (hbalanced : ∀ e ∈ j.entries, e.status = .posted →
    Reversal.BalancedIn currency e.lines) :
    ((j.ledgerLines asOf currency).map (·.debit)).sum = 0 := by
  unfold Journal.ledgerLines
  have hentries : ∀ e ∈ j.entries.filter fun e => e.status = .posted && e.effectiveDate ≤ asOf,
      ((e.lines.filter (·.currency = currency)).map (·.debit)).sum = 0 := by
    intro e he
    obtain ⟨hmem, hposted⟩ := List.mem_filter.mp he
    simp only [Bool.and_eq_true, decide_eq_true_eq] at hposted
    exact hbalanced e hmem hposted.1
  generalize (j.entries.filter fun e => e.status = .posted && e.effectiveDate ≤ asOf) = entries
    at hentries
  induction entries with
  | nil => rfl
  | cons e entries ih =>
      rw [List.flatMap_cons, List.filter_append, List.map_append, List.sum_append,
        hentries e List.mem_cons_self, zero_add]
      exact ih fun d hd => hentries d (List.mem_cons_of_mem e hd)

/-- Assets less liabilities and equity, row by row. -/
theorem types_eq_net (hstored : Stored j) (hfits : turnover j asOf currency * 10 ^ 9 < 10 ^ 28)
    {row : TrialBalanceRow} (hrow : row ∈ service.rows accounts j asOf currency) :
    service.ofType accounts .asset row - (service.ofType accounts .liability row +
        (service.ofType accounts .equity row +
          (service.ofType accounts .revenue row - service.ofType accounts .expense row))) =
      (if service.regular accounts row.accountId then net row else 0) -
        if service.contra accounts row.accountId then net row else 0 := by
  unfold ReportingService.ofType naturalOfType ReportingService.regular ReportingService.contra
  cases service.loadAccounts accounts row.accountId with
  | none => simp
  | some acct =>
      simp only [natural_of_mem hstored hfits hrow, Option.any_some]
      rcases acct with ⟨-, -, -, accountType, normalBalance, -, -⟩
      cases accountType <;> cases normalBalance <;> simp [usualBalance]

/-- **When the statements balance.**  With entries that balance and a turnover whose digits fit
the decimal context, the trial balance and the balance sheet balance if and only if the accounts
that are left out and the accounts on the other side than their type both add up to zero. -/
theorem statements_balanced_iff (service : ReportingService) (accounts : Accounts) (j : Journal)
    (now : Datetime) (asOf : Date) (currency : Option String) (comparativeDate : Option Date)
    (hstored : Stored j)
    (hbalanced : ∀ e ∈ j.entries, e.status = .posted → ∀ c, Reversal.BalancedIn c e.lines)
    (hfits : turnover j asOf (service.currencyOf currency) * 10 ^ 9 < 10 ^ 28) :
    ((service.trialBalance accounts j now asOf currency comparativeDate).isBalanced = true ∧
      (service.balanceSheet accounts j now asOf currency comparativeDate).isBalanced = true ∧
      (service.balanceSheet accounts j now asOf currency comparativeDate).totalAssets =
        (service.balanceSheet accounts j now asOf currency comparativeDate).totalLiabilities +
          (service.balanceSheet accounts j now asOf currency comparativeDate).totalEquity) ↔
    j.netDebit (service.leftOut accounts) asOf (service.currencyOf currency) = 0 ∧
      j.netDebit (service.contra accounts) asOf (service.currencyOf currency) = 0 := by
  set curr := service.currencyOf currency with hcurr
  set report := service.trialBalance accounts j now asOf currency comparativeDate with hreport
  set sheet := (service.balanceSheet accounts j now asOf currency comparativeDate).toBalanceSheet
    with hsheet
  have hregular : ∀ accountId, accounts accountId = none →
      service.regular accounts accountId = false := fun accountId h => by
    rw [ReportingService.regular, loadAccounts_of_none h, Option.any_none]
  have hcontra : ∀ accountId, accounts accountId = none →
      service.contra accounts accountId = false := fun accountId h => by
    rw [ReportingService.contra, loadAccounts_of_none h, Option.any_none]
  have hpartition : j.netDebit (service.regular accounts) asOf curr +
      j.netDebit (service.contra accounts) asOf curr +
        j.netDebit (service.leftOut accounts) asOf curr = 0 := by
    have hall := @netDebit_partition service accounts j asOf curr fun _ => true
    simp only [Bool.true_and] at hall
    rw [hall, Journal.netDebit, List.filter_true]
    exact sum_debit_eq_zero fun e he hposted => hbalanced e he hposted curr
  have hdifference : report.totalDebits - report.totalCredits =
      j.netDebit (service.regular accounts) asOf curr +
        j.netDebit (service.contra accounts) asOf curr := by
    rw [trialBalance_totals hstored hfits hreport, ← sum_net_rows hregular, ← sum_net_rows hcontra,
      ← List.sum_map_add]
    congr 1
    refine List.map_congr_left fun row _ => ?_
    unfold ReportingService.leftOut ReportingService.regular ReportingService.contra
    cases service.loadAccounts accounts row.accountId with
    | none => simp
    | some acct => by_cases h : acct.normalBalance = usualBalance acct.accountType <;> simp [h]
  obtain ⟨hassets, hsum, hboth, -⟩ := balanceSheet_totals hstored hfits hsheet
  have hsides : sheet.totalAssets - sheet.totalLiabilitiesAndEquity =
      j.netDebit (service.regular accounts) asOf curr -
        j.netDebit (service.contra accounts) asOf curr := by
    rw [hassets, hboth, ← sum_map_sub, ← sum_net_rows hregular, ← sum_net_rows hcontra,
      ← sum_map_sub]
    congr 1
    exact List.map_congr_left fun row hrow => types_eq_net hstored hfits hrow
  have hreported : report.isBalanced = true ↔ report.totalDebits - report.totalCredits = 0 := by
    rw [sub_eq_zero]
    exact decide_eq_true_iff
  have hbalancedSheet : sheet.isBalanced = true ↔
      sheet.totalAssets - sheet.totalLiabilitiesAndEquity = 0 := by
    rw [sub_eq_zero]
    exact decide_eq_true_iff
  rw [hreported, hbalancedSheet, hdifference, hsides, ← hsum]
  constructor
  · rintro ⟨hdebits, hassets, -⟩
    constructor
    · linarith
    · linarith
  · rintro ⟨hleft, hother⟩
    refine ⟨by linarith, by linarith, sub_eq_zero.mp ?_⟩
    rw [hsides]
    linarith

end Balances

/-! ### A sale for cash -/

def sampleService : ReportingService where
  config := {}
  collate a b := a ≤ b

/-- A cash account that may be inactive, and one that is credited. -/
def sampleAccounts (isActive : Bool) (creditType : AccountType) : Accounts := fun accountId =>
  if accountId = ⟨0xa1⟩ then
    some {
      code := "1000"
      accountType := .asset
      isActive := isActive
      name := "Cash"
      normalBalance := .debit }
  else if accountId = ⟨0xa2⟩ then
    some {
      code := "4000"
      accountType := creditType
      name := "Sales"
      normalBalance := .credit }
  else none

theorem balanced_sampleJournal : ∀ e ∈ Reversal.sampleJournal.entries, e.status = .posted →
    ∀ c, Reversal.BalancedIn c e.lines := by
  intro e he _ c
  have hrows : Reversal.sampleJournal.entries = [Reversal.sampleEntry] := by decide +kernel
  rw [hrows] at he
  obtain rfl := List.mem_singleton.mp he
  by_cases hcurrency : "USD" = c
  · subst hcurrency
    show Reversal.signedSum _ _ = 0
    decide +kernel
  · simp [Reversal.BalancedIn, Reversal.signedSum, Reversal.sampleEntry, Reversal.key, hcurrency]

theorem stored_sampleJournal : Stored Reversal.sampleJournal := by
  have hamounts : Reversal.sampleJournal.entries.all fun e => e.lines.all fun line =>
      line.amount.toRat = ((1500000000 : ℤ) : ℚ) / 10 ^ 9 := by decide +kernel
  exact fun e he line hline => ⟨1500000000, of_decide_eq_true
    (List.all_eq_true.mp (List.all_eq_true.mp hamounts e he) line hline)⟩

theorem statements_balanced_sample :
    (sampleService.trialBalance (sampleAccounts true .revenue) Reversal.sampleJournal sampleTime
        sampleTime.date none none).isBalanced = true ∧
      (sampleService.balanceSheet (sampleAccounts true .revenue) Reversal.sampleJournal sampleTime
        sampleTime.date none none).isBalanced = true ∧
      (sampleService.balanceSheet (sampleAccounts true .revenue) Reversal.sampleJournal sampleTime
        sampleTime.date none none).totalAssets =
        (sampleService.balanceSheet (sampleAccounts true .revenue) Reversal.sampleJournal sampleTime
          sampleTime.date none none).totalLiabilities +
          (sampleService.balanceSheet (sampleAccounts true .revenue) Reversal.sampleJournal sampleTime
            sampleTime.date none none).totalEquity := by
  exact (statements_balanced_iff sampleService (sampleAccounts true .revenue)
    Reversal.sampleJournal sampleTime sampleTime.date none none stored_sampleJournal balanced_sampleJournal
      (by decide +kernel)).mpr (by decide +kernel)

/-- **Accounts that break a statement**: the cash account is inactive, or the account that is
credited is an asset. -/
theorem statements_unbalanced :
    (∀ e ∈ Reversal.sampleJournal.entries, e.status = .posted →
      ∀ c, Reversal.BalancedIn c e.lines) ∧
      (sampleService.trialBalance (sampleAccounts false .revenue) Reversal.sampleJournal sampleTime
        sampleTime.date none none).isBalanced = false ∧
      (sampleService.balanceSheet (sampleAccounts false .revenue) Reversal.sampleJournal sampleTime
        sampleTime.date none none).isBalanced = false ∧
      (sampleService.balanceSheet (sampleAccounts true .asset) Reversal.sampleJournal sampleTime
        sampleTime.date none none).isBalanced = false :=
  ⟨balanced_sampleJournal, by decide +kernel⟩

end FinanceAccounting.Reporting
