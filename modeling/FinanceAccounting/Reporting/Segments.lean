import FinanceAccounting.Kernel.LedgerSelector
import FinanceAccounting.Library.Traversals
import FinanceAccounting.Reporting.AccountBalances

/-! # The segment report

`ReportingService.segment_report` reads the posted lines and adds each one to the account that it is
for, in the segment that its dimension names or outside of all.  A dimension value is whatever JSON the
column holds.  The values are the keys of a dict and are sorted, so a list or an object among them, or
numbers beside strings, raise a `TypeError`; otherwise each line is in one segment and the segments add
up to the trial balance (`segments_add_up_iff`). -/

namespace FinanceAccounting.Reporting

open Decimal (HasPlaces)
open Hashing (defaultContext)
open Journal (LineSide)
open KeyedSums
open LedgerSelector (Ledger LedgerLine Query inScope query selected)

/-! ### Dimension values -/

/-- A JSON value of a dimension, as Python loads it.  Numbers are what they are worth, since Python
compares them so. -/
inductive DimensionValue where
  | null
  | bool (b : Bool)
  | number (q : ℚ)
  | str (s : String)
  | list
  | dict
deriving DecidableEq

/-- The key of a segment; `True` and `1` are one key. -/
inductive SegmentKey where
  | number (q : ℚ)
  | str (s : String)
deriving DecidableEq

/-- What a `TypeError` says. -/
inductive SegmentError where
  | unhashable
  | notSupported
deriving DecidableEq

/-- The key that the value is in a dict; `None` stands for no segment. -/
def DimensionValue.key : DimensionValue → Except SegmentError (Option SegmentKey)
  | .null => .ok none
  | .bool b => .ok (some (.number (if b then 1 else 0)))
  | .number q => .ok (some (.number q))
  | .str s => .ok (some (.str s))
  | .list => .error .unhashable
  | .dict => .error .unhashable

def SegmentKey.isStr : SegmentKey → Bool
  | .number _ => false
  | .str _ => true

def SegmentKey.le : SegmentKey → SegmentKey → Bool
  | .number p, .number q => p ≤ q
  | .str s, .str t => s ≤ t
  | _, _ => false

/-! ### The report -/

structure Totals where
  debitTotal : ℚ
  creditTotal : ℚ
deriving DecidableEq

abbrev DimensionLine := LedgerLine DimensionValue

def Totals.add (t : Totals) (line : DimensionLine) : Totals :=
  match line.side with
  | .debit => { t with debitTotal := defaultContext.round (t.debitTotal + line.amount.toRat) }
  | .credit => { t with creditTotal := defaultContext.round (t.creditTotal + line.amount.toRat) }

def Totals.row (t : Totals) (currency : String) (accountId : UUID) (acct : AccountInfo) :
    TrialBalanceRow where
  accountId := accountId
  accountCode := acct.code
  accountName := acct.name
  currency := currency
  debitTotal := t.debitTotal
  creditTotal := t.creditTotal

/-- The totals of each account with lines. -/
abbrev AccountTotals := List (UUID × Totals)

def addLine (accum : AccountTotals) (line : DimensionLine) : AccountTotals :=
  Dicts.collect LedgerLine.accountId Totals.add ⟨0, 0⟩ accum line

structure SegmentAccum where
  segments : List (SegmentKey × AccountTotals)
  unallocated : AccountTotals

structure SegmentData where
  segmentKey : SegmentKey
  segmentValue : SegmentKey
  trialBalanceLines : List TrialBalanceLineItem
  totalRevenue : ℚ
  totalExpenses : ℚ
  netIncome : ℚ
  totalAssets : ℚ

structure SegmentReport where
  metadata : ReportMetadata
  dimensionName : String
  segments : List SegmentData
  unallocated : Option SegmentData

section Functions

variable (accounts : UUID → Option AccountInfo) (config : ReportingConfig)

/-- The segment of a line. -/
def segmentOf (dimensionName : String) (line : DimensionLine) :
    Except SegmentError (Option SegmentKey) :=
  match Dicts.get? (line.dimensions.getD []) dimensionName with
  | none => .ok none
  | some value => value.key

/-- The body of the loop over the lines. -/
def accumulate (dimensionName : String) (st : SegmentAccum) (line : DimensionLine) :
    Except SegmentError SegmentAccum :=
  match accounts line.accountId with
  | none => .ok st
  | some _ =>
      match segmentOf dimensionName line with
      | .error e => .error e
      | .ok none => .ok { st with unallocated := addLine st.unallocated line }
      | .ok (some key) => .ok { st with
          segments := Dicts.setItem st.segments key
            (addLine ((Dicts.get? st.segments key).getD []) line) }

/-- `_to_tb_rows`. -/
def toTbRows (currency : String) (accum : AccountTotals) : List TrialBalanceRow :=
  accum.filterMap fun (accountId, totals) => (accounts accountId).map (totals.row currency accountId)

/-- The net balances of the items of a type. -/
def sumOfType (items : List TrialBalanceLineItem) (t : AccountType) : ℚ :=
  sumNaturalBalances (items.filter fun item => (accounts item.accountId).any (·.accountType = t))

def buildSegment (key value : SegmentKey) (rows : List TrialBalanceRow) : SegmentData :=
  let items := enrichTrialBalance accounts config rows
  let revenue := sumOfType accounts items .revenue
  let expenses := sumOfType accounts items .expense
  { segmentKey := key
    segmentValue := value
    trialBalanceLines := items
    totalRevenue := revenue
    totalExpenses := expenses
    netIncome := defaultContext.round (revenue - expenses)
    totalAssets := sumOfType accounts items .asset }

/-- `sorted(rows_by_segment.items())`.  The keys differ, so the rows are not compared; in whatever
order keys are compared, a string meets a number when there are both. -/
def sortedItems {α : Type} (entries : List (SegmentKey × α)) :
    Except SegmentError (List (SegmentKey × α)) :=
  if entries.all (·.1.isStr) || entries.all (!·.1.isStr) then
    .ok (entries.insertionSort fun a b => a.1.le b.1)
  else .error .notSupported

def buildSegmentReport (rowsBySegment : List (SegmentKey × List TrialBalanceRow))
    (metadata : ReportMetadata) (dimensionName : String)
    (unallocatedRows : Option (List TrialBalanceRow)) : Except SegmentError SegmentReport := do
  let entries ← sortedItems rowsBySegment
  let unallocated := (unallocatedRows.filter (!·.isEmpty)).map
    (buildSegment accounts config (.str "_unallocated") (.str "Unallocated"))
  return {
    metadata := metadata
    dimensionName := dimensionName
    segments := entries.map fun (key, rows) => buildSegment accounts config key key rows
    unallocated := unallocated }

end Functions

/-- The row of an account, from lines. -/
def rowOfLines (lines : List DimensionLine) (currency : String) (accountId : UUID)
    (account : Account) : TrialBalanceRow where
  accountId := accountId
  accountCode := account.code
  accountName := account.name
  currency := currency
  debitTotal := ((lines.filter fun line => line.accountId = accountId && line.side = .debit).map
    (·.amount.toRat)).sum
  creditTotal := ((lines.filter fun line => line.accountId = accountId && line.side = .credit).map
    (·.amount.toRat)).sum

/-- The lines that the selector returns. -/
def ledgerQuery (ledger : Ledger DimensionValue) (asOf : Date) (currency : String) :
    List DimensionLine :=
  query .null ledger { asOfDate := some asOf, currency := some currency }

namespace ReportingService

variable (service : ReportingService) (accounts : Accounts) (ledger : Ledger DimensionValue)

/-- `LedgerSelector.trial_balance` over these rows. -/
def ledgerTrialBalance (asOf : Date) (currency : String) : List TrialBalanceRow :=
  let lines := (ledger.rows.filter (inScope (some asOf) none (some currency))).map (·.toLedgerLine)
  ((lines.map (·.accountId)).dedup.filterMap fun accountId =>
    (accounts accountId).map (rowOfLines lines currency accountId)).insertionSort
      fun a b => service.collate a.accountCode b.accountCode = true

/-- What is reported of the accumulated lines. -/
def reportOf (now : Datetime) (asOfDate : Date) (dimensionName currency : String)
    (accum : SegmentAccum) : Except SegmentError SegmentReport :=
  let get := service.loadAccounts accounts
  let rowsBySegment := accum.segments.map fun (key, totals) => (key, toTbRows get currency totals)
  let unallocatedRows := if accum.unallocated.isEmpty then none
    else some (toTbRows get currency accum.unallocated)
  let metadata := { service.buildMetadata now .segment asOfDate currency none with
    dimensionsFilter := some [(dimensionName, "*")] }
  buildSegmentReport get service.config rowsBySegment metadata dimensionName unallocatedRows

def segmentReport (now : Datetime) (asOfDate : Date) (dimensionName : String)
    (currency : Option String) : Except SegmentError SegmentReport := do
  let curr := service.currencyOf currency
  let accum ← (ledgerQuery ledger asOfDate curr).foldlM
    (accumulate (service.loadAccounts accounts) dimensionName) ⟨[], []⟩
  service.reportOf accounts now asOfDate dimensionName curr accum

end ReportingService

/-! ### Lines and rows -/

def signedAmount (line : DimensionLine) : ℚ :=
  match line.side with
  | .debit => line.amount.toRat
  | .credit => -line.amount.toRat

/-- All amounts of the lines. -/
def volume (lines : List DimensionLine) : ℚ := (lines.map fun line => |line.amount.toRat|).sum

/-- The amounts of an account on a side. -/
def sideAmounts (lines : List DimensionLine) (accountId : UUID) (side : LineSide) : List ℚ :=
  (lines.filter fun line => line.accountId = accountId && line.side = side).map (·.amount.toRat)

/-- The accounts have one row each, with the totals of their lines. -/
structure RowsOf (loaded : UUID → Option AccountInfo) (lines : List DimensionLine)
    (rows : List TrialBalanceRow) : Prop where
  nodup : (rows.map (·.accountId)).Nodup
  debitTotal : ∀ row ∈ rows, row.debitTotal = (sideAmounts lines row.accountId .debit).sum
  creditTotal : ∀ row ∈ rows, row.creditTotal = (sideAmounts lines row.accountId .credit).sum
  complete : ∀ line ∈ lines, (loaded line.accountId).isSome → line.accountId ∈ rows.map (·.accountId)

section Lines

variable {lines : List DimensionLine}

theorem sum_sides (accountId : UUID) :
    (sideAmounts lines accountId .debit).sum - (sideAmounts lines accountId .credit).sum =
      ((lines.filter (·.accountId = accountId)).map signedAmount).sum := by
  induction lines with
  | nil => simp [sideAmounts]
  | cons line lines ih =>
      unfold sideAmounts at ih ⊢
      rw [sum_filter_cons, sum_filter_cons, sum_filter_cons, ← ih]
      by_cases haccount : line.accountId = accountId
      · cases hside : line.side with
        | debit => simp [haccount, signedAmount, hside, add_sub_assoc]
        | credit =>
            simp [haccount, signedAmount, hside]
            ring
      · simp [haccount]

theorem abs_signedAmount (line : DimensionLine) : |signedAmount line| = |line.amount.toRat| := by
  unfold signedAmount
  cases line.side with
  | debit => rfl
  | credit => exact abs_neg _

theorem within_signedAmount (hstored : ∀ line ∈ lines, HasPlaces 9 line.amount.toRat)
    {line : DimensionLine} (hline : line ∈ lines) :
    Within |line.amount.toRat| (signedAmount line) := by
  refine ⟨?_, (abs_signedAmount line).le⟩
  unfold signedAmount
  cases line.side with
  | debit => exact hstored line hline
  | credit => exact (hstored line hline).neg

/-- What different accounts have is within the volume. -/
theorem sum_accounts_le {ids : List UUID} (hnodup : ids.Nodup) :
    (ids.map fun id => volume (lines.filter (·.accountId = id))).sum ≤ volume lines := by
  have hsum := @sum_mul_by_key _ _ _ LedgerLine.accountId _ _ _ hnodup lines (fun _ => (1 : ℚ))
    fun line => |line.amount.toRat|
  simp only [one_mul] at hsum
  have hle : (ids.map fun id => volume (lines.filter (·.accountId = id))).sum ≤ _ := hsum.le
  refine hle.trans (List.sum_le_sum fun line _ => ?_)
  split
  · exact le_rfl
  · exact abs_nonneg _

theorem volume_filter_le (p : DimensionLine → Bool) : volume (lines.filter p) ≤ volume lines :=
  (List.filter_sublist.map _).sum_le_sum fun x hx => by
    obtain ⟨line, -, rfl⟩ := List.mem_map.mp hx
    exact abs_nonneg _

end Lines

section Rows

variable {service : ReportingService} {accounts : Accounts} {lines : List DimensionLine}
variable {rows : List TrialBalanceRow}

theorem net_of_rows (h : RowsOf (service.loadAccounts accounts) lines rows) {row : TrialBalanceRow}
    (hrow : row ∈ rows) :
    net row = ((lines.filter (·.accountId = row.accountId)).map signedAmount).sum := by
  rw [net, h.debitTotal row hrow, h.creditTotal row hrow, sum_sides]

/-- What the lines of an account come to for a type. -/
def ReportingService.typeWeight (service : ReportingService) (accounts : Accounts) (t : AccountType) :
    UUID → ℚ :=
  service.weightOf accounts fun acct => if acct.accountType = t then signOf acct.normalBalance else 0

/-- What lines come to for a type. -/
def ReportingService.ofLines (service : ReportingService) (accounts : Accounts) (t : AccountType)
    (lines : List DimensionLine) : ℚ :=
  (lines.map fun line => service.typeWeight accounts t line.accountId * signedAmount line).sum

theorem typeWeight_cases (t : AccountType) (id : UUID) :
    service.typeWeight accounts t id = 0 ∨ service.typeWeight accounts t id = 1 ∨
      service.typeWeight accounts t id = -1 := by
  unfold ReportingService.typeWeight ReportingService.weightOf
  cases service.loadAccounts accounts id with
  | none => exact .inl rfl
  | some acct =>
      rw [Option.map_some, Option.getD_some]
      split
      · exact signOf_cases acct.normalBalance
      · exact .inl rfl

/-- An account is not of two types. -/
theorem typeWeight_eq_zero {t t' : AccountType} (hne : t ≠ t') (id : UUID) :
    service.typeWeight accounts t id = 0 ∨ service.typeWeight accounts t' id = 0 := by
  unfold ReportingService.typeWeight ReportingService.weightOf
  cases service.loadAccounts accounts id with
  | none => exact .inl rfl
  | some acct =>
      rw [Option.map_some, Option.getD_some, Option.map_some, Option.getD_some]
      by_cases htype : acct.accountType = t
      · exact .inr (if_neg (htype ▸ hne))
      · exact .inl (if_neg htype)

theorem sum_rows_eq_sum_lines (h : RowsOf (service.loadAccounts accounts) lines rows)
    (t : AccountType) :
    (rows.map fun row => service.typeWeight accounts t row.accountId * net row).sum =
      service.ofLines accounts t lines := by
  have hrows : (rows.map fun row => service.typeWeight accounts t row.accountId * net row) =
      (rows.map (·.accountId)).map fun id => service.typeWeight accounts t id *
        ((lines.filter (·.accountId = id)).map signedAmount).sum := by
    rw [List.map_map]
    refine List.map_congr_left fun row hrow => ?_
    rw [net_of_rows h hrow]
    rfl
  rw [hrows, sum_mul_by_key h.nodup]
  unfold ReportingService.ofLines
  congr 1
  refine List.map_congr_left fun line hline => ?_
  split
  · rfl
  · rename_i hid
    have hnone : service.loadAccounts accounts line.accountId = none := by
      by_contra hload
      exact hid (h.complete line hline (Option.isSome_iff_ne_none.mpr hload))
    rw [ReportingService.typeWeight, ReportingService.weightOf, hnone]
    exact (zero_mul _).symm

variable (hstored : ∀ line ∈ lines, HasPlaces 9 line.amount.toRat)
variable (hfits : volume lines * 10 ^ 9 < 10 ^ 28)

include hstored in
theorem within_net (h : RowsOf (service.loadAccounts accounts) lines rows) {row : TrialBalanceRow}
    (hrow : row ∈ rows) : Within (volume (lines.filter (·.accountId = row.accountId))) (net row) := by
  rw [net_of_rows h hrow]
  exact Within.list_sum fun line hline => within_signedAmount hstored (List.mem_of_mem_filter hline)

include hstored in
/-- Lines with weights of at most one are within the volume. -/
theorem within_weighted {c : UUID → ℚ} (hc : ∀ id, c id = 0 ∨ c id = 1 ∨ c id = -1) :
    Within (volume lines) (lines.map fun line => c line.accountId * signedAmount line).sum :=
  Within.list_sum fun line hline => (within_signedAmount hstored hline).mul_sign (hc line.accountId)

include hstored hfits

/-- **The total of a type** is what the lines come to. -/
theorem sumOfType_eq (h : RowsOf (service.loadAccounts accounts) lines rows) (t : AccountType) :
    sumOfType (service.loadAccounts accounts)
      (enrichTrialBalance (service.loadAccounts accounts) service.config rows) t =
        service.ofLines accounts t lines := by
  rw [← sum_rows_eq_sum_lines h]
  have hbound : (rows.map fun row => volume (lines.filter (·.accountId = row.accountId))).sum ≤
      volume lines := by
    have hle := @sum_accounts_le lines _ h.nodup
    rwa [List.map_map] at hle
  have hnatural : ∀ row ∈ rows, ∀ normal, computeNaturalBalance row.debitTotal row.creditTotal normal =
      signOf normal * net row := by
    intro row hrow normal
    have hwithin := within_net hstored h hrow
    have hround : defaultContext.round (net row) = net row := hwithin.round
      (lt_of_le_of_lt (mul_le_mul_of_nonneg_right (volume_filter_le _) (by positivity)) hfits)
    cases normal with
    | debit => exact hround.trans (one_mul _).symm
    | credit =>
        show defaultContext.round (row.creditTotal - row.debitTotal) = -1 * net row
        rw [← neg_sub, Decimal.Context.round_neg, neg_one_mul]
        exact congrArg Neg.neg hround
  refine total_filterMap (filtered_perm _ rows) (fun row hrow => ?_) (fun row hrow => ?_)
    (lt_of_le_of_lt (mul_le_mul_of_nonneg_right hbound (by positivity)) hfits)
  · unfold ReportingService.itemPart enrichRow ReportingService.typeWeight ReportingService.weightOf
    cases hacct : service.loadAccounts accounts row.accountId with
    | none => simp
    | some acct =>
        simp only [hnatural row hrow, Option.map_some, Option.getD_some]
        split
        · rename_i hzero
          simp only [Bool.and_eq_true, decide_eq_true_eq] at hzero
          split
          · simpa using hzero.2.symm
          · simp
        · by_cases htype : acct.accountType = t <;> simp [Option.filter_some, hacct, htype]
  · exact (within_net hstored h hrow).mul_sign (typeWeight_cases t row.accountId)

/-- A segment with the rows of some lines. -/
theorem buildSegment_totals (h : RowsOf (service.loadAccounts accounts) lines rows)
    (key value : SegmentKey) {segment : SegmentData}
    (hsegment : segment = buildSegment (service.loadAccounts accounts) service.config key value rows) :
    segment.totalRevenue = service.ofLines accounts .revenue lines ∧
      segment.totalExpenses = service.ofLines accounts .expense lines ∧
      segment.netIncome =
        service.ofLines accounts .revenue lines - service.ofLines accounts .expense lines ∧
      segment.totalAssets = service.ofLines accounts .asset lines := by
  subst hsegment
  refine ⟨sumOfType_eq hstored hfits h .revenue, sumOfType_eq hstored hfits h .expense, ?_,
    sumOfType_eq hstored hfits h .asset⟩
  show defaultContext.round (sumOfType _ _ .revenue - sumOfType _ _ .expense) = _
  rw [sumOfType_eq hstored hfits h, sumOfType_eq hstored hfits h]
  have hdifference : service.ofLines accounts .revenue lines - service.ofLines accounts .expense lines =
      (lines.map fun line => (service.typeWeight accounts .revenue line.accountId -
        service.typeWeight accounts .expense line.accountId) * signedAmount line).sum := by
    unfold ReportingService.ofLines
    rw [← sum_map_sub]
    simp only [sub_mul]
  rw [hdifference]
  refine (within_weighted (c := fun id => service.typeWeight accounts .revenue id -
    service.typeWeight accounts .expense id) hstored fun id => ?_).round hfits
  rcases @typeWeight_eq_zero service accounts .revenue .expense (by decide) id with hzero | hzero
  · rw [hzero, zero_sub, neg_eq_zero, neg_eq_iff_eq_neg, neg_inj]
    exact (typeWeight_cases .expense id).imp_right Or.symm
  · rw [hzero, sub_zero]
    exact typeWeight_cases .revenue id

end Rows

/-! ### The accumulated lines -/

/-- The segment of a line, where a value that is not hashable counts for none. -/
def keyOf (dimensionName : String) (line : DimensionLine) : Option SegmentKey :=
  match segmentOf dimensionName line with
  | .ok key => key
  | .error _ => none

/-- The value of the line can be the key of a dict. -/
def Hashable (dimensionName : String) (line : DimensionLine) : Prop :=
  ∃ key, segmentOf dimensionName line = .ok key

section Accumulated

variable {loaded : UUID → Option AccountInfo} {name : String} {lines : List DimensionLine}
variable {st st' : SegmentAccum}

/-- The lines of the accounts in the reports. -/
def loadedLines (loaded : UUID → Option AccountInfo) (lines : List DimensionLine) :
    List DimensionLine := lines.filter fun line => (loaded line.accountId).isSome

/-- The lines of a segment, or those outside of all. -/
def linesOf (loaded : UUID → Option AccountInfo) (name : String) (lines : List DimensionLine)
    (key : Option SegmentKey) : List DimensionLine :=
  (loadedLines loaded lines).filter (keyOf name · = key)

/-- The lines that have a segment, with it. -/
def keyedLines (loaded : UUID → Option AccountInfo) (name : String) (lines : List DimensionLine) :
    List (SegmentKey × DimensionLine) :=
  (loadedLines loaded lines).filterMap fun line => (keyOf name line).map (·, line)

/-- What the loop has accumulated. -/
def accumulated (loaded : UUID → Option AccountInfo) (name : String) (st : SegmentAccum)
    (lines : List DimensionLine) : SegmentAccum where
  segments := (keyedLines loaded name lines).foldl
    (Dicts.collect Prod.fst (fun accum keyed => addLine accum keyed.2) []) st.segments
  unallocated := (linesOf loaded name lines none).foldl addLine st.unallocated

/-- **The loop goes through** exactly when the values of all loaded lines are hashable. -/
theorem foldlM_accumulate : lines.foldlM (accumulate loaded name) st = .ok st' ↔
    (∀ line ∈ loadedLines loaded lines, Hashable name line) ∧
      st' = accumulated loaded name st lines := by
  induction lines generalizing st with
  | nil => simp [loadedLines, accumulated, keyedLines, linesOf, pure, Except.pure, eq_comm]
  | cons line lines ih =>
      rw [List.foldlM_cons]
      cases hacct : loaded line.accountId with
      | none =>
          have hskip : loadedLines loaded (line :: lines) = loadedLines loaded lines := by
            simp [loadedLines, hacct]
          have hstep : accumulate loaded name st line = .ok st := by simp [accumulate, hacct]
          rw [hstep, hskip, accumulated, keyedLines, linesOf, hskip]
          exact ih
      | some acct =>
          have hkeep : loadedLines loaded (line :: lines) = line :: loadedLines loaded lines := by
            simp [loadedLines, hacct]
          rw [hkeep, List.forall_mem_cons]
          cases hsegment : segmentOf name line with
          | error e =>
              have hstep : accumulate loaded name st line = .error e := by
                simp [accumulate, hacct, hsegment]
              rw [hstep]
              constructor
              · intro h
                cases h
              · rintro ⟨⟨⟨key, hkey⟩, -⟩, -⟩
                rw [hsegment] at hkey
                cases hkey
          | ok key =>
              have hkey : keyOf name line = key := by rw [keyOf, hsegment]
              have hstep : accumulate loaded name st line = .ok (accumulated loaded name st [line]) := by
                unfold accumulate accumulated keyedLines linesOf loadedLines
                cases key with
                | none => simp [hacct, hsegment, hkey]
                | some key => simp [hacct, hsegment, hkey, Dicts.collect]
              have hrest : accumulated loaded name (accumulated loaded name st [line]) lines =
                  accumulated loaded name st (line :: lines) := by
                unfold accumulated keyedLines linesOf
                rw [hkeep]
                cases key with
                | none => simp [loadedLines, hacct, hkey]
                | some key => simp [loadedLines, hacct, hkey]
              rw [hstep, ← hrest]
              show lines.foldlM (accumulate loaded name) _ = .ok st' ↔ _
              rw [ih]
              have hhash : Hashable name line := ⟨key, hsegment⟩
              tauto

/-- The lines that are kept under a key. -/
theorem foldl_keyed (accum : AccountTotals) (key : SegmentKey) :
    ((keyedLines loaded name lines).filter (·.1 = key)).foldl
        (fun accum keyed => addLine accum keyed.2) accum =
      (linesOf loaded name lines (some key)).foldl addLine accum := by
  unfold keyedLines linesOf
  induction loadedLines loaded lines generalizing accum with
  | nil => rfl
  | cons line lines ih =>
      cases hkey : keyOf name line with
      | none => simpa [hkey] using ih accum
      | some key' =>
          by_cases hsame : key' = key
          · subst hsame
            simpa [hkey] using ih (addLine accum line)
          · simpa [hkey, hsame] using ih accum

theorem mem_keys {key : SegmentKey} :
    key ∈ (keyedLines loaded name lines).map Prod.fst ↔
      ∃ line ∈ loadedLines loaded lines, keyOf name line = some key := by
  unfold keyedLines
  rw [List.map_filterMap, List.mem_filterMap]
  simp

/-- The totals are sums of both sides, rounded at every line. -/
theorem foldl_totals (t : Totals) :
    lines.foldl Totals.add t =
      ⟨((lines.filter (·.side = .debit)).map (·.amount.toRat)).foldl
          (fun acc x => defaultContext.round (acc + x)) t.debitTotal,
        ((lines.filter (·.side = .credit)).map (·.amount.toRat)).foldl
          (fun acc x => defaultContext.round (acc + x)) t.creditTotal⟩ := by
  induction lines generalizing t with
  | nil => rfl
  | cons line lines ih =>
      rw [List.foldl_cons, ih]
      cases hside : line.side <;> simp [Totals.add, hside]

/-- **The accumulated accounts** have the totals of their lines. -/
theorem rowsOf_toTbRows (currency : String) (hloaded : ∀ line ∈ lines, (loaded line.accountId).isSome)
    (hstored : ∀ line ∈ lines, HasPlaces 9 line.amount.toRat)
    (hfits : volume lines * 10 ^ 9 < 10 ^ 28) :
    RowsOf loaded lines (toTbRows loaded currency (lines.foldl addLine [])) := by
  have hcollect : lines.foldl addLine [] =
      lines.foldl (Dicts.collect LedgerLine.accountId Totals.add ⟨0, 0⟩) [] := rfl
  have hside : ∀ id side, defaultContext.total (sideAmounts lines id side) =
      (sideAmounts lines id side).sum := by
    intro id side
    refine @Decimal.Context.total_eq_sum 9 _ defaultContext (fun x hx => ?_) (lt_of_le_of_lt ?_ hfits)
    · obtain ⟨line, hline, rfl⟩ := List.mem_map.mp hx
      exact hstored line (List.mem_of_mem_filter hline)
    · refine mul_le_mul_of_nonneg_right ?_ (by positivity)
      unfold sideAmounts
      rw [List.map_map]
      exact volume_filter_le _
  have hrow : ∀ row ∈ toTbRows loaded currency (lines.foldl addLine []), row.debitTotal =
      (sideAmounts lines row.accountId .debit).sum ∧
        row.creditTotal = (sideAmounts lines row.accountId .credit).sum := by
    intro row hrow
    obtain ⟨⟨id, totals⟩, hmem, hsome⟩ := List.mem_filterMap.mp hrow
    obtain ⟨acct, -, rfl⟩ := Option.map_eq_some_iff.mp hsome
    rw [hcollect, Dicts.mem_collect] at hmem
    obtain ⟨-, rfl⟩ := hmem
    dsimp only [Totals.row]
    rw [foldl_totals, List.filter_filter, List.filter_filter, ← hside, ← hside]
    simp only [sideAmounts, Bool.and_comm]
    exact ⟨rfl, rfl⟩
  refine ⟨?_, fun row h => (hrow row h).1, fun row h => (hrow row h).2, ?_⟩
  · refine nodup_keys_filterMap (fun entry row h => ?_) (Dicts.nodup_collect (d := []) List.nodup_nil)
    obtain ⟨account, -, rfl⟩ := Option.map_eq_some_iff.mp h
    rfl
  · intro line hline _
    obtain ⟨acct, hacct⟩ := Option.isSome_iff_exists.mp (hloaded line hline)
    set totals := (lines.filter (·.accountId = line.accountId)).foldl Totals.add ⟨0, 0⟩ with htotals
    have hmem : (line.accountId, totals) ∈ lines.foldl addLine [] := by
      rw [hcollect, Dicts.mem_collect]
      exact ⟨List.mem_map_of_mem hline, htotals⟩
    refine List.mem_map.mpr ⟨totals.row currency line.accountId acct,
      List.mem_filterMap.mpr ⟨_, hmem, ?_⟩, rfl⟩
    dsimp only
    rw [hacct, Option.map_some]

end Accumulated

section TrialBalance

variable {service : ReportingService} {accounts : Accounts} {ledger : Ledger DimensionValue}

/-- The lines that the selector sums up. -/
def scopeLines (ledger : Ledger DimensionValue) (asOf : Date) (currency : String) :
    List DimensionLine :=
  (ledger.rows.filter (inScope (some asOf) none (some currency))).map (·.toLedgerLine)

/-- The report goes over the lines of the trial balance, in the order of their entries. -/
theorem ledgerQuery_perm (asOf : Date) (currency : String) :
    (ledgerQuery ledger asOf currency).Perm (scopeLines ledger asOf currency) := by
  have hquery : ledgerQuery ledger asOf currency =
      selected ledger { asOfDate := some asOf, currency := some currency } := by
    exact List.filter_eq_self.mpr fun _ _ => rfl
  rw [hquery]
  exact (List.perm_insertionSort _ _).map _

/-- **The rows of the trial balance** have the totals of the lines. -/
theorem rowsOf_ledgerTrialBalance (asOf : Date) (currency : String) :
    RowsOf (service.loadAccounts accounts) (scopeLines ledger asOf currency)
      (service.ledgerTrialBalance accounts ledger asOf currency) := by
  have hperm : (service.ledgerTrialBalance accounts ledger asOf currency).Perm
      (((scopeLines ledger asOf currency).map (·.accountId)).dedup.filterMap fun accountId =>
        (accounts accountId).map (rowOfLines (scopeLines ledger asOf currency) currency accountId)) :=
    List.perm_insertionSort _ _
  have hrow : ∀ row ∈ service.ledgerTrialBalance accounts ledger asOf currency,
      ∃ id account, row = rowOfLines (scopeLines ledger asOf currency) currency id account := by
    intro row hrow
    obtain ⟨id, -, hsome⟩ := List.mem_filterMap.mp (hperm.mem_iff.mp hrow)
    obtain ⟨account, -, rfl⟩ := Option.map_eq_some_iff.mp hsome
    exact ⟨id, account, rfl⟩
  refine ⟨?_, fun row h => ?_, fun row h => ?_, fun line hline hload => ?_⟩
  · rw [(hperm.map _).nodup_iff]
    refine nodup_keys_filterMap (fun id row h => ?_) (show (List.map id _).Nodup by
      rw [List.map_id]
      exact List.nodup_dedup _)
    obtain ⟨account, -, rfl⟩ := Option.map_eq_some_iff.mp h
    rfl
  · obtain ⟨id, account, rfl⟩ := hrow row h
    rfl
  · obtain ⟨id, account, rfl⟩ := hrow row h
    rfl
  · obtain ⟨account, haccount⟩ : ∃ account, accounts line.accountId = some account := by
      refine Option.ne_none_iff_exists'.mp fun hnone => ?_
      rw [loadAccounts_of_none hnone] at hload
      cases hload
    refine ((hperm.map _).mem_iff).mpr (List.mem_map.mpr
      ⟨rowOfLines (scopeLines ledger asOf currency) currency line.accountId account, ?_, rfl⟩)
    refine List.mem_filterMap.mpr ⟨line.accountId, ?_, by rw [haccount, Option.map_some]⟩
    exact List.mem_dedup.mpr (List.mem_map_of_mem hline)

end TrialBalance

/-! ### Adding up -/

section AddUp

variable (service : ReportingService) (accounts : Accounts) (ledger : Ledger DimensionValue)
variable (asOf : Date) (name : String) (currency : String)

/-- A quantity of all segments and of the lines outside of them. -/
def SegmentReport.sum (report : SegmentReport) (f : SegmentData → ℚ) : ℚ :=
  (report.segments.map f).sum + (report.unallocated.map f).getD 0

/-- The segment has the rows of the lines. -/
def SegmentData.Shows (s : SegmentData) (lines : List DimensionLine) : Prop :=
  ∃ rows, RowsOf (service.loadAccounts accounts) lines rows ∧
    s.trialBalanceLines = enrichTrialBalance (service.loadAccounts accounts) service.config rows

/-- **Segments add up**: each line of a loaded account is in exactly one segment or in none, the
segments have the rows of their lines, and all together have what the trial balance has. -/
structure AddsUp (report : SegmentReport) : Prop where
  lines : (report.segments.flatMap (fun s => linesOf (service.loadAccounts accounts) name
      (ledgerQuery ledger asOf currency) (some s.segmentKey)) ++
    linesOf (service.loadAccounts accounts) name (ledgerQuery ledger asOf currency) none).Perm
      (loadedLines (service.loadAccounts accounts) (ledgerQuery ledger asOf currency))
  segments : ∀ s ∈ report.segments, s.Shows service accounts (linesOf
    (service.loadAccounts accounts) name (ledgerQuery ledger asOf currency) (some s.segmentKey))
  unallocated : ∀ s ∈ report.unallocated, s.Shows service accounts (linesOf
    (service.loadAccounts accounts) name (ledgerQuery ledger asOf currency) none)
  rest : report.unallocated = none →
    linesOf (service.loadAccounts accounts) name (ledgerQuery ledger asOf currency) none = []
  totals : ∀ f ∈ [SegmentData.totalRevenue, SegmentData.totalExpenses, SegmentData.netIncome,
    SegmentData.totalAssets], report.sum f = f (buildSegment (service.loadAccounts accounts)
      service.config (.str "") (.str "") (service.ledgerTrialBalance accounts ledger asOf currency))

/-- The values of the loaded lines can be keys, and not both strings and numbers are among them. -/
structure Sortable : Prop where
  hashable : ∀ line ∈ loadedLines (service.loadAccounts accounts)
    (ledgerQuery ledger asOf currency), Hashable name line
  one_kind : ∀ line ∈ loadedLines (service.loadAccounts accounts) (ledgerQuery ledger asOf currency),
    ∀ line' ∈ loadedLines (service.loadAccounts accounts) (ledgerQuery ledger asOf currency),
      ∀ key ∈ keyOf name line, ∀ key' ∈ keyOf name line', key.isStr = key'.isStr

variable {service accounts ledger asOf name currency}

theorem sortedItems_eq_ok {α : Type} {entries sorted : List (SegmentKey × α)} :
    sortedItems entries = .ok sorted ↔
      (∀ e ∈ entries, ∀ e' ∈ entries, e.1.isStr = e'.1.isStr) ∧
        sorted = entries.insertionSort fun a b => a.1.le b.1 := by
  have hkinds : (entries.all (·.1.isStr) || entries.all (!·.1.isStr)) = true ↔
      ∀ e ∈ entries, ∀ e' ∈ entries, e.1.isStr = e'.1.isStr := by
    rw [Bool.or_eq_true, List.all_eq_true, List.all_eq_true]
    constructor
    · rintro (h | h)
      · exact fun e he e' he' => (h e he).trans (h e' he').symm
      · exact fun e he e' he' => Bool.not_inj ((h e he).trans (h e' he').symm)
    · intro h
      by_cases hstr : ∃ e ∈ entries, e.1.isStr = true
      · obtain ⟨e, he, hstr⟩ := hstr
        exact .inl fun e' he' => (h e' he' e he).trans hstr
      · refine .inr fun e he => ?_
        rw [Bool.not_eq_true']
        exact Bool.not_eq_true _ ▸ fun hstr' => hstr ⟨e, he, hstr'⟩
  unfold sortedItems
  split
  · rename_i h
    rw [Except.ok.injEq, eq_comm]
    exact (and_iff_right (hkinds.mp h)).symm
  · rename_i h
    constructor
    · intro herror
      cases herror
    · exact fun ⟨hkind, _⟩ => absurd (hkinds.mpr hkind) h

/-- What lines come to is added up by segments. -/
theorem sum_segments (t : AccountType) (ks : List SegmentKey) (lines : List DimensionLine)
    (h : (ks.flatMap (fun key => linesOf (service.loadAccounts accounts) name lines (some key)) ++
      linesOf (service.loadAccounts accounts) name lines none).Perm
        (loadedLines (service.loadAccounts accounts) lines)) :
    (ks.map fun key => service.ofLines accounts t
        (linesOf (service.loadAccounts accounts) name lines (some key))).sum +
      service.ofLines accounts t (linesOf (service.loadAccounts accounts) name lines none) =
        service.ofLines accounts t lines := by
  have hloaded : ∀ lines, service.ofLines accounts t lines =
      service.ofLines accounts t (loadedLines (service.loadAccounts accounts) lines) := by
    intro lines
    unfold loadedLines
    induction lines with
    | nil => rfl
    | cons line lines ih =>
        unfold ReportingService.ofLines at ih ⊢
        rw [sum_filter_cons, List.map_cons, List.sum_cons, ih]
        congr 1
        split
        · rfl
        · rename_i hnone
          rw [ReportingService.typeWeight, ReportingService.weightOf, Option.not_isSome_iff_eq_none.mp hnone]
          exact zero_mul _
  rw [hloaded lines]
  unfold ReportingService.ofLines
  rw [← (h.map _).sum_eq, List.map_append, List.sum_append, List.flatMap_def, List.map_flatten,
    List.sum_flatten, List.map_map, List.map_map]
  rfl

/-- The segments that the loop has accumulated. -/
theorem mem_accumulated {lines : List DimensionLine} {loaded : UUID → Option AccountInfo}
    {key : SegmentKey} {totals : AccountTotals} :
    (key, totals) ∈ (accumulated loaded name ⟨[], []⟩ lines).segments ↔
      (∃ line ∈ loadedLines loaded lines, keyOf name line = some key) ∧
        totals = (linesOf loaded name lines (some key)).foldl addLine [] := by
  rw [← mem_keys, ← foldl_keyed]
  exact Dicts.mem_collect

/-- A report is what is reported of the accumulated lines. -/
theorem segmentReport_eq_ok {now : Datetime} {currency : Option String} {report : SegmentReport} :
    service.segmentReport accounts ledger now asOf name currency = .ok report ↔
      (∀ line ∈ loadedLines (service.loadAccounts accounts)
        (ledgerQuery ledger asOf (service.currencyOf currency)), Hashable name line) ∧
      service.reportOf accounts now asOf name (service.currencyOf currency)
        (accumulated (service.loadAccounts accounts) name ⟨[], []⟩
          (ledgerQuery ledger asOf (service.currencyOf currency))) = .ok report := by
  unfold ReportingService.segmentReport
  dsimp only
  rw [Traversals.bind_eq_ok]
  constructor
  · rintro ⟨accum, hloop, hreport⟩
    obtain ⟨hhash, rfl⟩ := foldlM_accumulate.mp hloop
    exact ⟨hhash, hreport⟩
  · rintro ⟨hhash, hreport⟩
    exact ⟨_, foldlM_accumulate.mpr ⟨hhash, rfl⟩, hreport⟩

variable {now : Datetime} {accum : SegmentAccum} {report : SegmentReport}

/-- There is a report when the keys are of one kind. -/
theorem exists_reportOf : (∃ report, service.reportOf accounts now asOf name currency accum = .ok report) ↔
    ∀ e ∈ accum.segments, ∀ e' ∈ accum.segments, e.1.isStr = e'.1.isStr := by
  have hkeys : (∀ e ∈ accum.segments, ∀ e' ∈ accum.segments, e.1.isStr = e'.1.isStr) ↔
      ∀ e ∈ accum.segments.map fun (key, totals) =>
          (key, toTbRows (service.loadAccounts accounts) currency totals),
        ∀ e' ∈ accum.segments.map fun (key, totals) =>
          (key, toTbRows (service.loadAccounts accounts) currency totals), e.1.isStr = e'.1.isStr := by
    simp only [List.forall_mem_map]
  rw [hkeys]
  unfold ReportingService.reportOf buildSegmentReport
  dsimp only
  simp only [Traversals.bind_eq_ok, sortedItems_eq_ok]
  constructor
  · rintro ⟨report, sorted, ⟨hkinds, -⟩, -⟩
    exact hkinds
  · intro hkinds
    exact ⟨_, _, ⟨hkinds, rfl⟩, rfl⟩

/-- **The segments of a report** are those accumulated, and so is what is outside of them. -/
theorem reportOf_spec (h : service.reportOf accounts now asOf name currency accum = .ok report)
    (totals : SegmentKey → AccountTotals) (htotals : ∀ e ∈ accum.segments, e.2 = totals e.1) :
    (∃ ks : List SegmentKey, ks.Perm (accum.segments.map Prod.fst) ∧ report.segments = ks.map fun key =>
      buildSegment (service.loadAccounts accounts) service.config key key
        (toTbRows (service.loadAccounts accounts) currency (totals key))) ∧
    report.unallocated =
      if (toTbRows (service.loadAccounts accounts) currency accum.unallocated).isEmpty then none
      else some (buildSegment (service.loadAccounts accounts) service.config (.str "_unallocated")
        (.str "Unallocated") (toTbRows (service.loadAccounts accounts) currency accum.unallocated)) := by
  unfold ReportingService.reportOf buildSegmentReport at h
  dsimp only at h
  rw [Traversals.bind_eq_ok] at h
  obtain ⟨sorted, hsorted, h⟩ := h
  obtain ⟨-, hsorted⟩ := sortedItems_eq_ok.mp hsorted
  obtain rfl := Except.ok.inj h
  have hperm : sorted.Perm (accum.segments.map fun (key, totals) =>
      (key, toTbRows (service.loadAccounts accounts) currency totals)) :=
    hsorted ▸ List.perm_insertionSort _ _
  refine ⟨⟨sorted.map Prod.fst, ?_, ?_⟩, ?_⟩
  · have hfst := hperm.map Prod.fst
    rwa [List.map_map] at hfst
  · dsimp only
    rw [List.map_map]
    refine List.map_congr_left fun e he => ?_
    obtain ⟨entry, hentry, rfl⟩ := List.mem_map.mp (hperm.mem_iff.mp he)
    show _ = buildSegment _ _ _ _ (toTbRows _ _ (totals entry.1))
    rw [← htotals entry hentry]
  · dsimp only
    cases hempty : accum.unallocated with
    | nil => rfl
    | cons entry rest =>
        rw [if_neg (by simp)]
        cases toTbRows (service.loadAccounts accounts) currency (entry :: rest) with
        | nil => rfl
        | cons row rows => rfl

/-- Every report adds up. -/
theorem addsUp_of_report {currency : Option String}
    (hstored : ∀ row ∈ ledger.rows, HasPlaces 9 row.amount.toRat)
    (hfits : volume (scopeLines ledger asOf (service.currencyOf currency)) * 10 ^ 9 < 10 ^ 28)
    (h : service.segmentReport accounts ledger now asOf name currency = .ok report) :
    AddsUp service accounts ledger asOf name (service.currencyOf currency) report := by
  set curr := service.currencyOf currency with hcurr
  set get := service.loadAccounts accounts with hget
  set lines := ledgerQuery ledger asOf curr with hlines
  obtain ⟨hhash, hreport⟩ := segmentReport_eq_ok.mp h
  obtain ⟨⟨ks, hks, hsegments⟩, hunallocated⟩ := reportOf_spec hreport
    (fun key => (linesOf get name lines (some key)).foldl addLine [])
    fun e he => (mem_accumulated.mp he).2
  have hperm := @ledgerQuery_perm ledger asOf curr
  have hplaces : ∀ line ∈ scopeLines ledger asOf curr, HasPlaces 9 line.amount.toRat := by
    intro line hline
    obtain ⟨row, hrow, rfl⟩ := List.mem_map.mp hline
    exact hstored row (List.mem_of_mem_filter hrow)
  have hvolume : volume lines = volume (scopeLines ledger asOf curr) := (hperm.map _).sum_eq
  -- what is asked of the lines of a segment
  have hpart : ∀ key, (∀ line ∈ linesOf get name lines key, HasPlaces 9 line.amount.toRat) ∧
      volume (linesOf get name lines key) * 10 ^ 9 < 10 ^ 28 ∧
      RowsOf get (linesOf get name lines key)
        (toTbRows get curr ((linesOf get name lines key).foldl addLine [])) := by
    intro key
    have hstored' : ∀ line ∈ linesOf get name lines key, HasPlaces 9 line.amount.toRat :=
      fun line hline => hplaces line (hperm.mem_iff.mp
        (List.mem_of_mem_filter (List.mem_of_mem_filter hline)))
    have hfits' : volume (linesOf get name lines key) * 10 ^ 9 < 10 ^ 28 := by
      refine lt_of_le_of_lt (mul_le_mul_of_nonneg_right ?_ (by positivity)) hfits
      exact (volume_filter_le _).trans ((volume_filter_le _).trans hvolume.le)
    exact ⟨hstored', hfits', rowsOf_toTbRows curr
      (fun line hline => (List.mem_filter.mp (List.mem_of_mem_filter hline)).2) hstored' hfits'⟩
  have hcover : (ks.flatMap (fun key => linesOf get name lines (some key)) ++
      linesOf get name lines none).Perm (loadedLines get lines) := by
    refine perm_flatMap_filter (keyOf name) ks (loadedLines get lines) ?_ fun line hline key hkey => ?_
    · rw [hks.nodup_iff]
      exact Dicts.nodup_collect (d := []) List.nodup_nil
    · rw [hks.mem_iff]
      exact List.mem_map.mpr ⟨(key, _), mem_accumulated.mpr ⟨⟨line, hline, hkey⟩, rfl⟩, rfl⟩
  have hempty : (toTbRows get curr ((linesOf get name lines none).foldl addLine [])).isEmpty = true ↔
      linesOf get name lines none = [] := by
    rw [List.isEmpty_iff]
    constructor
    · intro hrows
      refine List.eq_nil_iff_forall_not_mem.mpr fun line hline => ?_
      have hmem := (hpart none).2.2.complete line hline
        (List.mem_filter.mp (List.mem_of_mem_filter hline)).2
      rw [hrows] at hmem
      exact List.not_mem_nil hmem
    · intro hnil
      rw [hnil]
      rfl
  have haccum : (accumulated get name ⟨[], []⟩ lines).unallocated =
      (linesOf get name lines none).foldl addLine [] := rfl
  rw [haccum] at hunallocated
  refine ⟨?_, ?_, ?_, ?_, ?_⟩
  · rw [hsegments, List.flatMap_map]
    exact hcover
  · intro s hs
    rw [hsegments] at hs
    obtain ⟨key, -, rfl⟩ := List.mem_map.mp hs
    exact ⟨_, (hpart (some key)).2.2, rfl⟩
  · intro s hs
    rw [hunallocated] at hs
    split at hs
    · cases hs
    · obtain rfl := Option.some.inj hs
      exact ⟨_, (hpart none).2.2, rfl⟩
  · intro hnone
    rw [hunallocated] at hnone
    split at hnone
    · rename_i hrows
      exact hempty.mp hrows
    · cases hnone
  · have htotal : ∀ (f : SegmentData → ℚ) (F : List DimensionLine → ℚ), F [] = 0 →
        (∀ key value lines rows, (∀ line ∈ lines, HasPlaces 9 line.amount.toRat) →
          volume lines * 10 ^ 9 < 10 ^ 28 → RowsOf get lines rows →
            f (buildSegment get service.config key value rows) = F lines) →
        (ks.map fun key => F (linesOf get name lines (some key))).sum + F (linesOf get name lines none) =
          F (scopeLines ledger asOf curr) →
        report.sum f = f (buildSegment get service.config (.str "") (.str "")
          (service.ledgerTrialBalance accounts ledger asOf curr)) := by
      intro f F hnil hF hsum
      rw [hF _ _ _ _ hplaces hfits (rowsOf_ledgerTrialBalance asOf curr), ← hsum, SegmentReport.sum,
        hsegments, hunallocated, List.map_map]
      congr 1
      · congr 1
        exact List.map_congr_left fun key _ =>
          hF _ _ _ _ (hpart (some key)).1 (hpart (some key)).2.1 (hpart (some key)).2.2
      · split
        · rename_i hrows
          rw [hempty.mp hrows, hnil]
          rfl
        · exact hF _ _ _ _ (hpart none).1 (hpart none).2.1 (hpart none).2.2
    have hsum : ∀ t, (ks.map fun key => service.ofLines accounts t (linesOf get name lines (some key))).sum +
        service.ofLines accounts t (linesOf get name lines none) =
          service.ofLines accounts t (scopeLines ledger asOf curr) := fun t =>
      (sum_segments t ks lines hcover).trans (hperm.map _).sum_eq
    intro f hf
    simp only [List.mem_cons, List.not_mem_nil, or_false] at hf
    rcases hf with rfl | rfl | rfl | rfl
    · exact htotal _ (service.ofLines accounts .revenue) rfl (fun key value lines rows hs hf h =>
        (buildSegment_totals hs hf h key value rfl).1) (hsum .revenue)
    · exact htotal _ (service.ofLines accounts .expense) rfl (fun key value lines rows hs hf h =>
        (buildSegment_totals hs hf h key value rfl).2.1) (hsum .expense)
    · refine htotal _ (fun lines => service.ofLines accounts .revenue lines -
        service.ofLines accounts .expense lines) (sub_self 0) (fun key value lines rows hs hf h =>
          (buildSegment_totals hs hf h key value rfl).2.2.1) ?_
      rw [sum_map_sub, ← hsum, ← hsum]
      ring
    · exact htotal _ (service.ofLines accounts .asset) rfl (fun key value lines rows hs hf h =>
        (buildSegment_totals hs hf h key value rfl).2.2.2) (hsum .asset)

/-- **When segments add up.**  With stored amounts whose digits fit the decimal context, there is a
report, and the segments add up in it, if and only if the dimension values of the loaded lines can be
sorted. -/
theorem segments_add_up_iff (service : ReportingService) (accounts : Accounts)
    (ledger : Ledger DimensionValue) (now : Datetime) (asOf : Date) (name : String)
    (currency : Option String) (hstored : ∀ row ∈ ledger.rows, HasPlaces 9 row.amount.toRat)
    (hfits : volume (scopeLines ledger asOf (service.currencyOf currency)) * 10 ^ 9 < 10 ^ 28) :
    (∃ report, service.segmentReport accounts ledger now asOf name currency = .ok report ∧
      AddsUp service accounts ledger asOf name (service.currencyOf currency) report) ↔
    Sortable service accounts ledger asOf name (service.currencyOf currency) := by
  have hkinds : (∀ e ∈ (accumulated (service.loadAccounts accounts) name ⟨[], []⟩
      (ledgerQuery ledger asOf (service.currencyOf currency))).segments,
        ∀ e' ∈ (accumulated (service.loadAccounts accounts) name ⟨[], []⟩
          (ledgerQuery ledger asOf (service.currencyOf currency))).segments, e.1.isStr = e'.1.isStr) ↔
      ∀ line ∈ loadedLines (service.loadAccounts accounts)
          (ledgerQuery ledger asOf (service.currencyOf currency)),
        ∀ line' ∈ loadedLines (service.loadAccounts accounts)
            (ledgerQuery ledger asOf (service.currencyOf currency)),
          ∀ key ∈ keyOf name line, ∀ key' ∈ keyOf name line', key.isStr = key'.isStr := by
    constructor
    · intro h line hline line' hline' key hkey key' hkey'
      exact h (key, _) (mem_accumulated.mpr ⟨⟨line, hline, hkey⟩, rfl⟩) (key', _)
        (mem_accumulated.mpr ⟨⟨line', hline', hkey'⟩, rfl⟩)
    · rintro h ⟨key, totals⟩ he ⟨key', totals'⟩ he'
      obtain ⟨⟨line, hline, hkey⟩, -⟩ := mem_accumulated.mp he
      obtain ⟨⟨line', hline', hkey'⟩, -⟩ := mem_accumulated.mp he'
      exact h line hline line' hline' key hkey key' hkey'
  constructor
  · rintro ⟨report, hreport, -⟩
    obtain ⟨hhash, hreported⟩ := segmentReport_eq_ok.mp hreport
    exact ⟨hhash, hkinds.mp (exists_reportOf.mp ⟨report, hreported⟩)⟩
  · rintro ⟨hhash, hkind⟩
    obtain ⟨report, hreported⟩ := (@exists_reportOf service accounts asOf name
      (service.currencyOf currency) now _).mpr (hkinds.mpr hkind)
    have hreport := segmentReport_eq_ok.mpr ⟨hhash, hreported⟩
    exact ⟨report, hreport, addsUp_of_report hstored hfits hreport⟩

end AddUp

/-! ### Departments -/

/-- A posted line on the cash account. -/
def departmentRow (lineId : UUID) (department : Option DimensionValue) :
    LedgerSelector.LedgerRow DimensionValue where
  journalEntryId := ⟨10⟩
  journalLineId := lineId
  seq := 1
  effectiveDate := sampleTime.date
  accountId := ⟨0xa1⟩
  accountCode := "1000"
  side := .debit
  amount := .finite false 10000 (-2)
  currency := "USD"
  dimensions := department.map fun value => [("department", value)]
  status := .posted
  lineSeq := 0
  isRounding := false

/-- Two lines with departments and one without any dimensions. -/
def departmentLedger (first second : DimensionValue) : Ledger DimensionValue where
  rows := [departmentRow ⟨1⟩ (some first), departmentRow ⟨2⟩ (some second), departmentRow ⟨3⟩ none]
  ids_nodup := by
    show ([⟨1⟩, ⟨2⟩, ⟨3⟩] : List UUID).Nodup
    decide

theorem departments_add_up : ∃ report,
    sampleService.segmentReport (sampleAccounts true .revenue) (departmentLedger (.str "10") .null)
      sampleTime sampleTime.date "department" none = .ok report ∧
    AddsUp sampleService (sampleAccounts true .revenue) (departmentLedger (.str "10") .null)
      sampleTime.date "department" "USD" report := by
  refine (segments_add_up_iff sampleService (sampleAccounts true .revenue)
    (departmentLedger (.str "10") .null) sampleTime sampleTime.date "department" none ?_
      (by decide +kernel)).mpr ⟨?_, by decide +kernel⟩
  · intro row hrow
    have hamount : row.amount.toRat = ((100000000000 : ℤ) : ℚ) / 10 ^ 9 := by
      simp only [departmentLedger, List.mem_cons, List.not_mem_nil, or_false] at hrow
      rcases hrow with rfl | rfl | rfl <;> decide +kernel
    exact ⟨_, hamount⟩
  · intro line hline
    have hvalues : (loadedLines (sampleService.loadAccounts (sampleAccounts true .revenue))
        (ledgerQuery (departmentLedger (.str "10") .null) sampleTime.date "USD")).all fun line =>
          (segmentOf "department" line).isOk := by decide +kernel
    have hok := List.all_eq_true.mp hvalues line hline
    cases hsegment : segmentOf "department" line with
    | ok key => exact ⟨key, hsegment⟩
    | error e =>
        rw [hsegment] at hok
        cases hok

/-- **Departments that raise**: a number beside a string, and a list. -/
theorem departments_raise :
    (sampleService.segmentReport (sampleAccounts true .revenue)
      (departmentLedger (.str "10") (.number 20)) sampleTime sampleTime.date "department"
        none).isOk = false ∧
    (sampleService.segmentReport (sampleAccounts true .revenue)
      (departmentLedger (.str "10") .list) sampleTime sampleTime.date "department"
        none).isOk = false := by
  decide +kernel

end FinanceAccounting.Reporting
