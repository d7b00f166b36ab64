import Mathlib.Algebra.BigOperators.Group.List.Basic
import FinanceAccounting.Library.Dicts
import FinanceAccounting.Reporting.IncomeStatement

/-! # Balances by account

The statements of changes compare the natural balances of accounts on two days.  They read the
accounts from the dict that the service has loaded, and look the balances up in dicts made of the
rows of the trial balances.  Sums over such dicts are sums over the posted lines
(`balanceOf_eq`, `sum_loaded`). -/

namespace FinanceAccounting.Reporting

open Decimal (HasPlaces)
open Hashing (defaultContext)
open Journal (JournalLine)
open KeyedSums

/-- What `_load_accounts` returns, with the order of its items. -/
structure Loaded (service : ReportingService) (accounts : Accounts) where
  items : List AccountInfo
  ids_nodup : (items.map (·.accountId)).Nodup
  mem_iff : ∀ acct, acct ∈ items ↔ service.loadAccounts accounts acct.accountId = some acct

theorem loadAccounts_accountId {service : ReportingService} {accounts : Accounts} {id : UUID}
    {acct : AccountInfo} (h : service.loadAccounts accounts id = some acct) : acct.accountId = id := by
  unfold ReportingService.loadAccounts at h
  split at h
  · cases h
  · split at h
    · cases h
    · obtain rfl := Option.some.inj h
      rfl

/-- The dict, where the rows of the table have these ids. -/
def Loaded.ofIds {service : ReportingService} {accounts : Accounts} (ids : List UUID)
    (hnodup : ids.Nodup) (hall : ∀ id, id ∉ ids → accounts id = none) : Loaded service accounts where
  items := ids.filterMap (service.loadAccounts accounts)
  ids_nodup := nodup_keys_filterMap (fun _ _ h => loadAccounts_accountId h)
    (show (ids.map id).Nodup by rwa [List.map_id])
  mem_iff acct := by
    rw [List.mem_filterMap]
    constructor
    · rintro ⟨id, -, hload⟩
      rw [loadAccounts_accountId hload, hload]
    · intro hload
      refine ⟨acct.accountId, ?_, hload⟩
      by_contra hid
      rw [loadAccounts_of_none (hall _ hid)] at hload
      cases hload

section Functions

variable (accounts : UUID → Option AccountInfo)

def balanceByAccount (rows : List TrialBalanceRow) : List (UUID × ℚ) :=
  rows.foldl (fun result row =>
    match accounts row.accountId with
    | none => result
    | some acct => Dicts.setItem result row.accountId
        (computeNaturalBalance row.debitTotal row.creditTotal acct.normalBalance)) []

def sumBalancesFor (balances : List (UUID × ℚ)) (filter : AccountInfo → Bool) : ℚ :=
  defaultContext.total ((balances.filter fun b => (accounts b.1).any filter).map (·.2))

/-- `balances.get(acct_id, Decimal("0"))`. -/
def balanceOf (balances : List (UUID × ℚ)) (accountId : UUID) : ℚ :=
  (Dicts.get? balances accountId).getD 0

/-- `_change`. -/
def change (current prior : List (UUID × ℚ)) (accountId : UUID) : ℚ :=
  defaultContext.round (balanceOf current accountId - balanceOf prior accountId)

end Functions

/-- A sum over the lines with weights for their accounts. -/
def weightedDebit (j : Journal) (c : UUID → ℚ) (asOf : Date) (currency : String) : ℚ :=
  ((j.ledgerLines asOf currency).map fun line => c line.accountId * line.debit).sum

/-- What is posted to an account, on the debit side. -/
def accountDebit (j : Journal) (asOf : Date) (currency : String) (accountId : UUID) : ℚ :=
  (((j.ledgerLines asOf currency).filter (·.accountId = accountId)).map (·.debit)).sum

def signOf : NormalBalance → ℚ
  | .debit => 1
  | .credit => -1

theorem signOf_cases (normal : NormalBalance) :
    signOf normal = 0 ∨ signOf normal = 1 ∨ signOf normal = -1 := by
  cases normal with
  | debit => exact .inr (.inl rfl)
  | credit => exact .inr (.inr rfl)

/-- A weight for the accounts that are loaded. -/
def ReportingService.weightOf (service : ReportingService) (accounts : Accounts)
    (f : AccountInfo → ℚ) (accountId : UUID) : ℚ :=
  ((service.loadAccounts accounts accountId).map f).getD 0

/-! ### Sums that are not rounded -/

/-- A number of nine places within a bound. -/
def Within (bound x : ℚ) : Prop := HasPlaces 9 x ∧ |x| ≤ bound

section Within

variable {m n x y : ℚ}

theorem Within.neg (hx : Within m x) : Within m (-x) := ⟨hx.1.neg, (abs_neg x).le.trans hx.2⟩

theorem Within.add (hx : Within m x) (hy : Within n y) : Within (m + n) (x + y) :=
  ⟨hx.1.add hy.1, (abs_add_le x y).trans (add_le_add hx.2 hy.2)⟩

theorem Within.sub (hx : Within m x) (hy : Within n y) : Within (m + n) (x - y) :=
  sub_eq_add_neg x y ▸ hx.add hy.neg

theorem Within.mul_sign {c : ℚ} (hc : c = 0 ∨ c = 1 ∨ c = -1) (hx : Within m x) :
    Within m (c * x) := by
  rcases hc with rfl | rfl | rfl
  · rw [zero_mul]
    exact ⟨.zero, abs_zero.le.trans ((abs_nonneg x).trans hx.2)⟩
  · rwa [one_mul]
  · rw [neg_one_mul]
    exact hx.neg

theorem Within.round (hx : Within m x) (hm : m * 10 ^ 9 < 10 ^ 28) : defaultContext.round x = x :=
  defaultContext.round_of_places hx.1
    ((mul_le_mul_of_nonneg_right hx.2 (by positivity)).trans_lt hm)

theorem Within.list_sum {α : Type} {as : List α} {f b : α → ℚ} (h : ∀ a ∈ as, Within (b a) (f a)) :
    Within (as.map b).sum (as.map f).sum := by
  induction as with
  | nil => exact ⟨.zero, abs_zero.le⟩
  | cons a as ih =>
      rw [List.map_cons, List.map_cons, List.sum_cons, List.sum_cons]
      exact (h a List.mem_cons_self).add (ih fun c hc => h c (List.mem_cons_of_mem a hc))

/-- The terms that there are add up without rounding when all of them are within bounds. -/
theorem total_filterMap {α : Type} {as : List α} {xs : List ℚ} {g : α → Option ℚ} {f b : α → ℚ}
    (hxs : xs.Perm (as.filterMap g)) (hg : ∀ a ∈ as, (g a).getD 0 = f a)
    (hf : ∀ a ∈ as, Within (b a) (f a)) (hfits : (as.map b).sum * 10 ^ 9 < 10 ^ 28) :
    defaultContext.total xs = (as.map f).sum := by
  have hsum : ∀ h : ℚ → ℚ, h 0 = 0 → (xs.map h).sum = (as.map fun a => h (f a)).sum := by
    intro h hzero
    rw [(hxs.map h).sum_eq, sum_filterMap]
    congr 1
    refine List.map_congr_left fun a ha => ?_
    rw [← hg a ha]
    cases g a with
    | none => exact hzero.symm
    | some x => rfl
  have hplaces : ∀ x ∈ xs, HasPlaces 9 x := by
    intro x hx
    obtain ⟨a, ha, hga⟩ := List.mem_filterMap.mp (hxs.mem_iff.mp hx)
    have hwithin := hf a ha
    rw [← hg a ha, hga] at hwithin
    exact hwithin.1
  rw [defaultContext.total_eq_sum hplaces]
  · have hid := hsum id rfl
    rwa [List.map_id] at hid
  · rw [hsum _ abs_zero]
    refine lt_of_le_of_lt ?_ hfits
    exact mul_le_mul_of_nonneg_right (List.sum_le_sum fun a ha => (hf a ha).2) (by positivity)

end Within

/-! ### Sums by account -/

theorem getD_get?_eq_sum {d : List (UUID × ℚ)} (hnodup : (d.map Prod.fst).Nodup) (k : UUID) :
    (Dicts.get? d k).getD 0 = (d.map fun entry => if entry.1 = k then entry.2 else 0).sum := by
  induction d with
  | nil => rfl
  | cons entry d ih =>
      obtain ⟨k', v⟩ := entry
      rw [List.map_cons, List.nodup_cons] at hnodup
      rw [Dicts.get?, List.map_cons, List.sum_cons, ← ih hnodup.2]
      by_cases hk : k' = k
      · subst hk
        have hrest : (d.map fun entry => if entry.1 = k' then entry.2 else 0).sum = 0 := by
          refine List.sum_eq_zero fun x hx => ?_
          obtain ⟨entry, hentry, rfl⟩ := List.mem_map.mp hx
          exact if_neg fun hkey => hnodup.1 (List.mem_map.mpr ⟨entry, hentry, hkey⟩)
        rw [ih hnodup.2, hrest]
        simp
      · simp [hk]

section Rows

variable {service : ReportingService} {accounts : Accounts} {j : Journal} {asOf : Date}
variable {currency : String} {row : TrialBalanceRow}

theorem nodup_rows : ((service.rows accounts j asOf currency).map (·.accountId)).Nodup := by
  unfold ReportingService.rows selectTrialBalance
  refine (((List.perm_insertionSort _ _).map _).nodup_iff).mpr ?_
  refine nodup_keys_filterMap (fun id row h => ?_) (show (List.map id _).Nodup by
    rw [List.map_id]
    exact List.nodup_dedup _)
  obtain ⟨account, -, rfl⟩ := Option.map_eq_some_iff.mp h
  rfl

/-- A weighted sum over the rows. -/
theorem sum_weighted_rows {c : UUID → ℚ} (hc : ∀ accountId, accounts accountId = none → c accountId = 0) :
    ((service.rows accounts j asOf currency).map fun row => c row.accountId * net row).sum =
      weightedDebit j c asOf currency := by
  unfold ReportingService.rows weightedDebit
  rw [sum_rows _ (fun id => c id * (((j.ledgerLines asOf currency).filter (·.accountId = id)).map
    (·.debit)).sum)]
  · have hnodup : (usedAccounts j asOf currency).Nodup := List.nodup_dedup _
    rw [sum_mul_by_key hnodup]
    congr 1
    refine List.map_congr_left fun line hline => if_pos ?_
    exact List.mem_dedup.mpr (List.mem_map_of_mem hline)
  · intro accountId account haccount
    rw [net_trialBalanceRow]
    rfl
  · intro accountId haccount
    rw [hc accountId haccount, zero_mul]

/-- The row of an account that has one. -/
theorem balanceByAccount_eq : balanceByAccount (service.loadAccounts accounts)
    (service.rows accounts j asOf currency) =
      (service.rows accounts j asOf currency).filterMap fun row =>
        (service.loadAccounts accounts row.accountId).map fun acct =>
          (row.accountId, computeNaturalBalance row.debitTotal row.creditTotal acct.normalBalance) := by
  have hfold : ∀ (rows : List TrialBalanceRow) (d : List (UUID × ℚ)),
      (rows.map (·.accountId)).Nodup → (∀ row ∈ rows, row.accountId ∉ d.map Prod.fst) →
      rows.foldl (fun result row =>
        match service.loadAccounts accounts row.accountId with
        | none => result
        | some acct => Dicts.setItem result row.accountId
            (computeNaturalBalance row.debitTotal row.creditTotal acct.normalBalance)) d =
      d ++ rows.filterMap fun row => (service.loadAccounts accounts row.accountId).map fun acct =>
        (row.accountId, computeNaturalBalance row.debitTotal row.creditTotal acct.normalBalance) := by
    intro rows
    induction rows with
    | nil => simp
    | cons row rows ih =>
        intro d hnodup hnew
        rw [List.map_cons, List.nodup_cons] at hnodup
        rw [List.foldl_cons, List.filterMap_cons]
        cases hacct : service.loadAccounts accounts row.accountId with
        | none => exact ih d hnodup.2 fun r hr => hnew r (List.mem_cons_of_mem _ hr)
        | some acct =>
            dsimp only [Option.map_some]
            rw [Dicts.setItem_of_notMem (hnew row List.mem_cons_self), ih _ hnodup.2, List.append_assoc]
            · rfl
            · intro r hr hmem
              rw [List.map_append, List.mem_append] at hmem
              rcases hmem with hmem | hmem
              · exact hnew r (List.mem_cons_of_mem _ hr) hmem
              · obtain hid : r.accountId = row.accountId := List.mem_singleton.mp hmem
                exact hnodup.1 (hid ▸ List.mem_map_of_mem hr)
  exact hfold _ [] nodup_rows fun _ _ => List.not_mem_nil

/-- **The balance of an account** is what is posted to it, on its normal side. -/
theorem balanceOf_eq (hstored : Stored j) (hfits : turnover j asOf currency * 10 ^ 9 < 10 ^ 28)
    {acct : AccountInfo} (hacct : service.loadAccounts accounts acct.accountId = some acct) :
    balanceOf (balanceByAccount (service.loadAccounts accounts)
      (service.rows accounts j asOf currency)) acct.accountId =
        signOf acct.normalBalance * accountDebit j asOf currency acct.accountId := by
  have hkeys : (balanceByAccount (service.loadAccounts accounts)
      (service.rows accounts j asOf currency)).map Prod.fst =
        ((service.rows accounts j asOf currency).map (·.accountId)).filter fun id =>
          (service.loadAccounts accounts id).isSome := by
    rw [balanceByAccount_eq]
    induction service.rows accounts j asOf currency with
    | nil => rfl
    | cons row rows ih => cases hload : service.loadAccounts accounts row.accountId <;> simp [hload, ih]
  have hweights : weightedDebit j (fun a => if a = acct.accountId then signOf acct.normalBalance else 0)
      asOf currency = signOf acct.normalBalance * accountDebit j asOf currency acct.accountId := by
    unfold weightedDebit accountDebit
    induction j.ledgerLines asOf currency with
    | nil => simp
    | cons line lines ih =>
        rw [List.map_cons, List.sum_cons, ih, sum_filter_cons, mul_add]
        by_cases hid : line.accountId = acct.accountId <;> simp [hid]
  unfold balanceOf
  rw [getD_get?_eq_sum (hkeys ▸ nodup_rows.filter _), balanceByAccount_eq, sum_filterMap, ← hweights,
    ← @sum_weighted_rows service accounts]
  · congr 1
    refine List.map_congr_left fun row hrow => ?_
    by_cases hid : row.accountId = acct.accountId
    · rw [hid, hacct]
      simp only [Option.map_some, Option.getD_some, if_true]
      rw [natural_of_mem hstored hfits hrow]
      cases acct.normalBalance <;> simp [signOf]
    · cases service.loadAccounts accounts row.accountId <;> simp [hid]
  · intro accountId hnone
    refine if_neg fun hid => ?_
    rw [← hid, loadAccounts_of_none hnone] at hacct
    cases hacct

/-- **A sum over the loaded accounts** is a sum over the lines. -/
theorem sum_loaded (loaded : Loaded service accounts) (f : AccountInfo → ℚ) :
    (loaded.items.map fun acct => f acct * accountDebit j asOf currency acct.accountId).sum =
      weightedDebit j (service.weightOf accounts f) asOf currency := by
  have hitems : loaded.items.map (fun acct => f acct * accountDebit j asOf currency acct.accountId) =
      (loaded.items.map (·.accountId)).map fun id =>
        service.weightOf accounts f id * accountDebit j asOf currency id := by
    rw [List.map_map]
    refine List.map_congr_left fun acct hacct => ?_
    show _ = service.weightOf accounts f acct.accountId * _
    rw [ReportingService.weightOf, (loaded.mem_iff acct).mp hacct]
    rfl
  rw [hitems]
  unfold accountDebit weightedDebit
  rw [sum_mul_by_key loaded.ids_nodup]
  congr 1
  refine List.map_congr_left fun line _ => ?_
  split
  · rfl
  · rename_i hid
    have hload : service.loadAccounts accounts line.accountId = none := by
      by_contra hload
      obtain ⟨acct, hacct⟩ := Option.ne_none_iff_exists'.mp hload
      obtain hline := loadAccounts_accountId hacct
      rw [← hline] at hacct hid
      exact hid (List.mem_map_of_mem ((loaded.mem_iff acct).mpr hacct))
    rw [ReportingService.weightOf, hload]
    exact (zero_mul _).symm

/-- The natural balances of the accounts with a property. -/
theorem sumBalancesFor_eq (filter : AccountInfo → Bool) :
    sumBalancesFor (service.loadAccounts accounts) (balanceByAccount (service.loadAccounts accounts)
      (service.rows accounts j asOf currency)) filter =
    defaultContext.total ((service.rows accounts j asOf currency).filterMap fun row =>
      ((service.loadAccounts accounts row.accountId).filter filter).map fun acct =>
        computeNaturalBalance row.debitTotal row.creditTotal acct.normalBalance) := by
  unfold sumBalancesFor
  rw [balanceByAccount_eq, List.filter_filterMap, List.map_filterMap]
  congr 1
  refine List.filterMap_congr fun row _ => ?_
  cases hacct : service.loadAccounts accounts row.accountId with
  | none => rfl
  | some acct =>
      cases hfilter : filter acct with
      | true => simp [Option.filter_some, hacct, hfilter]
      | false => simp [Option.filter_some, hacct, hfilter]

end Rows

end FinanceAccounting.Reporting
