import FinanceAccounting.Kernel.Valuation
import FinanceAccounting.Library.TransitionSystem
import FinanceAccounting.Library.Traversals
import Mathlib.Algebra.BigOperators.Group.Finset.Piecewise

/-! # Reconciliation of open items

`SubledgerService.reconcile` checks a debit entry, a credit entry and perhaps an amount, and its
result is applied to both entries with `with_reconciliation`.  The numbers of the amounts are
compared, their currencies are not.  `conserved_throughout` says that amounts in the currency of the
entries keep every entry between zero and its amount and the two sides in balance, as long as the
results are exact. -/

namespace FinanceAccounting.OpenItems

open Traversals (bind_eq_ok)
open TransitionSystem (Along Throughout)
open Valuation (Money)

/-! ### Entries -/

inductive EntryDirection where
  | debit
  | credit
deriving DecidableEq

inductive ReconciliationStatus where
  | openItem
  | partly
  | reconciled
  | writtenOff
deriving DecidableEq

/-- An entry, with the side on which its amount is. -/
structure SubledgerEntry where
  entryId : String
  subledgerType : String
  entityId : String
  direction : EntryDirection
  amount : Money
  reconciliationStatus : ReconciliationStatus := .openItem
  reconciledAmount : Option Money := none
  reconciledToIds : List String := []

structure ReconciliationResult where
  debitEntryId : String
  creditEntryId : String
  reconciledAmount : Money
  isFullMatch : Bool

namespace SubledgerEntry

def isOpen (e : SubledgerEntry) : Bool :=
  e.reconciliationStatus = .openItem || e.reconciliationStatus = .partly

/-- The number that is reconciled. -/
def reconciled (e : SubledgerEntry) : ℚ := (e.reconciledAmount.map (·.amount)).getD 0

end SubledgerEntry

section Service

variable (ctx : Decimal.Context)

/-- `Money.__add__` and `Money.__sub__`. -/
def combine (verb : String) (f : ℚ → ℚ → ℚ) (x y : Money) : Except String Money :=
  if x.currency ≠ y.currency then
    .error ("Cannot " ++ verb ++ " Money with different currencies: " ++ x.currency ++ " and " ++
      y.currency)
  else .ok ⟨ctx.round (f x.amount y.amount), x.currency⟩

def openAmount (e : SubledgerEntry) : Except String Money :=
  match e.reconciledAmount with
  | none => .ok e.amount
  | some reconciled => combine ctx "subtract" (· - ·) e.amount reconciled

def withReconciliation (e : SubledgerEntry) (reconciledAmount : Money) (reconciledToId : String) :
    Except String SubledgerEntry := do
  let newReconciled ← (match e.reconciledAmount with
    | some reconciled => combine ctx "add" (· + ·) reconciled reconciledAmount
    | none => .ok reconciledAmount)
  return { e with
    reconciliationStatus :=
      if e.amount.amount ≤ newReconciled.amount then .reconciled
      else if 0 < newReconciled.amount then .partly
      else .openItem
    reconciledAmount := some newReconciled
    reconciledToIds := e.reconciledToIds ++ [reconciledToId] }

/-- The amount that is given, or the smaller of the open ones. -/
def amountToReconcile (debitEntry creditEntry : SubledgerEntry) :
    Option Money → Except String Money
  | some amount => .ok amount
  | none => do
      let openDebit ← openAmount ctx debitEntry
      let openCredit ← openAmount ctx creditEntry
      return if openCredit.amount < openDebit.amount then openCredit else openDebit

/-- The checks of the entries. -/
def checkEntries (debitEntry creditEntry : SubledgerEntry) : Except String Unit :=
  if debitEntry.subledgerType ≠ creditEntry.subledgerType then
    .error "Cannot reconcile entries from different subledgers"
  else if debitEntry.entityId ≠ creditEntry.entityId then
    .error "Cannot reconcile entries for different entities"
  else if debitEntry.direction ≠ .debit then .error "First entry must be a debit"
  else if creditEntry.direction ≠ .credit then .error "Second entry must be a credit"
  else if debitEntry.amount.currency ≠ creditEntry.amount.currency then
    .error "Cannot reconcile entries in different currencies"
  else if !debitEntry.isOpen || !creditEntry.isOpen then
    .error "Both entries must be open for reconciliation"
  else .ok ()

/-- `reconcile`. -/
def reconcile (debitEntry creditEntry : SubledgerEntry) (amount : Option Money) :
    Except String ReconciliationResult := do
  checkEntries debitEntry creditEntry
  let amount ← amountToReconcile ctx debitEntry creditEntry amount
  if amount.amount ≤ 0 then .error "Reconciliation amount must be positive"
  else
    let openDebit ← openAmount ctx debitEntry
    if openDebit.amount < amount.amount then .error "Amount exceeds debit entry open amount"
    else
      let openCredit ← openAmount ctx creditEntry
      if openCredit.amount < amount.amount then .error "Amount exceeds credit entry open amount"
      else
        return {
          debitEntryId := debitEntry.entryId
          creditEntryId := creditEntry.entryId
          reconciledAmount := amount
          isFullMatch := amount.amount = openDebit.amount ∧ amount.amount = openCredit.amount }

/-- The result of `reconcile`, applied to both entries. -/
def reconcileEntries (debitEntry creditEntry : SubledgerEntry) (amount : Option Money) :
    Except String (SubledgerEntry × SubledgerEntry) := do
  let result ← reconcile ctx debitEntry creditEntry amount
  let debitEntry ← withReconciliation ctx debitEntry result.reconciledAmount result.creditEntryId
  let creditEntry ← withReconciliation ctx creditEntry result.reconciledAmount result.debitEntryId
  return (debitEntry, creditEntry)

/-- A reconciliation of two of the entries. -/
structure Call (ι : Type) where
  debit : ι
  credit : ι
  amount : Option Money := none

/-- One call; one that raises changes no entry. -/
def step {ι : Type} [DecidableEq ι] (entries : ι → SubledgerEntry) (c : Call ι) :
    Option (ι → SubledgerEntry) :=
  match reconcileEntries ctx (entries c.debit) (entries c.credit) c.amount with
  | .error _ => some entries
  | .ok (d, e) => some (Function.update (Function.update entries c.debit d) c.credit e)

end Service

/-! ### What reconciliation conserves -/

/-- What is reconciled of an entry is in its currency, from zero to its amount, and the entry is
RECONCILED when it is all of it. -/
structure Sound (e : SubledgerEntry) : Prop where
  currency : ∀ r, e.reconciledAmount = some r → r.currency = e.amount.currency
  nonneg : 0 ≤ e.reconciled
  le : e.reconciled ≤ e.amount.amount
  status : e.reconciliationStatus = .reconciled ↔ e.reconciled = e.amount.amount

/-- What is reconciled on a side, in a currency. -/
def total {ι : Type} [Fintype ι] (entries : ι → SubledgerEntry) (direction : EntryDirection)
    (currency : String) : ℚ :=
  ∑ i, if (entries i).direction = direction ∧ (entries i).amount.currency = currency then
    (entries i).reconciled else 0

structure Conserved {ι : Type} [Fintype ι] (entries : ι → SubledgerEntry) : Prop where
  sound : ∀ i, Sound (entries i)
  totals : ∀ currency, total entries .debit currency = total entries .credit currency

/-- The digits of the context suffice for what is open of an entry, and for what is reconciled of it
after an amount. -/
def Exact (ctx : Decimal.Context) (e : SubledgerEntry) (amount : ℚ) : Prop :=
  ∀ r, e.reconciledAmount = some r →
    ctx.round (e.amount.amount - r.amount) = e.amount.amount - r.amount ∧
      ctx.round (r.amount + amount) = r.amount + amount

/-- A given amount is in the currency of the entries, and the results are exact. -/
def Meets (ctx : Decimal.Context) {ι : Type} (entries : ι → SubledgerEntry) (c : Call ι) : Prop :=
  (∀ amount, c.amount = some amount → amount.currency = (entries c.debit).amount.currency) ∧
    ∀ amount, amount = (c.amount.map (·.amount)).getD
        (min ((entries c.debit).amount.amount - (entries c.debit).reconciled)
          ((entries c.credit).amount.amount - (entries c.credit).reconciled)) →
      Exact ctx (entries c.debit) amount ∧ Exact ctx (entries c.credit) amount

/-- An entry as it is created, with an amount above zero. -/
structure Fresh (e : SubledgerEntry) : Prop where
  positive : 0 < e.amount.amount
  status : e.reconciliationStatus = .openItem
  unreconciled : e.reconciledAmount = none

/-! ### One entry -/

section Entry

variable {ctx : Decimal.Context} {e d c : SubledgerEntry} {a x : Money} {amount : Option Money}

theorem openAmount_eq (h : Sound e) {y : ℚ} (hexact : Exact ctx e y) :
    openAmount ctx e = .ok ⟨e.amount.amount - e.reconciled, e.amount.currency⟩ := by
  unfold openAmount SubledgerEntry.reconciled
  cases hr : e.reconciledAmount with
  | none => simp
  | some r =>
      simp only [combine, (h.currency r hr).symm, ne_eq, not_true_eq_false, if_false,
        (hexact r hr).1, Option.map_some, Option.getD_some]

/-- **Step lemma** for an entry: a part of what is open is added to what is reconciled. -/
theorem exists_withReconciliation (h : Sound e)
    (hcurrency : a.currency = e.amount.currency) (hpos : 0 < a.amount)
    (hle : a.amount ≤ e.amount.amount - e.reconciled) (hexact : Exact ctx e a.amount)
    (toId : String) :
    ∃ e', withReconciliation ctx e a toId = .ok e' ∧ Sound e' ∧ e'.direction = e.direction ∧
      e'.amount = e.amount ∧ e'.reconciled = e.reconciled + a.amount := by
  obtain ⟨r, hnew, hr, hamount⟩ : ∃ r : Money, (match e.reconciledAmount with
      | some reconciled => combine ctx "add" (· + ·) reconciled a
      | none => .ok a) = Except.ok r ∧ r.currency = e.amount.currency ∧
        r.amount = e.reconciled + a.amount := by
    unfold SubledgerEntry.reconciled
    cases hr : e.reconciledAmount with
    | none => exact ⟨a, rfl, hcurrency, by simp⟩
    | some r =>
        have hsame := h.currency r hr
        refine ⟨⟨ctx.round (r.amount + a.amount), r.currency⟩, ?_, hsame, (hexact r hr).2⟩
        simp only [combine, hsame, hcurrency, ne_eq, not_true_eq_false, if_false]
  have hnonneg := h.nonneg
  unfold withReconciliation
  rw [hnew]
  refine ⟨_, rfl, ⟨?_, ?_, ?_, ?_⟩, rfl, rfl, hamount⟩
  · rintro _ ⟨⟩
    exact hr
  · show 0 ≤ r.amount
    linarith
  · show r.amount ≤ e.amount.amount
    linarith
  · show (if e.amount.amount ≤ r.amount then ReconciliationStatus.reconciled
      else if 0 < r.amount then .partly else .openItem) = .reconciled ↔ r.amount = e.amount.amount
    split_ifs with hfull hpart
    · exact iff_of_true rfl (by linarith)
    · exact iff_of_false (by simp) (by linarith)
    · exact iff_of_false (by simp) (by linarith)

theorem of_checkEntries (h : checkEntries d c = .ok ()) :
    d.direction = .debit ∧ c.direction = .credit ∧ d.amount.currency = c.amount.currency := by
  unfold checkEntries at h
  split_ifs at h with h₁ h₂ hdebit hcredit hcurrency hopen
  exact ⟨not_not.mp hdebit, not_not.mp hcredit, not_not.mp hcurrency⟩

/-- What is given, or the smaller of what is open. -/
theorem amountToReconcile_eq (hd : Sound d) (hc : Sound c)
    (hsame : d.amount.currency = c.amount.currency) {y : ℚ} (hexactd : Exact ctx d y)
    (hexactc : Exact ctx c y) (h : amountToReconcile ctx d c amount = .ok a)
    (hcurrency : ∀ a, amount = some a → a.currency = d.amount.currency) :
    a.currency = d.amount.currency ∧ a.amount = (amount.map (·.amount)).getD
      (min (d.amount.amount - d.reconciled) (c.amount.amount - c.reconciled)) := by
  cases amount with
  | some given =>
      obtain rfl := Except.ok.inj h
      exact ⟨hcurrency given rfl, rfl⟩
  | none =>
      unfold amountToReconcile at h
      rw [openAmount_eq hd hexactd, openAmount_eq hc hexactc] at h
      obtain rfl := Except.ok.inj h
      split_ifs with hlt
      · exact ⟨hsame.symm, (min_eq_right hlt.le).symm⟩
      · exact ⟨rfl, (min_eq_left (not_lt.mp hlt)).symm⟩

/-- **What an accepted reconciliation does**: it takes an amount above zero, of what is open on both
sides, in the currency of the entries. -/
theorem of_reconcileEntries {d' c' : SubledgerEntry} (hd : Sound d) (hc : Sound c)
    (hcurrency : ∀ a, amount = some a → a.currency = d.amount.currency)
    (hexact : ∀ y, y = (amount.map (·.amount)).getD
        (min (d.amount.amount - d.reconciled) (c.amount.amount - c.reconciled)) →
      Exact ctx d y ∧ Exact ctx c y)
    (h : reconcileEntries ctx d c amount = .ok (d', c')) :
    (d.direction = .debit ∧ c.direction = .credit ∧ d.amount.currency = c.amount.currency) ∧
      ∃ y, (Sound d' ∧ d'.direction = d.direction ∧ d'.amount = d.amount ∧
          d'.reconciled = d.reconciled + y) ∧
        Sound c' ∧ c'.direction = c.direction ∧ c'.amount = c.amount ∧
          c'.reconciled = c.reconciled + y := by
  obtain ⟨result, hresult, h⟩ := bind_eq_ok.mp h
  obtain ⟨_, hchecks, hresult⟩ := bind_eq_ok.mp hresult
  obtain ⟨hdebit, hcredit, hsame⟩ := of_checkEntries hchecks
  obtain ⟨a, ha, hresult⟩ := bind_eq_ok.mp hresult
  obtain ⟨hexactd, hexactc⟩ := hexact _ rfl
  obtain ⟨hacurrency, hamount⟩ := amountToReconcile_eq hd hc hsame hexactd hexactc ha hcurrency
  rw [← hamount] at hexactd hexactc
  rw [openAmount_eq hd hexactd, openAmount_eq hc hexactc] at hresult
  simp only [bind, Except.bind] at hresult
  split_ifs at hresult with hpos hled hlec
  obtain rfl := Except.ok.inj hresult
  obtain ⟨e₁, h₁, hsound₁, hdir₁, hamount₁, hrec₁⟩ := exists_withReconciliation hd hacurrency
    (not_le.mp hpos) (not_lt.mp hled) hexactd c.entryId
  obtain ⟨e₂, h₂, hsound₂, hdir₂, hamount₂, hrec₂⟩ := exists_withReconciliation hc
    (hacurrency.trans hsame) (not_le.mp hpos) (not_lt.mp hlec) hexactc d.entryId
  dsimp only at h
  rw [h₁, h₂] at h
  obtain ⟨rfl, rfl⟩ := Prod.mk.inj (Except.ok.inj h)
  exact ⟨⟨hdebit, hcredit, hsame⟩, a.amount, ⟨hsound₁, hdir₁, hamount₁, hrec₁⟩, hsound₂, hdir₂,
    hamount₂, hrec₂⟩

end Entry

/-! ### All entries -/

section Entries

variable {ι : Type} [Fintype ι] [DecidableEq ι] {ctx : Decimal.Context}
  {entries entries' : ι → SubledgerEntry} {c : Call ι}

/-- A sum over the entries, one of which changes. -/
theorem sum_update (f : SubledgerEntry → ℚ) (i : ι) (e : SubledgerEntry) :
    ∑ j, f (Function.update entries i e j) = ∑ j, f (entries j) + (f e - f (entries i)) := by
  have hcomp : (fun j => f (Function.update entries i e j)) =
      Function.update (fun j => f (entries j)) i (f e) := by
    funext j
    by_cases hj : j = i
    · subst hj
      simp
    · simp [hj]
  rw [hcomp, Finset.sum_update_of_mem (Finset.mem_univ i),
    ← Finset.sum_sdiff (Finset.subset_univ {i}), Finset.sum_singleton]
  ring

/-- An entry of which an amount was reconciled changes the total of its side. -/
theorem total_update {i : ι} {e : SubledgerEntry} {y : ℚ}
    (hdirection : e.direction = (entries i).direction) (hamount : e.amount = (entries i).amount)
    (hreconciled : e.reconciled = (entries i).reconciled + y) (direction : EntryDirection)
    (currency : String) :
    total (Function.update entries i e) direction currency = total entries direction currency +
      if (entries i).direction = direction ∧ (entries i).amount.currency = currency then y
      else 0 := by
  refine (sum_update (fun e =>
    if e.direction = direction ∧ e.amount.currency = currency then e.reconciled else 0) i
    e).trans (congrArg _ ?_)
  rw [hdirection, hamount, hreconciled]
  split_ifs
  · ring
  · ring

/-- **Step lemma**: a call that meets the condition conserves. -/
theorem conserved_step (h : Conserved entries) (hmeets : Meets ctx entries c)
    (hstep : step ctx entries c = some entries') : Conserved entries' := by
  unfold step at hstep
  cases hcall : reconcileEntries ctx (entries c.debit) (entries c.credit) c.amount with
  | error e =>
      rw [hcall] at hstep
      obtain rfl := Option.some.inj hstep
      exact h
  | ok both =>
      obtain ⟨d', c'⟩ := both
      rw [hcall] at hstep
      obtain rfl := Option.some.inj hstep
      obtain ⟨⟨hdebit, hcredit, hsame⟩, y, ⟨hsoundd, hdird, hamountd, hrecd⟩, hsoundc, hdirc,
        hamountc, hrecc⟩ := of_reconcileEntries (h.sound _) (h.sound _) hmeets.1 hmeets.2 hcall
      have hne : c.credit ≠ c.debit := by
        intro heq
        rw [heq, hdebit] at hcredit
        cases hcredit
      have hother : Function.update entries c.debit d' c.credit = entries c.credit :=
        Function.update_of_ne hne _ _
      rw [← hother] at hdirc hamountc hrecc
      constructor
      · intro i
        by_cases hc : i = c.credit
        · subst hc
          rwa [Function.update_self]
        · rw [Function.update_of_ne hc]
          by_cases hd : i = c.debit
          · subst hd
            rwa [Function.update_self]
          · rw [Function.update_of_ne hd]
            exact h.sound i
      · intro currency
        rw [total_update hdirc hamountc hrecc, total_update hdirc hamountc hrecc,
          total_update hdird hamountd hrecd, total_update hdird hamountd hrecd, hother, hdebit,
          hcredit, hsame, h.totals currency]
        simp

omit [DecidableEq ι] in
/-- New entries are conserved: nothing is reconciled. -/
theorem conserved_fresh (h : ∀ i, Fresh (entries i)) : Conserved entries := by
  have hzero : ∀ i, (entries i).reconciled = 0 := fun i => by
    simp [SubledgerEntry.reconciled, (h i).unreconciled]
  refine ⟨fun i => ⟨fun r hr => ?_, (hzero i).ge, (hzero i).le.trans (h i).positive.le, ?_⟩,
    fun currency => by simp [total, hzero]⟩
  · rw [(h i).unreconciled] at hr
    cases hr
  · rw [(h i).status, hzero i]
    exact iff_of_false (by simp) (h i).positive.ne

end Entries

/-- **Reconciliation conserves**: for new entries with amounts above zero, in every run whose calls
give amounts in the currency of the entries and have exact results. -/
theorem conserved_throughout {ι : Type} [Fintype ι] [DecidableEq ι] (ctx : Decimal.Context)
    (entries : ι → SubledgerEntry) (calls : List (Call ι)) (hfresh : ∀ i, Fresh (entries i))
    (hmeets : Along (step ctx) (Meets ctx) entries calls) :
    Throughout (step ctx) Conserved entries calls :=
  hmeets.throughout (fun _ _ _ h hmeets hstep => conserved_step h hmeets hstep)
    (conserved_fresh hfresh)

/-- A debit and a credit of a hundred dollars. -/
def sampleEntries (direction : Bool) : SubledgerEntry where
  entryId := if direction then "d" else "c"
  subledgerType := "AP"
  entityId := "V-001"
  direction := if direction then .debit else .credit
  amount := ⟨100, "USD"⟩

theorem conserved_throughout_hundred :
    Throughout (step Hashing.defaultContext) Conserved sampleEntries
      [⟨true, false, some ⟨40, "USD"⟩⟩] := by
  refine conserved_throughout _ _ _ (fun i => ⟨by simp [sampleEntries], rfl, rfl⟩) ?_
  refine TransitionSystem.along_cons.mpr ⟨⟨?_, ?_⟩, fun _ _ => TransitionSystem.along_nil⟩
  · rintro _ ⟨⟩
    rfl
  · exact fun _ _ => ⟨fun r hr => (nomatch hr), fun r hr => (nomatch hr)⟩

/-- Forty euros are accepted for the dollars. -/
theorem not_conserved_euros :
    ¬Throughout (step Hashing.defaultContext) Conserved sampleEntries
      [⟨true, false, some ⟨40, "EUR"⟩⟩] := by
  intro h
  have hlast := h _ [] _ (List.append_nil _).symm rfl
  have hcurrency := (hlast.sound true).currency ⟨40, "EUR"⟩ (by decide +kernel)
  exact absurd hcurrency (by decide +kernel)

end FinanceAccounting.OpenItems
