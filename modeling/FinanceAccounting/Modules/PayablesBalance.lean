import FinanceAccounting.Library.KeyedSums
import FinanceAccounting.Modules.PayablesHistory
import FinanceAccounting.Modules.PostedBalances
import FinanceAccounting.Services.ReconciliationLaws

/-! # Does the payables account agree with the invoices?

The account and the ledger of the suppliers agree with the invoices when both balances are the sum,
over the recorded and not cancelled invoices, of the total less what was paid, discounted or applied.
Matching posts an invoice a second time, a prepayment leaves the suppliers out, and a cancellation
posts the amount that it is given: `payables_agree` needs runs in which no match and no prepayment
goes through, payments stay within the open balance of an invoice, and a cancellation is of that
balance. -/

namespace FinanceAccounting.AccountsPayable

open UnitOfWork (Session Result)
open Journal (LineSide)
open ModulePosting (ModulePostingStatus)
open LinkGraph (ArtifactRef)
open PolicyBridge (AccountingPolicy findForEvent)
open TransitionSystem (Along Throughout)
open Modules

/-! ### What is open -/

def invoiceRef (invoiceId : UUID) : ArtifactRef := ⟨.invoice, invoiceId⟩

/-- The discounts that payments have taken on an invoice. -/
def discounts (rows : List APRow) (invoiceId : UUID) : ℚ :=
  (((payments rows).filter (invoiceId ∈ ·.invoiceIds)).map (·.discountTaken)).sum

/-- What an invoice has been cleared by: payments, prepayments and discounts. -/
def cleared (t : Tables) (invoiceId : UUID) : ℚ :=
  Reconciliation.paid t.store (invoiceRef invoiceId) + discounts t.rows invoiceId

/-- The total of an invoice less what it has been cleared by. -/
def openBalance (t : Tables) (row : APInvoice) : ℚ := row.totalAmount - cleared t row.id

/-- The invoice is not cancelled and is in the currency. -/
def counts (currency : String) (row : APInvoice) : Bool :=
  row.status ≠ "cancelled" && row.currency = currency

/-- The open balances in a currency. -/
def outstanding (t : Tables) (currency : String) : ℚ :=
  ((invoices t.rows).map fun row => if counts currency row then openBalance t row else 0).sum

/-- What the general ledger owes. -/
def payable (currency : String) (lines : List LedgerLine) : ℚ :=
  -balance "GL" "ACCOUNTS_PAYABLE" currency lines

/-- What the ledger of the suppliers owes. -/
def supplierBalance (currency : String) (lines : List LedgerLine) : ℚ :=
  -balance "AP" "SUPPLIER_BALANCE" currency lines

/-- **The account agrees with the invoices**; `credited` are the invoices of the posted credits. -/
structure Agrees (t : Tables) (credited : List UUID) : Prop where
  ledger : ∀ currency, payable currency t.lines = outstanding t currency
  suppliers : ∀ currency, supplierBalance currency t.lines = outstanding t currency
  once : ∀ row ∈ invoices t.rows, credited.count row.id = 1
  nonneg : ∀ row ∈ invoices t.rows, 0 ≤ openBalance t row

/-! ### Runs -/

/-- The books, and the invoices that were credited. -/
structure Account where
  session : Session Tables
  credited : List UUID

/-- The invoice that a method credits when it posts. -/
def Operation.credits : Operation → Option UUID
  | .recordInvoice invoiceId .. => some invoiceId
  | .recordInventoryInvoice invoiceId .. => some invoiceId
  | .matchInvoiceToPo invoiceId .. => some invoiceId
  | _ => none

/-- What a call credits, by its result. -/
def creditedBy (r : Except ServiceError ModulePostingStatus) (new : List UUID) : List UUID :=
  match r with
  | .ok status => if succeeded status then new else []
  | .error _ => []

section Runs

variable (sv : APService) (parties : UUID → Bool)

/-- One call, whatever it returns or raises. -/
def accountStep (w : Account) (c : Call) : Option Account :=
  let r := c.run sv parties w.session
  some { session := r.2, credited := w.credited ++ creditedBy r.1 c.operation.credits.toList }

/-- The event that a method hands to the kernel. -/
def Operation.event (t : Tables) : Operation → Option Event
  | .recordInvoice _ vendorId amount _ _ currency invoiceNumber taxAmount poNumber dueDate lines =>
      some (invoiceReceived sv vendorId amount currency invoiceNumber taxAmount poNumber dueDate
        lines)
  | .recordInventoryInvoice _ vendorId amount _ _ currency poNumber taxAmount lines =>
      some (inventoryInvoiceReceived vendorId amount currency poNumber taxAmount lines)
  | .matchInvoiceToPo invoiceId poId receiptIds _ invoiceAmount poAmount currency _ =>
      (createMatch sv.builtins.ctx
        (matchDocuments invoiceId poId receiptIds invoiceAmount poAmount currency)).map fun m =>
          invoiceMatched sv invoiceId poId receiptIds m (getInvoice t.rows invoiceId) currency
  | .recordPayment _ invoiceId amount _ _ vendorId currency paymentMethod reference discountAmount
      bankAccountId =>
      some (paymentEvent sv invoiceId amount vendorId currency paymentMethod reference
        discountAmount bankAccountId)
  | .cancelInvoice invoiceId amount _ currency reason taxAmount lines =>
      some (invoiceCancelled invoiceId amount currency reason taxAmount lines)
  | .applyPrepayment _ prepaymentId invoiceId amount _ _ currency =>
      some (prepaymentApplied prepaymentId invoiceId amount currency)
  | .approveInvoice .. | .submitPayment .. | .approvePayment .. => none

/-- The links let the amount be applied to the invoice. -/
def Admits (t : Tables) (invoiceId : UUID) (amount : ℚ) (currency : String) : Prop :=
  ∃ state, Reconciliation.getReconciliationState sv.builtins t.store.rows (invoiceRef invoiceId)
      ⟨amount, currency⟩ = .ok state ∧
    state.isFullyMatched = false ∧ amount ≤ state.remainingAmount.amount

/-- What a payment clears of its invoice: its amount, and the discount as it is stored. -/
def clearing (amount : ℚ) (discountAmount : Option ℚ) : ℚ :=
  amount + stored (discountAmount.getD 0)

/-- The condition on what a call does when it goes through. -/
def Operation.Fits (t : Tables) : Operation → Prop
  | .matchInvoiceToPo .. => False
  | .applyPrepayment _ _ invoiceId amount _ _ currency =>
      Admits sv t invoiceId amount currency → amount = 0
  | .recordPayment _ invoiceId amount _ _ vendorId currency paymentMethod reference discountAmount
      bankAccountId =>
      Admits sv t invoiceId amount currency →
        stored (paymentEvent sv invoiceId amount vendorId currency paymentMethod reference
          discountAmount bankAccountId).amount = clearing amount discountAmount ∧
        ∃ row ∈ invoices t.rows, row.id = invoiceId ∧ counts currency row ∧
          clearing amount discountAmount ≤ openBalance t row
  | .cancelInvoice invoiceId amount _ currency _ _ _ =>
      ∃ row ∈ invoices t.rows, row.id = invoiceId ∧ counts currency row ∧
        stored amount = openBalance t row
  | _ => True

/-- The condition: the kernel does not find an event posted before, and what the executor accepts
and the kernel posts fits the invoices. -/
structure Sound (w : Account) (c : Call) : Prop where
  fresh : Fresh c.answers
  fits : ∀ a e lines, c.operation.asks sv w.session = some a → (accepted c.answers a).isSome →
    c.operation.event sv w.session.current = some e →
      postEvent sv.builtins.ctx policies (c.answers.verdict 0) e = .posted lines →
        c.operation.Fits sv w.session.current

end Runs

/-! ### The invariant -/

/-- The account agrees, invoices have different ids, and nothing has happened to an id without
invoice. -/
structure Inv (t : Tables) (credited : List UUID) : Prop extends Agrees t credited where
  distinct : ((invoices t.rows).map (·.id)).Nodup
  unrecorded : ∀ id, id ∉ (invoices t.rows).map (·.id) → cleared t id = 0 ∧ id ∉ credited

section Invariant

variable {t t' : Tables} {credited : List UUID} {lines : List LedgerLine}

theorem invoices_append (rows rows' : List APRow) :
    invoices (rows ++ rows') = invoices rows ++ invoices rows' := List.filterMap_append

theorem payments_append (rows rows' : List APRow) :
    payments (rows ++ rows') = payments rows ++ payments rows' := List.filterMap_append

theorem payable_append (currency : String) (xs ys : List LedgerLine) :
    payable currency (xs ++ ys) = payable currency xs + payable currency ys := by
  simp only [payable, balance_append, neg_add]

theorem supplierBalance_append (currency : String) (xs ys : List LedgerLine) :
    supplierBalance currency (xs ++ ys) = supplierBalance currency xs + supplierBalance currency ys := by
  simp only [supplierBalance, balance_append, neg_add]

/-- Both ledgers change by the same amount in one currency. -/
structure Moves (lines : List LedgerLine) (currency : String) (x : ℚ) : Prop where
  ledger : ∀ currency', payable currency' lines = if currency = currency' then x else 0
  suppliers : ∀ currency', supplierBalance currency' lines = if currency = currency' then x else 0

/-- The invariant does not see approval requests. -/
theorem Inv.request (h : Inv t credited) (n : ℕ) : Inv (t.request n) credited where
  ledger := h.ledger
  suppliers := h.suppliers
  once := h.once
  nonneg := h.nonneg
  distinct := h.distinct
  unrecorded := h.unrecorded

/-- **A new invoice** that is credited with its total. -/
theorem Inv.record (h : Inv t credited) {row : APInvoice}
    (hdistinct : ((invoices (t.rows ++ [.invoice row])).map (·.id)).Nodup)
    (hstatus : row.status = "draft") (hmoves : Moves lines row.currency row.totalAmount)
    (hnonneg : 0 ≤ row.totalAmount) :
    Inv ((t.post lines).add (.invoice row)) (credited ++ [row.id]) := by
  have hinvoices : invoices ((t.post lines).add (.invoice row)).rows = invoices t.rows ++ [row] :=
    invoices_append t.rows [.invoice row]
  have hcleared : ∀ id, cleared ((t.post lines).add (.invoice row)) id = cleared t id := by
    intro id
    have hpayments : payments ((t.post lines).add (.invoice row)).rows = payments t.rows := by
      refine (payments_append t.rows [.invoice row]).trans ?_
      exact List.append_nil _
    unfold cleared discounts
    rw [hpayments]
    rfl
  have hnew : row.id ∉ (invoices t.rows).map (·.id) := by
    rw [invoices_append, List.map_append] at hdistinct
    intro hmem
    exact List.disjoint_of_nodup_append hdistinct hmem List.mem_cons_self
  obtain ⟨hzero, hfresh⟩ := h.unrecorded row.id hnew
  have hopen : openBalance ((t.post lines).add (.invoice row)) row = row.totalAmount := by
    rw [openBalance, hcleared, hzero, sub_zero]
  have hold : ∀ row', openBalance ((t.post lines).add (.invoice row)) row' = openBalance t row' := by
    intro row'
    rw [openBalance, hcleared, openBalance]
  have houtstanding : ∀ currency, outstanding ((t.post lines).add (.invoice row)) currency =
      outstanding t currency + if row.currency = currency then row.totalAmount else 0 := by
    intro currency
    have hcounts : counts currency row = decide (row.currency = currency) := by
      have hne : "draft" ≠ "cancelled" := by decide
      simp [counts, hstatus, hne]
    unfold outstanding
    rw [hinvoices, List.map_append, List.sum_append, List.map_singleton, List.sum_singleton,
      hcounts, hopen]
    simp only [hold, decide_eq_true_eq]
  refine ⟨⟨fun currency => ?_, fun currency => ?_, fun row' hrow' => ?_, fun row' hrow' => ?_⟩, ?_,
    fun id hid => ?_⟩
  · show payable currency (t.lines ++ lines) = _
    rw [payable_append, h.ledger, hmoves.ledger, houtstanding]
  · show supplierBalance currency (t.lines ++ lines) = _
    rw [supplierBalance_append, h.suppliers, hmoves.suppliers, houtstanding]
  · rw [hinvoices] at hrow'
    rw [List.count_append]
    rcases List.mem_append.mp hrow' with hrow' | hrow'
    · have hne : row'.id ≠ row.id := fun heq => hnew (heq ▸ List.mem_map_of_mem hrow')
      rw [h.once row' hrow', List.count_singleton, if_neg (by simpa using hne.symm)]
    · obtain rfl := List.mem_singleton.mp hrow'
      rw [List.count_eq_zero.mpr hfresh, List.count_singleton_self]
  · rw [hinvoices] at hrow'
    rcases List.mem_append.mp hrow' with hrow' | hrow'
    · rw [hold]
      exact h.nonneg row' hrow'
    · obtain rfl := List.mem_singleton.mp hrow'
      rw [hopen]
      exact hnonneg
  · exact hdistinct
  · rw [hinvoices, List.map_append, List.mem_append] at hid
    push Not at hid
    obtain ⟨hzero', hfresh'⟩ := h.unrecorded id hid.1
    rw [hcleared]
    refine ⟨hzero', fun hmem => ?_⟩
    rcases List.mem_append.mp hmem with hmem | hmem
    · exact hfresh' hmem
    · refine hid.2 ?_
      rw [List.mem_singleton.mp hmem]
      exact List.mem_cons_self

/-- **An amount is cleared** of an invoice, and both ledgers move by it. -/
theorem Inv.clear (h : Inv t credited) {row : APInvoice} {currency : String} {x : ℚ}
    (hrow : row ∈ invoices t.rows) (hcounts : counts currency row = true)
    (hwithin : x ≤ openBalance t row) (hmoves : Moves lines currency (-x))
    (hinvoices : invoices t'.rows = invoices t.rows) (hlines : t'.lines = t.lines ++ lines)
    (hcleared : ∀ id, cleared t' id = cleared t id + if id = row.id then x else 0) :
    Inv t' credited := by
  have hopen : openBalance t' row = openBalance t row - x := by
    rw [openBalance, hcleared, if_pos rfl, openBalance]
    ring
  have hothers : ∀ row' ∈ invoices t.rows, row'.id ≠ row.id →
      openBalance t' row' = openBalance t row' := by
    intro row' _ hne
    rw [openBalance, hcleared, if_neg hne, add_zero, openBalance]
  have houtstanding : ∀ currency', outstanding t' currency' =
      outstanding t currency' + if currency = currency' then -x else 0 := by
    intro currency'
    unfold outstanding
    rw [hinvoices, KeyedSums.sum_update h.distinct hrow fun row' hrow' hne => by
      rw [hothers row' hrow' hne], hopen]
    have hcurrency : row.currency = currency := by
      simp only [counts, Bool.and_eq_true, decide_eq_true_eq] at hcounts
      exact hcounts.2
    by_cases heq : currency = currency'
    · subst heq
      rw [if_pos hcounts, if_pos hcounts, if_pos rfl]
      ring
    · have hnot : counts currency' row = false := by
        simp [counts, hcurrency, heq]
      rw [hnot, if_neg heq]
      simp
  refine ⟨⟨fun currency' => ?_, fun currency' => ?_, ?_, fun row' hrow' => ?_⟩, ?_, fun id hid => ?_⟩
  · rw [hlines, payable_append, h.ledger, hmoves.ledger, houtstanding]
  · rw [hlines, supplierBalance_append, h.suppliers, hmoves.suppliers, houtstanding]
  · rw [hinvoices]
    exact h.once
  · rw [hinvoices] at hrow'
    by_cases hid : row'.id = row.id
    · obtain rfl : row' = row := List.inj_on_of_nodup_map h.distinct hrow' hrow hid
      rw [hopen]
      linarith
    · rw [hothers row' hrow' hid]
      exact h.nonneg row' hrow'
  · rw [hinvoices]
    exact h.distinct
  · rw [hinvoices] at hid
    obtain ⟨hzero, hfresh⟩ := h.unrecorded id hid
    have hne : id ≠ row.id := fun heq => hid (heq ▸ List.mem_map_of_mem hrow)
    rw [hcleared, if_neg hne, add_zero]
    exact ⟨hzero, hfresh⟩

/-- Nothing is cleared, and neither ledger moves. -/
theorem Inv.still (h : Inv t credited) (hinvoices : invoices t'.rows = invoices t.rows)
    (hlines : t'.lines = t.lines ++ lines) (hzero : ∀ currency, payable currency lines = 0)
    (hzero' : ∀ currency, supplierBalance currency lines = 0)
    (hcleared : ∀ id, cleared t' id = cleared t id) : Inv t' credited := by
  have hopen : ∀ row, openBalance t' row = openBalance t row := by
    intro row
    rw [openBalance, hcleared, openBalance]
  have houtstanding : ∀ currency, outstanding t' currency = outstanding t currency := by
    intro currency
    unfold outstanding
    simp only [hinvoices, hopen]
  refine ⟨⟨fun currency => ?_, fun currency => ?_, ?_, fun row hrow => ?_⟩, ?_, fun id hid => ?_⟩
  · rw [hlines, payable_append, h.ledger, hzero, add_zero, houtstanding]
  · rw [hlines, supplierBalance_append, h.suppliers, hzero', add_zero, houtstanding]
  · rw [hinvoices]
    exact h.once
  · rw [hinvoices] at hrow
    rw [hopen]
    exact h.nonneg row hrow
  · rw [hinvoices]
    exact h.distinct
  · rw [hinvoices] at hid
    rw [hcleared]
    exact h.unrecorded id hid

/-- The row of a cancelled invoice. -/
def cancelledRow (invoiceId : UUID) (row : APInvoice) : APInvoice :=
  if row.id = invoiceId then { row with status := "cancelled" } else row

theorem id_cancelledRow (invoiceId : UUID) (row : APInvoice) :
    (cancelledRow invoiceId row).id = row.id := by
  unfold cancelledRow
  split <;> rfl

theorem totalAmount_cancelledRow (invoiceId : UUID) (row : APInvoice) :
    (cancelledRow invoiceId row).totalAmount = row.totalAmount := by
  unfold cancelledRow
  split <;> rfl

theorem invoices_cancel (invoiceId : UUID) (rows : List APRow) :
    invoices (rows.map (APRow.cancel invoiceId)) =
      (invoices rows).map (cancelledRow invoiceId) := by
  induction rows with
  | nil => rfl
  | cons r rows ih =>
      cases r with
      | payment row => exact ih
      | invoice row => exact congrArg (cancelledRow invoiceId row :: ·) ih

theorem payments_cancel (invoiceId : UUID) (rows : List APRow) :
    payments (rows.map (APRow.cancel invoiceId)) = payments rows := by
  induction rows with
  | nil => rfl
  | cons r rows ih =>
      cases r with
      | payment row => exact congrArg (row :: ·) ih
      | invoice row => exact ih

/-- **An invoice is cancelled**, and both ledgers move by its open balance. -/
theorem Inv.cancel (h : Inv t credited) {row : APInvoice} {currency : String}
    (hrow : row ∈ invoices t.rows) (hcounts : counts currency row = true)
    (hmoves : Moves lines currency (-openBalance t row)) :
    Inv (cancelIn row.id (t.post lines)) credited := by
  have hinvoices : invoices (cancelIn row.id (t.post lines)).rows =
      (invoices t.rows).map (cancelledRow row.id) := invoices_cancel row.id t.rows
  have hcleared : ∀ id, cleared (cancelIn row.id (t.post lines)) id = cleared t id := by
    intro id
    have hpayments : payments (cancelIn row.id (t.post lines)).rows = payments t.rows :=
      payments_cancel row.id t.rows
    unfold cleared discounts
    rw [hpayments]
    rfl
  have hopen : ∀ row', openBalance (cancelIn row.id (t.post lines)) (cancelledRow row.id row') =
      openBalance t row' := by
    intro row'
    rw [openBalance, hcleared, id_cancelledRow, totalAmount_cancelledRow, openBalance]
  have hids : (invoices (cancelIn row.id (t.post lines)).rows).map (·.id) =
      (invoices t.rows).map (·.id) := by
    rw [hinvoices, List.map_map]
    exact List.map_congr_left fun row' _ => id_cancelledRow row.id row'
  have houtstanding : ∀ currency', outstanding (cancelIn row.id (t.post lines)) currency' =
      outstanding t currency' + if currency = currency' then -openBalance t row else 0 := by
    intro currency'
    have hcancelled : counts currency' (cancelledRow row.id row) = false := by
      simp [counts, cancelledRow]
    unfold outstanding
    rw [hinvoices, List.map_map, KeyedSums.sum_update h.distinct hrow fun row' hrow' hne => by
      have hsame : cancelledRow row.id row' = row' := if_neg hne
      simp only [Function.comp_apply]
      rw [hopen, hsame]]
    simp only [Function.comp_apply, hcancelled, Bool.false_eq_true, if_false, add_zero]
    have hcurrency : row.currency = currency := by
      simp only [counts, Bool.and_eq_true, decide_eq_true_eq] at hcounts
      exact hcounts.2
    by_cases heq : currency = currency'
    · subst heq
      rw [if_pos hcounts, if_pos rfl, sub_eq_add_neg]
    · have hnot : counts currency' row = false := by
        simp [counts, hcurrency, heq]
      rw [hnot, if_neg heq]
      simp
  refine ⟨⟨fun currency' => ?_, fun currency' => ?_, fun row' hrow' => ?_, fun row' hrow' => ?_⟩, ?_,
    fun id hid => ?_⟩
  · show payable currency' (t.lines ++ lines) = _
    rw [payable_append, h.ledger, hmoves.ledger, houtstanding]
  · show supplierBalance currency' (t.lines ++ lines) = _
    rw [supplierBalance_append, h.suppliers, hmoves.suppliers, houtstanding]
  · rw [hinvoices] at hrow'
    obtain ⟨old, hold, rfl⟩ := List.mem_map.mp hrow'
    rw [id_cancelledRow]
    exact h.once old hold
  · rw [hinvoices] at hrow'
    obtain ⟨old, hold, rfl⟩ := List.mem_map.mp hrow'
    rw [hopen]
    exact h.nonneg old hold
  · rw [hids]
    exact h.distinct
  · rw [hids] at hid
    rw [hcleared]
    exact h.unrecorded id hid

end Invariant

/-! ### What the events post -/

section Posted

variable {sv : APService} {e : Event} {lines : List LedgerLine}

/-- An event under a policy with one plain mapping on each of the two roles. -/
theorem moves_of_plainly {side : LineSide}
    (h : interpret sv.builtins.ctx policies e = .posted lines)
    (hpolicies : ∀ p ∈ policies, p.eventType = e.eventType →
      Plainly p "GL" "ACCOUNTS_PAYABLE" side ∧ Plainly p "AP" "SUPPLIER_BALANCE" side) :
    0 ≤ e.amount ∧ Moves lines e.currency (-signedOn side (stored e.amount)) := by
  obtain ⟨p, -, hfound, -⟩ := posted_of_interpret h
  obtain ⟨hmem, htype⟩ := List.mem_filter.mp (mem_of_findForEvent hfound)
  obtain ⟨hledger, hsuppliers⟩ := hpolicies p hmem (of_decide_eq_true htype)
  refine ⟨(balance_plainly h hfound hledger e.currency).1, fun currency => ?_, fun currency => ?_⟩
  · rw [payable, (balance_plainly h hfound hledger currency).2]
    split
    · rfl
    · exact neg_zero
  · rw [supplierBalance, (balance_plainly h hfound hsuppliers currency).2]
    split
    · rfl
    · exact neg_zero

theorem moves_of_invoice (h : interpret sv.builtins.ctx policies e = .posted lines)
    (htype : e.eventType ∈ ["ap.invoice_received", "ap.invoice_received_inventory"]) :
    0 ≤ e.amount ∧ Moves lines e.currency (stored e.amount) := by
  have hpolicies : ∀ p ∈ policies,
      p.eventType ∈ ["ap.invoice_received", "ap.invoice_received_inventory"] →
        Plainly p "GL" "ACCOUNTS_PAYABLE" .credit ∧ Plainly p "AP" "SUPPLIER_BALANCE" .credit := by
    decide
  have hmoves := moves_of_plainly h fun p hp heq => hpolicies p hp (heq ▸ htype)
  rw [signedOn, neg_neg] at hmoves
  exact hmoves

theorem moves_of_clearing (h : interpret sv.builtins.ctx policies e = .posted lines)
    (htype : e.eventType ∈ ["ap.payment", "ap.payment_with_discount", "ap.invoice_cancelled"]) :
    Moves lines e.currency (-stored e.amount) := by
  have hpolicies : ∀ p ∈ policies,
      p.eventType ∈ ["ap.payment", "ap.payment_with_discount", "ap.invoice_cancelled"] →
        Plainly p "GL" "ACCOUNTS_PAYABLE" .debit ∧ Plainly p "AP" "SUPPLIER_BALANCE" .debit := by
    decide
  exact (moves_of_plainly h fun p hp heq => hpolicies p hp (heq ▸ htype)).2

end Posted

/-! ### The links of a call -/

section Links

variable {sv : APService} {draws : Valuation.Env} {p : Reconciliation.ApplyPayment}
variable {s s' : Session Tables}

theorem committed_apply (s : Session Tables) :
    (apply sv draws p s).2.committed = s.committed := by
  unfold apply onStore mapOk
  dsimp only
  rcases Reconciliation.applyPayment_cases sv.builtins draws ⟨s.committed.store, s.current.store⟩ p
    with ⟨e, heq | heq⟩ | ⟨_, _, _, -, -, -, -, -, -, heq⟩
  · rw [heq]
    rfl
  · rw [heq]
    rfl
  · rw [heq]
    rfl

/-- An application that returns was admitted by the links, and its link is stored. -/
theorem apply_eq_ok (h : apply sv draws p s = (.ok (), s')) :
    ∃ state link, Reconciliation.getReconciliationState sv.builtins s.current.store.rows p.invoiceRef
        p.invoiceOriginalAmount = .ok state ∧ state.isFullyMatched = false ∧
      p.amount.amount ≤ state.remainingAmount.amount ∧
        s' = s.flush (s.current.become (s.current.store.withApplication p link)) := by
  unfold apply onStore mapOk at h
  dsimp only at h
  rcases Reconciliation.applyPayment_cases sv.builtins draws ⟨s.committed.store, s.current.store⟩ p
    with ⟨e, heq | heq⟩ | ⟨state, link, application, hstate, hmatched, -, hwithin, -, -, heq⟩
  · rw [heq] at h
    cases h
  · rw [heq] at h
    cases h
  · rw [heq] at h
    cases h
    exact ⟨state, link, hstate, hmatched, hwithin, rfl⟩

/-- What survives a rollback and a new link survives the links of a match. -/
structure LinkStable (Q : Session Tables → Prop) : Prop where
  rollback : ∀ s, Q s → Q s.rollback
  become : ∀ s store, Q s → Q (s.flush (s.current.become store))

theorem LinkStable.fulfil {Q : Session Tables → Prop} (hQ : LinkStable Q) (h : Q s) {n : ℕ}
    {parentRef childRef : ArtifactRef} {invoiceId : UUID} :
    Q (fulfil draws n parentRef childRef invoiceId s).2 := by
  unfold AccountsPayable.fulfil
  split
  · exact h
  · rename_i link _
    have hsession := LinkGraph.session_establishIn (fun t : Tables => t.store.links)
      draws.recursionLimit s link true
      (s.current.become { s.current.store with rows := s.current.store.rows ++ [⟨link, []⟩] })
    generalize LinkGraph.establishIn (fun t : Tables => t.store.links) draws.recursionLimit s link
      true _ = r at hsession
    have hstable : Q r.2 := by
      rcases hsession with heq | heq | heq
      · rw [heq]
        exact h
      · rw [heq]
        exact hQ.rollback s h
      · rw [heq]
        exact hQ.become s _ h
    rcases r with ⟨e | x, s₁⟩
    · exact hstable
    · exact hstable

theorem LinkStable.fulfilAll {Q : Session Tables → Prop} (hQ : LinkStable Q) {poId invoiceId : UUID}
    (receiptIds : List UUID) : ∀ n (s : Session Tables), Q s →
      Q (fulfilAll draws poId invoiceId n receiptIds s).2 := by
  induction receiptIds with
  | nil => exact fun _ _ h => h
  | cons receiptId receiptIds ih =>
      intro n s h
      rw [AccountsPayable.fulfilAll]
      refine Result.session_andThen (hQ.fulfil h) fun _ s₁ h₁ => ?_
      refine Result.session_andThen (hQ.fulfil h₁) fun _ s₂ h₂ => ?_
      exact ih (n + 2) s₂ h₂

theorem linkStable_committed (t : Tables) : LinkStable fun s => s.committed = t where
  rollback _ h := h
  become _ _ h := h

theorem linkStable_rows (rows : List APRow) :
    LinkStable fun s : Session Tables => s.Both fun t => t.rows = rows where
  rollback _ h := h.rollback
  become _ _ h := h.flush h.current

end Links

/-! ### One call -/

/-- The account between calls. -/
structure Account.Kept (w : Account) : Prop where
  quiet : Quiet w.session
  inv : Inv w.session.committed w.credited

section Step

variable {sv : APService} {parties : UUID → Bool} {answers : Answers} {s : Session Tables}
variable {credited : List UUID}

theorem Account.Kept.current {w : Account} (h : w.Kept) (n : ℕ) :
    Inv (w.session.current.request n) w.credited := by
  obtain ⟨m, hm⟩ := h.quiet
  rw [hm]
  exact (h.inv.request m).request n

/-- **A guarded work keeps the account** when it does so where it goes through. -/
theorem kept_guardedWork {α : Type} {a : TransitionCall}
    {prepare : Session Tables → Result ServiceError Tables α} {toEvent : α → Event}
    {finish : α → Tables → Tables} {new : List UUID} (hkept : Account.Kept ⟨s, credited⟩)
    (hfresh : Fresh answers) (hprepare : ∀ s, (prepare s).2.committed = s.committed)
    (hthrough : ∀ n x s₂ lines, (accepted answers a).isSome →
      prepare (s.flush (s.current.request n)) = (.ok x, s₂) →
        postEvent sv.builtins.ctx policies (answers.verdict 0) (toEvent x) = .posted lines →
          constraint parties (finish x (s₂.current.post lines)).rows = true →
            Inv (finish x (s₂.current.post lines)) (credited ++ new)) :
    let r := (booksEnv sv.builtins.ctx policies (constraint parties) answers).guardedWork a prepare
      toEvent finish s
    Account.Kept ⟨r.2, credited ++ creditedBy r.1 new⟩ := by
  obtain ⟨r, s', hrun, ⟨status, rfl, hsucceeded, hdone⟩ | ⟨hfailed, hquiet, hcommitted⟩⟩ :=
    @guardedWork_cases _ _ sv.builtins.ctx policies (constraint parties) answers s _ prepare toEvent
      finish a hprepare hkept.quiet
  · dsimp only
    rw [hrun]
    obtain ⟨n, x, s₂, lines, hprepared, hposted, hrows, rfl⟩ := hdone.posted hfresh
    have hinv := hthrough n x s₂ lines hdone.accepted hprepared hposted hrows
    have hcredited : creditedBy (.ok status) new = new := if_pos hsucceeded
    rw [hcredited]
    exact ⟨⟨0, rfl⟩, hinv⟩
  · dsimp only
    rw [hrun]
    have hcredited : creditedBy r new = [] := by
      cases r with
      | error e => rfl
      | ok status =>
          refine if_neg ?_
          rw [hfailed status rfl]
          exact Bool.false_ne_true
    rw [hcredited, List.append_nil]
    refine ⟨hquiet, ?_⟩
    rw [hcommitted]
    exact hkept.inv

/-- The entry of a method with its links is a step of the account. -/
theorem kept_record {a : TransitionCall} {e : Event} {row : APInvoice}
    (hkept : Account.Kept ⟨s, credited⟩) (hfresh : Fresh answers)
    (htype : e.eventType ∈ ["ap.invoice_received", "ap.invoice_received_inventory"])
    (hstatus : row.status = "draft") (hcurrency : e.currency = row.currency)
    (htotal : stored e.amount = row.totalAmount) :
    let r := (booksEnv sv.builtins.ctx policies (constraint parties) answers).guardedPosting a e
      [.invoice row] s
    Account.Kept ⟨r.2, credited ++ creditedBy r.1 [row.id]⟩ := by
  refine kept_guardedWork hkept hfresh (fun _ => rfl) ?_
  intro n x s₂ lines _ hprepared hposted hrows
  obtain ⟨-, rfl⟩ := Prod.mk.inj hprepared
  obtain ⟨hnonneg, hmoves⟩ := moves_of_invoice (interpret_of_posted hposted) htype
  rw [hcurrency, htotal] at hmoves
  have hdistinct : ((invoices (s.current.rows ++ [.invoice row])).map (·.id)).Nodup := by
    simp only [constraint, Bool.and_eq_true, decide_eq_true_eq] at hrows
    exact hrows.1.1.1.1
  refine (hkept.current n).record hdistinct hstatus hmoves ?_
  rw [← htotal]
  exact Decimal.quantize_nonneg hnonneg

/-- An application of the whole amount that returns was admitted. -/
theorem admits_of_apply {draws : Valuation.Env} {invoiceId paymentId eventId : UUID} {amount : ℚ}
    {currency : String} {date : Date} {n : ℕ} {s₂ : Session Tables}
    (h : apply sv draws (application invoiceId paymentId eventId amount currency date)
      (s.flush (s.current.request n)) = (.ok (), s₂)) :
    Admits sv s.current invoiceId amount currency ∧ ∃ link, s₂.current =
      (s.current.request n).become (s.current.store.withApplication
        (application invoiceId paymentId eventId amount currency date) link) := by
  obtain ⟨state, link, hstate, hmatched, hwithin, rfl⟩ := apply_eq_ok h
  exact ⟨⟨state, hstate, hmatched, hwithin⟩, link, rfl⟩

/-- What is cleared after an application and a payment row. -/
theorem cleared_add_payment {t : Tables} {p : Reconciliation.ApplyPayment}
    {link : LinkGraph.EconomicLink} {lines : List LedgerLine} {row : APPayment} {invoiceId : UUID}
    (hinvoice : p.invoiceRef = invoiceRef invoiceId) (hids : row.invoiceIds = [invoiceId])
    (id : UUID) :
    cleared (((t.become (t.store.withApplication p link)).post lines).add (.payment row)) id =
      cleared t id + if id = invoiceId then p.amount.amount + row.discountTaken else 0 := by
  have hpayments : payments (((t.become (t.store.withApplication p link)).post lines).add
      (.payment row)).rows = payments t.rows ++ [row] := payments_append t.rows [.payment row]
  have hpaid : Reconciliation.paid
      (((t.become (t.store.withApplication p link)).post lines).add (.payment row)).store
        (invoiceRef id) = Reconciliation.paid t.store (invoiceRef id) +
          if p.invoiceRef = invoiceRef id then p.amount.amount else 0 :=
    Reconciliation.paid_withApplication t.store p link (invoiceRef id)
  unfold cleared discounts
  rw [hpayments, hpaid, hinvoice, List.filter_append, List.map_append, List.sum_append]
  by_cases heq : id = invoiceId
  · subst heq
    simp [hids]
    ring
  · have hne : invoiceRef invoiceId ≠ invoiceRef id := fun h => heq (congrArg ArtifactRef.artifactId h).symm
    simp [hids, heq, hne]

theorem kept_payment {paymentId invoiceId : UUID} {amount : ℚ} {effectiveDate : Date}
    {actorId vendorId : UUID} {currency : String} {paymentMethod reference : Option String}
    {discountAmount : Option ℚ} {bankAccountId : Option UUID} {draws : Valuation.Env}
    (hkept : Account.Kept ⟨s, credited⟩) (hfresh : Fresh answers)
    (hfits : ∀ lines, (accepted answers (releaseTransition paymentId invoiceId actorId amount
        currency s)).isSome →
      postEvent sv.builtins.ctx policies (answers.verdict 0) (paymentEvent sv invoiceId amount
        vendorId currency paymentMethod reference discountAmount bankAccountId) = .posted lines →
      Operation.Fits sv s.current (.recordPayment paymentId invoiceId amount effectiveDate actorId
        vendorId currency paymentMethod reference discountAmount bankAccountId)) :
    let r := recordPayment sv (booksEnv sv.builtins.ctx policies (constraint parties) answers)
      paymentId invoiceId amount effectiveDate actorId vendorId currency paymentMethod reference
        discountAmount bankAccountId draws s
    Account.Kept ⟨r.2, credited ++ creditedBy r.1 []⟩ := by
  refine kept_guardedWork hkept hfresh committed_apply ?_
  intro n x s₂ lines haccepted hprepared hposted hrows
  obtain ⟨hadmits, link, hcurrent⟩ := admits_of_apply hprepared
  obtain ⟨hstored, row, hrow, rfl, hcounts, hwithin⟩ := hfits lines haccepted hposted hadmits
  have hmoves := moves_of_clearing (interpret_of_posted hposted) (by
    unfold paymentEvent
    dsimp only
    split
    · decide
    · decide)
  rw [hstored] at hmoves
  rw [hcurrent, List.append_nil]
  refine (hkept.current n).clear hrow hcounts hwithin hmoves ?_ rfl fun id => ?_
  · refine (invoices_append (s.current.request n).rows _).trans ?_
    exact List.append_nil _
  · exact @cleared_add_payment (s.current.request n) _ link lines _ row.id rfl rfl id

theorem kept_cancel {invoiceId : UUID} {amount : ℚ} {actorId : UUID} {currency : String}
    {reason : Option String} {taxAmount : Option ℚ} {items : List PolicyBridge.ItemAmount}
    (hkept : Account.Kept ⟨s, credited⟩) (hfresh : Fresh answers)
    (hfits : ∀ lines, (accepted answers (cancelTransition invoiceId actorId amount currency reason
        s)).isSome →
      postEvent sv.builtins.ctx policies (answers.verdict 0) (invoiceCancelled invoiceId amount
        currency reason taxAmount items) = .posted lines →
      Operation.Fits sv s.current (.cancelInvoice invoiceId amount actorId currency reason taxAmount
        items)) :
    let r := cancelInvoice (booksEnv sv.builtins.ctx policies (constraint parties) answers) invoiceId
      amount actorId currency reason taxAmount items s
    Account.Kept ⟨r.2, credited ++ creditedBy r.1 []⟩ := by
  refine kept_guardedWork hkept hfresh (fun _ => rfl) ?_
  intro n x s₂ lines haccepted hprepared hposted hrows
  obtain ⟨-, rfl⟩ := Prod.mk.inj hprepared
  obtain ⟨row, hrow, rfl, hcounts, hopen⟩ := hfits lines haccepted hposted
  have hmoves := moves_of_clearing (interpret_of_posted hposted) (by
    show "ap.invoice_cancelled" ∈ _
    decide)
  have hamount : stored (invoiceCancelled row.id amount currency reason taxAmount items).amount =
      openBalance s.current row := hopen
  rw [hamount] at hmoves
  rw [List.append_nil]
  exact (hkept.current n).cancel hrow hcounts hmoves

theorem kept_prepayment {applicationId prepaymentId invoiceId : UUID} {amount : ℚ}
    {effectiveDate : Date} {actorId : UUID} {currency : String} {draws : Valuation.Env}
    (hkept : Account.Kept ⟨s, credited⟩) (hfresh : Fresh answers)
    (hfits : ∀ lines, (accepted answers (prepaymentTransition applicationId prepaymentId invoiceId
        actorId amount currency)).isSome →
      postEvent sv.builtins.ctx policies (answers.verdict 0) (prepaymentApplied prepaymentId
        invoiceId amount currency) = .posted lines →
      Operation.Fits sv s.current (.applyPrepayment applicationId prepaymentId invoiceId amount
        effectiveDate actorId currency)) :
    let r := applyPrepayment sv (booksEnv sv.builtins.ctx policies (constraint parties) answers)
      applicationId prepaymentId invoiceId amount effectiveDate actorId currency draws s
    Account.Kept ⟨r.2, credited ++ creditedBy r.1 []⟩ := by
  refine kept_guardedWork hkept hfresh committed_apply ?_
  intro n x s₂ lines haccepted hprepared hposted hrows
  obtain ⟨hadmits, link, hcurrent⟩ := admits_of_apply hprepared
  obtain rfl : amount = 0 := hfits lines haccepted hposted hadmits
  have hinterpret := interpret_of_posted hposted
  have hfound : findForEvent policies (prepaymentApplied prepaymentId invoiceId 0 currency).eventType
      (prepaymentApplied prepaymentId invoiceId 0 currency).payload = some apPrepaymentApplied := rfl
  have hplainly : Plainly apPrepaymentApplied "GL" "ACCOUNTS_PAYABLE" .debit := by decide
  have hsilent : Silent apPrepaymentApplied "AP" "SUPPLIER_BALANCE" := by decide
  have hzero : stored 0 = 0 := by decide +kernel
  rw [hcurrent, List.append_nil]
  refine (hkept.current n).still rfl rfl (fun currency' => ?_) (fun currency' => ?_) fun id => ?_
  · rw [payable, (balance_plainly hinterpret hfound hplainly currency').2]
    simp [prepaymentApplied, signedOn, hzero]
  · rw [supplierBalance, balance_silent hinterpret hfound hsilent, neg_zero]
  · unfold cleared
    have hpaid := Reconciliation.paid_withApplication s.current.store
      (application invoiceId prepaymentId applicationId 0 currency effectiveDate) link (invoiceRef id)
    have hsame : Reconciliation.paid (s.current.store.withApplication
        (application invoiceId prepaymentId applicationId 0 currency effectiveDate) link)
          (invoiceRef id) = Reconciliation.paid s.current.store (invoiceRef id) := by
      rw [hpaid]
      exact (congrArg (_ + ·) (ite_self 0)).trans (add_zero _)
    exact congrArg (· + discounts s.current.rows id) hsame

theorem kept_match {invoiceId poId : UUID} {receiptIds : List UUID} {actorId : UUID}
    {invoiceAmount poAmount : Option ℚ} {currency : String} {tolerance : Option MatchTolerance}
    {draws : Valuation.Env} (hkept : Account.Kept ⟨s, credited⟩) (hfresh : Fresh answers)
    (hfits : ∀ m lines, createMatch sv.builtins.ctx
        (matchDocuments invoiceId poId receiptIds invoiceAmount poAmount currency) = some m →
      (accepted answers (matchTransition sv invoiceId actorId m invoiceAmount poAmount currency
        tolerance)).isSome →
      postEvent sv.builtins.ctx policies (answers.verdict 0) (invoiceMatched sv invoiceId poId
        receiptIds m (getInvoice s.current.rows invoiceId) currency) ≠ .posted lines) :
    let r := matchInvoiceToPo sv (booksEnv sv.builtins.ctx policies (constraint parties) answers)
      invoiceId poId receiptIds actorId invoiceAmount poAmount currency tolerance draws s
    Account.Kept ⟨r.2, credited ++ creditedBy r.1 [invoiceId]⟩ := by
  unfold matchInvoiceToPo
  cases hmatch : createMatch sv.builtins.ctx
      (matchDocuments invoiceId poId receiptIds invoiceAmount poAmount currency) with
  | none =>
      refine ⟨⟨0, rfl⟩, ?_⟩
      show Inv s.committed (credited ++ [])
      rw [List.append_nil]
      exact hkept.inv
  | some m =>
      refine kept_guardedWork hkept hfresh (fun s => ?_) ?_
      · exact Result.session_andThen (Q := fun s' => s'.committed = s.committed)
          ((linkStable_committed s.committed).fulfilAll receiptIds 0 s rfl) fun _ _ h => h
      · intro n x s₂ lines haccepted hprepared hposted hrows
        refine absurd ?_ (hfits m lines hmatch haccepted)
        obtain ⟨m', hm'⟩ := hkept.quiet
        have hsame : s.committed.rows = s.current.rows := by
          rw [show s.current = s.committed.request m' from hm']
          rfl
        have hframe : (fulfilAll draws poId invoiceId 0 receiptIds
            (s.flush (s.current.request n))).2.Both fun t => t.rows = s.current.rows :=
          (linkStable_rows s.current.rows).fulfilAll receiptIds 0 (s.flush (s.current.request n))
            ⟨hsame, rfl⟩
        obtain ⟨_, s₁, hlinks, hread⟩ := Result.andThen_eq_ok.mp hprepared
        rw [hlinks] at hframe
        obtain ⟨hx, rfl⟩ := Prod.mk.inj hread
        rw [← Except.ok.inj hx, hframe.current] at hposted
        exact hposted

/-- A transition without a posting keeps the account. -/
theorem kept_transitionOnly {a : TransitionCall} (hkept : Account.Kept ⟨s, credited⟩) :
    let r := transitionOnly (booksEnv sv.builtins.ctx policies (constraint parties) answers) a s
    Account.Kept ⟨r.2, credited ++ creditedBy r.1 []⟩ := by
  have hnone : ∀ r : Except ServiceError ModulePostingStatus, creditedBy r [] = [] := by
    intro r
    cases r with
    | error e => rfl
    | ok status => exact ite_self _
  dsimp only
  rw [hnone, List.append_nil]
  unfold transitionOnly Env.runWorkflowGuard
  rcases htransition : (booksEnv sv.builtins.ctx policies (constraint parties)
      answers).executeTransition a s with ⟨e | r, s₁⟩
  · have hcommitted := (booksEnv sv.builtins.ctx policies (constraint parties)
      answers).committed_executeTransition a s
    rw [htransition] at hcommitted
    refine ⟨⟨0, rfl⟩, ?_⟩
    show Inv s₁.committed credited
    rw [show s₁.committed = s.committed from hcommitted]
    exact hkept.inv
  · obtain ⟨n, rfl⟩ := booksEnv_executeTransition htransition
    obtain ⟨m, hm⟩ := hkept.quiet
    refine ⟨⟨m + n, ?_⟩, hkept.inv⟩
    show s.current.request n = s.committed.request (m + n)
    rw [show s.current = s.committed.request m from hm]
    simp [Books.request, add_assoc]

/-- **Step lemma**: a call that meets the condition keeps the account. -/
theorem kept_step {w w' : Account} {c : Call} (hkept : w.Kept) (hsound : Sound sv w c)
    (h : accountStep sv parties w c = some w') : w'.Kept := by
  obtain rfl := Option.some.inj h
  obtain ⟨session, credited⟩ := w
  obtain ⟨operation, answers, draws⟩ := c
  obtain ⟨hfresh, hfits⟩ := hsound
  cases operation with
  | recordInvoice => exact kept_record hkept hfresh List.mem_cons_self rfl rfl rfl
  | recordInventoryInvoice =>
      exact kept_record hkept hfresh (List.mem_cons_of_mem _ List.mem_cons_self) rfl rfl rfl
  | matchInvoiceToPo invoiceId poId receiptIds actorId invoiceAmount poAmount currency tolerance =>
      refine kept_match hkept hfresh fun m lines hmatch haccepted hposted => ?_
      refine hfits _ _ lines ?_ haccepted ?_ hposted
      · exact Option.map_eq_some_iff.mpr ⟨m, hmatch, rfl⟩
      · exact Option.map_eq_some_iff.mpr ⟨m, hmatch, rfl⟩
  | approveInvoice => exact kept_transitionOnly hkept
  | submitPayment => exact kept_transitionOnly hkept
  | approvePayment => exact kept_transitionOnly hkept
  | recordPayment =>
      exact kept_payment hkept hfresh fun lines haccepted hposted =>
        hfits _ _ lines rfl haccepted rfl hposted
  | cancelInvoice =>
      exact kept_cancel hkept hfresh fun lines haccepted hposted =>
        hfits _ _ lines rfl haccepted rfl hposted
  | applyPrepayment =>
      exact kept_prepayment hkept hfresh fun lines haccepted hposted =>
        hfits _ _ lines rfl haccepted rfl hposted

end Step

/-! ### Runs from empty books -/

/-- No lines and no rows; the links are given, and nothing was applied. -/
def emptyBooks (links : LinkGraph.LinkTable) : Tables := { store := Reconciliation.Store.initial links }

theorem kept_empty (links : LinkGraph.LinkTable) :
    Account.Kept ⟨Session.start (emptyBooks links), []⟩ := by
  refine ⟨⟨0, rfl⟩, ⟨fun currency => ?_, fun currency => ?_, ?_, ?_⟩, List.nodup_nil, fun id _ => ?_⟩
  · exact neg_zero
  · exact neg_zero
  · exact fun _ hrow => nomatch hrow
  · exact fun _ hrow => nomatch hrow
  · exact ⟨add_zero 0, List.not_mem_nil⟩

/-- **The payables agree with the invoices** in every run in which what is posted fits them. -/
theorem payables_agree (sv : APService) (parties : UUID → Bool) (links : LinkGraph.LinkTable)
    (calls : List Call) (hsound : Along (accountStep sv parties) (Sound sv)
      ⟨Session.start (emptyBooks links), []⟩ calls) :
    Throughout (accountStep sv parties) (fun w => Agrees w.session.current w.credited)
      ⟨Session.start (emptyBooks links), []⟩ calls := by
  intro pre post w heq hrun
  have hkept := hsound.throughout (fun _ _ _ hkept hstep h => kept_step hkept hstep h)
    (kept_empty links) pre post w heq hrun
  exact (hkept.current 0).toAgrees

/-! ### An invoice that is recorded and matched -/

/-- Invoice 1 of 100 for order "PO-1". -/
def sampleInvoice : Call :=
  sampleCall (.recordInvoice ⟨1⟩ ⟨7⟩ 100 sampleTime.date ⟨5⟩ "USD" none none (some "PO-1") none [])

/-- Payment 2 of 60 on invoice 1. -/
def samplePart : Call :=
  sampleCall (.recordPayment ⟨2⟩ ⟨1⟩ 60 sampleTime.date ⟨5⟩ ⟨7⟩ "USD" none none none none)

/-- The match of invoice 1 with order 3 and receipt 4. -/
def sampleMatch : Call :=
  sampleCall (.matchInvoiceToPo ⟨1⟩ ⟨3⟩ [⟨4⟩] ⟨5⟩ (some 100) (some 100) "USD" none)

theorem fresh_permissive : Fresh permissive := fun _ _ _ h => nomatch h

theorem payables_agree_part :
    Throughout (accountStep sampleService fun _ => true)
      (fun w => Agrees w.session.current w.credited) ⟨Session.start (emptyBooks []), []⟩
      [sampleInvoice, samplePart] := by
  refine payables_agree sampleService (fun _ => true) [] _ ?_
  refine TransitionSystem.along_cons.mpr ⟨⟨fresh_permissive, fun _ _ _ _ _ _ _ => trivial⟩, ?_⟩
  intro w₁ h₁
  obtain rfl := Option.some.inj h₁
  refine TransitionSystem.along_cons.mpr ⟨⟨fresh_permissive, ?_⟩, fun w₂ h₂ =>
    TransitionSystem.along_nil⟩
  intro _ _ _ _ _ _ _ _
  refine ⟨by decide +kernel, invoiceRow sampleService ⟨1⟩ ⟨7⟩ 100 sampleTime.date ⟨5⟩ "USD" none none
    none, ?_, rfl, ?_, ?_⟩
  · decide +kernel
  · decide +kernel
  · decide +kernel

/-- **A recorded invoice is credited again by its match.** -/
theorem matched_invoice_credited_twice :
    ¬Throughout (accountStep sampleService fun _ => true)
      (fun w => Agrees w.session.current w.credited) ⟨Session.start (emptyBooks []), []⟩
      [sampleInvoice, sampleMatch] := by
  intro h
  have hagrees := (h [sampleInvoice, sampleMatch] [] _ rfl rfl).ledger "USD"
  revert hagrees
  decide +kernel

end FinanceAccounting.AccountsPayable
