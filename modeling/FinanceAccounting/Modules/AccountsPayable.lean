import FinanceAccounting.Modules.Books
import FinanceAccounting.Services.Reconciliation

/-! # Accounts payable

`APService`: invoices are recorded, matched, approved, paid and cancelled.  Every method asks the
workflow executor for one transition, from a state that the method knows or reads from the row of
the invoice, and posts under the policies of the module; payments and prepayments are links of the
reconciliation manager.  The methods run on the books of the module, with the links in the same
session. -/

namespace FinanceAccounting.AccountsPayable

open UnitOfWork (Session Result)
open ModulePosting (ModulePostingStatus)
open PolicyBridge
open WorkflowExecutor (Workflow Transition)
open LinkGraph (ArtifactRef EconomicLink)
open Reconciliation (ApplyPayment)
open Valuation (Money)
open Modules

/-! ### Policies -/

def supplierFrozen : GuardCondition where
  expression := .isTrue "party.is_frozen"
  reasonCode := "SUPPLIER_FROZEN"

/-- The five mappings of an invoice. -/
def invoiceMappings (role : String) (foreach : Option String) : List ModuleLineMapping := [
  { role := role, side := .debit, foreach := foreach },
  { role := "TAX_PAYABLE", side := .debit, fromContext := some "tax_amount" },
  { role := "ACCOUNTS_PAYABLE", side := .credit },
  { role := "INVOICE", side := .debit, ledger := "AP" },
  { role := "SUPPLIER_BALANCE", side := .credit, ledger := "AP" }]

def invoiceEffects (role : String) : List LedgerEffect :=
  [⟨"GL", role, "ACCOUNTS_PAYABLE"⟩, ⟨"AP", "INVOICE", "SUPPLIER_BALANCE"⟩]

def apInvoiceExpense : AccountingPolicy where
  name := "APInvoiceExpense"
  eventType := "ap.invoice_received"
  clauses := [.absent "po_number"]
  ledgerEffects := invoiceEffects "EXPENSE"
  guards := [supplierFrozen, invalidAmount "gross_amount"]
  lineMappings := invoiceMappings "EXPENSE" (some "invoice_lines")

def apInvoicePoMatched : AccountingPolicy where
  name := "APInvoicePOMatched"
  eventType := "ap.invoice_received"
  ledgerEffects := invoiceEffects "GRNI"
  guards := [supplierFrozen]
  lineMappings := invoiceMappings "GRNI" none

def apInvoiceInventory : AccountingPolicy where
  name := "APInvoiceInventory"
  eventType := "ap.invoice_received_inventory"
  ledgerEffects := invoiceEffects "INVENTORY"
  guards := [supplierFrozen]
  lineMappings := invoiceMappings "INVENTORY" (some "invoice_lines")

def paymentEffects : List LedgerEffect :=
  [⟨"GL", "ACCOUNTS_PAYABLE", "CASH"⟩, ⟨"AP", "SUPPLIER_BALANCE", "PAYMENT"⟩]

def apPayment : AccountingPolicy where
  name := "APPayment"
  eventType := "ap.payment"
  ledgerEffects := paymentEffects
  guards := [supplierFrozen, invalidAmount "payment_amount"]
  lineMappings := [
    { role := "ACCOUNTS_PAYABLE", side := .debit },
    { role := "CASH", side := .credit },
    { role := "SUPPLIER_BALANCE", side := .debit, ledger := "AP" },
    { role := "PAYMENT", side := .credit, ledger := "AP" }]

def apPaymentWithDiscount : AccountingPolicy where
  name := "APPaymentWithDiscount"
  eventType := "ap.payment_with_discount"
  ledgerEffects := paymentEffects
  lineMappings := [
    { role := "ACCOUNTS_PAYABLE", side := .debit },
    { role := "CASH", side := .credit, fromContext := some "payment_amount" },
    { role := "PURCHASE_DISCOUNT", side := .credit, fromContext := some "discount_amount" },
    { role := "SUPPLIER_BALANCE", side := .debit, ledger := "AP" },
    { role := "PAYMENT", side := .credit, ledger := "AP" }]

def apInvoiceCancelled : AccountingPolicy where
  name := "APInvoiceCancelled"
  eventType := "ap.invoice_cancelled"
  ledgerEffects :=
    [⟨"GL", "ACCOUNTS_PAYABLE", "EXPENSE"⟩, ⟨"AP", "SUPPLIER_BALANCE", "REVERSAL"⟩]
  lineMappings := [
    { role := "ACCOUNTS_PAYABLE", side := .debit },
    { role := "EXPENSE", side := .credit, foreach := some "invoice_lines" },
    { role := "TAX_PAYABLE", side := .credit, fromContext := some "tax_amount" },
    { role := "SUPPLIER_BALANCE", side := .debit, ledger := "AP" },
    { role := "REVERSAL", side := .credit, ledger := "AP" }]

/-- The ledger of the suppliers is left out. -/
def apPrepaymentApplied : AccountingPolicy :=
  pairPolicy "APPrepaymentApplied" "ap.prepayment_applied" "ACCOUNTS_PAYABLE" "PREPAID_EXPENSE" [] []

/-- The policies of the module that the events below can match. -/
def policies : List AccountingPolicy :=
  [apInvoiceExpense, apInvoicePoMatched, apInvoiceInventory, apPayment, apPaymentWithDiscount,
    apInvoiceCancelled, apPrepaymentApplied]

/-! ### Workflows -/

/-- `INVOICE_WORKFLOW`. -/
def invoiceWorkflow : Workflow where
  name := "ap_invoice"
  transitions := [
    ⟨"draft", "pending_match", "submit", none, false, false⟩,
    ⟨"draft", "cancelled", "cancel", none, false, false⟩,
    ⟨"pending_match", "matched", "match", some "match_within_tolerance", true, false⟩,
    ⟨"pending_match", "pending_approval", "match_override", none, false, false⟩,
    ⟨"pending_match", "cancelled", "cancel", none, false, false⟩,
    ⟨"matched", "pending_approval", "request_approval", none, false, false⟩,
    ⟨"pending_approval", "approved", "approve", some "approval_threshold_met", false, true⟩,
    ⟨"pending_approval", "matched", "reject", none, false, false⟩,
    ⟨"approved", "scheduled", "schedule_payment", none, false, false⟩,
    ⟨"scheduled", "paid", "mark_paid", none, false, false⟩,
    ⟨"approved", "cancelled", "cancel", none, false, false⟩]

/-- `PAYMENT_WORKFLOW`. -/
def paymentWorkflow : Workflow where
  name := "ap_payment"
  transitions := [
    ⟨"draft", "pending_approval", "submit", some "sufficient_funds", false, false⟩,
    ⟨"draft", "voided", "void", none, false, false⟩,
    ⟨"pending_approval", "approved", "approve", some "payment_approved", false, true⟩,
    ⟨"pending_approval", "draft", "reject", none, false, false⟩,
    ⟨"approved", "submitted", "release", none, true, false⟩,
    ⟨"approved", "voided", "void", none, false, false⟩,
    ⟨"submitted", "cleared", "confirm_cleared", none, false, false⟩,
    ⟨"submitted", "voided", "void", none, true, false⟩]

def invoiceTerminalStates : List String := ["paid", "cancelled"]

def paymentTerminalStates : List String := ["cleared", "voided"]

/-- `_ap_draft_posted_workflow`. -/
def apDraftPostedWorkflow (name : String) : Workflow where
  name := name
  transitions := [{ fromState := "draft", toState := "posted", action := "post" }]

/-! ### Rows -/

structure APInvoice where
  id : UUID
  vendorId : UUID
  invoiceNumber : String
  invoiceDate : Date
  dueDate : Date
  currency : String
  subtotal : ℚ
  taxAmount : ℚ
  totalAmount : ℚ
  status : String
  createdById : UUID
deriving DecidableEq, Repr

structure APPayment where
  id : UUID
  vendorId : UUID
  paymentDate : Date
  paymentMethod : String
  amount : ℚ
  currency : String
  reference : String
  status : String
  invoiceIds : List UUID
  discountTaken : ℚ
  bankAccountId : Option UUID
  createdById : UUID
deriving DecidableEq, Repr

inductive APRow where
  | invoice (row : APInvoice)
  | payment (row : APPayment)
deriving DecidableEq, Repr

def invoices (rows : List APRow) : List APInvoice := rows.filterMap fun
  | .invoice row => some row
  | .payment _ => none

def payments (rows : List APRow) : List APPayment := rows.filterMap fun
  | .payment row => some row
  | .invoice _ => none

/-- Primary keys, the unique invoice number and the foreign key to the parties. -/
def constraint (parties : UUID → Bool) (rows : List APRow) : Bool :=
  ((invoices rows).map (·.id)).Nodup && ((invoices rows).map (·.invoiceNumber)).Nodup &&
    ((payments rows).map (·.id)).Nodup && (invoices rows).all (parties ·.vendorId) &&
      (payments rows).all (parties ·.vendorId)

/-- The books of the module, with the links. -/
abbrev Tables := Books APRow Reconciliation.Store

/-- `session.get(APInvoiceModel, invoice_id)`. -/
def getInvoice (rows : List APRow) (invoiceId : UUID) : Option APInvoice :=
  (invoices rows).find? (·.id = invoiceId)

/-- `existing.status = "cancelled"`. -/
def APRow.cancel (invoiceId : UUID) : APRow → APRow
  | .invoice row => .invoice (if row.id = invoiceId then { row with status := "cancelled" } else row)
  | .payment row => .payment row

def cancelIn (invoiceId : UUID) (t : Tables) : Tables :=
  { t with rows := t.rows.map (APRow.cancel invoiceId) }

/-! ### Matching -/

inductive MatchStatus where
  | partlyMatched
  | matched
deriving DecidableEq, Repr

def MatchStatus.value : MatchStatus → String
  | .partlyMatched => "partial"
  | .matched => "matched"

structure MatchCandidate where
  documentType : String
  documentId : UUID
  amount : Option Money := none

/-- A match of documents without quantities, of which none has a variance. -/
structure MatchResult where
  status : MatchStatus
  matchedAmount : Money
  unmatched : List (UUID × ℚ)

/-- `create_match`. -/
def createMatch (ctx : Decimal.Context) (documents : List MatchCandidate) : Option MatchResult :=
  if documents.length < 2 then none
  else
    match documents.filterMap (·.amount) with
    | [] => none
    | first :: rest =>
        if rest.any (·.currency ≠ first.currency) then none
        else
          let matchedAmount := (rest.map (·.amount)).foldl min first.amount
          let unmatched := documents.filterMap fun d => d.amount.bind fun m =>
            let remainder := ctx.round (m.amount - matchedAmount)
            if remainder = 0 then none else some (d.documentId, remainder)
          some
            { status := if unmatched = [] then .matched else .partlyMatched
              matchedAmount := ⟨matchedAmount, first.currency⟩
              unmatched := unmatched }

/-- `Money.of(amount, currency) if amount else None`. -/
def moneyUnlessZero (amount : Option ℚ) (currency : String) : Option Money :=
  (amount.filter (· ≠ 0)).map fun x => ⟨x, currency⟩

/-- The documents of a three-way match. -/
def matchDocuments (invoiceId poId : UUID) (receiptIds : List UUID)
    (invoiceAmount poAmount : Option ℚ) (currency : String) : List MatchCandidate :=
  ⟨"PO", poId, moneyUnlessZero poAmount currency⟩ ::
    (receiptIds.map fun receiptId => ⟨"RECEIPT", receiptId, none⟩) ++
      [⟨"INVOICE", invoiceId, moneyUnlessZero invoiceAmount currency⟩]

/-- A tolerance in percent, or none. -/
structure MatchTolerance where
  amountTolerance : ℚ
  isPercent : Bool
deriving DecidableEq, Repr

/-! ### The service -/

/-- What the service is constructed with: the arithmetic, the frozen parties and the price variance
of the configuration. -/
structure APService where
  builtins : Reconciliation.Builtins
  isFrozen : UUID → Bool
  priceVariancePercent : Option ℚ

section Events

variable (sv : APService)

def invoiceReceived (vendorId : UUID) (amount : ℚ) (currency : String)
    (invoiceNumber : Option String) (taxAmount : Option ℚ) (poNumber : Option String)
    (dueDate : Option Date) (lines : List ItemAmount) : Event where
  eventType := "ap.invoice_received"
  payload := payloadOf (
    [("vendor_id", .text vendorId.str),
      ("invoice_number", optionalText invoiceNumber),
      ("gross_amount", .number amount),
      ("due_date", optionalText (dueDate.map fun d => String.ofList d.isoformat)),
      ("party.is_frozen", .flag (sv.isFrozen vendorId))] ++
    optionalAmount "tax_amount" taxAmount ++ optionalEntry "po_number" poNumber ++
      optionalItems lines)
  amount := amount
  currency := currency

def inventoryInvoiceReceived (vendorId : UUID) (amount : ℚ) (currency : String)
    (poNumber : Option String) (taxAmount : Option ℚ) (lines : List ItemAmount) : Event where
  eventType := "ap.invoice_received_inventory"
  payload := payloadOf (
    [("vendor_id", .text vendorId.str), ("gross_amount", .number amount)] ++
      optionalEntry "po_number" poNumber ++ optionalAmount "tax_amount" taxAmount ++
        optionalItems lines)
  amount := amount
  currency := currency

/-- The vendor is that of the row of the invoice. -/
def invoiceMatched (invoiceId poId : UUID) (receiptIds : List UUID) (m : MatchResult)
    (row : Option APInvoice) (currency : String) : Event where
  eventType := "ap.invoice_received"
  payload := payloadOf [
    ("invoice_id", .text invoiceId.str),
    ("po_number", .text poId.str),
    ("receipt_ids", .items (receiptIds.map fun _ => .unreadable)),
    ("match_status", .text m.status.value),
    ("matched_amount", .number m.matchedAmount.amount),
    ("has_variance", .flag false),
    ("party.is_frozen", .flag (row.any fun row => sv.isFrozen row.vendorId))]
  amount := m.matchedAmount.amount
  currency := currency

/-- A discount that is not positive is none. -/
def givenDiscount (discountAmount : Option ℚ) : Option ℚ := discountAmount.filter (0 < ·)

def paymentEvent (invoiceId : UUID) (amount : ℚ) (vendorId : UUID) (currency : String)
    (paymentMethod reference : Option String) (discountAmount : Option ℚ)
    (bankAccountId : Option UUID) : Event where
  eventType :=
    if (givenDiscount discountAmount).isSome then "ap.payment_with_discount" else "ap.payment"
  payload := payloadOf (
    [("vendor_id", .text vendorId.str),
      ("invoice_id", .text invoiceId.str),
      ("payment_amount", .number amount),
      ("payment_method", optionalText paymentMethod),
      ("reference", optionalText reference),
      ("bank_account_id", optionalText (bankAccountId.map UUID.str)),
      ("party.is_frozen", .flag (sv.isFrozen vendorId))] ++
    optionalAmount "discount_amount" (givenDiscount discountAmount))
  amount := (givenDiscount discountAmount).elim amount fun d => sv.builtins.ctx.round (amount + d)
  currency := currency

def invoiceCancelled (invoiceId : UUID) (amount : ℚ) (currency : String) (reason : Option String)
    (taxAmount : Option ℚ) (lines : List ItemAmount) : Event where
  eventType := "ap.invoice_cancelled"
  payload := payloadOf (
    [("invoice_id", .text invoiceId.str), ("reason", optionalText reason)] ++
      optionalAmount "tax_amount" taxAmount ++ optionalItems lines)
  amount := amount
  currency := currency

def prepaymentApplied (prepaymentId invoiceId : UUID) (amount : ℚ) (currency : String) :
    Event where
  eventType := "ap.prepayment_applied"
  payload := payloadOf [
    ("prepayment_id", .text prepaymentId.str),
    ("invoice_id", .text invoiceId.str),
    ("applied_amount", .number amount)]
  amount := amount
  currency := currency

end Events

/-! ### Transitions -/

section Transitions

variable (entityId actorId : UUID) (amount : ℚ) (currency : String)

/-- A transition of an invoice. -/
def invoiceTransition (currentState action : String)
    (context : List (String × PayloadValue)) : TransitionCall where
  workflow := invoiceWorkflow
  entityType := "ap_invoice"
  entityId := entityId
  currentState := currentState
  action := action
  actorId := actorId
  amount := some amount
  currency := currency
  context := context

/-- A transition of a payment. -/
def paymentTransition (currentState action : String)
    (context : List (String × PayloadValue)) : TransitionCall where
  workflow := paymentWorkflow
  entityType := "ap_payment"
  entityId := entityId
  currentState := currentState
  action := action
  actorId := actorId
  amount := some amount
  currency := currency
  context := context

/-- The one transition of a workflow of the module. -/
def apDraftPost (name : String) (context : List (String × PayloadValue)) : TransitionCall where
  workflow := apDraftPostedWorkflow name
  entityType := name
  entityId := entityId
  currentState := "draft"
  action := "post"
  actorId := actorId
  amount := some amount
  currency := currency
  context := context

end Transitions

/-! ### Methods -/

section Methods

variable (sv : APService) (env : Env Tables APRow)

/-- The transition without a posting; nothing is committed. -/
def transitionOnly (a : TransitionCall) (s : Session Tables) :
    Result ServiceError Tables ModulePostingStatus :=
  rollingBack <| (env.runWorkflowGuard a s).andThen fun failure s =>
    (.ok (failure.getD .transitionApplied), s)

def invoiceRow (sv : APService) (invoiceId vendorId : UUID) (amount : ℚ) (effectiveDate : Date)
    (actorId : UUID) (currency : String) (invoiceNumber : Option String) (taxAmount : Option ℚ)
    (dueDate : Option Date) : APInvoice where
  id := invoiceId
  vendorId := vendorId
  invoiceNumber := (invoiceNumber.filter (· ≠ "")).getD invoiceId.str
  invoiceDate := effectiveDate
  dueDate := dueDate.getD effectiveDate
  currency := currency
  subtotal := stored (sv.builtins.ctx.round (amount - taxAmount.getD 0))
  taxAmount := stored (taxAmount.getD 0)
  totalAmount := stored amount
  status := "draft"
  createdById := actorId

def recordInvoice (invoiceId vendorId : UUID) (amount : ℚ) (effectiveDate : Date) (actorId : UUID)
    (currency : String) (invoiceNumber : Option String) (taxAmount : Option ℚ)
    (poNumber : Option String) (dueDate : Option Date) (lines : List ItemAmount)
    (s : Session Tables) : Result ServiceError Tables ModulePostingStatus :=
  env.guardedPosting (invoiceTransition invoiceId actorId amount currency "draft" "submit" [])
    (invoiceReceived sv vendorId amount currency invoiceNumber taxAmount poNumber dueDate lines)
    [.invoice (invoiceRow sv invoiceId vendorId amount effectiveDate actorId currency invoiceNumber
      taxAmount dueDate)] s

def recordInventoryInvoice (invoiceId vendorId : UUID) (amount : ℚ) (effectiveDate : Date)
    (actorId : UUID) (currency : String) (poNumber : Option String) (taxAmount : Option ℚ)
    (lines : List ItemAmount) (s : Session Tables) :
    Result ServiceError Tables ModulePostingStatus :=
  env.guardedPosting (apDraftPost invoiceId actorId amount currency "ap_inventory_invoice" [])
    (inventoryInvoiceReceived vendorId amount currency poNumber taxAmount lines)
    [.invoice (invoiceRow sv invoiceId vendorId amount effectiveDate actorId currency none taxAmount
      none)] s

def submitPaymentTransition (paymentId : UUID) (amount bankBalance : ℚ) (actorId : UUID)
    (currency : String) : TransitionCall :=
  paymentTransition paymentId actorId amount currency "draft" "submit"
    [("bank_balance", .number bankBalance), ("payment_amount", .number amount)]

def submitPayment (paymentId : UUID) (amount bankBalance : ℚ) (actorId : UUID) (currency : String) :
    Session Tables → Result ServiceError Tables ModulePostingStatus :=
  transitionOnly env (submitPaymentTransition paymentId amount bankBalance actorId currency)

def approvePaymentTransition (paymentId actorId : UUID) (actorRole : String) (amount : ℚ)
    (currency : String) (approvalRequestId : Option UUID) (invoiceStatus : Option String) :
    TransitionCall :=
  { paymentTransition paymentId actorId amount currency "pending_approval" "approve"
      [("invoice_status", .text ((invoiceStatus.filter (· ≠ "")).getD "approved"))] with
    actorRole, approvalRequestId }

def approvePayment (paymentId actorId : UUID) (actorRole : String) (amount : ℚ) (currency : String)
    (approvalRequestId : Option UUID) (invoiceStatus : Option String) :
    Session Tables → Result ServiceError Tables ModulePostingStatus :=
  transitionOnly env (approvePaymentTransition paymentId actorId actorRole amount currency
    approvalRequestId invoiceStatus)

def approveInvoiceTransition (invoiceId actorId : UUID) (actorRole : String) (amount : ℚ)
    (currency : String) (approvalRequestId : Option UUID) : TransitionCall :=
  { invoiceTransition invoiceId actorId amount currency "pending_approval" "approve" [] with
    actorRole, approvalRequestId }

def approveInvoice (invoiceId actorId : UUID) (actorRole : String) (amount : ℚ) (currency : String)
    (approvalRequestId : Option UUID) :
    Session Tables → Result ServiceError Tables ModulePostingStatus :=
  transitionOnly env (approveInvoiceTransition invoiceId actorId actorRole amount currency
    approvalRequestId)

/-- The application of an amount to an invoice, of which the amount itself is given as the original
amount. -/
def application (invoiceId paymentId creatingEventId : UUID) (amount : ℚ) (currency : String)
    (effectiveDate : Date) : ApplyPayment where
  invoiceRef := ⟨.invoice, invoiceId⟩
  paymentRef := ⟨.payment, paymentId⟩
  amount := ⟨amount, currency⟩
  invoiceOriginalAmount := ⟨amount, currency⟩
  creatingEventId := creatingEventId
  appliedDate := some effectiveDate

/-- `apply_payment` in the session of the service. -/
def apply (draws : Valuation.Env) (p : ApplyPayment) (s : Session Tables) :
    Result ServiceError Tables Unit :=
  mapOk (fun _ => ()) (onStore (fun s => Reconciliation.applyPayment sv.builtins draws s p) s)

def paymentRow (paymentId invoiceId : UUID) (amount : ℚ) (effectiveDate : Date)
    (actorId vendorId : UUID) (currency : String) (paymentMethod reference : Option String)
    (discountAmount : Option ℚ) (bankAccountId : Option UUID) : APPayment where
  id := paymentId
  vendorId := vendorId
  paymentDate := effectiveDate
  paymentMethod := (paymentMethod.filter (· ≠ "")).getD "ach"
  amount := stored amount
  currency := currency
  reference := (reference.filter (· ≠ "")).getD paymentId.str
  status := "draft"
  invoiceIds := [invoiceId]
  discountTaken := stored (discountAmount.getD 0)
  bankAccountId := bankAccountId
  createdById := actorId

/-- The status of the row of the invoice is context of the guard only. -/
def releaseTransition (paymentId invoiceId actorId : UUID) (amount : ℚ) (currency : String)
    (s : Session Tables) : TransitionCall :=
  paymentTransition paymentId actorId amount currency "approved" "release"
    [("invoice_status",
      .text (((getInvoice s.current.rows invoiceId).map (·.status)).getD "unknown"))]

def recordPayment (paymentId invoiceId : UUID) (amount : ℚ) (effectiveDate : Date)
    (actorId vendorId : UUID) (currency : String) (paymentMethod reference : Option String)
    (discountAmount : Option ℚ) (bankAccountId : Option UUID) (draws : Valuation.Env)
    (s : Session Tables) : Result ServiceError Tables ModulePostingStatus :=
  env.guardedWork (releaseTransition paymentId invoiceId actorId amount currency s)
    (apply sv draws (application invoiceId paymentId paymentId amount currency effectiveDate))
    (fun _ => paymentEvent sv invoiceId amount vendorId currency paymentMethod reference
      discountAmount bankAccountId)
    (fun _ => env.add (.payment (paymentRow paymentId invoiceId amount effectiveDate actorId vendorId
      currency paymentMethod reference discountAmount bankAccountId))) s

def prepaymentTransition (applicationId prepaymentId invoiceId actorId : UUID) (amount : ℚ)
    (currency : String) : TransitionCall :=
  apDraftPost applicationId actorId amount currency "ap_prepayment_application"
    [("prepayment_id", .text prepaymentId.str), ("invoice_id", .text invoiceId.str)]

def applyPrepayment (applicationId prepaymentId invoiceId : UUID) (amount : ℚ)
    (effectiveDate : Date) (actorId : UUID) (currency : String) (draws : Valuation.Env)
    (s : Session Tables) : Result ServiceError Tables ModulePostingStatus :=
  env.guardedWork
    (prepaymentTransition applicationId prepaymentId invoiceId actorId amount currency)
    (apply sv draws
      (application invoiceId prepaymentId applicationId amount currency effectiveDate))
    (fun _ => prepaymentApplied prepaymentId invoiceId amount currency) (fun _ t => t) s

/-- A FULFILLED_BY link, which may be there already. -/
def fulfil (draws : Valuation.Env) (n : ℕ) (parentRef childRef : ArtifactRef) (invoiceId : UUID)
    (s : Session Tables) : Result ServiceError Tables Unit :=
  match EconomicLink.create (draws.uuid4 n) .fulfilledBy parentRef childRef invoiceId draws.now
      none with
  | .error _ => (.error .valueError, s)
  | .ok link =>
      match LinkGraph.establishIn (fun t : Tables => t.store.links) draws.recursionLimit s link true
          (s.current.become { s.current.store with
            rows := s.current.store.rows ++ [⟨link, []⟩] }) with
      | (.error _, s) => (.error .raised, s)
      | (.ok _, s) => (.ok (), s)

/-- From the order to each receipt, and from the receipt to the invoice. -/
def fulfilAll (draws : Valuation.Env) (poId invoiceId : UUID) :
    ℕ → List UUID → Session Tables → Result ServiceError Tables Unit
  | _, [], s => (.ok (), s)
  | n, receiptId :: receiptIds, s =>
      (fulfil draws n ⟨.purchaseOrder, poId⟩ ⟨.receipt, receiptId⟩ invoiceId s).andThen fun _ s =>
        (fulfil draws (n + 1) ⟨.receipt, receiptId⟩ ⟨.invoice, invoiceId⟩ invoiceId s).andThen
          fun _ s => fulfilAll draws poId invoiceId (n + 2) receiptIds s

/-- The tolerance in percent that the guard is given. -/
def tolerancePercent (tolerance : Option MatchTolerance) : ℚ :=
  match tolerance, sv.priceVariancePercent with
  | some t, _ => if t.isPercent then t.amountTolerance else 5
  | none, some percent => percent * 100
  | none, none => 5

def matchTransition (invoiceId actorId : UUID) (m : MatchResult) (invoiceAmount poAmount : Option ℚ)
    (currency : String) (tolerance : Option MatchTolerance) : TransitionCall :=
  invoiceTransition invoiceId actorId m.matchedAmount.amount currency "pending_match" "match"
    [("invoice_amount", .number (invoiceAmount.getD m.matchedAmount.amount)),
      ("po_amount", .number (poAmount.getD m.matchedAmount.amount)),
      ("tolerance_percent", .number (tolerancePercent sv tolerance))]

def matchInvoiceToPo (invoiceId poId : UUID) (receiptIds : List UUID) (actorId : UUID)
    (invoiceAmount poAmount : Option ℚ) (currency : String) (tolerance : Option MatchTolerance)
    (draws : Valuation.Env) (s : Session Tables) : Result ServiceError Tables ModulePostingStatus :=
  match createMatch sv.builtins.ctx
      (matchDocuments invoiceId poId receiptIds invoiceAmount poAmount currency) with
  | none => (.error .valueError, s.rollback)
  | some m =>
      env.guardedWork (matchTransition sv invoiceId actorId m invoiceAmount poAmount currency tolerance)
        (fun s => (fulfilAll draws poId invoiceId 0 receiptIds s).andThen fun _ s =>
          (.ok (getInvoice s.current.rows invoiceId), s))
        (fun row => invoiceMatched sv invoiceId poId receiptIds m row currency) (fun _ t => t) s

/-- The state of the workflow is the status of the row. -/
def cancelTransition (invoiceId actorId : UUID) (amount : ℚ) (currency : String)
    (reason : Option String) (s : Session Tables) : TransitionCall :=
  invoiceTransition invoiceId actorId amount currency
    (((getInvoice s.current.rows invoiceId).map (·.status)).getD "draft") "cancel"
    [("reason", optionalText reason)]

def cancelInvoice (invoiceId : UUID) (amount : ℚ) (actorId : UUID) (currency : String)
    (reason : Option String) (taxAmount : Option ℚ) (lines : List ItemAmount)
    (s : Session Tables) : Result ServiceError Tables ModulePostingStatus :=
  env.guardedWork (cancelTransition invoiceId actorId amount currency reason s)
    (fun s => (.ok (), s))
    (fun _ => invoiceCancelled invoiceId amount currency reason taxAmount lines)
    (fun _ => cancelIn invoiceId) s

end Methods

/-! ### Calls -/

/-- The methods with their arguments. -/
inductive Operation where
  | recordInvoice (invoiceId vendorId : UUID) (amount : ℚ) (effectiveDate : Date) (actorId : UUID)
      (currency : String) (invoiceNumber : Option String) (taxAmount : Option ℚ)
      (poNumber : Option String) (dueDate : Option Date) (lines : List ItemAmount)
  | recordInventoryInvoice (invoiceId vendorId : UUID) (amount : ℚ) (effectiveDate : Date)
      (actorId : UUID) (currency : String) (poNumber : Option String) (taxAmount : Option ℚ)
      (lines : List ItemAmount)
  | matchInvoiceToPo (invoiceId poId : UUID) (receiptIds : List UUID) (actorId : UUID)
      (invoiceAmount poAmount : Option ℚ) (currency : String) (tolerance : Option MatchTolerance)
  | approveInvoice (invoiceId actorId : UUID) (actorRole : String) (amount : ℚ) (currency : String)
      (approvalRequestId : Option UUID)
  | submitPayment (paymentId : UUID) (amount bankBalance : ℚ) (actorId : UUID) (currency : String)
  | approvePayment (paymentId actorId : UUID) (actorRole : String) (amount : ℚ) (currency : String)
      (approvalRequestId : Option UUID) (invoiceStatus : Option String)
  | recordPayment (paymentId invoiceId : UUID) (amount : ℚ) (effectiveDate : Date)
      (actorId vendorId : UUID) (currency : String) (paymentMethod reference : Option String)
      (discountAmount : Option ℚ) (bankAccountId : Option UUID)
  | cancelInvoice (invoiceId : UUID) (amount : ℚ) (actorId : UUID) (currency : String)
      (reason : Option String) (taxAmount : Option ℚ) (lines : List ItemAmount)
  | applyPrepayment (applicationId prepaymentId invoiceId : UUID) (amount : ℚ)
      (effectiveDate : Date) (actorId : UUID) (currency : String)

/-- A call with what it is answered and what it draws from its surroundings. -/
structure Call where
  operation : Operation
  answers : Answers
  draws : Valuation.Env

section Calls

variable (sv : APService) (parties : UUID → Bool)

def Operation.run (env : Env Tables APRow) (draws : Valuation.Env) (s : Session Tables) :
    Operation → Result ServiceError Tables ModulePostingStatus
  | .recordInvoice invoiceId vendorId amount effectiveDate actorId currency invoiceNumber taxAmount
      poNumber dueDate lines =>
      AccountsPayable.recordInvoice sv env invoiceId vendorId amount effectiveDate actorId currency
        invoiceNumber taxAmount poNumber dueDate lines s
  | .recordInventoryInvoice invoiceId vendorId amount effectiveDate actorId currency poNumber
      taxAmount lines =>
      AccountsPayable.recordInventoryInvoice sv env invoiceId vendorId amount effectiveDate actorId
        currency poNumber taxAmount lines s
  | .matchInvoiceToPo invoiceId poId receiptIds actorId invoiceAmount poAmount currency tolerance =>
      AccountsPayable.matchInvoiceToPo sv env invoiceId poId receiptIds actorId invoiceAmount
        poAmount currency tolerance draws s
  | .approveInvoice invoiceId actorId actorRole amount currency approvalRequestId =>
      AccountsPayable.approveInvoice env invoiceId actorId actorRole amount currency
        approvalRequestId s
  | .submitPayment paymentId amount bankBalance actorId currency =>
      AccountsPayable.submitPayment env paymentId amount bankBalance actorId currency s
  | .approvePayment paymentId actorId actorRole amount currency approvalRequestId invoiceStatus =>
      AccountsPayable.approvePayment env paymentId actorId actorRole amount currency
        approvalRequestId invoiceStatus s
  | .recordPayment paymentId invoiceId amount effectiveDate actorId vendorId currency paymentMethod
      reference discountAmount bankAccountId =>
      AccountsPayable.recordPayment sv env paymentId invoiceId amount effectiveDate actorId vendorId
        currency paymentMethod reference discountAmount bankAccountId draws s
  | .cancelInvoice invoiceId amount actorId currency reason taxAmount lines =>
      AccountsPayable.cancelInvoice env invoiceId amount actorId currency reason taxAmount lines s
  | .applyPrepayment applicationId prepaymentId invoiceId amount effectiveDate actorId currency =>
      AccountsPayable.applyPrepayment sv env applicationId prepaymentId invoiceId amount
        effectiveDate actorId currency draws s

def Call.run (c : Call) (s : Session Tables) : Result ServiceError Tables ModulePostingStatus :=
  c.operation.run sv (booksEnv sv.builtins.ctx policies (constraint parties) c.answers) c.draws s

end Calls

end FinanceAccounting.AccountsPayable
