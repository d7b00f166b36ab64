import FinanceAccounting.Engines.Allocation

/-! # Payment application

`ReconciliationManager` over the economic links.  What has been applied to a document is derived
from the `amount_applied` metadata of its PAID_BY, ALLOCATED_TO and APPLIED_TO links;
`apply_payment` compares the amount with what remains and writes a PAID_BY link, and
`apply_payment_across_invoices` does so for every amount that the allocation engine assigns.

The metadata of the caller are written over those of the service, and of the amounts only the
numbers are compared. -/

namespace FinanceAccounting.Reconciliation

open AllocationEngine (AllocationError AllocationMethod AllocationTarget Arithmetic allocate)
open Hashing (PyVal)
open LinkGraph (ArtifactRef ArtifactType EconomicLink LinkError LinkTable LinkType)
open UnitOfWork (Result Session)
open Valuation (Env Money sumOf)

/-! ### Links with their metadata -/

/-- A value in the metadata of a link: an amount that the service wrote with `str`, or what a
caller gave. -/
inductive MetadataValue where
  | amount (amount : ℚ)
  | value (v : PyVal)

abbrev Metadata := List (String × MetadataValue)

/-- `{**base, **extra}`. -/
def merge (base extra : Metadata) : Metadata :=
  base.map (fun (key, v) => (key, (extra.lookup key).getD v)) ++
    extra.filter fun (key, _) => (base.lookup key).isNone

/-- A row of `economic_links`. -/
structure LinkRow where
  link : EconomicLink
  metadata : Metadata

/-- What a call of `apply_payment` applied. -/
structure Applied where
  invoiceRef : ArtifactRef
  amount : Money

/-- The links, and the history of what was applied; no function of the service reads it. -/
structure Store where
  rows : List LinkRow
  applied : List Applied

def Store.links (store : Store) : LinkTable := store.rows.map LinkRow.link

/-- The store in which the links are given and nothing was applied. -/
def Store.initial (links : LinkTable) : Store where
  rows := links.map fun l => ⟨l, (l.metadata.getD []).map fun (key, v) => (key, .value v)⟩
  applied := []

/-- The arithmetic; `Decimal(str(v))` of a value in metadata, where it is a finite number; and
whether the JSON column takes a value. -/
structure Builtins extends Arithmetic where
  decimal : PyVal → Option ℚ
  serializable : PyVal → Bool

/-! ### Reconciliation state -/

inductive ReconciliationError where
  | documentAlreadyMatched (documentRef : String)
  | overapplication (documentRef : String) (remainingAmount attemptedAmount : ℚ)
      (currency : String)
  | assertionError (message : String)
  | invalidOperation
  | valueError (message : String)
  | statementError
  | link (e : LinkError)
  | allocation (e : AllocationError)

inductive ReconciliationStatus where
  | openDocument
  | partiallyApplied
  | matched
  | overapplied
deriving DecidableEq, Repr

structure ReconciliationState where
  artifactRef : ArtifactRef
  status : ReconciliationStatus
  originalAmount : Money
  appliedAmount : Money
  remainingAmount : Money
  matchReferences : List ArtifactRef
  lastActivityDate : Option Date

def ReconciliationState.isFullyMatched (state : ReconciliationState) : Bool :=
  state.status = .matched

/-- `from_amounts`, with the check of the construction. -/
def ReconciliationState.fromAmounts (ctx : Decimal.Context) (artifactRef : ArtifactRef)
    (originalAmount appliedAmount : Money) (matchReferences : List ArtifactRef)
    (lastActivityDate : Option Date) : Except ReconciliationError ReconciliationState :=
  let remaining := ctx.round (originalAmount.amount - appliedAmount.amount)
  let status :=
    if appliedAmount.amount = 0 then .openDocument
    else if remaining = 0 then .matched
    else if remaining < 0 then .overapplied
    else .partiallyApplied
  let expectedRemaining := ctx.round (originalAmount.amount - appliedAmount.amount)
  if 1 / 100 < |ctx.round (expectedRemaining - remaining)| then
    .error (.valueError "Remaining amount inconsistent")
  else
    .ok
      { artifactRef, status, originalAmount, appliedAmount, matchReferences, lastActivityDate
        remainingAmount := ⟨remaining, originalAmount.currency⟩ }

/-- The link types by which a document is reconciled. -/
def applicationTypes : List LinkType := [.paidBy, .allocatedTo, .appliedTo]

/-- `get_children` of a document, for these types. -/
def getChildren (rows : List LinkRow) (artifactRef : ArtifactRef) : List LinkRow :=
  rows.filter fun r => r.link.parentRef = artifactRef && applicationTypes.contains r.link.linkType

variable (b : Builtins)

/-- The amount that a value in the metadata is read as. -/
def readAmount : MetadataValue → Option ℚ
  | .amount amount => some amount
  | .value v => b.decimal v

/-- The `amount_applied` metadata; a value that is no number raises. -/
def amountsApplied : List LinkRow → Except ReconciliationError (List ℚ)
  | [] => .ok []
  | row :: rows =>
      match row.metadata.lookup "amount_applied" with
      | none => amountsApplied rows
      | some v =>
          match readAmount b v with
          | none => .error .invalidOperation
          | some amount => (amountsApplied rows).map fun amounts => amount :: amounts

/-- `get_unconsumed_value`: the consumed amount. -/
def consumedAmount (rows : List LinkRow) (artifactRef : ArtifactRef) :
    Except ReconciliationError ℚ :=
  (amountsApplied b (getChildren rows artifactRef)).map (sumOf b.ctx)

/-- The time at which the last link was created; of equal times the first counts. -/
def lastCreated : List Datetime → Option Datetime
  | [] => none
  | d :: ds => some (ds.foldl (fun last d => if last.instant < d.instant then d else last) d)

/-- `get_reconciliation_state`. -/
def getReconciliationState (rows : List LinkRow) (artifactRef : ArtifactRef)
    (originalAmount : Money) : Except ReconciliationError ReconciliationState := do
  let consumed ← consumedAmount b rows artifactRef
  let children := getChildren rows artifactRef
  ReconciliationState.fromAmounts b.ctx artifactRef originalAmount
    ⟨consumed, originalAmount.currency⟩ (children.map (·.link.childRef))
    ((lastCreated (children.map (·.link.createdAt))).map (·.date))

/-! ### Payments -/

structure PaymentApplication where
  applicationId : UUID
  sourceRef : ArtifactRef
  paymentRef : ArtifactRef
  appliedAmount : Money
  appliedDate : Date
  linkCreated : EconomicLink
  metadata : Option (List (String × PyVal))

/-- The arguments of `apply_payment`. -/
structure ApplyPayment where
  invoiceRef : ArtifactRef
  paymentRef : ArtifactRef
  amount : Money
  invoiceOriginalAmount : Money
  creatingEventId : UUID
  appliedDate : Option Date := none
  metadata : Option (List (String × PyVal)) := none

/-- The metadata of the link: those of the caller over those of the service. -/
def ApplyPayment.linkMetadata (p : ApplyPayment) : Metadata :=
  merge [("amount_applied", .amount p.amount.amount), ("currency", .value (.scalar (.str
    p.amount.currency)))] ((p.metadata.getD []).map fun (key, v) => (key, .value v))

/-- The store with the row of an application. -/
def Store.withApplication (store : Store) (p : ApplyPayment) (link : EconomicLink) : Store where
  rows := store.rows ++ [⟨link, p.linkMetadata⟩]
  applied := store.applied ++ [⟨p.invoiceRef, p.amount⟩]

/-- The flush of the link; metadata that the JSON column does not take undo the transaction. -/
def establishLink (env : Env) (s : Session Store) (p : ApplyPayment) (link : EconomicLink) :
    Result ReconciliationError Store EconomicLink :=
  match LinkGraph.establishIn Store.links env.recursionLimit s link false
      (s.current.withApplication p link) with
  | (.error e, s) => (.error (.link e), s)
  | (.ok result, s') =>
      if (p.metadata.getD []).all fun (_, v) => b.serializable v then (.ok result.link, s')
      else (.error .statementError, s.rollback)

/-- `PaymentApplication.create`. -/
def PaymentApplication.create (env : Env) (p : ApplyPayment) (link : EconomicLink) :
    Except ReconciliationError PaymentApplication :=
  if p.amount.amount < 0 then .error (.valueError "Applied amount cannot be negative")
  else
    .ok
      { applicationId := env.uuid4 1
        sourceRef := p.invoiceRef
        paymentRef := p.paymentRef
        appliedAmount := p.amount
        appliedDate := p.appliedDate.getD env.now.date
        linkCreated := link
        metadata := p.metadata }

/-- `apply_payment`. -/
def applyPayment (env : Env) (s : Session Store) (p : ApplyPayment) :
    Result ReconciliationError Store PaymentApplication :=
  match getReconciliationState b s.current.rows p.invoiceRef p.invoiceOriginalAmount with
  | .error e => (.error e, s)
  | .ok state =>
      if state.isFullyMatched then (.error (.documentAlreadyMatched p.invoiceRef.str), s)
      else if p.amount.amount < 0 then
        (.error (.assertionError "Payment amount must be non-negative"), s)
      else if state.remainingAmount.amount < p.amount.amount then
        (.error (.overapplication p.invoiceRef.str state.remainingAmount.amount p.amount.amount
          p.amount.currency), s)
      else
        match EconomicLink.create (env.uuid4 0) .paidBy p.invoiceRef p.paymentRef
            p.creatingEventId env.now none with
        | .error e => (.error (.valueError e), s)
        | .ok link =>
            (establishLink b env s p link).andThen fun link s =>
              (PaymentApplication.create env p link, s)

/-- The surroundings after a payment was applied. -/
def afterPayment (env : Env) : Env := { env with uuid4 := fun n => env.uuid4 (n + 2) }

/-- The applications of a list of payments, up to the first that raises. -/
def applyAll (env : Env) (s : Session Store) :
    List ApplyPayment → Result ReconciliationError Store (List PaymentApplication)
  | [] => (.ok [], s)
  | p :: ps =>
      (applyPayment b env s p).andThen fun application s =>
        (applyAll (afterPayment env) s ps).andThen fun applications s =>
          (.ok (application :: applications), s)

/-- An invoice with its original amount and what remains of it, as the caller gives them. -/
structure InvoiceShare where
  invoiceRef : ArtifactRef
  original : Money
  remaining : Money

/-- The arguments of `apply_payment_across_invoices`. -/
structure ApplyAcross where
  paymentRef : ArtifactRef
  paymentAmount : Money
  invoices : List InvoiceShare
  creatingEventId : UUID
  method : AllocationMethod := .fifo
  appliedDate : Option Date := none

/-- The targets of the allocation; `today` is the date that the clock shows for each of them. -/
def ApplyAcross.targets (p : ApplyAcross) (today : ℕ → Date) : List AllocationTarget :=
  p.invoices.mapIdx fun i invoice =>
    { targetId := invoice.invoiceRef.str
      eligibleAmount := some invoice.remaining
      date := some (p.appliedDate.getD (today i)) }

/-- The payments of the lines that allocate anything; lines and invoices are paired in their
order. -/
def ApplyAcross.payments (p : ApplyAcross) (lines : List AllocationEngine.AllocationLine) :
    List ApplyPayment :=
  (lines.zip p.invoices).filterMap fun (line, invoice) =>
    if line.allocated.amount = 0 then none
    else some
      { invoiceRef := invoice.invoiceRef
        paymentRef := p.paymentRef
        amount := line.allocated
        invoiceOriginalAmount := invoice.original
        creatingEventId := p.creatingEventId
        appliedDate := p.appliedDate }

/-- `apply_payment_across_invoices`. -/
def applyPaymentAcrossInvoices (env : Env) (today : ℕ → Date) (s : Session Store)
    (p : ApplyAcross) : Result ReconciliationError Store (List PaymentApplication) :=
  match allocate b.toArithmetic p.paymentAmount (p.targets today) p.method with
  | .error e => (.error (.allocation e), s)
  | .ok result => applyAll b env s (p.payments result.lines)

/-! ### Runs -/

inductive Call where
  | applyPayment (env : Env) (p : ApplyPayment)
  | applyPaymentAcrossInvoices (env : Env) (today : ℕ → Date) (p : ApplyAcross)
  | commit
  | rollback

/-- One call, whatever it returns or raises. -/
def step (s : Session Store) : Call → Option (Session Store)
  | .applyPayment env p => some (applyPayment b env s p).2
  | .applyPaymentAcrossInvoices env today p =>
      some (applyPaymentAcrossInvoices b env today s p).2
  | .commit => some s.commit
  | .rollback => some s.rollback

end FinanceAccounting.Reconciliation
