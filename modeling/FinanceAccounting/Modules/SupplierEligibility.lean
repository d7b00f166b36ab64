import FinanceAccounting.Kernel.Parties
import FinanceAccounting.Library.TransitionSystem
import FinanceAccounting.Modules.PayablesHistory
import FinanceAccounting.Services.ReconciliationLaws

/-! # Can a blocked supplier transact?

The methods of `APService` that name a vendor, on books that share their session with the rows of
the parties.  The picture of the vendor in a payload is `party.is_frozen`, and the policies reject
by it only invoices, and payments without a discount: an inventory invoice has the guard but no
picture, the payment with a discount, the accrual and the prepayment have no guard, and no guard
asks whether the vendor is closed or inactive.  `close_party` is undone by `unfreeze_party` and
`reactivate_party`, and while it is not committed by the rollback of a call.

`blocked_suppliers` is the law for the runs that avoid all this. -/

namespace FinanceAccounting.SupplierEligibility

open AccountsPayable (APRow APService apDraftPost application getInvoice invoiceReceived invoiceRow
  invoiceTransition inventoryInvoiceReceived paymentEvent paymentRow paymentTransition
  supplierFrozen)
open ModulePosting (ModulePostingStatus)
open Modules
open Parties (PartyTable accepts)
open PolicyBridge
open TransitionSystem (Along Throughout)
open UnitOfWork (Session Result)

/-! ### The books with the parties -/

/-- The links and the parties. -/
abbrev Store := Reconciliation.Store × PartyTable

abbrev Tables := Books APRow Store

def parties (t : Tables) : PartyTable := t.store.2

/-- The reconciliation manager works on the links. -/
def onLinks {ε α : Type} (f : Session Reconciliation.Store → Result ε Reconciliation.Store α)
    (s : Session Store) : Result ε Store α :=
  let r := f ⟨s.committed.1, s.current.1⟩
  (r.1, ⟨(r.2.committed, s.committed.2), (r.2.current, s.current.2)⟩)

/-- `_party_snapshot_for_payload`: a vendor that is not found is not frozen. -/
def partySnapshot (t : Tables) (vendorId : UUID) : Bool :=
  ((parties t).find vendorId).any (·.isFrozen)

/-- The service as it sees the parties. -/
def service (b : Reconciliation.Builtins) (t : Tables) : APService where
  builtins := b
  isFrozen := partySnapshot t
  priceVariancePercent := none

/-! ### Accruals and prepayments -/

def apAccrualRecorded : AccountingPolicy :=
  pairPolicy "APAccrualRecorded" "ap.accrual_recorded" "EXPENSE" "ACCRUED_LIABILITY" [] []

def apPrepaymentRecorded : AccountingPolicy :=
  pairPolicy "APPrepaymentRecorded" "ap.prepayment_recorded" "PREPAID_EXPENSE" "CASH" [] []

def policies : List AccountingPolicy :=
  AccountsPayable.policies ++ [apAccrualRecorded, apPrepaymentRecorded]

def accrualRecorded (vendorId : UUID) (amount : ℚ) (currency : String)
    (periodId description : Option String) : Event where
  eventType := "ap.accrual_recorded"
  payload := payloadOf [
    ("vendor_id", .text vendorId.str),
    ("period_id", optionalText periodId),
    ("description", optionalText description)]
  amount := amount
  currency := currency

def prepaymentRecorded (vendorId : UUID) (amount : ℚ) (currency : String) : Event where
  eventType := "ap.prepayment_recorded"
  payload := payloadOf [
    ("vendor_id", .text vendorId.str),
    ("prepayment_amount", .number amount)]
  amount := amount
  currency := currency

/-! ### The methods -/

/-- The methods that name a vendor, with their other arguments. -/
inductive Method where
  | recordInvoice (invoiceId : UUID) (amount : ℚ) (effectiveDate : Date) (actorId : UUID)
      (currency : String) (invoiceNumber : Option String) (taxAmount : Option ℚ)
      (poNumber : Option String) (dueDate : Option Date) (lines : List ItemAmount)
  | recordInventoryInvoice (invoiceId : UUID) (amount : ℚ) (effectiveDate : Date) (actorId : UUID)
      (currency : String) (poNumber : Option String) (taxAmount : Option ℚ)
      (lines : List ItemAmount)
  | recordPayment (paymentId invoiceId : UUID) (amount : ℚ) (effectiveDate : Date) (actorId : UUID)
      (currency : String) (paymentMethod reference : Option String) (discountAmount : Option ℚ)
      (bankAccountId : Option UUID)
  | recordAccrual (accrualId : UUID) (amount : ℚ) (actorId : UUID) (currency : String)
      (periodId description : Option String)
  | recordPrepayment (prepaymentId : UUID) (amount : ℚ) (actorId : UUID) (currency : String)

/-- A call for a vendor, with what it is answered and what it draws from its surroundings. -/
structure Call where
  vendorId : UUID
  method : Method
  answers : Answers
  draws : Valuation.Env

section Methods

variable (b : Reconciliation.Builtins)

/-- The transition that the executor is asked for. -/
def Method.transition (t : Tables) : Method → TransitionCall
  | .recordInvoice invoiceId amount _ actorId currency .. =>
      invoiceTransition invoiceId actorId amount currency "draft" "submit" []
  | .recordInventoryInvoice invoiceId amount _ actorId currency .. =>
      apDraftPost invoiceId actorId amount currency "ap_inventory_invoice" []
  | .recordPayment paymentId invoiceId amount _ actorId currency .. =>
      paymentTransition paymentId actorId amount currency "approved" "release"
        [("invoice_status",
          .text (((getInvoice t.rows invoiceId).map (·.status)).getD "unknown"))]
  | .recordAccrual accrualId amount actorId currency periodId _ =>
      apDraftPost accrualId actorId amount currency "ap_accrual"
        [("period_id", optionalText periodId)]
  | .recordPrepayment prepaymentId amount actorId currency =>
      apDraftPost prepaymentId actorId amount currency "ap_prepayment" []

/-- What precedes the posting: a payment is applied to its invoice. -/
def Method.prepare (draws : Valuation.Env) (s : Session Tables) :
    Method → Result ServiceError Tables Unit
  | .recordPayment paymentId invoiceId amount effectiveDate _ currency .. =>
      mapOk (fun _ => ()) (onStore (onLinks fun s => Reconciliation.applyPayment b draws s
        (application invoiceId paymentId paymentId amount currency effectiveDate)) s)
  | _ => (.ok (), s)

/-- The event that is posted, with the picture of the vendor that the tables give. -/
def Method.event (t : Tables) (vendorId : UUID) : Method → Event
  | .recordInvoice _ amount _ _ currency invoiceNumber taxAmount poNumber dueDate lines =>
      invoiceReceived (service b t) vendorId amount currency invoiceNumber taxAmount poNumber
        dueDate lines
  | .recordInventoryInvoice _ amount _ _ currency poNumber taxAmount lines =>
      inventoryInvoiceReceived vendorId amount currency poNumber taxAmount lines
  | .recordPayment _ invoiceId amount _ _ currency paymentMethod reference discountAmount
      bankAccountId =>
      paymentEvent (service b t) invoiceId amount vendorId currency paymentMethod reference
        discountAmount bankAccountId
  | .recordAccrual _ amount _ currency periodId description =>
      accrualRecorded vendorId amount currency periodId description
  | .recordPrepayment _ amount _ currency => prepaymentRecorded vendorId amount currency

/-- The rows that are added. -/
def Method.rows (t : Tables) (vendorId : UUID) : Method → List APRow
  | .recordInvoice invoiceId amount effectiveDate actorId currency invoiceNumber taxAmount _
      dueDate _ =>
      [.invoice (invoiceRow (service b t) invoiceId vendorId amount effectiveDate actorId currency
        invoiceNumber taxAmount dueDate)]
  | .recordInventoryInvoice invoiceId amount effectiveDate actorId currency _ taxAmount _ =>
      [.invoice (invoiceRow (service b t) invoiceId vendorId amount effectiveDate actorId currency
        none taxAmount none)]
  | .recordPayment paymentId invoiceId amount effectiveDate actorId currency paymentMethod
      reference discountAmount bankAccountId =>
      [.payment (paymentRow paymentId invoiceId amount effectiveDate actorId vendorId currency
        paymentMethod reference discountAmount bankAccountId)]
  | .recordAccrual .. | .recordPrepayment .. => []

/-- The rows keep their keys, and name parties that there are. -/
def constraint (t : Tables) : List APRow → Bool :=
  AccountsPayable.constraint fun partyId => ((parties t).find partyId).isSome

def Call.run (c : Call) (s : Session Tables) : Result ServiceError Tables ModulePostingStatus :=
  (booksEnv b.ctx policies (constraint s.current) c.answers).guardedWork
    (c.method.transition s.current) (fun s => c.method.prepare b c.draws s)
    (fun _ => c.method.event b s.current c.vendorId)
    (fun _ t => (c.method.rows b s.current c.vendorId).foldl (fun t r => t.add r) t) s

end Methods

/-! ### Runs -/

/-- The session, and the parties that `close_party` has returned for. -/
structure World where
  session : Session Tables
  closed : List UUID

def World.parties (w : World) : PartyTable := SupplierEligibility.parties w.session.current

inductive Action where
  | party (partyId : UUID) (op : Parties.Operation)
  | post (c : Call)
  /-- The caller of the party service commits. -/
  | commit

/-- The parties are flushed in the open transaction. -/
def World.writeParties (w : World) (t : PartyTable) : Session Tables :=
  w.session.flush (w.session.current.become (w.session.current.store.1, t))

def closes : Parties.Operation → Bool
  | .closeParty => true
  | _ => false

section Runs

variable (b : Reconciliation.Builtins)

/-- One action, whatever it returns or raises. -/
def step (w : World) : Action → Option World
  | .party partyId op =>
      match Parties.perform w.parties partyId op with
      | .error _ => some w
      | .ok (_, t) =>
          some
            { session := w.writeParties t
              closed := if closes op then partyId :: w.closed else w.closed }
  | .post c => some { w with session := (c.run b w.session).2 }
  | .commit => some { w with session := w.session.commit }

/-- Closed parties are not accepted. -/
def Sealed (w : World) : Prop := ∀ partyId ∈ w.closed, accepts w.parties partyId = false

/-- A call posts only for a vendor that is accepted. -/
def Eligible (w : World) : Action → Prop
  | .post c => (c.run b w.session).1 = .ok .posted → accepts w.parties c.vendorId = true
  | _ => True

/-- The methods of which the policy has a guard that the payload can fire. -/
def Method.guarded : Method → Bool
  | .recordInvoice .. => true
  | .recordPayment _ _ _ _ _ _ _ _ discountAmount _ =>
      (AccountsPayable.givenDiscount discountAmount).isNone
  | _ => false

/-- The condition on an action: a call names a vendor that is accepted, or one that is frozen if the
method is guarded, and no closing is pending; a closed party is neither unfrozen while its flag is
set nor reactivated while its status is active. -/
def Cautious (w : World) : Action → Prop
  | .post c =>
      (accepts w.parties c.vendorId = true ∨
        (c.method.guarded = true ∧ partySnapshot w.session.current c.vendorId = true)) ∧
      ∀ partyId ∈ w.closed, accepts (parties w.session.committed) partyId = false
  | .party partyId .unfreezeParty => partyId ∈ w.closed →
      ∀ party ∈ w.parties.find partyId, party.isActive = false
  | .party partyId .reactivateParty => partyId ∈ w.closed →
      ∀ party ∈ w.parties.find partyId, party.status ≠ .active
  | _ => True

end Runs

/-! ### What a call does -/

section Calls

variable {b : Reconciliation.Builtins} {c : Call} {s s' s₂ : Session Tables} {w w' : World}
variable {draws : Valuation.Env} {method : Method} {t : Tables} {x : Unit}

theorem committed_prepare : (method.prepare b draws s).2.committed = s.committed := by
  cases method with
  | recordPayment paymentId invoiceId amount effectiveDate actorId currency paymentMethod reference
      discountAmount bankAccountId =>
      have hcommitted := @Reconciliation.committed_applyPayment b draws
        ⟨s.committed.store.1, s.current.store.1⟩
        (application invoiceId paymentId paymentId amount currency effectiveDate)
      dsimp only [Method.prepare, onStore, onLinks, mapOk]
      split
      · simp [Books.become, hcommitted]
      · simp [Books.become, hcommitted]
  | _ => rfl

/-- The preparation works on the links. -/
theorem parties_prepare : parties (method.prepare b draws s).2.current = parties s.current := by
  cases method with
  | recordPayment paymentId invoiceId amount effectiveDate actorId currency paymentMethod reference
      discountAmount bankAccountId =>
      dsimp only [Method.prepare, onStore, onLinks, mapOk]
      split
      · rfl
      · rfl
  | _ => rfl

theorem parties_rows (rows : List APRow) (t : Tables) :
    parties (rows.foldl (fun t r => t.add r) t) = parties t := by
  rw [Books.foldl_add]
  rfl

/-- **What a call does to the parties**: nothing, or it takes back what was not committed. -/
theorem parties_run {r : Except ServiceError ModulePostingStatus} (h : c.run b s = (r, s')) :
    parties s'.current = parties s.current ∨ parties s'.current = parties s.committed := by
  unfold Call.run at h
  rcases r with e | status
  · obtain rfl := Env.guardedWork_eq_error (fun s => committed_prepare) h
    exact Or.inr rfl
  · obtain ⟨r, s₁, htransition, ⟨-, -, rfl⟩ | hpassed⟩ := Env.guardedWork_eq_ok h
    · obtain ⟨n, rfl⟩ := booksEnv_executeTransition htransition
      exact Or.inl rfl
    · obtain ⟨x, s₂, s₃, -, hprepared, hpost, hend⟩ := hpassed
      obtain ⟨n, rfl⟩ := booksEnv_executeTransition htransition
      have hcommitted := @committed_prepare b (s.flush (s.current.request n)) c.draws c.method
      have hparties := @parties_prepare b (s.flush (s.current.request n)) c.draws c.method
      rw [hprepared] at hcommitted hparties
      have hposted : s₃.committed = s₂.committed ∧ parties s₃.current = parties s₂.current := by
        obtain ⟨lines, -, -, rfl⟩ | ⟨-, rfl⟩ := postOn_eq_ok hpost
        · exact ⟨rfl, rfl⟩
        · exact ⟨rfl, rfl⟩
      rcases hend with ⟨-, rfl⟩ | ⟨-, tables, hflush, rfl⟩
      · refine Or.inr ?_
        show parties s₃.committed = parties s.committed
        rw [hposted.1, hcommitted]
        rfl
      · obtain ⟨rfl, -⟩ := booksEnv_flush hflush
        refine Or.inl ?_
        show parties ((c.method.rows b s.current c.vendorId).foldl (fun t r => t.add r)
          s₃.current) = parties s.current
        rw [parties_rows, hposted.2, hparties]
        rfl

/-- A call that posts found no guard of its policy firing. -/
theorem interpret_of_run (h : c.run b s = (.ok .posted, s')) :
    ∃ lines, interpret b.ctx policies (c.method.event b s.current c.vendorId) = .posted lines := by
  unfold Call.run at h
  obtain ⟨r, s₁, -, ⟨-, hstatus, -⟩ | hpassed⟩ := Env.guardedWork_eq_ok h
  · have hrefused := not_succeeded_refusal r.approvalRequired
    unfold guardFailureResult at hstatus
    split at hstatus
    · cases hstatus
    · rw [Option.some.inj hstatus] at hrefused
      cases hrefused
  · obtain ⟨x, s₂, s₃, -, -, hpost, -⟩ := hpassed
    obtain ⟨lines, hposted, -⟩ := booksEnv_postEvent_posted hpost
    exact ⟨lines, hposted⟩

/-! ### The guard of the suppliers -/

/-- A policy that begins with the guard rejects the event of a frozen vendor. -/
theorem interpret_of_frozen {ctx : Decimal.Context} {p : AccountingPolicy}
    {rest : List GuardCondition} {e : Event}
    (hfound : findForEvent policies e.eventType e.payload = some p)
    (hguards : p.guards = supplierFrozen :: rest)
    (hfrozen : e.payload "party.is_frozen" = some (.flag true)) :
    interpret ctx policies e = .answered .guardRejected := by
  have hholds : supplierFrozen.expression.holds e.payload = true := by
    simp [supplierFrozen, GuardExpression.holds, Payload.value, hfrozen]
  have hfired : p.firedGuard e.payload = some supplierFrozen := by
    unfold AccountingPolicy.firedGuard
    rw [hguards]
    exact List.find?_cons_of_pos hholds
  rw [interpret, hfound]
  dsimp only
  rw [hfired]
  rfl

/-- Both policies of an invoice have the guard. -/
theorem findForEvent_invoice (payload : Payload) :
    ∃ p rest, findForEvent policies "ap.invoice_received" payload = some p ∧
      p.guards = supplierFrozen :: rest := by
  have hfilter : policies.filter (·.eventType = "ap.invoice_received") =
      [AccountsPayable.apInvoiceExpense, AccountsPayable.apInvoicePoMatched] := rfl
  unfold findForEvent
  rw [hfilter]
  by_cases habsent : (WhereClause.absent "po_number").holds payload = true
  · refine ⟨AccountsPayable.apInvoiceExpense, [invalidAmount "gross_amount"], ?_, rfl⟩
    simp [AccountsPayable.apInvoiceExpense, habsent]
  · refine ⟨AccountsPayable.apInvoicePoMatched, [], ?_, rfl⟩
    simp [AccountsPayable.apInvoiceExpense, AccountsPayable.apInvoicePoMatched, habsent]

/-- **Guarded methods do not post for a frozen vendor.** -/
theorem interpret_of_guarded {ctx : Decimal.Context} (hguarded : method.guarded = true)
    (hfrozen : partySnapshot t c.vendorId = true) :
    interpret ctx policies (method.event b t c.vendorId) = .answered .guardRejected := by
  cases method with
  | recordInvoice invoiceId amount effectiveDate actorId currency invoiceNumber taxAmount poNumber
      dueDate lines =>
      obtain ⟨p, rest, hfound, hguards⟩ := findForEvent_invoice
        (invoiceReceived (service b t) c.vendorId amount currency invoiceNumber taxAmount poNumber
          dueDate lines).payload
      refine interpret_of_frozen hfound hguards ?_
      exact congrArg (fun frozen => some (PayloadValue.flag frozen)) hfrozen
  | recordPayment paymentId invoiceId amount effectiveDate actorId currency paymentMethod reference
      discountAmount bankAccountId =>
      have hnone : AccountsPayable.givenDiscount discountAmount = none :=
        Option.isNone_iff_eq_none.mp hguarded
      refine @interpret_of_frozen ctx AccountsPayable.apPayment [invalidAmount "payment_amount"] _ ?_
        rfl ?_
      · simp only [Method.event, paymentEvent, hnone]
        rfl
      · exact congrArg (fun frozen => some (PayloadValue.flag frozen)) hfrozen
  | recordInventoryInvoice => cases hguarded
  | recordAccrual => cases hguarded
  | recordPrepayment => cases hguarded

/-- A call under the condition posts only for a vendor that is accepted. -/
theorem eligible_of_cautious {a : Action} (h : Cautious w a) : Eligible b w a := by
  cases a with
  | post c =>
      intro hposted
      rcases h.1 with haccepted | ⟨hguarded, hfrozen⟩
      · exact haccepted
      · obtain ⟨lines, hlines⟩ := interpret_of_run (Prod.ext hposted rfl)
        rw [interpret_of_guarded hguarded hfrozen] at hlines
        cases hlines
  | party partyId op => trivial
  | commit => trivial

/-! ### Closed parties -/

/-- What an operation leaves of a party is accepted. -/
theorem accepts_perform_self {p p' : PartyTable} {partyId : UUID} {op : Parties.Operation}
    {info : Parties.Party} (h : Parties.perform p partyId op = .ok (info, p')) :
    accepts p' partyId = true ↔
      ∃ party, p.find partyId = some party ∧ (op.write party).canTransact = true := by
  rw [Parties.accepts_iff, Parties.find_perform h, if_pos rfl]
  constructor
  · rintro ⟨after, hafter, htransact⟩
    obtain ⟨party, hparty, rfl⟩ := Option.map_eq_some_iff.mp hafter
    exact ⟨party, hparty, htransact⟩
  · rintro ⟨party, hparty, htransact⟩
    exact ⟨op.write party, by rw [hparty]; rfl, htransact⟩

/-- Only the party of the operation is in question. -/
theorem sealed_writeParties_iff {p' : PartyTable} {partyId : UUID} {op : Parties.Operation}
    {info : Parties.Party} (hsealed : Sealed w)
    (h : Parties.perform w.parties partyId op = .ok (info, p')) :
    Sealed ⟨w.writeParties p', if closes op then partyId :: w.closed else w.closed⟩ ↔
      (partyId ∈ (if closes op then partyId :: w.closed else w.closed) →
        accepts p' partyId = false) := by
  constructor
  · intro hafter hclosed
    exact hafter partyId hclosed
  · intro hself other hclosed
    show accepts p' other = false
    by_cases heq : other = partyId
    · subst heq
      exact hself hclosed
    · rw [Parties.accepts_perform_of_ne h heq]
      refine hsealed other ?_
      dsimp only at hclosed
      split at hclosed
      · exact (List.mem_cons.mp hclosed).resolve_left heq
      · exact hclosed

/-- **An operation on the parties keeps the closed ones out** exactly under the condition. -/
theorem sealed_party_iff {partyId : UUID} {op : Parties.Operation} (hsealed : Sealed w)
    (h : step b w (.party partyId op) = some w') :
    Sealed w' ↔ Cautious w (.party partyId op) := by
  rw [step] at h
  cases hperform : Parties.perform w.parties partyId op with
  | error e =>
      rw [hperform] at h
      obtain rfl := Option.some.inj h
      refine iff_of_true hsealed ?_
      have hnone : w.parties.find partyId = none := Parties.find_of_perform_error hperform
      cases op <;> simp [Cautious, hnone]
  | ok answer =>
      obtain ⟨info, p'⟩ := answer
      rw [hperform] at h
      obtain rfl := Option.some.inj h
      have hself := accepts_perform_self hperform
      rw [sealed_writeParties_iff hsealed hperform, ← Bool.not_eq_true, hself]
      cases op with
      | freezeParty | deactivateParty | closeParty =>
          refine iff_of_true (fun _ => ?_) trivial
          simp [Parties.Operation.write, Parties.canTransact_iff]
      | unfreezeParty | reactivateParty =>
          refine imp_congr_right fun _ => ?_
          simp [Parties.Operation.write, Parties.canTransact_iff]
      | updateParty update =>
          refine iff_of_true (fun hclosed => ?_) trivial
          have hbefore := hsealed partyId hclosed
          rw [← Bool.not_eq_true, Parties.accepts_iff] at hbefore
          exact hbefore

/-- **A step under the condition keeps closed parties out.** -/
theorem sealed_step {a : Action} (hsealed : Sealed w) (hcautious : Cautious w a)
    (h : step b w a = some w') : Sealed w' := by
  cases a with
  | party partyId op => exact (sealed_party_iff hsealed h).mpr hcautious
  | post c =>
      obtain rfl := Option.some.inj h
      intro partyId hclosed
      show accepts (parties (c.run b w.session).2.current) partyId = false
      rcases parties_run (Prod.eta (c.run b w.session)).symm with hkept | htaken
      · rw [hkept]
        exact hsealed partyId hclosed
      · rw [htaken]
        exact hcautious.2 partyId hclosed
  | commit =>
      obtain rfl := Option.some.inj h
      exact hsealed

end Calls

/-- **Blocked suppliers cannot transact** in every run whose actions meet the condition: a call posts
only for a vendor that is accepted at that moment, and no closed party is accepted. -/
theorem blocked_suppliers (b : Reconciliation.Builtins) (tables : Tables) (actions : List Action)
    (h : Along (step b) Cautious ⟨Session.start tables, []⟩ actions) :
    Along (step b) (Eligible b) ⟨Session.start tables, []⟩ actions ∧
      Throughout (step b) Sealed ⟨Session.start tables, []⟩ actions := by
  constructor
  · intro pre a post w heq hrun
    exact eligible_of_cautious (h pre a post w heq hrun)
  · exact h.throughout (fun _ _ _ hsealed hcautious hstep => sealed_step hsealed hcautious hstep)
      (fun _ hclosed => absurd hclosed List.not_mem_nil)

/-! ### A supplier that is frozen and unfrozen, and one that is closed -/

def sampleParty : Parties.Party where
  id := ⟨7⟩
  partyCode := "SUPP-7"
  partyType := .supplier
  name := "Supplier"

/-- The actor of the calls, who is a party too. -/
def sampleActor : Parties.Party where
  id := ⟨5⟩
  partyCode := "EMP-5"
  partyType := .employee
  name := "Clerk"

def noBooks : Tables :=
  { store := (⟨[], []⟩, ⟨[sampleParty, sampleActor], by decide, by decide⟩) }

def sampleCall (method : Method) : Call where
  vendorId := ⟨7⟩
  method := method
  answers := permissive
  draws := AccountsPayable.samplePayment.draws

def sampleInvoice (invoiceId : UUID) : Action :=
  .post (sampleCall (.recordInvoice invoiceId 100 sampleTime.date ⟨5⟩ "USD" none none none none []))

def sampleAccrual : Action :=
  .post (sampleCall (.recordAccrual ⟨20⟩ 100 ⟨5⟩ "USD" none none))

/-- While the supplier is frozen its invoice is rejected, afterwards one is posted. -/
theorem blocked_suppliers_frozen :
    Along (step AccountsPayable.sampleService.builtins)
        (Eligible AccountsPayable.sampleService.builtins) ⟨Session.start noBooks, []⟩
        [.party ⟨7⟩ .freezeParty, sampleInvoice ⟨1⟩, .party ⟨7⟩ .unfreezeParty, sampleInvoice ⟨2⟩] ∧
      Throughout (step AccountsPayable.sampleService.builtins) Sealed ⟨Session.start noBooks, []⟩
        [.party ⟨7⟩ .freezeParty, sampleInvoice ⟨1⟩, .party ⟨7⟩ .unfreezeParty,
          sampleInvoice ⟨2⟩] := by
  refine blocked_suppliers AccountsPayable.sampleService.builtins noBooks _ ?_
  refine TransitionSystem.along_cons.mpr ⟨trivial, fun w₁ h₁ => ?_⟩
  obtain rfl := Option.some.inj h₁
  refine TransitionSystem.along_cons.mpr ⟨⟨Or.inr ⟨rfl, by decide +kernel⟩, ?_⟩, fun w₂ h₂ => ?_⟩
  · exact fun _ hclosed => absurd hclosed List.not_mem_nil
  · obtain rfl := Option.some.inj h₂
    refine TransitionSystem.along_cons.mpr
      ⟨fun hclosed => absurd hclosed List.not_mem_nil, fun w₃ h₃ => ?_⟩
    obtain rfl := Option.some.inj h₃
    refine TransitionSystem.along_cons.mpr
      ⟨⟨Or.inl (by decide +kernel), ?_⟩, fun w₄ _ => TransitionSystem.along_nil⟩
    exact fun _ hclosed => absurd hclosed List.not_mem_nil

/-- An accrual is posted for a closed supplier, and the supplier is opened again. -/
theorem closed_supplier_transacts :
    ¬Along (step AccountsPayable.sampleService.builtins)
        (Eligible AccountsPayable.sampleService.builtins) ⟨Session.start noBooks, []⟩
        [.party ⟨7⟩ .closeParty, sampleAccrual, .party ⟨7⟩ .unfreezeParty,
          .party ⟨7⟩ .reactivateParty] ∧
      ¬Throughout (step AccountsPayable.sampleService.builtins) Sealed ⟨Session.start noBooks, []⟩
        [.party ⟨7⟩ .closeParty, sampleAccrual, .party ⟨7⟩ .unfreezeParty,
          .party ⟨7⟩ .reactivateParty] := by
  constructor
  · intro h
    have heligible := h [.party ⟨7⟩ .closeParty] sampleAccrual
      [.party ⟨7⟩ .unfreezeParty, .party ⟨7⟩ .reactivateParty] _ rfl rfl (by decide +kernel)
    exact absurd heligible (by decide +kernel)
  · intro h
    have hopened : ((TransitionSystem.run (step AccountsPayable.sampleService.builtins)
        ⟨Session.start noBooks, []⟩ [.party ⟨7⟩ .closeParty, sampleAccrual,
          .party ⟨7⟩ .unfreezeParty, .party ⟨7⟩ .reactivateParty]).any fun w =>
            w.closed.contains ⟨7⟩ && accepts w.parties ⟨7⟩) = true := by
      decide +kernel
    obtain ⟨w, hrun, hw⟩ := (Option.any_eq_true _ _).mp hopened
    rw [Bool.and_eq_true, List.contains_iff_mem] at hw
    have hsealed := h _ [] w (List.append_nil _).symm hrun ⟨7⟩ hw.1
    rw [hw.2] at hsealed
    cases hsealed

end FinanceAccounting.SupplierEligibility
