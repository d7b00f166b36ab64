import FinanceAccounting.Library.Lifecycles
import FinanceAccounting.Library.TransitionSystem
import FinanceAccounting.Modules.AccountsPayable

/-! # Are the workflow histories of the payables paths?

What the executor accepts and which payments are posted is kept in a history beside the books.  The
history is lawful when the transitions of each invoice and each payment are a path of its workflow
from the draft, a posted payment was approved, no paid invoice is cancelled and nothing concerns an
entity in a terminal state.  The executor keeps no state: `history_lawful` needs that a transition is
accepted only when the state that the method names is the state that the history has reached. -/

namespace FinanceAccounting.AccountsPayable

open UnitOfWork (Session Result)
open ModulePosting (ModulePostingStatus)
open WorkflowExecutor (Workflow Transition findTransition)
open Lifecycles (IsPath split_concat stateAfter)
open TransitionSystem (Along Throughout)
open Modules

/-! ### Histories -/

inductive Happening where
  /-- The executor accepted a transition. -/
  | moved (entityType : String) (entityId : UUID) (transition : Transition)
  /-- A payment was posted. -/
  | paid (paymentId invoiceId : UUID)

abbrev History := List Happening

/-- The transitions of an entity. -/
def History.movesOf (h : History) (entity : String × UUID) : List Transition := h.filterMap fun
  | .moved entityType entityId t => if (entityType, entityId) = entity then some t else none
  | .paid _ _ => none

/-- Every entity begins as a draft. -/
def History.stateOf (h : History) (entity : String × UUID) : String :=
  stateAfter Transition.toState "draft" (h.movesOf entity)

/-- The entities that something concerns. -/
def Happening.concerns : Happening → List (String × UUID)
  | .moved entityType entityId _ => [(entityType, entityId)]
  | .paid paymentId invoiceId => [("ap_payment", paymentId), ("ap_invoice", invoiceId)]

/-- The terminal states of the two workflows. -/
def terminalStates (entityType : String) : List String :=
  if entityType = "ap_invoice" then invoiceTerminalStates
  else if entityType = "ap_payment" then paymentTerminalStates
  else []

/-- The workflow of the invoices or that of the payments. -/
def workflowOf (entityType : String) : Option Workflow :=
  if entityType = "ap_invoice" then some invoiceWorkflow
  else if entityType = "ap_payment" then some paymentWorkflow
  else none

/-- **The histories are paths.** -/
structure History.Lawful (h : History) : Prop where
  path : ∀ entity workflow, workflowOf entity.1 = some workflow →
    IsPath Transition.fromState Transition.toState workflow.transitions "draft" (h.movesOf entity)
  approved : ∀ earlier paymentId invoiceId later, h = earlier ++ .paid paymentId invoiceId :: later →
    ∃ t ∈ History.movesOf earlier ("ap_payment", paymentId), t.action = "approve"
  notCancelled : ∀ earlier invoiceId t later, h = earlier ++ .moved "ap_invoice" invoiceId t :: later →
    t.action = "cancel" → ∀ paymentId, Happening.paid paymentId invoiceId ∉ earlier
  final : ∀ earlier x later, h = earlier ++ x :: later → ∀ entity ∈ x.concerns,
    History.stateOf earlier entity ∉ terminalStates entity.1

/-! ### One more happening -/

section Concat

variable {h : History} {x : Happening}

/-- What may come next in a history. -/
structure Admissible (h : History) (x : Happening) : Prop where
  path : ∀ entityType entityId t workflow, x = .moved entityType entityId t →
    workflowOf entityType = some workflow →
      t ∈ workflow.transitions ∧ t.fromState = h.stateOf (entityType, entityId)
  approved : ∀ paymentId invoiceId, x = .paid paymentId invoiceId →
    ∃ t ∈ h.movesOf ("ap_payment", paymentId), t.action = "approve"
  notCancelled : ∀ invoiceId t, x = .moved "ap_invoice" invoiceId t → t.action = "cancel" →
    ∀ paymentId, Happening.paid paymentId invoiceId ∉ h
  final : ∀ entity ∈ x.concerns, h.stateOf entity ∉ terminalStates entity.1

theorem movesOf_concat (entity : String × UUID) : History.movesOf (h ++ [x]) entity =
    h.movesOf entity ++ History.movesOf [x] entity :=
  List.filterMap_append

/-- **An admissible happening keeps a history lawful.** -/
theorem History.Lawful.concat (hlawful : h.Lawful) (hx : Admissible h x) :
    History.Lawful (h ++ [x]) where
  path entity workflow hworkflow := by
    have hpath := hlawful.path entity workflow hworkflow
    rw [movesOf_concat]
    cases x with
    | paid paymentId invoiceId =>
        have hnone : History.movesOf [.paid paymentId invoiceId] entity = [] := rfl
        rw [hnone, List.append_nil]
        exact hpath
    | moved entityType entityId t =>
        by_cases heq : (entityType, entityId) = entity
        · subst heq
          have hone : History.movesOf [.moved entityType entityId t] (entityType, entityId) = [t] := by
            simp [History.movesOf]
          obtain ⟨hmem, hsource⟩ := hx.path entityType entityId t workflow rfl hworkflow
          rw [hone]
          exact Lifecycles.isPath_concat.mpr ⟨hpath, hmem, hsource⟩
        · have hnone : History.movesOf [.moved entityType entityId t] entity = [] := by
            simp [History.movesOf, heq]
          rw [hnone, List.append_nil]
          exact hpath
  approved earlier paymentId invoiceId later heq := by
    rcases split_concat heq with ⟨rfl, hlast⟩ | ⟨later', heq'⟩
    · exact hx.approved paymentId invoiceId hlast.symm
    · exact hlawful.approved earlier paymentId invoiceId later' heq'
  notCancelled earlier invoiceId t later heq := by
    rcases split_concat heq with ⟨rfl, hlast⟩ | ⟨later', heq'⟩
    · exact hx.notCancelled invoiceId t hlast.symm
    · exact hlawful.notCancelled earlier invoiceId t later' heq'
  final earlier y later heq := by
    rcases split_concat heq with ⟨rfl, rfl⟩ | ⟨later', heq'⟩
    · exact hx.final
    · exact hlawful.final earlier y later' heq'

theorem lawful_nil : History.Lawful [] where
  path _ _ _ := trivial
  approved _ _ _ _ heq := by simp at heq
  notCancelled _ _ _ _ heq := by simp at heq
  final _ _ _ heq := by simp at heq

/-- No transition leaves a terminal state. -/
theorem fromState_not_terminal {entityType : String} {workflow : Workflow}
    (hworkflow : workflowOf entityType = some workflow) {t : Transition}
    (ht : t ∈ workflow.transitions) : t.fromState ∉ terminalStates entityType := by
  unfold workflowOf at hworkflow
  unfold terminalStates
  split at hworkflow
  · obtain rfl := Option.some.inj hworkflow
    have hall : ∀ t ∈ invoiceWorkflow.transitions, t.fromState ∉ invoiceTerminalStates := by decide
    rw [if_pos ‹_›]
    exact hall t ht
  · split at hworkflow
    · obtain rfl := Option.some.inj hworkflow
      have hall : ∀ t ∈ paymentWorkflow.transitions, t.fromState ∉ paymentTerminalStates := by decide
      rw [if_neg ‹_›, if_pos ‹_›]
      exact hall t ht
    · cases hworkflow

/-- A payment that is in the state "approved" was approved. -/
theorem History.Lawful.approve_mem (hlawful : h.Lawful) {paymentId : UUID}
    (hstate : h.stateOf ("ap_payment", paymentId) = "approved") :
    ∃ t ∈ h.movesOf ("ap_payment", paymentId), t.action = "approve" := by
  have hpath := hlawful.path ("ap_payment", paymentId) paymentWorkflow rfl
  obtain ⟨t, hmem, htransition, htarget⟩ := Lifecycles.exists_entering hpath (by
    rw [show stateAfter Transition.toState "draft" (h.movesOf ("ap_payment", paymentId)) = _ from hstate]
    decide)
  have hall : ∀ t ∈ paymentWorkflow.transitions, t.toState = "approved" → t.action = "approve" := by
    decide
  exact ⟨t, hmem, hall t htransition (htarget.trans hstate)⟩

end Concat

/-! ### Runs -/

/-- The transition that a method asks the executor for; a match that fails asks for none. -/
def Operation.asks (sv : APService) (s : Session Tables) : Operation → Option TransitionCall
  | .recordInvoice invoiceId _ amount _ actorId currency _ _ _ _ _ =>
      some (invoiceTransition invoiceId actorId amount currency "draft" "submit" [])
  | .recordInventoryInvoice invoiceId _ amount _ actorId currency _ _ _ =>
      some (apDraftPost invoiceId actorId amount currency "ap_inventory_invoice" [])
  | .matchInvoiceToPo invoiceId poId receiptIds actorId invoiceAmount poAmount currency tolerance =>
      (createMatch sv.builtins.ctx
        (matchDocuments invoiceId poId receiptIds invoiceAmount poAmount currency)).map fun m =>
          matchTransition sv invoiceId actorId m invoiceAmount poAmount currency tolerance
  | .approveInvoice invoiceId actorId actorRole amount currency approvalRequestId =>
      some (approveInvoiceTransition invoiceId actorId actorRole amount currency approvalRequestId)
  | .submitPayment paymentId amount bankBalance actorId currency =>
      some (submitPaymentTransition paymentId amount bankBalance actorId currency)
  | .approvePayment paymentId actorId actorRole amount currency approvalRequestId invoiceStatus =>
      some (approvePaymentTransition paymentId actorId actorRole amount currency approvalRequestId
        invoiceStatus)
  | .recordPayment paymentId invoiceId amount _ actorId _ currency _ _ _ _ =>
      some (releaseTransition paymentId invoiceId actorId amount currency s)
  | .cancelInvoice invoiceId amount actorId currency reason _ _ =>
      some (cancelTransition invoiceId actorId amount currency reason s)
  | .applyPrepayment applicationId prepaymentId invoiceId amount _ actorId currency =>
      some (prepaymentTransition applicationId prepaymentId invoiceId actorId amount currency)

/-- The books and the history. -/
structure World where
  session : Session Tables
  history : History

section Runs

variable (sv : APService) (parties : UUID → Bool)

/-- What the executor accepts in a call. -/
def Call.moves (c : Call) (s : Session Tables) : Option Happening :=
  (c.operation.asks sv s).bind fun a =>
    (accepted c.answers a).map (Happening.moved a.entityType a.entityId)

/-- The payment of a call and its invoice. -/
def Operation.pays : Operation → Option (UUID × UUID)
  | .recordPayment paymentId invoiceId .. => some (paymentId, invoiceId)
  | _ => none

/-- What a call that succeeds has paid. -/
def Call.pays (c : Call) (r : Except ServiceError ModulePostingStatus) : Option Happening :=
  match r with
  | .ok status =>
      if succeeded status then c.operation.pays.map fun p => .paid p.1 p.2 else none
  | .error _ => none

/-- One call, whatever it returns or raises. -/
def step (w : World) (c : Call) : Option World :=
  let r := c.run sv parties w.session
  some
    { session := r.2
      history := w.history ++ (c.moves sv w.session).toList ++ (c.pays r.1).toList }

/-- What a method asks for starts in the state that the history has reached, no paid invoice is
cancelled, and no payment is released for an invoice in a terminal state. -/
structure Fits (w : World) (c : Call) (a : TransitionCall) : Prop where
  state : (workflowOf a.entityType).isSome →
    a.currentState = w.history.stateOf (a.entityType, a.entityId)
  unpaid : a.entityType = "ap_invoice" → a.action = "cancel" →
    ∀ paymentId, Happening.paid paymentId a.entityId ∉ w.history
  payable : ∀ paymentId invoiceId, c.operation.pays = some (paymentId, invoiceId) →
    w.history.stateOf ("ap_invoice", invoiceId) ∉ invoiceTerminalStates

/-- The condition: what the executor accepts fits the history. -/
def Meets (w : World) (c : Call) : Prop :=
  ∀ a, c.operation.asks sv w.session = some a → (accepted c.answers a).isSome → Fits w c a

variable {sv parties} {w w' : World} {c : Call} {a : TransitionCall} {t : Transition}

theorem findTransition_eq_some {workflow : Workflow} {currentState action : String}
    (h : findTransition workflow currentState action = some t) :
    t ∈ workflow.transitions ∧ t.fromState = currentState ∧ t.action = action := by
  unfold findTransition at h
  have hfound := List.find?_some h
  simp only [Bool.and_eq_true, decide_eq_true_eq] at hfound
  exact ⟨List.mem_of_find?_eq_some h, hfound.1, hfound.2⟩

/-- The workflow of a transition is that of its entity. -/
theorem workflow_of_asks {op : Operation} {s : Session Tables} (h : op.asks sv s = some a)
    {workflow : Workflow} (hworkflow : workflowOf a.entityType = some workflow) :
    a.workflow = workflow := by
  have hinvoice : workflowOf "ap_invoice" = some invoiceWorkflow := rfl
  have hpayment : workflowOf "ap_payment" = some paymentWorkflow := rfl
  cases op with
  | matchInvoiceToPo invoiceId poId receiptIds actorId invoiceAmount poAmount currency tolerance =>
      obtain ⟨m, -, rfl⟩ := Option.map_eq_some_iff.mp h
      exact Option.some.inj (hinvoice.symm.trans hworkflow)
  | recordInventoryInvoice =>
      obtain rfl := Option.some.inj h
      cases hworkflow
  | applyPrepayment =>
      obtain rfl := Option.some.inj h
      cases hworkflow
  | recordInvoice =>
      obtain rfl := Option.some.inj h
      exact Option.some.inj (hinvoice.symm.trans hworkflow)
  | approveInvoice =>
      obtain rfl := Option.some.inj h
      exact Option.some.inj (hinvoice.symm.trans hworkflow)
  | cancelInvoice =>
      obtain rfl := Option.some.inj h
      exact Option.some.inj (hinvoice.symm.trans hworkflow)
  | submitPayment =>
      obtain rfl := Option.some.inj h
      exact Option.some.inj (hpayment.symm.trans hworkflow)
  | approvePayment =>
      obtain rfl := Option.some.inj h
      exact Option.some.inj (hpayment.symm.trans hworkflow)
  | recordPayment =>
      obtain rfl := Option.some.inj h
      exact Option.some.inj (hpayment.symm.trans hworkflow)

theorem terminalStates_eq_nil {entityType : String} (h : workflowOf entityType = none) :
    terminalStates entityType = [] := by
  unfold workflowOf at h
  unfold terminalStates
  split at h
  · cases h
  · split at h
    · cases h
    · rw [if_neg ‹_›, if_neg ‹_›]

/-- What the executor accepts may come next, where it fits. -/
theorem admissible_moved (hasks : c.operation.asks sv w.session = some a)
    (haccepted : accepted c.answers a = some t) (hfits : Fits w c a) :
    Admissible w.history (.moved a.entityType a.entityId t) := by
  obtain ⟨hmem, hfrom, haction⟩ := findTransition_eq_some (findTransition_of_accepted haccepted)
  refine ⟨fun entityType entityId t' workflow heq hworkflow => ?_, fun _ _ heq => ?_,
    fun invoiceId t' heq hcancel => ?_, fun entity hentity => ?_⟩
  · cases heq
    rw [← workflow_of_asks hasks hworkflow]
    exact ⟨hmem, hfrom.trans (hfits.state (Option.isSome_of_eq_some hworkflow))⟩
  · cases heq
  · obtain ⟨htype, rfl, rfl⟩ := Happening.moved.inj heq
    exact hfits.unpaid htype (haction.symm.trans hcancel)
  · obtain rfl := List.mem_singleton.mp hentity
    cases hworkflow : workflowOf a.entityType with
    | none =>
        rw [terminalStates_eq_nil hworkflow]
        exact List.not_mem_nil
    | some workflow =>
        rw [← hfits.state (Option.isSome_of_eq_some hworkflow), ← hfrom]
        refine fromState_not_terminal hworkflow ?_
        rw [← workflow_of_asks hasks hworkflow]
        exact hmem

def released : Transition := ⟨"approved", "submitted", "release", none, true, false⟩

/-- A payment that is posted was released. -/
theorem released_of_pays {x : Happening} {s : Session Tables}
    (h : c.pays (c.run sv parties s).1 = some x) :
    ∃ paymentId invoiceId a, x = .paid paymentId invoiceId ∧
      c.operation.pays = some (paymentId, invoiceId) ∧ c.operation.asks sv s = some a ∧
        a.entityType = "ap_payment" ∧ a.entityId = paymentId ∧ a.currentState = "approved" ∧
          accepted c.answers a = some released := by
  obtain ⟨operation, answers, draws⟩ := c
  rcases hrun : Call.run sv parties ⟨operation, answers, draws⟩ s with ⟨e | status, s'⟩
  · rw [hrun] at h
    cases h
  · rw [hrun] at h
    unfold Call.pays at h
    dsimp only at h
    split at h
    · rename_i hsucceeded
      obtain ⟨⟨paymentId, invoiceId⟩, hpays, rfl⟩ := Option.map_eq_some_iff.mp h
      cases operation with
      | recordPayment p i amount effectiveDate actorId vendorId currency paymentMethod reference
          discountAmount bankAccountId =>
          obtain ⟨rfl, rfl⟩ := Prod.mk.inj (Option.some.inj hpays)
          obtain ⟨r, s₁, htransition, hrefused | hpassed⟩ := Env.guardedWork_eq_ok hrun
          · obtain ⟨hfalse, hstatus, -⟩ := hrefused
            have hrefusal := not_succeeded_refusal r.approvalRequired
            simp only [guardFailureResult, hfalse, Bool.false_eq_true, if_false,
              Option.some.injEq] at hstatus
            rw [hstatus, hsucceeded] at hrefusal
            cases hrefusal
          · obtain ⟨-, -, -, hsuccess, -⟩ := hpassed
            have hexecuted : executeOn answers (releaseTransition p i actorId amount currency s) s =
                (.ok r, s₁) := htransition
            obtain ⟨t, haccepted, -⟩ := accepted_of_success hexecuted hsuccess
            have hreleased : findTransition paymentWorkflow "approved" "release" = some released := rfl
            have hfound : findTransition paymentWorkflow "approved" "release" = some t :=
              findTransition_of_accepted haccepted
            obtain rfl : t = released := Option.some.inj (hfound.symm.trans hreleased)
            exact ⟨p, i, _, rfl, rfl, rfl, rfl, rfl, rfl, haccepted⟩
      | _ => cases hpays
    · cases h

/-- A posted payment may come after its release, where that fits. -/
theorem admissible_paid {x : Happening} (hlawful : w.history.Lawful)
    (hmeets : Meets sv w c) (h : c.pays (c.run sv parties w.session).1 = some x) :
    Admissible (w.history ++ (c.moves sv w.session).toList) x := by
  obtain ⟨paymentId, invoiceId, a, rfl, hpays, hasks, htype, hid, hstate, haccepted⟩ :=
    released_of_pays h
  have hfits := hmeets a hasks (Option.isSome_of_eq_some haccepted)
  have hmoves : c.moves sv w.session = some (.moved "ap_payment" paymentId released) := by
    unfold Call.moves
    rw [hasks, Option.bind_some, haccepted, Option.map_some, htype, hid]
  have hpayment : workflowOf a.entityType = some paymentWorkflow := by
    rw [htype]
    rfl
  have happroved : w.history.stateOf ("ap_payment", paymentId) = "approved" := by
    rw [← htype, ← hid, ← hfits.state (Option.isSome_of_eq_some hpayment), hstate]
  rw [hmoves, Option.toList_some]
  refine ⟨fun _ _ _ _ heq => ?_, fun p i heq => ?_, fun _ _ heq => ?_, fun entity hentity => ?_⟩
  · cases heq
  · obtain ⟨rfl, rfl⟩ := Happening.paid.inj heq
    obtain ⟨t, hmem, haction⟩ := hlawful.approve_mem happroved
    refine ⟨t, ?_, haction⟩
    rw [movesOf_concat]
    exact List.mem_append_left _ hmem
  · cases heq
  · rcases List.mem_cons.mp hentity with rfl | hrest
    · have hmoved : History.movesOf [.moved "ap_payment" paymentId released]
          ("ap_payment", paymentId) = [released] := by
        simp [History.movesOf]
      unfold History.stateOf
      rw [movesOf_concat, hmoved, Lifecycles.stateAfter_concat]
      have hopen : "submitted" ∉ paymentTerminalStates := by decide
      exact hopen
    · obtain rfl := List.mem_singleton.mp hrest
      have hother : History.movesOf [.moved "ap_payment" paymentId released]
          ("ap_invoice", invoiceId) = [] := by
        simp [History.movesOf]
      unfold History.stateOf
      rw [movesOf_concat, hother, List.append_nil]
      exact hfits.payable paymentId invoiceId hpays

/-- **Step lemma**: a call that meets the condition keeps the history lawful. -/
theorem lawful_step (hlawful : w.history.Lawful) (hmeets : Meets sv w c)
    (h : step sv parties w c = some w') : w'.history.Lawful := by
  obtain rfl := Option.some.inj h
  have hmoved : History.Lawful (w.history ++ (c.moves sv w.session).toList) := by
    cases hmoves : c.moves sv w.session with
    | none =>
        rw [Option.toList_none, List.append_nil]
        exact hlawful
    | some x =>
        obtain ⟨a, hasks, haccepted⟩ := Option.bind_eq_some_iff.mp hmoves
        obtain ⟨t, ht, rfl⟩ := Option.map_eq_some_iff.mp haccepted
        refine hlawful.concat (admissible_moved hasks ht ?_)
        exact hmeets a hasks (Option.isSome_of_eq_some ht)
  show History.Lawful (w.history ++ (c.moves sv w.session).toList ++
    (c.pays (c.run sv parties w.session).1).toList)
  cases hpays : c.pays (c.run sv parties w.session).1 with
  | none =>
      rw [Option.toList_none, List.append_nil]
      exact hmoved
  | some x => exact hmoved.concat (admissible_paid hlawful hmeets hpays)

/-- **The histories are paths** in every run in which what the executor accepts fits the history. -/
theorem history_lawful (sv : APService) (parties : UUID → Bool) (tables : Tables) (calls : List Call)
    (hmeets : Along (step sv parties) (Meets sv) ⟨Session.start tables, []⟩ calls) :
    Throughout (step sv parties) (fun w => w.history.Lawful) ⟨Session.start tables, []⟩ calls :=
  hmeets.throughout (fun _ _ _ hlawful hstep h => lawful_step hlawful hstep h) lawful_nil

end Runs

/-! ### A payment without its approval -/

/-- Twenty-eight digits. -/
def sampleService : APService where
  builtins :=
    { ctx := Hashing.defaultContext
      decimalPlaces := fun _ => 2
      decimal := fun _ => none
      serializable := fun _ => true }
  isFrozen _ := false
  priceVariancePercent := none

/-- A call that everything lets through. -/
def sampleCall (operation : Operation) : Call where
  operation := operation
  answers := permissive
  draws := ⟨1000, sampleTime, fun n => ⟨100 + n⟩⟩

def noBooks : Tables := { store := ⟨[], []⟩ }

/-- Payment 2 of 100 on invoice 1. -/
def samplePayment : Call :=
  sampleCall (.recordPayment ⟨2⟩ ⟨1⟩ 100 sampleTime.date ⟨5⟩ ⟨7⟩ "USD" none none none none)

def sampleSubmission : Call := sampleCall (.submitPayment ⟨2⟩ 100 500 ⟨5⟩ "USD")

def sampleApproval : Call := sampleCall (.approvePayment ⟨2⟩ ⟨6⟩ "controller" 100 "USD" none none)

theorem history_lawful_approved :
    Throughout (step sampleService fun _ => true) (fun w => w.history.Lawful)
      ⟨Session.start noBooks, []⟩ [sampleSubmission, sampleApproval, samplePayment] := by
  refine history_lawful sampleService (fun _ => true) noBooks _ ?_
  refine TransitionSystem.along_cons.mpr ⟨?_, fun w₁ h₁ => ?_⟩
  · intro a hasks _
    obtain rfl := Option.some.inj hasks
    refine ⟨fun _ => by decide, fun htype => ?_, fun _ _ hpays => ?_⟩
    · exact absurd htype (by decide)
    · cases hpays
  · obtain rfl := Option.some.inj h₁
    refine TransitionSystem.along_cons.mpr ⟨?_, fun w₂ h₂ => ?_⟩
    · intro a hasks _
      obtain rfl := Option.some.inj hasks
      refine ⟨fun _ => by decide +kernel, fun htype => ?_, fun _ _ hpays => ?_⟩
      · exact absurd htype (by decide)
      · cases hpays
    · obtain rfl := Option.some.inj h₂
      refine TransitionSystem.along_cons.mpr ⟨?_, fun w₃ h₃ => TransitionSystem.along_nil⟩
      intro a hasks _
      obtain rfl := Option.some.inj hasks
      refine ⟨fun _ => by decide +kernel, fun htype => ?_, fun paymentId invoiceId hpays => ?_⟩
      · exact absurd htype (by decide)
      · obtain ⟨rfl, rfl⟩ := Prod.mk.inj (Option.some.inj hpays)
        decide +kernel

/-- **A payment is posted that nobody approved.** -/
theorem payment_unapproved :
    ¬Throughout (step sampleService fun _ => true) (fun w => w.history.Lawful)
      ⟨Session.start noBooks, []⟩ [samplePayment] := by
  intro h
  have hlawful := h [samplePayment] [] _ rfl rfl
  have hpath := hlawful.path ("ap_payment", ⟨2⟩) paymentWorkflow rfl
  have hdraft : "approved" = "draft" :=
    Lifecycles.source_of_head? hpath (by decide +kernel)
  exact absurd hdraft (by decide)

end FinanceAccounting.AccountsPayable
