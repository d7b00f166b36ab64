import FinanceAccounting.Library.UnitOfWork
import FinanceAccounting.Kernel.Approval

/-! # The approval service

`ApprovalService` on the tables `approval_requests` and `approval_decisions` of one session.
An operation returns its request or raises, next to the session it leaves behind; a decision
that is on record stays there when the operation raises afterwards.  `perform_cases` is the spec
of all operations: it lists what each of them can do to the tables. -/

namespace FinanceAccounting.Approval

open Hashing (PyVal PyError hashPayload)
open UnitOfWork (Session Logged Change Result)

/-! ### Tables -/

/-- What identifies the transition that a request is for. -/
structure TransitionKey where
  workflowName : String
  entityType : String
  entityId : UUID
  transitionAction : String
  fromState : String
  toState : String
deriving DecidableEq

/-- A row of `approval_requests`. -/
structure ApprovalRequestModel extends TransitionKey where
  requestId : UUID
  policyName : String
  policyVersion : ℤ
  policyHash : Option String
  matchedRule : Option String
  amount : Option Decimal
  currency : String
  requestorId : UUID
  status : ApprovalStatus
  createdAt : Datetime
  resolvedAt : Option Datetime := none
  originalRequestHash : Option String

/-- The tables, with their unique constraints. -/
structure Tables where
  requests : List ApprovalRequestModel
  decisions : List ApprovalDecisionRecord
  requestIds : (requests.map (·.requestId)).Nodup
  /-- `uq_approval_decisions_actor` (AL-7). -/
  actors : (decisions.map fun d => (d.requestId, d.actorId)).Nodup

/-- A request with the decisions on record. -/
structure Standing where
  request : ApprovalRequestModel
  decisions : List ApprovalDecisionRecord

namespace Tables

def empty : Tables := ⟨[], [], List.nodup_nil, List.nodup_nil⟩

/-- `_load_request_model`, or nothing. -/
def load (t : Tables) (requestId : UUID) : Option ApprovalRequestModel :=
  t.requests.find? (·.requestId = requestId)

def decisionsOf (t : Tables) (requestId : UUID) : List ApprovalDecisionRecord :=
  t.decisions.filter (·.requestId = requestId)

def standing (t : Tables) (r : ApprovalRequestModel) : Standing := ⟨r, t.decisionsOf r.requestId⟩

def hasId (t : Tables) (requestId : UUID) : Bool := t.requests.any (·.requestId = requestId)

/-- The actor has decided on the request. -/
def decidedBy (t : Tables) (requestId actorId : UUID) : Bool :=
  t.decisions.any fun d => d.requestId = requestId && d.actorId = actorId

/-- The open requests for a transition. -/
def openFor (t : Tables) (key : TransitionKey) : List ApprovalRequestModel :=
  t.requests.filter fun r => r.toTransitionKey = key && r.status.isOpen

/-- Insert a request; an identifier is not used twice. -/
def insert (t : Tables) (r : ApprovalRequestModel) : Tables :=
  if h : t.hasId r.requestId then t
  else
    { t with
      requests := t.requests ++ [r]
      requestIds := by
        rw [List.map_append, List.nodup_append]
        refine ⟨t.requestIds, List.nodup_singleton _, fun a ha b hb => ?_⟩
        obtain rfl := List.mem_singleton.mp hb
        obtain ⟨r', hr', rfl⟩ := List.mem_map.mp ha
        simp only [hasId, List.any_eq_true, not_exists, not_and, decide_eq_true_eq] at h
        exact h r' hr' }

/-- Insert a decision; an actor does not decide twice on a request. -/
def decide (t : Tables) (d : ApprovalDecisionRecord) : Tables :=
  if h : t.decidedBy d.requestId d.actorId then t
  else
    { t with
      decisions := t.decisions ++ [d]
      actors := by
        rw [List.map_append, List.nodup_append]
        refine ⟨t.actors, List.nodup_singleton _, fun a ha b hb => ?_⟩
        obtain rfl := List.mem_singleton.mp hb
        obtain ⟨d', hd', rfl⟩ := List.mem_map.mp ha
        simp only [decidedBy, List.any_eq_true, not_exists, not_and, Bool.and_eq_true,
          decide_eq_true_eq] at h
        intro heq
        exact h d' hd' (Prod.mk.inj heq).1 (Prod.mk.inj heq).2 }

/-- Update the rows of requests, which keep their identifiers. -/
def update (t : Tables) (f : ApprovalRequestModel → ApprovalRequestModel)
    (hf : ∀ r, (f r).requestId = r.requestId) : Tables :=
  { t with
    requests := t.requests.map f
    requestIds := by
      have hids : (t.requests.map f).map (·.requestId) = t.requests.map (·.requestId) := by
        rw [List.map_map]
        exact List.map_congr_left fun r _ => hf r
      rw [hids]
      exact t.requestIds }

/-- Set the status of the requests that satisfy a test, and the time of their resolution. -/
def setStatus (t : Tables) (test : ApprovalRequestModel → Bool) (status : ApprovalStatus)
    (resolvedAt : Option Datetime) : Tables :=
  t.update (fun r => if test r then { r with status, resolvedAt } else r) (by
    intro r
    split <;> rfl)

end Tables

/-! ### Tamper evidence -/

/-- `_normalize_amount_for_hash`. -/
def normalizeAmountForHash : Option Decimal → Except PyError PyVal
  | none => .ok .none
  | some amount => (Hashing.Scalar.decimalText amount).map fun text => .scalar (.str text)

/-- `_compute_request_hash`, of the fields of a request that never change. -/
def computeRequestHash (sha256 : String → String) (r : ApprovalRequestModel) :
    Except PyError String := do
  let amount ← normalizeAmountForHash r.amount
  hashPayload sha256 (.dict [
    ("request_id", .scalar (.str r.requestId.str)),
    ("workflow_name", .scalar (.str r.workflowName)),
    ("entity_type", .scalar (.str r.entityType)),
    ("entity_id", .scalar (.str r.entityId.str)),
    ("transition_action", .scalar (.str r.transitionAction)),
    ("from_state", .scalar (.str r.fromState)),
    ("to_state", .scalar (.str r.toState)),
    ("policy_name", .scalar (.str r.policyName)),
    ("policy_version", .int r.policyVersion),
    ("amount", amount),
    ("currency", .scalar (.str r.currency))])

/-! ### Operations -/

inductive ApprovalError where
  | approvalNotFound (requestId : UUID)
  | approvalAlreadyResolved (requestId : UUID) (currentStatus : ApprovalStatus)
  | invalidApprovalTransition (fromStatus toStatus : ApprovalStatus)
  | policyDrift (policyName : String) (snapshottedVersion activeVersion : ℤ)
  | approvalCurrencyMismatch (requestCurrency policyCurrency : String)
  | duplicateApproval (requestId actorId : UUID)
  | tamperDetected (requestId : UUID)
  | duplicateApprovalRequest (entityType : String) (entityId : UUID) (action : String)
  | multipleResultsFound
  | integrityError
  | overflowError
  | typeError (message : String)
  | raised (e : PyError)

abbrev Log := Logged Tables Standing

/-- What a call takes from outside: the clock, an identifier from `uuid4`, and whether the
database refuses its flush. -/
structure Draws where
  now : Datetime
  id : UUID
  flushRefused : Bool := false

structure CreateRequest extends TransitionKey where
  policy : ApprovalPolicy
  matchedRuleName : String
  requestorId : UUID
  amount : Option Decimal := none
  currency : String := "USD"

/-- The row of a new request, before its hash is known. -/
def CreateRequest.row (a : CreateRequest) (d : Draws) : ApprovalRequestModel :=
  { a.toTransitionKey with
    requestId := d.id
    policyName := a.policy.policyName
    policyVersion := a.policy.version
    policyHash := a.policy.policyHash
    matchedRule := some a.matchedRuleName
    amount := a.amount
    currency := a.currency
    requestorId := a.requestorId
    status := .pending
    createdAt := d.now
    originalRequestHash := none }

/-- `create_request`. -/
def createRequest (sha256 : String → String) (a : CreateRequest) (d : Draws) (s : Session Log) :
    Result ApprovalError Log ApprovalRequestModel :=
  let policyCurrency := a.policy.policyCurrency.getD ""
  if policyCurrency ≠ "" ∧ a.currency ≠ policyCurrency then
    (.error (.approvalCurrencyMismatch a.currency policyCurrency), s)
  else
    match s.current.tables.openFor a.toTransitionKey with
    | _ :: _ :: _ => (.error .multipleResultsFound, s)
    | [_] =>
        (.error (.duplicateApprovalRequest a.entityType a.entityId a.transitionAction), s)
    | [] =>
        match computeRequestHash sha256 (a.row d) with
        | .error e => (.error (.raised e), s)
        | .ok requestHash =>
            let model := { a.row d with originalRequestHash := some requestHash }
            if d.flushRefused || s.current.tables.hasId d.id then (.error .integrityError, s.rollback)
            else
              let t := s.current.tables.insert model
              (.ok model, s.flush (s.current.become t [⟨none, t.standing model⟩]))

/-- `_resolve_new_status`. -/
def resolveNewStatus : ApprovalDecision → ApprovalStatus
  | .approve => .approved
  | .reject => .rejected
  | .escalate => .escalated

structure RecordDecision where
  requestId : UUID
  actorId : UUID
  actorRole : String
  decision : ApprovalDecision
  comment : String := ""
  activePolicy : Option ApprovalPolicy := none

/-- The row of the decision. -/
def RecordDecision.record (a : RecordDecision) (d : Draws) : ApprovalDecisionRecord where
  decisionId := d.id
  requestId := a.requestId
  actorId := a.actorId
  actorRole := a.actorRole
  decision := a.decision
  comment := a.comment
  decidedAt := d.now

/-- The active policy is older than the one the request was made under (AL-5). -/
def drifted (model : ApprovalRequestModel) (activePolicy : Option ApprovalPolicy) : Bool :=
  activePolicy.any fun policy => policy.version < model.policyVersion

def terminal (status : ApprovalStatus) : Bool := status ∈ terminalApprovalStatuses

/-- One row gets a new status. -/
def resolve (s : Session Log) (t : Tables) (model : ApprovalRequestModel)
    (status : ApprovalStatus) (resolvedAt : Option Datetime) :
    Result ApprovalError Log ApprovalRequestModel :=
  let model' := { model with status, resolvedAt }
  let t' := t.setStatus (·.requestId = model.requestId) status resolvedAt
  (.ok model', s.flush (s.current.become t'
    [⟨some (s.current.tables.standing model), t'.standing model'⟩]))

/-- `record_decision`. -/
def recordDecision (a : RecordDecision) (d : Draws) (s : Session Log) :
    Result ApprovalError Log ApprovalRequestModel :=
  match s.current.tables.load a.requestId with
  | none => (.error (.approvalNotFound a.requestId), s)
  | some model =>
      if terminal model.status then
        (.error (.approvalAlreadyResolved a.requestId model.status), s)
      else if s.current.tables.decidedBy a.requestId a.actorId then
        (.error (.duplicateApproval a.requestId a.actorId), s)
      else
        -- the decision is in the session from here on, whatever follows
        let t := s.current.tables.decide (a.record d)
        let newStatus := resolveNewStatus a.decision
        if newStatus ∉ approvalTransitions model.status then
          (.error (.invalidApprovalTransition model.status newStatus), s.flush (s.current.become t []))
        else if terminal newStatus && drifted model a.activePolicy then
          (.error (.policyDrift model.policyName model.policyVersion
            ((a.activePolicy.map (·.version)).getD 0)), s.flush (s.current.become t []))
        else if d.flushRefused then (.error .integrityError, s.rollback)
        else
          resolve s t model newStatus (if terminal newStatus then some d.now else model.resolvedAt)

/-- `record_auto_approval`; what it only hands to the audit event is left out. -/
def recordAutoApproval (requestId : UUID) (d : Draws) (s : Session Log) :
    Result ApprovalError Log ApprovalRequestModel :=
  match s.current.tables.load requestId with
  | none => (.error (.approvalNotFound requestId), s)
  | some model =>
      if d.flushRefused then (.error .integrityError, s.rollback)
      else resolve s s.current.tables model .autoApproved (some d.now)

/-- `get_request`. -/
def getRequest (sha256 : String → String) (requestId : UUID) (t : Tables) :
    Except ApprovalError ApprovalRequestModel :=
  match t.load requestId with
  | none => .error (.approvalNotFound requestId)
  | some model =>
      match model.originalRequestHash with
      | none => .ok model
      | some originalRequestHash =>
          match computeRequestHash sha256 model with
          | .error e => .error (.raised e)
          | .ok computed =>
              if computed ≠ originalRequestHash then .error (.tamperDetected requestId)
              else .ok model

/-- `cancel_request`. -/
def cancelRequest (requestId : UUID) (d : Draws) (s : Session Log) :
    Result ApprovalError Log ApprovalRequestModel :=
  match s.current.tables.load requestId with
  | none => (.error (.approvalNotFound requestId), s)
  | some model =>
      if terminal model.status then (.error (.approvalAlreadyResolved requestId model.status), s)
      else if .cancelled ∉ approvalTransitions model.status then
        (.error (.invalidApprovalTransition model.status .cancelled), s)
      else if d.flushRefused then (.error .integrityError, s.rollback)
      else resolve s s.current.tables model .cancelled (some d.now)

def microsPerHour : ℤ := 3600 * 10 ^ 6

/-- The days that a datetime can lie on. -/
def maxOrdinal : ℤ := 3652059

/-- Open and created before the cutoff. -/
def stale (cutoff : ℤ) (r : ApprovalRequestModel) : Bool :=
  r.status.isOpen && r.createdAt.instant < cutoff

/-- `expire_stale_requests`. -/
def expireStaleRequests (asOf : Datetime) (timeoutHours : ℤ) (d : Draws) (s : Session Log) :
    Result ApprovalError Log (List UUID) :=
  let asOf := { asOf with utcoffset := some (asOf.utcoffset.getD utc) }
  let wall := asOf.wall - timeoutHours * microsPerHour
  if wall < microsPerDay ∨ (maxOrdinal + 1) * microsPerDay ≤ wall then (.error .overflowError, s)
  else
    let test := stale (asOf.instant - timeoutHours * microsPerHour)
    let models := s.current.tables.requests.filter test
    if d.flushRefused && !models.isEmpty then (.error .integrityError, s.rollback)
    else
      let t := s.current.tables.setStatus test .expired (some asOf)
      (.ok (models.map (·.requestId)), s.flush (s.current.become t (models.map fun r =>
        ⟨some (s.current.tables.standing r),
          t.standing { r with status := .expired, resolvedAt := some asOf }⟩)))

/-! ### What an operation does -/

inductive Operation where
  | createRequest (a : CreateRequest)
  | recordDecision (a : RecordDecision)
  | recordAutoApproval (requestId : UUID)
  | cancelRequest (requestId : UUID)
  | expireStaleRequests (asOf : Datetime) (timeoutHours : ℤ)

/-- The session after an operation, whether it returns or raises. -/
def Operation.perform (sha256 : String → String) (d : Draws) (s : Session Log) :
    Operation → Session Log
  | .createRequest a => (Approval.createRequest sha256 a d s).2
  | .recordDecision a => (Approval.recordDecision a d s).2
  | .recordAutoApproval requestId => (Approval.recordAutoApproval requestId d s).2
  | .cancelRequest requestId => (Approval.cancelRequest requestId d s).2
  | .expireStaleRequests asOf timeoutHours =>
      (Approval.expireStaleRequests asOf timeoutHours d s).2

/-- The request is open and the actor has not decided on it. -/
structure MayDecide (t : Tables) (a : RecordDecision) (model : ApprovalRequestModel) : Prop where
  found : t.load a.requestId = some model
  isOpen : model.status.isOpen = true
  undecided : t.decidedBy a.requestId a.actorId = false

/-- A decision is refused after it has been put on record. -/
def Refuses (a : RecordDecision) (model : ApprovalRequestModel) : Prop :=
  resolveNewStatus a.decision ∉ approvalTransitions model.status ∨
    (terminal (resolveNewStatus a.decision) && drifted model a.activePolicy) = true

instance (a : RecordDecision) (model : ApprovalRequestModel) : Decidable (Refuses a model) :=
  inferInstanceAs (Decidable (_ ∨ _))

/-- The change of one row to a new status. -/
def statusChange (t t' : Tables) (model : ApprovalRequestModel) (status : ApprovalStatus)
    (resolvedAt : Option Datetime) : Change Standing :=
  ⟨some (t.standing model), t'.standing { model with status, resolvedAt }⟩

/-- What an operation may make of the tables, with the changes of requests. -/
inductive Moved (d : Draws) (t : Tables) : Operation → Tables → List (Change Standing) → Prop
  | created {a : CreateRequest} {r : ApprovalRequestModel} (hfresh : t.hasId r.requestId = false)
      (hpending : r.status = .pending) :
      Moved d t (.createRequest a) (t.insert r) [⟨none, (t.insert r).standing r⟩]
  | noted {a : RecordDecision} {model : ApprovalRequestModel} (hmay : MayDecide t a model)
      (hrefuses : Refuses a model) : Moved d t (.recordDecision a) (t.decide (a.record d)) []
  | decided {a : RecordDecision} {model : ApprovalRequestModel} {resolvedAt : Option Datetime}
      {t' : Tables} (hmay : MayDecide t a model) (hrefuses : ¬Refuses a model)
      (hflush : d.flushRefused = false)
      (ht' : t' = (t.decide (a.record d)).setStatus (·.requestId = model.requestId)
        (resolveNewStatus a.decision) resolvedAt) :
      Moved d t (.recordDecision a) t'
        [statusChange t t' model (resolveNewStatus a.decision) resolvedAt]
  | autoApproved {requestId : UUID} {model : ApprovalRequestModel} {t' : Tables}
      (hfound : t.load requestId = some model) (hflush : d.flushRefused = false)
      (ht' : t' = t.setStatus (·.requestId = model.requestId) .autoApproved (some d.now)) :
      Moved d t (.recordAutoApproval requestId) t'
        [statusChange t t' model .autoApproved (some d.now)]
  | cancelled {requestId : UUID} {model : ApprovalRequestModel} {t' : Tables}
      (hfound : t.load requestId = some model)
      (hallowed : .cancelled ∈ approvalTransitions model.status)
      (ht' : t' = t.setStatus (·.requestId = model.requestId) .cancelled (some d.now)) :
      Moved d t (.cancelRequest requestId) t' [statusChange t t' model .cancelled (some d.now)]
  | expired {asOf : Datetime} {timeoutHours cutoff : ℤ} {resolvedAt : Option Datetime}
      {t' : Tables} (ht' : t' = t.setStatus (stale cutoff) .expired resolvedAt) :
      Moved d t (.expireStaleRequests asOf timeoutHours) t'
        ((t.requests.filter (stale cutoff)).map fun r => statusChange t t' r .expired resolvedAt)

/-- An operation leaves the session alone, rolls it back, or moves the tables. -/
inductive Performed (d : Draws) (s : Session Log) (op : Operation) : Session Log → Prop
  | unchanged : Performed d s op s
  | rolledBack : Performed d s op s.rollback
  | moved {t : Tables} {cs : List (Change Standing)} (h : Moved d s.current.tables op t cs) :
      Performed d s op (s.flush (s.current.become t cs))

section Cases

variable {sha256 : String → String} {d : Draws} {s : Session Log}

theorem isOpen_of_terminal {status : ApprovalStatus} (h : ¬terminal status = true) :
    status.isOpen = true := by
  rw [isOpen_iff_not_terminal]
  simpa [terminal] using h

theorem performed_createRequest (a : CreateRequest) :
    Performed d s (.createRequest a) (createRequest sha256 a d s).2 := by
  unfold createRequest
  dsimp only
  split
  · exact .unchanged
  · split
    · exact .unchanged
    · exact .unchanged
    · split
      · exact .unchanged
      · split
        · exact .rolledBack
        · rename_i hrefused
          rw [Bool.or_eq_true, not_or, Bool.not_eq_true, Bool.not_eq_true] at hrefused
          exact .moved (.created hrefused.2 rfl)

theorem performed_recordDecision (a : RecordDecision) :
    Performed d s (.recordDecision a) (recordDecision a d s).2 := by
  unfold recordDecision
  split
  · exact .unchanged
  · rename_i model hfound
    split
    · exact .unchanged
    · rename_i hopen
      split
      · exact .unchanged
      · rename_i hundecided
        have hmay : MayDecide s.current.tables a model :=
          ⟨hfound, isOpen_of_terminal hopen, by simpa using hundecided⟩
        dsimp only
        split
        · rename_i hinvalid
          exact .moved (.noted hmay (Or.inl hinvalid))
        · rename_i hvalid
          split
          · rename_i hdrift
            exact .moved (.noted hmay (Or.inr hdrift))
          · rename_i hdrift
            split
            · exact .rolledBack
            · rename_i hflush
              exact .moved (.decided hmay (not_or.mpr ⟨hvalid, hdrift⟩) (by simpa using hflush) rfl)

theorem performed_recordAutoApproval (requestId : UUID) :
    Performed d s (.recordAutoApproval requestId) (recordAutoApproval requestId d s).2 := by
  unfold recordAutoApproval
  split
  · exact .unchanged
  · rename_i model hfound
    split
    · exact .rolledBack
    · rename_i hflush
      exact .moved (.autoApproved hfound (by simpa using hflush) rfl)

theorem performed_cancelRequest (requestId : UUID) :
    Performed d s (.cancelRequest requestId) (cancelRequest requestId d s).2 := by
  unfold cancelRequest
  split
  · exact .unchanged
  · rename_i model hfound
    split
    · exact .unchanged
    · split
      · exact .unchanged
      · rename_i hallowed
        split
        · exact .rolledBack
        · exact .moved (.cancelled hfound (not_not.mp hallowed) rfl)

theorem performed_expireStaleRequests (asOf : Datetime) (timeoutHours : ℤ) :
    Performed d s (.expireStaleRequests asOf timeoutHours)
      (expireStaleRequests asOf timeoutHours d s).2 := by
  unfold expireStaleRequests
  dsimp only
  split
  · exact .unchanged
  · split
    · exact .rolledBack
    · exact .moved (.expired rfl)

/-- **What each operation does.** -/
theorem perform_cases (op : Operation) : Performed d s op (op.perform sha256 d s) := by
  cases op with
  | createRequest a => exact performed_createRequest a
  | recordDecision a => exact performed_recordDecision a
  | recordAutoApproval requestId => exact performed_recordAutoApproval requestId
  | cancelRequest requestId => exact performed_cancelRequest requestId
  | expireStaleRequests asOf timeoutHours => exact performed_expireStaleRequests asOf timeoutHours

end Cases

end FinanceAccounting.Approval
