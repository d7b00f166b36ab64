import FinanceAccounting.Kernel.ModulePosting

/-! # Recording and retrying interpretation outcomes

`OutcomeRecorder` with its `record_*` and `transition_*` operations, and `RetryService` over it,
on the rows of `interpretation_outcomes`.  An operation reads the row of its event, raises, or
returns the row it flushes.  `apply_cases` is the spec of all of them: a row is created for an
event that has none, or moved to a status that `validTransitions` allows. -/

namespace FinanceAccounting.OutcomeLifecycle

open ModulePosting (OutcomeStatus)
open Hashing (PyVal)

/-! ### Outcomes -/

def statusStr : OutcomeStatus → String
  | .posted => "posted"
  | .blocked => "blocked"
  | .rejected => "rejected"
  | .provisional => "provisional"
  | .nonPosting => "non_posting"
  | .failed => "failed"
  | .retrying => "retrying"
  | .abandoned => "abandoned"

/-- `VALID_TRANSITIONS`. -/
def validTransitions : OutcomeStatus → List OutcomeStatus
  | .blocked => [.posted, .rejected, .failed]
  | .provisional => [.posted, .rejected]
  | .failed => [.retrying, .abandoned]
  | .retrying => [.posted, .failed]
  | .posted | .rejected | .nonPosting | .abandoned => []

inductive FailureType where
  | guard
  | engine
  | reconciliation
  | snapshot
  | authority
  | contract
  | system

/-- `failure_type.value`, or the text itself. -/
def ftValue : FailureType ⊕ String → String
  | .inl .guard => "guard"
  | .inl .engine => "engine"
  | .inl .reconciliation => "reconciliation"
  | .inl .snapshot => "snapshot"
  | .inl .authority => "authority"
  | .inl .contract => "contract"
  | .inl .system => "system"
  | .inr text => text

abbrev Detail := List (String × PyVal)

/-- A row of `interpretation_outcomes`. -/
structure InterpretationOutcome where
  sourceEventId : UUID
  status : OutcomeStatus
  econEventId : Option UUID := none
  /-- The texts of the entry identifiers. -/
  journalEntryIds : Option (List String) := none
  reasonCode : Option String := none
  reasonDetail : Option Detail := none
  profileId : String
  profileVersion : ℤ
  profileHash : Option String := none
  traceId : Option UUID := none
  decisionLog : Option (List Detail) := none
  failureType : Option String := none
  failureMessage : Option String := none
  engineTracesRef : Option UUID := none
  payloadFingerprint : Option String := none
  actorId : Option UUID := none
  retryCount : ℕ := 0
  createdAt : Datetime
  updatedAt : Option Datetime := none

namespace InterpretationOutcome

def isTerminal (o : InterpretationOutcome) : Bool :=
  o.status = .posted || o.status = .rejected || o.status = .nonPosting || o.status = .abandoned

/-- No failure and no reason is left on the row. -/
structure Cleared (o : InterpretationOutcome) : Prop where
  failureType : o.failureType = none
  failureMessage : o.failureMessage = none
  reasonCode : o.reasonCode = none
  reasonDetail : o.reasonDetail = none

/-- The row names at least one journal entry. -/
def NamesEntries (o : InterpretationOutcome) : Prop := ∃ ids, o.journalEntryIds = some ids ∧ ids ≠ []

end InterpretationOutcome

theorem not_isTerminal_of_mem {o : InterpretationOutcome} {status : OutcomeStatus}
    (h : status ∈ validTransitions o.status) : o.isTerminal = false := by
  cases hs : o.status <;> simp [hs, validTransitions, InterpretationOutcome.isTerminal] at h ⊢

theorem failed_of_retrying_mem {status : OutcomeStatus}
    (h : OutcomeStatus.retrying ∈ validTransitions status) : status = .failed := by
  cases status <;> simp [validTransitions] at h ⊢

inductive OutcomeError where
  | outcomeAlreadyExists (eventId : UUID) (existingStatus : OutcomeStatus)
  | invalidOutcomeTransition (eventId : UUID) (fromStatus toStatus : OutcomeStatus)
  | retryNotAllowed (sourceEventId : UUID) (reason : String)
  | valueError (message : String)
  | assertionError (message : String)

/-! ### `OutcomeRecorder`

The operations get the time of the clock, the event, and the row that `get_outcome` finds. -/

/-- What every `record_*` method is told about the interpretation. -/
structure Interpretation where
  profileId : String
  profileVersion : ℤ
  profileHash : Option String := none
  traceId : Option UUID := none
  decisionLog : Option (List Detail) := none

/-- The fields all new outcomes share. -/
def Interpretation.outcome (i : Interpretation) (now : Datetime) (sourceEventId : UUID)
    (status : OutcomeStatus) : InterpretationOutcome where
  sourceEventId := sourceEventId
  status := status
  profileId := i.profileId
  profileVersion := i.profileVersion
  profileHash := i.profileHash
  traceId := i.traceId
  decisionLog := i.decisionLog
  createdAt := now

section Recorder

variable (now : Datetime) (sourceEventId : UUID) (existing : Option InterpretationOutcome)

/-- P15. -/
def checkNotExists : Except OutcomeError Unit :=
  match existing with
  | some o => .error (.outcomeAlreadyExists sourceEventId o.status)
  | none => .ok ()

def recordPosted (i : Interpretation) (econEventId : UUID) (journalEntryIds : List UUID) :
    Except OutcomeError InterpretationOutcome :=
  (checkNotExists sourceEventId existing).bind fun _ =>
    if journalEntryIds = [] then
      .error (.assertionError
        "L5 violation: POSTED outcome must reference at least one journal entry")
    else
      .ok { i.outcome now sourceEventId .posted with
        econEventId := some econEventId
        journalEntryIds := some (journalEntryIds.map UUID.str) }

/-- A new outcome with a reason. -/
def recordReason (status : OutcomeStatus) (i : Interpretation) (econEventId : Option UUID)
    (reasonCode : Option String) (reasonDetail : Option Detail) :
    Except OutcomeError InterpretationOutcome :=
  (checkNotExists sourceEventId existing).map fun _ =>
    { i.outcome now sourceEventId status with econEventId, reasonCode, reasonDetail }

def recordRejected (i : Interpretation) (reasonCode : String) (reasonDetail : Option Detail) :=
  recordReason now sourceEventId existing .rejected i none (some reasonCode) reasonDetail

def recordBlocked (i : Interpretation) (reasonCode : String) (reasonDetail : Option Detail) :=
  recordReason now sourceEventId existing .blocked i none (some reasonCode) reasonDetail

def recordProvisional (i : Interpretation) (econEventId : Option UUID) (reasonCode : Option String)
    (reasonDetail : Option Detail) :=
  recordReason now sourceEventId existing .provisional i econEventId reasonCode reasonDetail

def recordNonPosting (i : Interpretation) (reasonCode : Option String)
    (reasonDetail : Option Detail) :=
  recordReason now sourceEventId existing .nonPosting i none reasonCode reasonDetail

/-- What a failure leaves for the work queue. -/
structure FailureContext where
  failureType : FailureType ⊕ String
  failureMessage : String
  reasonCode : Option String := none
  reasonDetail : Option Detail := none
  engineTracesRef : Option UUID := none

def recordFailed (i : Interpretation) (f : FailureContext) (payloadFingerprint : Option String)
    (actorId : Option UUID) : Except OutcomeError InterpretationOutcome :=
  (checkNotExists sourceEventId existing).map fun _ =>
    { i.outcome now sourceEventId .failed with
      reasonCode := f.reasonCode
      reasonDetail := f.reasonDetail
      failureType := some (ftValue f.failureType)
      failureMessage := some f.failureMessage
      engineTracesRef := f.engineTracesRef
      payloadFingerprint := payloadFingerprint
      actorId := actorId
      retryCount := 0 }

def validateAndTransition (targetStatus : OutcomeStatus) :
    Except OutcomeError InterpretationOutcome :=
  match existing with
  | none => .error (.valueError ("No outcome found for event " ++ sourceEventId.str))
  | some o =>
      if targetStatus ∈ validTransitions o.status then .ok o
      else .error (.invalidOutcomeTransition sourceEventId o.status targetStatus)

/-- The entries are not checked here, and failure and reason stay as they are. -/
def transitionToPosted (econEventId : UUID) (journalEntryIds : List UUID) :
    Except OutcomeError InterpretationOutcome :=
  (validateAndTransition sourceEventId existing .posted).map fun o =>
    { o with
      status := .posted
      econEventId := some econEventId
      journalEntryIds := some (journalEntryIds.map UUID.str)
      updatedAt := some now }

def transitionToRejected (reasonCode : String) (reasonDetail : Option Detail) :
    Except OutcomeError InterpretationOutcome :=
  (validateAndTransition sourceEventId existing .rejected).map fun o =>
    { o with
      status := .rejected
      reasonCode := some reasonCode
      reasonDetail := reasonDetail
      updatedAt := some now }

def transitionToFailed (f : FailureContext) : Except OutcomeError InterpretationOutcome :=
  (validateAndTransition sourceEventId existing .failed).map fun o =>
    { o with
      status := .failed
      failureType := some (ftValue f.failureType)
      failureMessage := some f.failureMessage
      reasonCode := f.reasonCode
      reasonDetail := f.reasonDetail
      engineTracesRef := f.engineTracesRef
      updatedAt := some now }

def transitionToRetrying : Except OutcomeError InterpretationOutcome :=
  (validateAndTransition sourceEventId existing .retrying).map fun o =>
    { o with
      status := .retrying
      retryCount := o.retryCount + 1
      updatedAt := some now }

/-- Empty reasons leave the old ones. -/
def transitionToAbandoned (reasonCode : Option String) (reasonDetail : Option Detail) :
    Except OutcomeError InterpretationOutcome :=
  (validateAndTransition sourceEventId existing .abandoned).map fun o =>
    { o with
      status := .abandoned
      reasonCode := (reasonCode.filter (· ≠ "")).or o.reasonCode
      reasonDetail := (reasonDetail.filter (!·.isEmpty)).or o.reasonDetail
      updatedAt := some now }

/-! ### `RetryService` -/

def maxRetries : ℕ := 10

def initiateRetry : Except OutcomeError InterpretationOutcome :=
  match existing with
  | none => .error (.retryNotAllowed sourceEventId "No outcome found for this event")
  | some o =>
      if o.status ≠ .failed then
        .error (.retryNotAllowed sourceEventId
          ("Outcome status is " ++ statusStr o.status ++ ", not 'failed'"))
      else if maxRetries ≤ o.retryCount then
        .error (.retryNotAllowed sourceEventId
          ("Maximum retry count (" ++ toString maxRetries ++ ") exceeded"))
      else transitionToRetrying now sourceEventId existing

def completeRetrySuccess (econEventId : UUID) (journalEntryIds : List UUID)
    (engineTracesRef : Option UUID) : Except OutcomeError InterpretationOutcome :=
  (transitionToPosted now sourceEventId existing econEventId journalEntryIds).map fun o =>
    { o with engineTracesRef := engineTracesRef.or o.engineTracesRef }

def completeRetryFailure (f : FailureContext) : Except OutcomeError InterpretationOutcome :=
  transitionToFailed now sourceEventId existing f

def abandon (reasonCode : Option String) (reasonDetail : Option Detail) :
    Except OutcomeError InterpretationOutcome :=
  transitionToAbandoned now sourceEventId existing reasonCode reasonDetail

/-! ### Operations -/

inductive Operation where
  | recordPosted (i : Interpretation) (econEventId : UUID) (journalEntryIds : List UUID)
  | recordRejected (i : Interpretation) (reasonCode : String) (reasonDetail : Option Detail)
  | recordBlocked (i : Interpretation) (reasonCode : String) (reasonDetail : Option Detail)
  | recordProvisional (i : Interpretation) (econEventId : Option UUID)
      (reasonCode : Option String) (reasonDetail : Option Detail)
  | recordNonPosting (i : Interpretation) (reasonCode : Option String)
      (reasonDetail : Option Detail)
  | recordFailed (i : Interpretation) (f : FailureContext) (payloadFingerprint : Option String)
      (actorId : Option UUID)
  | transitionToPosted (econEventId : UUID) (journalEntryIds : List UUID)
  | transitionToRejected (reasonCode : String) (reasonDetail : Option Detail)
  | transitionToFailed (f : FailureContext)
  | transitionToRetrying
  | transitionToAbandoned (reasonCode : Option String) (reasonDetail : Option Detail)
  | initiateRetry
  | completeRetrySuccess (econEventId : UUID) (journalEntryIds : List UUID)
      (engineTracesRef : Option UUID)
  | completeRetryFailure (f : FailureContext)
  | abandon (reasonCode : Option String) (reasonDetail : Option Detail)

/-- The row an operation flushes, or what it raises. -/
def Operation.apply : Operation → Except OutcomeError InterpretationOutcome
  | .recordPosted i econ ids => OutcomeLifecycle.recordPosted now sourceEventId existing i econ ids
  | .recordRejected i code detail =>
      OutcomeLifecycle.recordRejected now sourceEventId existing i code detail
  | .recordBlocked i code detail =>
      OutcomeLifecycle.recordBlocked now sourceEventId existing i code detail
  | .recordProvisional i econ code detail =>
      OutcomeLifecycle.recordProvisional now sourceEventId existing i econ code detail
  | .recordNonPosting i code detail =>
      OutcomeLifecycle.recordNonPosting now sourceEventId existing i code detail
  | .recordFailed i f fingerprint actor =>
      OutcomeLifecycle.recordFailed now sourceEventId existing i f fingerprint actor
  | .transitionToPosted econ ids =>
      OutcomeLifecycle.transitionToPosted now sourceEventId existing econ ids
  | .transitionToRejected code detail =>
      OutcomeLifecycle.transitionToRejected now sourceEventId existing code detail
  | .transitionToFailed f => OutcomeLifecycle.transitionToFailed now sourceEventId existing f
  | .transitionToRetrying => OutcomeLifecycle.transitionToRetrying now sourceEventId existing
  | .transitionToAbandoned code detail =>
      OutcomeLifecycle.transitionToAbandoned now sourceEventId existing code detail
  | .initiateRetry => OutcomeLifecycle.initiateRetry now sourceEventId existing
  | .completeRetrySuccess econ ids traces =>
      OutcomeLifecycle.completeRetrySuccess now sourceEventId existing econ ids traces
  | .completeRetryFailure f => OutcomeLifecycle.completeRetryFailure now sourceEventId existing f
  | .abandon code detail => OutcomeLifecycle.abandon now sourceEventId existing code detail

/-! ### What an operation does to the row -/

variable {now sourceEventId existing}

theorem validateAndTransition_eq_ok {status : OutcomeStatus} {o : InterpretationOutcome} :
    validateAndTransition sourceEventId existing status = .ok o ↔
      existing = some o ∧ status ∈ validTransitions o.status := by
  unfold validateAndTransition
  cases existing with
  | none => simp
  | some o' =>
      by_cases h : status ∈ validTransitions o'.status
      · simp only [if_pos h, Except.ok.injEq, Option.some.injEq]
        exact ⟨fun heq => ⟨heq, heq ▸ h⟩, fun heq => heq.1⟩
      · simp only [if_neg h, Option.some.injEq]
        exact ⟨(fun heq => by cases heq), fun heq => absurd (heq.1 ▸ heq.2) h⟩

theorem transition_eq_ok {status : OutcomeStatus} {f : InterpretationOutcome → InterpretationOutcome}
    {o' : InterpretationOutcome}
    (h : (validateAndTransition sourceEventId existing status).map f = .ok o') :
    ∃ o, existing = some o ∧ status ∈ validTransitions o.status ∧ o' = f o := by
  cases hv : validateAndTransition sourceEventId existing status with
  | error e =>
      rw [hv] at h
      cases h
  | ok o =>
      rw [hv] at h
      cases h
      obtain ⟨hex, hmem⟩ := validateAndTransition_eq_ok.mp hv
      exact ⟨o, hex, hmem, rfl⟩

/-- A new row of an event without one. -/
structure Created (sourceEventId : UUID) (o' : InterpretationOutcome) : Prop where
  sourceEventId_eq : o'.sourceEventId = sourceEventId
  retryCount_eq : o'.retryCount = 0
  not_retrying : o'.status ≠ .retrying
  posted : o'.status = .posted → o'.NamesEntries ∧ o'.Cleared

theorem created_recordReason {status : OutcomeStatus} {i : Interpretation}
    {econEventId : Option UUID} {reasonCode : Option String} {reasonDetail : Option Detail}
    {o' : InterpretationOutcome} (hretry : status ≠ .retrying) (hposted : status ≠ .posted)
    (h : recordReason now sourceEventId existing status i econEventId reasonCode reasonDetail =
      .ok o') : existing = none ∧ Created sourceEventId o' := by
  unfold recordReason at h
  cases existing with
  | some o => cases h
  | none =>
      cases h
      exact ⟨rfl, rfl, rfl, hretry, fun hp => absurd hp hposted⟩

theorem created_recordPosted {i : Interpretation} {econEventId : UUID} {journalEntryIds : List UUID}
    {o' : InterpretationOutcome}
    (h : recordPosted now sourceEventId existing i econEventId journalEntryIds = .ok o') :
    existing = none ∧ Created sourceEventId o' := by
  unfold recordPosted at h
  cases existing with
  | some o => cases h
  | none =>
      simp only [checkNotExists, Except.bind] at h
      split at h
      · cases h
      · rename_i hids
        cases h
        exact ⟨rfl, rfl, rfl, (fun hr => by cases hr),
          fun _ => ⟨⟨_, rfl, by simpa using hids⟩, rfl, rfl, rfl, rfl⟩⟩

theorem created_recordFailed {i : Interpretation} {f : FailureContext} {fingerprint : Option String}
    {actor : Option UUID} {o' : InterpretationOutcome}
    (h : recordFailed now sourceEventId existing i f fingerprint actor = .ok o') :
    existing = none ∧ Created sourceEventId o' := by
  unfold recordFailed at h
  cases existing with
  | some o => cases h
  | none =>
      cases h
      exact ⟨rfl, rfl, rfl, (fun hr => by cases hr), (fun hp => by cases hp)⟩

/-- The entries of an operation that moves an outcome to POSTED. -/
def Operation.postedIds : Operation → Option (List UUID)
  | .transitionToPosted _ ids | .completeRetrySuccess _ ids _ => some ids
  | _ => none

/-- How an operation changes an existing row. -/
structure Moved (op : Operation) (o o' : InterpretationOutcome) : Prop where
  allowed : o'.status ∈ validTransitions o.status
  sourceEventId_eq : o'.sourceEventId = o.sourceEventId
  retryCount_eq : o'.retryCount = o.retryCount + if o'.status = .retrying then 1 else 0
  /-- The failure and the reason of a row that becomes POSTED stay. -/
  posted : o'.status = .posted → ∃ ids, op.postedIds = some ids ∧
    (o'.NamesEntries ↔ ids ≠ []) ∧ (o'.Cleared ↔ o.Cleared)
  /-- Only the retry service looks at the limit. -/
  retrying : o'.status = .retrying → op ≠ .transitionToRetrying → o.retryCount < maxRetries

theorem moved_transitionToPosted (op : Operation) {econEventId : UUID} {journalEntryIds : List UUID}
    {o' : InterpretationOutcome} (hop : op.postedIds = some journalEntryIds)
    (h : transitionToPosted now sourceEventId existing econEventId journalEntryIds = .ok o') :
    ∃ o, existing = some o ∧ Moved op o o' := by
  obtain ⟨o, hex, hmem, rfl⟩ := transition_eq_ok h
  refine ⟨o, hex, hmem, rfl, rfl, fun _ => ⟨journalEntryIds, hop, ?_, ?_⟩, (fun hr => by cases hr)⟩
  · simp [InterpretationOutcome.NamesEntries]
  · exact ⟨fun hc => ⟨hc.1, hc.2, hc.3, hc.4⟩, fun hc => ⟨hc.1, hc.2, hc.3, hc.4⟩⟩

theorem moved_transitionToRejected {op : Operation} {reasonCode : String}
    {reasonDetail : Option Detail} {o' : InterpretationOutcome}
    (h : transitionToRejected now sourceEventId existing reasonCode reasonDetail = .ok o') :
    ∃ o, existing = some o ∧ Moved op o o' := by
  obtain ⟨o, hex, hmem, rfl⟩ := transition_eq_ok h
  exact ⟨o, hex, hmem, rfl, rfl, (fun hp => by cases hp), (fun hr => by cases hr)⟩

theorem moved_transitionToFailed {op : Operation} {f : FailureContext} {o' : InterpretationOutcome}
    (h : transitionToFailed now sourceEventId existing f = .ok o') :
    ∃ o, existing = some o ∧ Moved op o o' := by
  obtain ⟨o, hex, hmem, rfl⟩ := transition_eq_ok h
  exact ⟨o, hex, hmem, rfl, rfl, (fun hp => by cases hp), (fun hr => by cases hr)⟩

theorem moved_transitionToAbandoned {op : Operation} {reasonCode : Option String}
    {reasonDetail : Option Detail} {o' : InterpretationOutcome}
    (h : transitionToAbandoned now sourceEventId existing reasonCode reasonDetail = .ok o') :
    ∃ o, existing = some o ∧ Moved op o o' := by
  obtain ⟨o, hex, hmem, rfl⟩ := transition_eq_ok h
  exact ⟨o, hex, hmem, rfl, rfl, (fun hp => by cases hp), (fun hr => by cases hr)⟩

theorem moved_transitionToRetrying {op : Operation} {o' : InterpretationOutcome}
    (hlimit : op ≠ .transitionToRetrying → ∀ o, existing = some o → o.retryCount < maxRetries)
    (h : transitionToRetrying now sourceEventId existing = .ok o') :
    ∃ o, existing = some o ∧ Moved op o o' := by
  obtain ⟨o, hex, hmem, rfl⟩ := transition_eq_ok h
  exact ⟨o, hex, hmem, rfl, rfl, (fun hp => by cases hp), fun _ hop => hlimit hop o hex⟩

theorem moved_initiateRetry {op : Operation} {o' : InterpretationOutcome}
    (h : initiateRetry now sourceEventId existing = .ok o') :
    ∃ o, existing = some o ∧ Moved op o o' := by
  unfold initiateRetry at h
  cases hex : existing with
  | none =>
      rw [hex] at h
      cases h
  | some o =>
      simp only [hex] at h
      split at h
      · cases h
      · split at h
        · cases h
        · rename_i hlimit
          rw [← hex]
          refine moved_transitionToRetrying (fun _ o₁ ho₁ => ?_) (hex ▸ h)
          obtain rfl := Option.some.inj (hex.symm.trans ho₁)
          exact Nat.lt_of_not_le hlimit

theorem moved_completeRetrySuccess {econEventId : UUID} {journalEntryIds : List UUID}
    {engineTracesRef : Option UUID} {o' : InterpretationOutcome}
    (h : completeRetrySuccess now sourceEventId existing econEventId journalEntryIds
      engineTracesRef = .ok o') :
    ∃ o, existing = some o ∧
      Moved (.completeRetrySuccess econEventId journalEntryIds engineTracesRef) o o' := by
  unfold completeRetrySuccess at h
  cases hp : transitionToPosted now sourceEventId existing econEventId journalEntryIds with
  | error e =>
      rw [hp] at h
      cases h
  | ok o₁ =>
      rw [hp] at h
      cases h
      obtain ⟨o, hex, hallowed, hid, hcount, hposted, hretrying⟩ := moved_transitionToPosted
        (.completeRetrySuccess econEventId journalEntryIds engineTracesRef) rfl hp
      refine ⟨o, hex, hallowed, hid, hcount, fun hs => ?_, hretrying⟩
      obtain ⟨ids, hids, hnames, hcleared⟩ := hposted hs
      exact ⟨ids, hids, hnames,
        (Iff.intro (fun hc => ⟨hc.1, hc.2, hc.3, hc.4⟩) fun hc => ⟨hc.1, hc.2, hc.3, hc.4⟩).trans
          hcleared⟩

/-- **Spec of the operations**: one that returns has created the row or moved it. -/
theorem apply_cases {op : Operation} {o' : InterpretationOutcome}
    (h : op.apply now sourceEventId existing = .ok o') :
    (existing = none ∧ Created sourceEventId o') ∨ ∃ o, existing = some o ∧ Moved op o o' := by
  cases op with
  | recordPosted => exact Or.inl (created_recordPosted h)
  | recordRejected => exact Or.inl (created_recordReason (by decide) (by decide) h)
  | recordBlocked => exact Or.inl (created_recordReason (by decide) (by decide) h)
  | recordProvisional => exact Or.inl (created_recordReason (by decide) (by decide) h)
  | recordNonPosting => exact Or.inl (created_recordReason (by decide) (by decide) h)
  | recordFailed => exact Or.inl (created_recordFailed h)
  | transitionToPosted => exact Or.inr (moved_transitionToPosted _ rfl h)
  | transitionToRejected => exact Or.inr (moved_transitionToRejected h)
  | transitionToFailed => exact Or.inr (moved_transitionToFailed h)
  | transitionToRetrying =>
      exact Or.inr (moved_transitionToRetrying (fun hne => absurd rfl hne) h)
  | transitionToAbandoned => exact Or.inr (moved_transitionToAbandoned h)
  | initiateRetry => exact Or.inr (moved_initiateRetry h)
  | completeRetrySuccess => exact Or.inr (moved_completeRetrySuccess h)
  | completeRetryFailure => exact Or.inr (moved_transitionToFailed h)
  | abandon => exact Or.inr (moved_transitionToAbandoned h)

end Recorder

end FinanceAccounting.OutcomeLifecycle
