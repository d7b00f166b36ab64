import FinanceAccounting.Kernel.OutcomeLifecycle

/-! # The constraints of interpretation outcomes

The CHECK constraints of `13_outcome_exception_lifecycle.sql` against what the recorder and the
retry service flush.  `constraints_kept_iff` says of every run when all its rows pass them, and that
no row ever changes the event, the policy, the payload or the actor that it was created for. -/

namespace FinanceAccounting.OutcomeConstraints

open OutcomeLifecycle
open ModulePosting (OutcomeStatus)
open TransitionSystem (Along Throughout)
open UnitOfWork (Session Logged Change)

/-! ### The constraints -/

/-- The values that `chk_failure_type` knows. -/
def failureTypes : List String :=
  ["guard", "engine", "reconciliation", "snapshot", "authority", "contract", "system"]

def chkFailureType (o : InterpretationOutcome) : Bool := o.failureType.all (· ∈ failureTypes)

def chkOutcomeStatus (o : InterpretationOutcome) : Bool :=
  statusStr o.status ∈ ["posted", "blocked", "rejected", "provisional", "non_posting", "failed",
    "retrying", "abandoned"]

def chkRetryCountNonNegative (o : InterpretationOutcome) : Bool := 0 ≤ o.retryCount

def needsFailureType (o : InterpretationOutcome) : Bool :=
  statusStr o.status ∈ ["failed", "retrying", "abandoned"]

def chkFailureTypeRequired (o : InterpretationOutcome) : Bool :=
  !needsFailureType o || o.failureType.isSome

/-- The database takes the row. -/
def admitted (o : InterpretationOutcome) : Bool :=
  chkFailureType o && chkOutcomeStatus o && chkRetryCountNonNegative o && chkFailureTypeRequired o

theorem admitted_iff {o : InterpretationOutcome} : admitted o = true ↔
    (∀ t ∈ o.failureType, t ∈ failureTypes) ∧
      (needsFailureType o = true → o.failureType.isSome = true) := by
  have hstatus : chkOutcomeStatus o = true := by
    unfold chkOutcomeStatus
    cases o.status <;> decide
  simp only [admitted, hstatus, chkRetryCountNonNegative, chkFailureType, chkFailureTypeRequired,
    zero_le, decide_true, Bool.and_true, Bool.and_eq_true, Bool.or_eq_true, Bool.not_eq_true']
  refine and_congr ?_ ?_
  · cases o.failureType <;> simp
  · cases needsFailureType o <;> simp

/-! ### What an operation writes -/

/-- The failure that an operation is given. -/
def failureOf : Operation → Option FailureContext
  | .recordFailed _ f _ _ | .transitionToFailed f | .completeRetryFailure f => some f
  | _ => none

/-- What a row was created for is the same. -/
structure SameOrigin (o o' : InterpretationOutcome) : Prop where
  sourceEventId : o'.sourceEventId = o.sourceEventId
  profileId : o'.profileId = o.profileId
  profileVersion : o'.profileVersion = o.profileVersion
  profileHash : o'.profileHash = o.profileHash
  payloadFingerprint : o'.payloadFingerprint = o.payloadFingerprint
  actorId : o'.actorId = o.actorId
  createdAt : o'.createdAt = o.createdAt

/-- A row with the failure that the operation is given, or with that of the row before; only from a
status that needs a failure it comes to one that does. -/
structure Writes (op : Operation) (existing : Option InterpretationOutcome)
    (o' : InterpretationOutcome) : Prop where
  origin : ∀ o, existing = some o → SameOrigin o o'
  failure : ∀ f, failureOf op = some f → o'.failureType = some (ftValue f.failureType)
  kept : failureOf op = none → ∀ t, o'.failureType = some t →
    ∃ o, existing = some o ∧ o.failureType = some t
  needed : failureOf op = none → needsFailureType o' = true →
    ∃ o, existing = some o ∧ needsFailureType o = true ∧ o'.failureType = o.failureType

section Operations

variable {now : Datetime} {eventId : UUID} {existing : Option InterpretationOutcome}
  {op : Operation} {o' : InterpretationOutcome}

/-- An operation that is given a failure stores its type. -/
theorem Writes.of_failure {f : FailureContext} (hop : failureOf op = some f)
    (horigin : ∀ o, existing = some o → SameOrigin o o')
    (htype : o'.failureType = some (ftValue f.failureType)) : Writes op existing o' := by
  refine ⟨horigin, fun f' hf => ?_, fun hnone => ?_, fun hnone => ?_⟩
  · rwa [← Option.some.inj (hop.symm.trans hf)]
  all_goals cases hop.symm.trans hnone

/-- A row that is created without a failure needs none. -/
theorem Writes.of_created (hop : failureOf op = none) (htype : o'.failureType = none)
    (hstatus : needsFailureType o' = false) : Writes op none o' := by
  refine ⟨(fun o ho => by cases ho), fun f hf => ?_, fun _ t ht => ?_, fun _ hneeds => ?_⟩
  · cases hop.symm.trans hf
  · cases htype.symm.trans ht
  · cases hstatus.symm.trans hneeds

theorem writes_recordReason {status : OutcomeStatus} {i : Interpretation}
    {econEventId : Option UUID} {reasonCode : Option String} {reasonDetail : Option Detail}
    (hop : failureOf op = none) (hstatus : statusStr status ∉ ["failed", "retrying", "abandoned"])
    (h : recordReason now eventId existing status i econEventId reasonCode reasonDetail = .ok o') :
    Writes op existing o' := by
  unfold recordReason at h
  cases existing with
  | some o => cases h
  | none =>
      cases h
      exact .of_created hop rfl (decide_eq_false hstatus)

/-- A transition of an operation without a failure. -/
theorem writes_transition {status : OutcomeStatus} {g : InterpretationOutcome → InterpretationOutcome}
    (hop : failureOf op = none)
    (h : (validateAndTransition eventId existing status).map g = .ok o')
    (hg : ∀ o, SameOrigin o (g o) ∧ (g o).failureType = o.failureType ∧ (g o).status = status)
    (hstatus : statusStr status ∈ ["failed", "retrying", "abandoned"] →
      ∀ s, status ∈ validTransitions s → s = .failed) : Writes op existing o' := by
  obtain ⟨o, rfl, hmem, rfl⟩ := transition_eq_ok h
  obtain ⟨horigin, htype, hs⟩ := hg o
  refine ⟨fun o₁ ho₁ => ?_, fun f hf => ?_, fun _ t ht => ⟨o, rfl, htype ▸ ht⟩,
    fun _ hneeds => ⟨o, rfl, ?_, htype⟩⟩
  · obtain rfl := Option.some.inj ho₁
    exact horigin
  · cases hop.symm.trans hf
  · rw [needsFailureType, hs] at hneeds
    rw [needsFailureType, hstatus (of_decide_eq_true hneeds) _ hmem]
    decide

theorem writes_transitionToFailed {f : FailureContext} (hop : failureOf op = some f)
    (h : transitionToFailed now eventId existing f = .ok o') : Writes op existing o' := by
  obtain ⟨o, rfl, -, rfl⟩ := transition_eq_ok h
  refine .of_failure hop (fun o₁ ho₁ => ?_) rfl
  obtain rfl := Option.some.inj ho₁
  exact ⟨rfl, rfl, rfl, rfl, rfl, rfl, rfl⟩

theorem writes_recordFailed {i : Interpretation} {f : FailureContext} {fingerprint : Option String}
    {actor : Option UUID} (hop : failureOf op = some f)
    (h : recordFailed now eventId existing i f fingerprint actor = .ok o') :
    Writes op existing o' := by
  unfold recordFailed at h
  cases existing with
  | some o => cases h
  | none =>
      cases h
      exact .of_failure hop (fun o ho => by cases ho) rfl

theorem writes_recordPosted {i : Interpretation} {econEventId : UUID} {ids : List UUID}
    (hop : failureOf op = none) (h : recordPosted now eventId existing i econEventId ids = .ok o') :
    Writes op existing o' := by
  obtain ⟨rfl, -⟩ := created_recordPosted h
  simp only [recordPosted, checkNotExists, Except.bind] at h
  split at h
  · cases h
  · cases h
    exact .of_created hop rfl rfl

theorem writes_transitionToPosted {econEventId : UUID} {ids : List UUID} (hop : failureOf op = none)
    (h : transitionToPosted now eventId existing econEventId ids = .ok o') :
    Writes op existing o' :=
  writes_transition hop h (fun _ => ⟨⟨rfl, rfl, rfl, rfl, rfl, rfl, rfl⟩, rfl, rfl⟩)
    (fun hmem => absurd hmem (by decide))

theorem writes_transitionToRetrying (hop : failureOf op = none)
    (h : transitionToRetrying now eventId existing = .ok o') : Writes op existing o' :=
  writes_transition hop h (fun _ => ⟨⟨rfl, rfl, rfl, rfl, rfl, rfl, rfl⟩, rfl, rfl⟩)
    (fun _ _ => failed_of_retrying_mem)

theorem writes_transitionToAbandoned {reasonCode : Option String} {reasonDetail : Option Detail}
    (hop : failureOf op = none)
    (h : transitionToAbandoned now eventId existing reasonCode reasonDetail = .ok o') :
    Writes op existing o' := by
  refine writes_transition hop h (fun _ => ⟨⟨rfl, rfl, rfl, rfl, rfl, rfl, rfl⟩, rfl, rfl⟩)
    (fun _ s hs => ?_)
  cases s <;> simp [validTransitions] at hs ⊢

/-- **Spec of the operations** for the columns that the constraints read. -/
theorem writes_apply (h : op.apply now eventId existing = .ok o') : Writes op existing o' := by
  cases op with
  | recordPosted => exact writes_recordPosted rfl h
  | recordRejected => exact writes_recordReason rfl (by decide) h
  | recordBlocked => exact writes_recordReason rfl (by decide) h
  | recordProvisional => exact writes_recordReason rfl (by decide) h
  | recordNonPosting => exact writes_recordReason rfl (by decide) h
  | recordFailed => exact writes_recordFailed rfl h
  | transitionToPosted => exact writes_transitionToPosted rfl h
  | transitionToRejected =>
      exact writes_transition rfl h (fun _ => ⟨⟨rfl, rfl, rfl, rfl, rfl, rfl, rfl⟩, rfl, rfl⟩)
        (fun hmem => absurd hmem (by decide))
  | transitionToFailed => exact writes_transitionToFailed rfl h
  | transitionToRetrying => exact writes_transitionToRetrying rfl h
  | transitionToAbandoned => exact writes_transitionToAbandoned rfl h
  | initiateRetry =>
      cases existing with
      | none => cases h
      | some o =>
          simp only [Operation.apply, initiateRetry] at h
          split_ifs at h
          exact writes_transitionToRetrying rfl h
  | completeRetrySuccess econ ids traces =>
      simp only [Operation.apply, completeRetrySuccess] at h
      cases hp : transitionToPosted now eventId existing econ ids with
      | error e =>
          rw [hp] at h
          cases h
      | ok o₁ =>
          rw [hp] at h
          cases h
          have hw : Writes (.completeRetrySuccess econ ids traces) existing o₁ :=
            writes_transitionToPosted rfl hp
          refine ⟨fun o ho => ?_, hw.failure, hw.kept, hw.needed⟩
          obtain ⟨h₁, h₂, h₃, h₄, h₅, h₆, h₇⟩ := hw.origin o ho
          exact ⟨h₁, h₂, h₃, h₄, h₅, h₆, h₇⟩
  | completeRetryFailure => exact writes_transitionToFailed rfl h
  | abandon => exact writes_transitionToAbandoned rfl h

/-- The row of an operation is admitted exactly when the failure that it is given is known. -/
theorem Writes.admitted_iff (h : Writes op existing o')
    (hex : ∀ o, existing = some o → admitted o = true) : admitted o' = true ↔
      ∀ f, failureOf op = some f → ftValue f.failureType ∈ failureTypes := by
  rw [OutcomeConstraints.admitted_iff]
  cases hop : failureOf op with
  | some f =>
      have htype := h.failure f hop
      simp [htype]
  | none =>
      refine iff_of_true ⟨fun t ht => ?_, fun hneeds => ?_⟩ (fun f hf => by cases hf)
      · obtain ⟨o, ho, hot⟩ := h.kept hop t ht
        exact (OutcomeConstraints.admitted_iff.mp (hex o ho)).1 t hot
      · obtain ⟨o, ho, hn, heq⟩ := h.needed hop hneeds
        rw [heq]
        exact (OutcomeConstraints.admitted_iff.mp (hex o ho)).2 hn

end Operations

/-! ### Runs -/

/-- A change that the database takes, and that leaves alone what the row was created for. -/
def Law (c : Change InterpretationOutcome) : Prop :=
  admitted c.after = true ∧ ∀ o, c.before = some o → SameOrigin o c.after

/-- Every row was written by a change. -/
def Written (l : Log) : Prop :=
  ∀ eventId o, l.tables eventId = some o → ∃ c ∈ l.changes, c.after = o

/-- The condition on a call: a failure type that it stores as a text is one of the known ones. -/
def Known (s : Session Log) : Action → Prop
  | .call c => c.flushRefused = false →
      (∃ o', c.operation.apply c.now c.eventId (s.current.tables c.eventId) = .ok o') →
        ∀ f, failureOf c.operation = some f → ftValue f.failureType ∈ failureTypes
  | .commit | .rollback => True

theorem Written.stored {l : Log} (h : Written l) (eventId : UUID) (o' : InterpretationOutcome) :
    Written (stored l eventId o') := by
  intro eventId₁ o ho
  have hchanges : (OutcomeLifecycle.stored l eventId o').changes =
      l.changes ++ [⟨l.tables eventId, o'⟩] := rfl
  rw [hchanges]
  rcases update_eq_some ho with ⟨-, heq⟩ | ⟨-, ho⟩
  · exact ⟨_, List.mem_append_right _ (List.mem_singleton_self _), heq⟩
  · obtain ⟨c, hc, hafter⟩ := h eventId₁ o ho
    exact ⟨c, List.mem_append_left _ hc, hafter⟩

theorem both_written {s s' : Session Log} {a : Action} (h : s.Both Written)
    (hstep : step s a = some s') : s'.Both Written := by
  cases stepped hstep with
  | commit => exact h.commit
  | rollback | refused => exact h.rollback
  | raised => exact h
  | stored => exact h.flush (h.current.stored _ _)

/-- **Step lemma**: a step keeps the law exactly when the failure that it stores is known. -/
theorem both_law_iff {s s' : Session Log} {a : Action} (hinv : s.Both Written)
    (hlaw : s.Both (Logged.Every Law)) (hstep : step s a = some s') :
    s'.Both (Logged.Every Law) ↔ Known s a := by
  cases stepped hstep with
  | commit => exact iff_of_true hlaw.commit trivial
  | rollback => exact iff_of_true hlaw.rollback trivial
  | raised herror =>
      refine iff_of_true hlaw fun _ ⟨o', hok⟩ => ?_
      rw [herror] at hok
      cases hok
  | refused hrefused =>
      refine iff_of_true hlaw.rollback fun hf => ?_
      rw [hrefused] at hf
      cases hf
  | @stored c o' hok hflushed =>
      refine (Logged.both_every_flush hlaw).trans ?_
      have hw := writes_apply hok
      have hex : ∀ o, s.current.tables c.eventId = some o → admitted o = true := by
        intro o ho
        obtain ⟨change, hc, rfl⟩ := hinv.current c.eventId o ho
        exact (hlaw.current change hc).1
      simp only [List.forall_mem_singleton, Law, hw.admitted_iff hex]
      exact ⟨fun h _ _ => h.1, fun h => ⟨h hflushed ⟨o', hok⟩, hw.origin⟩⟩

/-- **The constraints and the origin of outcomes**: throughout a run every row that was written
passes the CHECK constraints, and no change of a row touches what it was created for, exactly when
every failure type that a call stores is one of the known ones. -/
theorem constraints_kept_iff (as : List Action) :
    Throughout step (fun s => s.Both (Logged.Every Law)) start as ↔ Along step Known start as :=
  TransitionSystem.throughout_iff_along step_isSome (fun _ _ _ => both_written)
    (fun _ _ _ => both_law_iff) (Session.Both.start fun _ _ ho => by cases ho)
    (Session.Both.start (Logged.every_start _)) as

end FinanceAccounting.OutcomeConstraints
