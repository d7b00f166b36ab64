import FinanceAccounting.Kernel.ModulePosting
import FinanceAccounting.Kernel.UndisturbedWrite

/-! # What a posting call does

One lemma for each part of `post_event` that says all it can do.  `ingest_cases` has the three
answers of ingestion.  After it the pipeline has exits that return a result and record nothing,
`Unrecorded` lists them by what the call meets; `process_cases` says that an accepted event
takes one of them or has the coordinator conclude.  `Kept.doPostEvent` is the frame of a call:
it adds rows, and it may roll the session back.

A result that is not a success leaves the event in the session.  After an exit that records
nothing the event has no outcome. -/

namespace FinanceAccounting.ModulePosting

open UnitOfWork (Session Table Result)
open Ingestor (Event IngestResult)
open JournalWriter (WriteError JournalWriteResult)

variable {cfg : Config} {c : Call} {s s' : Session Tables}

/-! ### Ingestion -/

/-- Actor and period admit the call. -/
structure Call.Checked (c : Call) : Prop where
  actor : checkActor c = none
  period : checkPeriod c = none

/-- The event is new and is stored. -/
structure Stores (cfg : Config) (c : Call) (s : Session Tables) : Prop where
  valid : c.request.event.validate cfg.isCurrency = []
  hashed : ∃ payloadHash, c.request.event.hash cfg.sha256 = .ok payloadHash
  absent : s.current.events c.eventId = none
  inserted : c.eventRefused = false

/-- The event is stored and accepted. -/
structure Accepts (cfg : Config) (c : Call) (s : Session Tables) : Prop extends Stores cfg c s where
  audited : c.fails .auditor = none

/-- The tables in which the call finds its event: as the session sees them, where it compares
payload hashes, or the committed ones after a refused insert, where it does not. -/
inductive Finds (cfg : Config) (c : Call) (s : Session Tables) : Tables → Prop
  | existing {payloadHash : String} {event : Event}
      (valid : c.request.event.validate cfg.isCurrency = [])
      (hashed : c.request.event.hash cfg.sha256 = .ok payloadHash)
      (found : s.current.events c.eventId = some event)
      (same : event.payloadHash = payloadHash) : Finds cfg c s s.current
  | concurrent {payloadHash : String} {event : Event}
      (valid : c.request.event.validate cfg.isCurrency = [])
      (hashed : c.request.event.hash cfg.sha256 = .ok payloadHash)
      (absent : s.current.events c.eventId = none)
      (refused : c.eventRefused = true)
      (found : s.committed.events c.eventId = some event) : Finds cfg c s s.committed

/-- A stage that may raise returns when it does not. -/
theorem attempt_eq_ok {α : Type} {stage : Stage} {a : α}
    {k : Session Tables → Result PostingError Tables α} :
    c.attempt stage s k = (.ok a, s') ↔ c.fails stage = none ∧ k s = (.ok a, s') := by
  unfold Call.attempt
  rcases c.fails stage with _ | (_ | _) <;> simp

/-- The row the call stores. -/
def Call.event (c : Call) (payloadHash : String) : Event :=
  c.request.event.toEvent payloadHash c.ingestedAt

/-- The session of an event that has just been stored. -/
def Call.stored (c : Call) (payloadHash : String) (s : Session Tables) : Session Tables :=
  s.flush (s.current.addEvent (c.event payloadHash))

theorem ingest_of_accepts (h : Accepts cfg c s) :
    ∃ payloadHash, c.request.event.hash cfg.sha256 = .ok payloadHash ∧
      ingest cfg c s = (.ok (Ingestor.acceptedResult c.request.event (c.event payloadHash)),
        c.stored payloadHash s) := by
  obtain ⟨payloadHash, hhash⟩ := h.hashed
  have habsent : s.current.events c.request.event.eventId = none := h.absent
  refine ⟨payloadHash, hhash, ?_⟩
  simp [ingest, h.valid, hhash, habsent, h.inserted, Call.attempt, h.audited, Call.event,
    Call.stored]

theorem ingest_of_finds {tables : Tables} (h : Finds cfg c s tables) :
    ∃ result s', ingest cfg c s = (.ok result, s') ∧ result.status = .duplicate ∧
      s'.current = tables := by
  cases h with
  | @existing payloadHash event hvalid hhash hfound hsame =>
      have hevents : s.current.events c.request.event.eventId = some event := hfound
      refine ⟨Ingestor.existingResult c.request.event payloadHash event, s, ?_, ?_, rfl⟩
      · simp [ingest, hvalid, hhash, hevents, hsame]
      · simp [Ingestor.existingResult, hsame]
  | @concurrent payloadHash event hvalid hhash habsent hrefused hfound =>
      have hevents : s.current.events c.request.event.eventId = none := habsent
      have hcommitted : s.committed.events c.request.event.eventId = some event := hfound
      refine ⟨Ingestor.conflictResult c.request.event (some event), s.rollback, ?_, rfl, rfl⟩
      simp [ingest, hvalid, hhash, hevents, hrefused, hcommitted]

theorem not_finds_of_stores (h : Stores cfg c s) (tables : Tables) : ¬Finds cfg c s tables := by
  rintro (⟨-, -, hfound, -⟩ | ⟨-, -, -, hrefused, -⟩)
  · simp [h.absent] at hfound
  · simp [h.inserted] at hrefused

/-- **The answers of ingestion.** -/
theorem ingest_cases {result : IngestResult} (h : ingest cfg c s = (.ok result, s')) :
    result.status = .rejected ∨
      (result.status = .duplicate ∧ Finds cfg c s s'.current) ∨
      result.status = .accepted ∧ Accepts cfg c s := by
  unfold ingest at h
  by_cases hvalid : c.request.event.validate cfg.isCurrency = []
  · simp only [hvalid, ne_eq, not_true_eq_false, if_false] at h
    cases hhash : c.request.event.hash cfg.sha256 with
    | error e => simp [hhash] at h
    | ok payloadHash =>
        simp only [hhash] at h
        cases hfound : s.current.events c.request.event.eventId with
        | some event =>
            simp only [hfound] at h
            by_cases hsame : event.payloadHash = payloadHash
            · simp only [hsame, not_true_eq_false, if_false, Prod.mk.injEq, Except.ok.injEq] at h
              obtain ⟨rfl, rfl⟩ := h
              refine Or.inr (Or.inl ⟨?_, .existing hvalid hhash hfound hsame⟩)
              simp [Ingestor.existingResult, hsame]
            · simp only [hsame, not_false_eq_true, if_true, attempt_eq_ok, Prod.mk.injEq,
                Except.ok.injEq] at h
              obtain ⟨-, rfl, -⟩ := h
              exact Or.inl (by simp [Ingestor.existingResult, hsame])
        | none =>
            simp only [hfound] at h
            cases hrefused : c.eventRefused with
            | true =>
                simp only [hrefused, if_true, Prod.mk.injEq, Except.ok.injEq] at h
                obtain ⟨rfl, rfl⟩ := h
                cases hcommitted : s.committed.events c.request.event.eventId with
                | none => exact Or.inl rfl
                | some event =>
                    exact Or.inr (Or.inl
                      ⟨rfl, .concurrent hvalid hhash hfound hrefused hcommitted⟩)
            | false =>
                simp only [hrefused, Bool.false_eq_true, if_false, attempt_eq_ok, Prod.mk.injEq,
                  Except.ok.injEq] at h
                obtain ⟨haudited, rfl, -⟩ := h
                exact Or.inr (Or.inr
                  ⟨rfl, ⟨hvalid, ⟨payloadHash, hhash⟩, hfound, hrefused⟩, haudited⟩)
  · simp only [hvalid, ne_eq, not_false_eq_true, if_true, attempt_eq_ok, Prod.mk.injEq,
      Except.ok.injEq] at h
    obtain ⟨-, rfl, -⟩ := h
    exact Or.inl rfl

/-! ### Exits that record nothing -/

/-- The event passes the import gate and the controls. -/
structure Passes (c : Call) : Prop where
  gate : importHardGate c = .ok none
  controls : triggeredRule c = none
  policyRuns : c.fails .policy = none

/-- The event also has a policy. -/
structure Selects (c : Call) (profile : Profile) : Prop extends Passes c where
  policy : c.pipeline.getProfile c.request = some profile
  meaningRuns : c.fails .meaning = none

/-- The event also has a meaning. -/
structure Means (c : Call) (profile : Profile) : Prop extends Selects c profile where
  meaning : (c.pipeline.buildMeaning c.request profile).success = true

/-- The event also has an intent; the coordinator takes over. -/
structure Intends (c : Call) (profile : Profile) (draft : IntentDraft) : Prop
    extends Means c profile where
  resolver : lacksResolver c profile = false
  intentRuns : c.fails .intent = none
  intent : c.pipeline.buildIntent c.request profile = .ok draft

/-- The pipeline returns before the coordinator. -/
inductive Stops (c : Call) : Prop
  | importGate {result : ModulePostingResult} (h : importHardGate c = .ok (some result)) : Stops c
  | control {rule : ControlRule} (hgate : importHardGate c = .ok none)
      (h : triggeredRule c = some rule) : Stops c
  | policy (hpasses : Passes c) (h : c.pipeline.getProfile c.request = none) : Stops c
  | meaning {profile : Profile} (hselects : Selects c profile)
      (h : (c.pipeline.buildMeaning c.request profile).success = false) : Stops c
  | resolver {profile : Profile} (hmeans : Means c profile) (h : lacksResolver c profile = true) :
      Stops c
  | intent {profile : Profile} {message : String} (hmeans : Means c profile)
      (hresolver : lacksResolver c profile = false) (hruns : c.fails .intent = none)
      (h : c.pipeline.buildIntent c.request profile = .error message) : Stops c

/-- The coordinator returns before it reaches a guard or the journal. -/
structure Uninterpreted (c : Call) (profile : Profile) (meaning : MeaningBuilderResult) : Prop where
  enginesRun : c.fails .engines = none
  stopped : c.pipeline.dispatchEngines c.request profile ≠ none ∨
    (meaning.guardResult.getD {}).rejected = false ∧
      (meaning.guardResult.getD {}).blocked = false ∧ meaning.economicEvent = none

/-- The coordinator gets to the journal. -/
structure Interprets (c : Call) (profile : Profile) (meaning : MeaningBuilderResult)
    (eventType : String) : Prop where
  enginesRun : c.fails .engines = none
  dispatched : c.pipeline.dispatchEngines c.request profile = none
  notRejected : (meaning.guardResult.getD {}).rejected = false
  notBlocked : (meaning.guardResult.getD {}).blocked = false
  event : meaning.economicEvent = some eventType
  eventStored : c.fails .economicEvent = none

/-- The call of an accepted event returns without an outcome. -/
def Unrecorded (c : Call) : Prop :=
  Stops c ∨ ∃ profile draft, Intends c profile draft ∧
    Uninterpreted c profile (c.pipeline.buildMeaning c.request profile)

variable {result : ModulePostingResult} {profile : Profile} {draft : IntentDraft}
variable {meaning : MeaningBuilderResult} {intent : AccountingIntent}

theorem isSuccess_checkControls (h : checkControls c = some result) : result.isSuccess = false := by
  obtain ⟨rule, -, rfl⟩ := Option.map_eq_some_iff.mp h
  by_cases haction : rule.action.toLower = "reject" <;>
    simp [Call.answer, ModulePostingResult.isSuccess, haction]

theorem isSuccess_checkMigrationActor (h : checkMigrationActor c = some result) :
    result.isSuccess = false := by
  unfold checkMigrationActor at h
  split at h
  · cases h
  · split at h
    · obtain rfl := Option.some.inj h
      rfl
    · split at h
      · cases h
      · obtain rfl := Option.some.inj h
        rfl

theorem isSuccess_importHardGate (h : importHardGate c = .ok (some result)) :
    result.isSuccess = false := by
  unfold importHardGate at h
  split at h
  · cases h
  · split at h
    · obtain rfl := Option.some.inj (Except.ok.inj h)
      rfl
    · split at h
      · cases h
      · obtain rfl := Option.some.inj (Except.ok.inj h)
        rfl
      · exact isSuccess_checkMigrationActor (Except.ok.inj h)

theorem isSuccess_meaningFailure : (meaningFailure c profile meaning).isSuccess = false := by
  unfold meaningFailure
  simp only []
  split
  · rfl
  · split <;> rfl

/-- A preparation stops, raises or goes on to an intent. -/
def Prepared (c : Call) (p : Preparation) : Prop :=
  (Stops c ∧ ∃ result, p = .stop result ∧ result.isSuccess = false) ∨
    (∃ e, p = .raise e) ∨
    ∃ profile draft, Intends c profile draft ∧
      p = .proceed profile (c.pipeline.buildMeaning c.request profile) draft

theorem prepared_prepareIntent (h : Means c profile) :
    Prepared c (prepareIntent c profile (c.pipeline.buildMeaning c.request profile)) := by
  unfold prepareIntent
  cases hresolver : lacksResolver c profile with
  | true => exact Or.inl ⟨.resolver h hresolver, _, rfl, rfl⟩
  | false =>
      simp only [Bool.false_eq_true, if_false]
      cases hruns : c.fails .intent with
      | some failure => exact Or.inr (Or.inl ⟨_, rfl⟩)
      | none =>
          cases hintent : c.pipeline.buildIntent c.request profile with
          | error message => exact Or.inl ⟨.intent h hresolver hruns hintent, _, rfl, rfl⟩
          | ok draft =>
              exact Or.inr (Or.inr ⟨profile, draft, ⟨h, hresolver, hruns, hintent⟩, rfl⟩)

theorem prepared_preparePolicy (hgate : importHardGate c = .ok none)
    (hrule : triggeredRule c = none) : Prepared c (preparePolicy c) := by
  unfold preparePolicy
  cases hpolicy : c.fails .policy with
  | some failure => exact Or.inr (Or.inl ⟨_, rfl⟩)
  | none =>
      have hpasses : Passes c := ⟨hgate, hrule, hpolicy⟩
      cases hprofile : c.pipeline.getProfile c.request with
      | none => exact Or.inl ⟨.policy hpasses hprofile, _, rfl, rfl⟩
      | some profile =>
          simp only []
          cases hruns : c.fails .meaning with
          | some failure => exact Or.inr (Or.inl ⟨_, rfl⟩)
          | none =>
              have hselects : Selects c profile := ⟨hpasses, hprofile, hruns⟩
              simp only []
              split
              · rename_i hmeaning
                exact prepared_prepareIntent ⟨hselects, hmeaning⟩
              · rename_i hmeaning
                exact Or.inl ⟨.meaning hselects (Bool.eq_false_iff.mpr hmeaning), _, rfl,
                  isSuccess_meaningFailure⟩

/-- **What comes before the coordinator.** -/
theorem prepared_prepare (c : Call) : Prepared c (prepare c) := by
  unfold prepare
  rcases hgate : importHardGate c with e | (_ | result)
  · exact Or.inr (Or.inl ⟨e, rfl⟩)
  · cases hrule : triggeredRule c with
    | some rule =>
        cases hcontrols : checkControls c with
        | none => simp [checkControls, hrule] at hcontrols
        | some result =>
            exact Or.inl ⟨.control hgate hrule, result, rfl, isSuccess_checkControls hcontrols⟩
    | none =>
        have hcontrols : checkControls c = none := by rw [checkControls, hrule, Option.map_none]
        simp only [hcontrols]
        exact prepared_preparePolicy hgate hrule
  · exact Or.inl ⟨.importGate hgate, result, rfl, isSuccess_importHardGate hgate⟩

theorem prepare_of_passes (h : Passes c) : prepare c = preparePolicy c := by
  have hcontrols : checkControls c = none := by rw [checkControls, h.controls, Option.map_none]
  simp only [prepare, h.gate, hcontrols]

theorem prepare_of_selects (h : Selects c profile) :
    prepare c =
      if (c.pipeline.buildMeaning c.request profile).success then
        prepareIntent c profile (c.pipeline.buildMeaning c.request profile)
      else .stop (meaningFailure c profile (c.pipeline.buildMeaning c.request profile)) := by
  simp only [prepare_of_passes h.toPasses, preparePolicy, h.policyRuns, h.policy, h.meaningRuns]

theorem prepare_of_means (h : Means c profile) :
    prepare c = prepareIntent c profile (c.pipeline.buildMeaning c.request profile) := by
  rw [prepare_of_selects h.toSelects, if_pos h.meaning]

theorem prepare_of_intends (h : Intends c profile draft) :
    prepare c = .proceed profile (c.pipeline.buildMeaning c.request profile) draft := by
  simp only [prepare_of_means h.toMeans, prepareIntent, h.resolver, Bool.false_eq_true, if_false,
    h.intentRuns, h.intent]

theorem prepare_of_stops (h : Stops c) :
    ∃ result, prepare c = .stop result ∧ result.isSuccess = false := by
  cases h with
  | importGate h => exact ⟨_, by simp only [prepare, h], isSuccess_importHardGate h⟩
  | control hgate h =>
      have hcontrols : (checkControls c).isSome := by simp [checkControls, h]
      obtain ⟨result, hresult⟩ := Option.isSome_iff_exists.mp hcontrols
      exact ⟨result, by simp only [prepare, hgate, hresult], isSuccess_checkControls hresult⟩
  | policy hpasses h =>
      have heq := prepare_of_passes hpasses
      simp only [preparePolicy, hpasses.policyRuns, h] at heq
      exact ⟨_, heq, rfl⟩
  | meaning hselects h =>
      exact ⟨_, by rw [prepare_of_selects hselects, h]; rfl, isSuccess_meaningFailure⟩
  | resolver hmeans h =>
      exact ⟨_, by rw [prepare_of_means hmeans, prepareIntent, if_pos h], rfl⟩
  | intent hmeans hresolver hruns h =>
      have heq := prepare_of_means hmeans
      simp only [prepareIntent, hresolver, Bool.false_eq_true, if_false, hruns, h] at heq
      exact ⟨_, heq, rfl⟩

/-! ### Outcomes -/

/-- The statuses an event may end with. -/
def recordedStatuses : List OutcomeStatus := [.posted, .rejected, .blocked, .failed, .provisional]

/-- P15: the event has exactly one outcome. -/
def Recorded (tables : Tables) (eventId : UUID) : Prop :=
  ∃ o, tables.outcomes.filter (·.sourceEventId = eventId) = [o] ∧ o.status ∈ recordedStatuses

/-- The session records the outcome. -/
def Records (o : InterpretationOutcome) (s s' : Session Tables) : Prop :=
  ∃ h : s.current.getOutcome o.sourceEventId = none, s' = s.flush (s.current.addOutcome o h)

variable {o : InterpretationOutcome}

theorem Records.recorded (h : Records o s s') (hstatus : o.status ∈ recordedStatuses) :
    Recorded s'.current o.sourceEventId := by
  obtain ⟨hnone, rfl⟩ := h
  refine ⟨o, ?_, hstatus⟩
  have hold : s.current.outcomes.filter (·.sourceEventId = o.sourceEventId) = [] := by
    rw [List.filter_eq_nil_iff]
    intro p hp heq
    refine Tables.getOutcome_eq_none.mp hnone ?_
    rw [← of_decide_eq_true heq]
    exact List.mem_map_of_mem hp
  simp [Tables.addOutcome, List.filter_append, hold]

theorem Records.journal (h : Records o s s') : s'.current.journal = s.current.journal := by
  obtain ⟨-, rfl⟩ := h
  rfl

theorem record_eq_ok {o' : InterpretationOutcome} (h : record c o s = (.ok o', s')) :
    o' = o ∧ Records o s s' := by
  unfold record at h
  split at h
  · cases h
  · rename_i hnone
    split at h
    · cases h
    · split at h
      · cases h
        exact ⟨rfl, hnone, rfl⟩
      · cases h
      · cases h

variable {r : InterpretationResult} {code text : String}

theorem recordFailure_eq_ok (h : recordFailure c o code text s = (.ok r, s')) :
    r.success = false ∧ Records o s s' := by
  obtain ⟨o', s₁, hrecord, h⟩ := Result.andThen_eq_ok.mp h
  cases h
  exact ⟨rfl, (record_eq_ok hrecord).2⟩

theorem recordWrite_eq_ok {written : JournalWriteResult}
    (h : recordWrite c intent written s = (.ok r, s')) :
    (r.success → written.isSuccess) ∧
      ∃ o, o.sourceEventId = intent.sourceEventId ∧ o.status ∈ recordedStatuses ∧
        Records o s s' := by
  unfold recordWrite at h
  split at h
  · rename_i hwritten
    obtain ⟨o, s₁, hrecord, h⟩ := Result.andThen_eq_ok.mp h
    cases h
    have hposted : OutcomeStatus.posted ∈ recordedStatuses := by decide
    exact ⟨fun _ => hwritten, _, rfl, hposted, (record_eq_ok hrecord).2⟩
  · split at h
    · obtain ⟨hfailed, hrecords⟩ := recordFailure_eq_ok h
      have hblocked : OutcomeStatus.blocked ∈ recordedStatuses := by decide
      exact ⟨fun hr => absurd hr (by simp [hfailed]), _, rfl, hblocked, hrecords⟩
    · obtain ⟨hfailed, hrecords⟩ := recordFailure_eq_ok h
      have hrejected : OutcomeStatus.rejected ∈ recordedStatuses := by decide
      exact ⟨fun hr => absurd hr (by simp [hfailed]), _, rfl, hrejected, hrecords⟩

/-! ### The coordinator -/

/-- The journal has been written for the event. -/
def Writes (c : Call) (intent : AccountingIntent) (s : Session Tables) (j : Journal) : Prop :=
  ∃ eventType written s', writeJournal c intent eventType s = (.ok written, s') ∧
    written.isSuccess ∧ s'.current.journal = j

theorem writeJournal_eq_ok {eventType : String} {written : JournalWriteResult} :
    writeJournal c intent eventType s = (.ok written, s') ↔
      JournalWriter.write journalTable c.pipeline.journalServices intent
        c.request.event.actorId eventType c.interleaving s = (.ok written, s') := by
  unfold writeJournal
  rcases JournalWriter.write journalTable c.pipeline.journalServices intent
    c.request.event.actorId eventType c.interleaving s with ⟨e | written', s₁⟩
  · simp [Except.mapError]
  · simp [Except.mapError]

/-- What the coordinator leaves behind: it records an outcome, and a success has written the
journal. -/
def Concluded (c : Call) (intent : AccountingIntent) (success : Bool) (s s' : Session Tables) :
    Prop :=
  Recorded s'.current intent.sourceEventId ∧ (success → Writes c intent s s'.current.journal)

theorem handleGuard_eq_ok {guard : GuardEvaluationResult} {status : OutcomeStatus}
    (hstatus : status ∈ recordedStatuses)
    (h : handleGuard c intent guard status code text s = (.ok r, s')) :
    r.success = false ∧ Concluded c intent r.success s s' := by
  obtain ⟨hfailed, hrecords⟩ := recordFailure_eq_ok h
  exact ⟨hfailed, hrecords.recorded hstatus, fun hr => absurd hr (by simp [hfailed])⟩

variable (intent) in
theorem doInterpretAndPost_of_uninterpreted (h : Uninterpreted c profile meaning) :
    ∃ r, doInterpretAndPost c profile meaning intent s = (.ok r, s) ∧ r.success = false ∧
      r.outcome = none := by
  unfold doInterpretAndPost
  simp only [Call.attempt, h.enginesRun]
  cases hengines : c.pipeline.dispatchEngines c.request profile with
  | some error => exact ⟨_, rfl, rfl, rfl⟩
  | none =>
      obtain ⟨hrejected, hblocked, hevent⟩ := h.stopped.resolve_left fun hne => hne hengines
      simp only [hrejected, hblocked, hevent, Bool.false_eq_true, if_false]
      exact ⟨_, rfl, rfl, rfl⟩

/-- **The ends of the coordinator**: it returns before a guard, a guard fires, or it gets to the
journal. -/
theorem doInterpretAndPost_eq_ok
    (h : doInterpretAndPost c profile meaning intent s = (.ok r, s')) :
    (Uninterpreted c profile meaning ∧ r.success = false ∧ s' = s) ∨
      (r.success = false ∧ Concluded c intent r.success s s') ∨
      ∃ eventType written s₁, Interprets c profile meaning eventType ∧
        writeJournal c intent eventType s = (.ok written, s₁) ∧
        recordWrite c intent written s₁ = (.ok r, s') := by
  obtain ⟨hengines, h⟩ := attempt_eq_ok.mp h
  cases hdispatch : c.pipeline.dispatchEngines c.request profile with
  | some error =>
      simp only [hdispatch, Prod.mk.injEq, Except.ok.injEq] at h
      obtain ⟨rfl, rfl⟩ := h
      exact Or.inl ⟨⟨hengines, Or.inl (by simp [hdispatch])⟩, rfl, rfl⟩
  | none =>
      simp only [hdispatch] at h
      split at h
      · exact Or.inr (Or.inl (handleGuard_eq_ok (by decide) h))
      · rename_i hrejected
        split at h
        · exact Or.inr (Or.inl (handleGuard_eq_ok (by decide) h))
        · rename_i hblocked
          rw [Bool.not_eq_true] at hrejected hblocked
          cases hevent : meaning.economicEvent with
          | none =>
              simp only [hevent, Prod.mk.injEq, Except.ok.injEq] at h
              obtain ⟨rfl, rfl⟩ := h
              exact Or.inl ⟨⟨hengines, Or.inr ⟨hrejected, hblocked, hevent⟩⟩, rfl, rfl⟩
          | some eventType =>
              simp only [hevent] at h
              obtain ⟨hstored, h⟩ := attempt_eq_ok.mp h
              obtain ⟨written, s₁, hwrite, h⟩ := Result.andThen_eq_ok.mp h
              exact Or.inr (Or.inr ⟨eventType, written, s₁,
                ⟨hengines, hdispatch, hrejected, hblocked, hevent, hstored⟩, hwrite, h⟩)

theorem interpretAndPost_eq_ok (h : interpretAndPost c profile meaning intent s = (.ok r, s')) :
    doInterpretAndPost c profile meaning intent s = (.ok r, s') := by
  obtain ⟨r', s₁, hdo, h⟩ := Result.andThen_eq_ok.mp h
  split at h
  · obtain ⟨-, h⟩ := attempt_eq_ok.mp h
    cases h
    exact hdo
  · cases h
    exact hdo

variable (intent) in
theorem interpretAndPost_of_uninterpreted (h : Uninterpreted c profile meaning) :
    ∃ r, interpretAndPost c profile meaning intent s = (.ok r, s) ∧ r.success = false := by
  obtain ⟨r, hdo, hfailed, hnone⟩ := doInterpretAndPost_of_uninterpreted intent (s := s) h
  exact ⟨r, by simp [interpretAndPost, hdo, hnone], hfailed⟩

/-! ### Accepted events -/

theorem finish_eq_ok (h : finish c profile intent r s = (.ok result, s')) :
    s' = s ∧ (result.isSuccess → r.success) := by
  unfold finish at h
  cases hr : r.success with
  | false =>
      simp only [hr, Bool.not_false, if_true, Prod.mk.injEq, Except.ok.injEq] at h
      obtain ⟨rfl, rfl⟩ := h
      exact ⟨rfl, fun hsuccess => nomatch hsuccess⟩
  | true =>
      simp only [hr, Bool.not_true, Bool.false_eq_true, if_false] at h
      obtain ⟨-, h⟩ := attempt_eq_ok.mp h
      split at h
      · cases h
      · cases h
        exact ⟨rfl, fun _ => rfl⟩

variable (c profile intent) in
theorem finish_of_failed (h : r.success = false) :
    ∃ result, finish c profile intent r s = (.ok result, s) ∧ result.isSuccess = false := by
  simp only [finish, h, Bool.not_false, if_true]
  exact ⟨_, rfl, rfl⟩

/-- **The ends of an accepted event**: nothing is done after ingestion, or the coordinator
concludes. -/
theorem process_cases (h : process c s = (.ok result, s')) :
    (Unrecorded c ∧ result.isSuccess = false ∧ s' = s) ∨
      ∃ draft, Concluded c (c.toIntent draft) result.isSuccess s s' := by
  unfold process at h
  rcases prepared_prepare c with ⟨hstops, stopped, hprepare, hfailed⟩ | ⟨e, hprepare⟩ |
    ⟨profile, draft, hintends, hprepare⟩
  · simp only [hprepare, Prod.mk.injEq, Except.ok.injEq] at h
    obtain ⟨rfl, rfl⟩ := h
    exact Or.inl ⟨Or.inl hstops, hfailed, rfl⟩
  · simp [hprepare] at h
  · simp only [hprepare] at h
    obtain ⟨r, s₁, hinterpret, hfinish⟩ := Result.andThen_eq_ok.mp h
    obtain ⟨rfl, hsuccess⟩ := finish_eq_ok hfinish
    rcases doInterpretAndPost_eq_ok (interpretAndPost_eq_ok hinterpret) with
      ⟨huninterpreted, hfailed, rfl⟩ | ⟨-, hrecorded, hwrites⟩ |
      ⟨eventType, written, s₂, -, hwrite, hrecord⟩
    · refine Or.inl ⟨Or.inr ⟨profile, draft, hintends, huninterpreted⟩, ?_, rfl⟩
      exact Bool.eq_false_iff.mpr fun hresult => absurd (hsuccess hresult) (by simp [hfailed])
    · exact Or.inr ⟨draft, hrecorded, fun hresult => hwrites (hsuccess hresult)⟩
    · obtain ⟨hwritten, o, hsource, hstatus, hrecords⟩ := recordWrite_eq_ok hrecord
      exact Or.inr ⟨draft, hsource ▸ hrecords.recorded hstatus, fun hresult =>
        ⟨eventType, written, s₂, hwrite, hwritten (hsuccess hresult), hrecords.journal.symm⟩⟩

theorem process_of_unrecorded (h : Unrecorded c) :
    ∃ result, process c s = (.ok result, s) ∧ result.isSuccess = false := by
  rcases h with hstops | ⟨profile, draft, hintends, huninterpreted⟩
  · obtain ⟨result, hprepare, hfailed⟩ := prepare_of_stops hstops
    exact ⟨result, by simp only [process, hprepare], hfailed⟩
  · obtain ⟨r, hinterpret, hr⟩ :=
      interpretAndPost_of_uninterpreted (c.toIntent draft) (s := s) huninterpreted
    obtain ⟨result, hfinish, hfailed⟩ :=
      finish_of_failed c profile (c.toIntent draft) (s := s) hr
    refine ⟨result, ?_, hfailed⟩
    simp only [process, prepare_of_intends hintends, hinterpret, Result.ok_andThen, hfinish]

/-! ### Calls -/

theorem doPostEvent_of_checked (h : c.Checked) :
    doPostEvent cfg c s = (ingest cfg c s).andThen (handleIngest c) := by
  simp only [doPostEvent, h.actor, h.period]

theorem doPostEvent_of_accepts (h : c.Checked) (haccepts : Accepts cfg c s) :
    ∃ payloadHash, c.request.event.hash cfg.sha256 = .ok payloadHash ∧
      doPostEvent cfg c s = process c (c.stored payloadHash s) := by
  obtain ⟨payloadHash, hhash, hingest⟩ := ingest_of_accepts haccepts
  refine ⟨payloadHash, hhash, ?_⟩
  rw [doPostEvent_of_checked h, hingest]
  rfl

theorem doPostEvent_of_finds (h : c.Checked) {tables : Tables} (hfinds : Finds cfg c s tables) :
    ∃ result s', doPostEvent cfg c s = (.ok result, s') ∧ result.status = .alreadyPosted ∧
      s'.current = tables := by
  obtain ⟨ingested, s', hingest, hstatus, hcurrent⟩ := ingest_of_finds hfinds
  have hcall : doPostEvent cfg c s = handleIngest c ingested s' := by
    rw [doPostEvent_of_checked h, hingest, Result.ok_andThen]
  simp only [handleIngest, hstatus] at hcall
  exact ⟨_, s', hcall, rfl, hcurrent⟩

theorem isSuccess_checkActor (h : checkActor c = some result) : result.isSuccess = false := by
  unfold checkActor at h
  split at h
  · obtain rfl := Option.some.inj h
    rfl
  · split at h
    · obtain rfl := Option.some.inj h
      rfl
    · split at h
      · cases h
      · obtain rfl := Option.some.inj h
        rfl

theorem isSuccess_checkPeriod (h : checkPeriod c = some result) : result.isSuccess = false := by
  unfold checkPeriod at h
  simp only [] at h
  split at h
  · obtain rfl := Option.some.inj h
    rfl
  · split at h
    · obtain rfl := Option.some.inj h
      rfl
    · split at h
      · obtain rfl := Option.some.inj h
        rfl
      · split at h
        · obtain rfl := Option.some.inj h
          rfl
        · cases h

/-- **The successes of a call**: it finds its event, or it has accepted it. -/
theorem doPostEvent_success (h : doPostEvent cfg c s = (.ok result, s'))
    (hsuccess : result.isSuccess) :
    c.Checked ∧ (Finds cfg c s s'.current ∨
      ∃ payloadHash, process c (c.stored payloadHash s) = (.ok result, s')) := by
  cases hactor : checkActor c with
  | some refused =>
      simp only [doPostEvent, hactor, Prod.mk.injEq, Except.ok.injEq] at h
      rw [← h.1, isSuccess_checkActor hactor] at hsuccess
      cases hsuccess
  | none =>
      cases hperiod : checkPeriod c with
      | some refused =>
          simp only [doPostEvent, hactor, hperiod, Prod.mk.injEq, Except.ok.injEq] at h
          rw [← h.1, isSuccess_checkPeriod hperiod] at hsuccess
          cases hsuccess
      | none =>
          refine ⟨⟨hactor, hperiod⟩, ?_⟩
          rw [doPostEvent_of_checked ⟨hactor, hperiod⟩] at h
          obtain ⟨ingested, s₁, hingest, h⟩ := Result.andThen_eq_ok.mp h
          rcases ingest_cases hingest with hstatus | ⟨hstatus, hfinds⟩ | ⟨hstatus, haccepts⟩
          · simp only [handleIngest, hstatus, Prod.mk.injEq, Except.ok.injEq] at h
            rw [← h.1] at hsuccess
            cases hsuccess
          · simp only [handleIngest, hstatus, Prod.mk.injEq, Except.ok.injEq] at h
            exact Or.inl (h.2 ▸ hfinds)
          · simp only [handleIngest, hstatus] at h
            obtain ⟨payloadHash, -, hstored⟩ := ingest_of_accepts haccepts
            rw [hingest, Prod.mk.injEq] at hstored
            exact Or.inr ⟨payloadHash, hstored.2 ▸ h⟩

theorem postEvent_of_ok (h : doPostEvent cfg c s = (.ok result, s')) :
    (postEvent cfg c s).1 = .ok result ∧ (postEvent cfg c s).2.current = s'.current := by
  simp only [postEvent, h, true_and]
  split <;> rfl

theorem exists_of_postEvent_ok (h : (postEvent cfg c s).1 = .ok result) :
    ∃ s', doPostEvent cfg c s = (.ok result, s') ∧
      (postEvent cfg c s).2.current = s'.current := by
  rcases hcall : doPostEvent cfg c s with ⟨e | result', s'⟩
  · simp [postEvent, hcall] at h
  · obtain ⟨hok, hcurrent⟩ := postEvent_of_ok hcall
    rw [h, Except.ok.injEq] at hok
    exact ⟨s', by rw [hok], hcurrent⟩

/-! ### What a call preserves -/

/-- What survives a rollback, new entries and new outcomes. -/
structure Kept (Q : Session Tables → Prop) : Prop extends JournalWriter.Stable journalTable Q where
  outcome : ∀ s o h, Q s → Q (s.flush (s.current.addOutcome o h))

variable {Q : Session Tables → Prop}

theorem Kept.attempt (hQ : Kept Q) {α : Type} {stage : Stage}
    {k : Session Tables → Result PostingError Tables α} (hk : Q s → Q (k s).2) (h : Q s) :
    Q (c.attempt stage s k).2 := by
  unfold Call.attempt
  rcases c.fails stage with _ | (_ | _)
  · exact hk h
  · exact h
  · exact hQ.rollback s h

theorem Kept.record (hQ : Kept Q) (h : Q s) : Q (record c o s).2 := by
  unfold ModulePosting.record
  split
  · exact h
  · rename_i hnone
    split
    · exact h
    · split
      · exact hQ.outcome s o hnone h
      · exact h
      · exact hQ.rollback s h

theorem Kept.recordFailure (hQ : Kept Q) (h : Q s) : Q (recordFailure c o code text s).2 :=
  Result.session_andThen (hQ.record h) fun _ _ h => h

theorem Kept.recordWrite (hQ : Kept Q) {written : JournalWriteResult} (h : Q s) :
    Q (recordWrite c intent written s).2 := by
  unfold ModulePosting.recordWrite
  split
  · exact Result.session_andThen (hQ.record h) fun _ _ h => h
  · split
    · exact hQ.recordFailure h
    · exact hQ.recordFailure h

theorem Kept.doInterpretAndPost (hQ : Kept Q) (h : Q s) :
    Q (doInterpretAndPost c profile meaning intent s).2 := by
  refine hQ.attempt (fun h => ?_) h
  split
  · exact h
  · simp only []
    split
    · exact hQ.recordFailure h
    · split
      · exact hQ.recordFailure h
      · split
        · exact h
        · refine hQ.attempt (fun h => Result.session_andThen ?_ fun _ _ => hQ.recordWrite) h
          exact hQ.write (fun _ => ⟨rfl, rfl, rfl⟩) h

theorem Kept.interpretAndPost (hQ : Kept Q) (h : Q s) :
    Q (interpretAndPost c profile meaning intent s).2 := by
  refine Result.session_andThen (hQ.doInterpretAndPost h) fun r s h => ?_
  split
  · exact hQ.attempt (fun h => h) h
  · exact h

theorem Kept.finish (hQ : Kept Q) (h : Q s) : Q (finish c profile intent r s).2 := by
  unfold ModulePosting.finish
  split
  · exact h
  · refine hQ.attempt (fun h => ?_) h
    simp only []
    split <;> exact h

theorem Kept.process (hQ : Kept Q) (h : Q s) : Q (process c s).2 := by
  unfold ModulePosting.process
  split
  · exact h
  · exact h
  · exact Result.session_andThen (hQ.interpretAndPost h) fun _ _ => hQ.finish

theorem Kept.ingest (hQ : Kept Q) (hstored : Stores cfg c s → ∀ payloadHash, Q (c.stored payloadHash s))
    (h : Q s) : Q (ingest cfg c s).2 := by
  simp only [ModulePosting.ingest]
  split
  · exact hQ.attempt (fun h => h) h
  · rename_i hvalid
    split
    · exact h
    · rename_i payloadHash hhash
      split
      · split
        · exact hQ.attempt (fun h => h) h
        · exact h
      · rename_i hfound
        split
        · exact hQ.rollback s h
        · rename_i hrefused
          refine hQ.attempt (fun h => h) (hstored ⟨?_, ⟨payloadHash, hhash⟩, hfound, ?_⟩ payloadHash)
          · simpa using hvalid
          · simpa using hrefused

/-- **A call preserves** what survives a rollback, new entries, new outcomes and the storing of
its event. -/
theorem Kept.doPostEvent (hQ : Kept Q)
    (hstored : c.Checked → Stores cfg c s → ∀ payloadHash, Q (c.stored payloadHash s)) (h : Q s) :
    Q (doPostEvent cfg c s).2 := by
  unfold ModulePosting.doPostEvent
  split
  · exact h
  · rename_i hactor
    split
    · exact h
    · rename_i hperiod
      refine Result.session_andThen (hQ.ingest (hstored ⟨hactor, hperiod⟩) h) fun ingested s h => ?_
      unfold handleIngest
      split
      · exact h
      · exact h
      · exact hQ.process h

/-- Nothing inside of a call commits. -/
theorem kept_committed (tables : Tables) : Kept fun s => s.committed = tables where
  rollback _ h := h
  save _ _ _ h := h
  outcome _ _ _ h := h

end FinanceAccounting.ModulePosting
