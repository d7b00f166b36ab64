import FinanceAccounting.Kernel.Ingestor
import FinanceAccounting.Kernel.JournalWriter

/-! # The posting pipeline

`ModulePostingService.post_event` on one session: actor and period checks, ingestion, the gate
of imported journals, the configured controls, the policy, the meaning, the intent, and then
the `InterpretationCoordinator`, which runs the engines, writes the journal and has the
`OutcomeRecorder` store what became of the event.  A result that is not a success is returned
as it is, without a rollback; an exception rolls back when the service commits by itself.

The stages between ingestion and the journal are functions of the call and of reference data
(`Pipeline`), and any of the services may raise (`Call.fails`), with or without a flush that
has been refused.  The journal writer is the one of `Kernel.JournalWriter`, on the journal
among the other tables. -/

namespace FinanceAccounting.ModulePosting

open UnitOfWork (Session Table Result)
open Hashing (PyVal PyError)
open Ingestor (Event IngestResult IngestStatus)
open JournalWriter (WriteError JournalWriteResult)

/-! ### Tables -/

inductive OutcomeStatus where
  | posted
  | blocked
  | rejected
  | provisional
  | nonPosting
  | failed
  | retrying
  | abandoned
deriving DecidableEq, Repr

/-- A row of `interpretation_outcomes`; `unresolvedRoles` and `reasonMessage` are the entries of
its `reason_detail`. -/
structure InterpretationOutcome where
  sourceEventId : UUID
  status : OutcomeStatus
  econEventId : Option UUID := none
  journalEntryIds : Option (List UUID) := none
  reasonCode : Option String := none
  unresolvedRoles : Option (List String) := none
  reasonMessage : Option String := none
  profileId : String
  profileVersion : ℤ

/-- What the pipeline writes; an event has one outcome at most. -/
structure Tables where
  events : UUID → Option Event
  journal : Journal
  outcomes : List InterpretationOutcome
  outcomes_nodup : (outcomes.map (·.sourceEventId)).Nodup

/-- The journal among the tables. -/
def journalTable : Table Tables Journal where
  read := Tables.journal
  write tables j := { tables with journal := j }
  read_write _ _ := rfl
  write_write _ _ _ := rfl

namespace Tables

def empty : Tables where
  events _ := none
  journal := Journal.empty
  outcomes := []
  outcomes_nodup := List.nodup_nil

def addEvent (tables : Tables) (event : Event) : Tables :=
  { tables with events := Function.update tables.events event.eventId (some event) }

theorem events_addEvent_of_ne {tables : Tables} {event : Event} {eventId : UUID}
    (h : eventId ≠ event.eventId) : (tables.addEvent event).events eventId = tables.events eventId :=
  Function.update_of_ne h _ _

def getOutcome (tables : Tables) (sourceEventId : UUID) : Option InterpretationOutcome :=
  tables.outcomes.find? (·.sourceEventId = sourceEventId)

theorem getOutcome_eq_none {tables : Tables} {id : UUID} :
    tables.getOutcome id = none ↔ id ∉ tables.outcomes.map (·.sourceEventId) := by
  simp [getOutcome]

def addOutcome (tables : Tables) (o : InterpretationOutcome)
    (h : tables.getOutcome o.sourceEventId = none) : Tables :=
  { tables with
    outcomes := tables.outcomes ++ [o]
    outcomes_nodup := by
      rw [List.map_append]
      exact tables.outcomes_nodup.append (by simp) (by simpa using getOutcome_eq_none.mp h) }

end Tables

/-! ### Calls -/

inductive PartyType where
  | customer
  | supplier
  | employee
  | intercompany
  | system
  | migrationService
deriving DecidableEq, Repr

structure Party where
  canTransact : Bool
  partyType : PartyType

inductive PeriodStatus where
  | open
  | closing
  | closed
  | locked
deriving DecidableEq, Repr

structure FiscalPeriod where
  periodCode : String
  status : PeriodStatus
  allowsAdjustments : Bool

def FiscalPeriod.isClosed (p : FiscalPeriod) : Bool := p.status = .closed || p.status = .locked

structure ControlRule where
  appliesTo : String
  action : String
  expression : String
  reasonCode : String
  message : String := ""

structure Profile where
  name : String
  version : ℤ
  intentSource : Option String := none

structure GuardEvaluationResult where
  rejected : Bool := false
  blocked : Bool := false
  /-- The message of the guard that fired. -/
  triggeredGuard : Option String := none
  reasonCode : Option String := none

/-- What the meaning builder returns; the economic event by its type. -/
structure MeaningBuilderResult where
  success : Bool
  economicEvent : Option String := none
  guardResult : Option GuardEvaluationResult := none

/-- What the intent builders choose; the rest of the intent comes from the call. -/
structure IntentDraft where
  profileId : String
  profileVersion : ℤ
  ledgerIntents : List LedgerIntent
  ledgerIntents_ne_nil : ledgerIntents ≠ []
  description : Option String

/-- The arguments of `post_event`. -/
structure PostRequest where
  event : Ingestor.Request
  amount : Decimal
  currency : String := "USD"
  isAdjustment : Bool := false
  description : Option String := none
  coaVersion : ℤ := 1
  dimensionSchemaVersion : ℤ := 1
  accountKeyToRole : Option (String → Option String) := none

/-- The services behind the call, with the reference data they hold at its time. -/
structure Pipeline where
  partyService : Option (UUID → Option Party)
  periodForDate : Date → Option FiscalPeriod
  controlRules : List ControlRule := []
  /-- Does the expression of a control hold of the payload? -/
  evaluateExpression : List (String × PyVal) → String → Bool := fun _ _ => false
  getProfile : PostRequest → Option Profile
  buildMeaning : PostRequest → Profile → MeaningBuilderResult
  /-- An intent, or the text of a `ValueError`. -/
  buildIntent : PostRequest → Profile → Except String IntentDraft
  /-- The text of a failed engine dispatch. -/
  dispatchEngines : PostRequest → Profile → Option String := fun _ _ => none
  journalServices : JournalWriter.Services Tables

/-- Services that may raise. -/
inductive Stage where
  | auditor
  | policy
  | meaning
  | intent
  | engines
  | economicEvent
  | outcome
  | decisionLog
  | subledger
deriving DecidableEq, Repr

/-- An exception comes from code, or from a flush, which has then rolled the session back. -/
inductive Failure where
  | raised
  | flushRefused
deriving DecidableEq, Repr

/-- One call, with the values it draws and the failures it meets. -/
structure Call where
  request : PostRequest
  pipeline : Pipeline
  autoCommit : Bool := true
  ingestedAt : Datetime
  econEventId : UUID
  /-- Of the row that `_create_economic_event` stores. -/
  economicEventId : UUID
  /-- What surrounds the writing of the ledgers; no other transaction is there. -/
  newId : ℕ → UUID
  now : Datetime
  postedAt : Datetime
  refusal : ℕ → Option JournalWriter.FlushPoint := fun _ => none
  eventRefused : Bool := false
  fails : Stage → Option Failure := fun _ => none

def Call.eventId (c : Call) : UUID := c.request.event.eventId

def Call.payload (c : Call) : List (String × PyVal) := c.request.event.payload

def Call.interleaving (c : Call) (n : ℕ) : JournalWriter.Interleaving where
  newId := c.newId n
  now := c.now
  postedAt := c.postedAt
  refusal := c.refusal n

inductive ModulePostingStatus where
  | posted
  | alreadyPosted
  | rejected
  | transitionApplied
  | transitionBlocked
  | transitionRejected
  | guardRejected
  | guardBlocked
  | periodClosed
  | adjustmentsNotAllowed
  | invalidActor
  | actorFrozen
  | ingestionFailed
  | profileNotFound
  | meaningFailed
  | intentFailed
  | postingFailed
deriving DecidableEq, Repr

structure ModulePostingResult where
  status : ModulePostingStatus
  eventId : UUID
  journalEntryIds : List UUID := []
  ledgerIds : List String := []
  profileName : Option String := none
  message : Option String := none

def ModulePostingResult.isSuccess (r : ModulePostingResult) : Bool :=
  r.status = .posted || r.status = .alreadyPosted

inductive PostingError where
  | attributeError
  | payload (e : PyError)
  | write (e : WriteError)
  | outcomeAlreadyExists (eventId : UUID) (status : OutcomeStatus)
  | assertionError (message : String)
  | stage (s : Stage)

/-- A result without entries. -/
def Call.answer (c : Call) (status : ModulePostingStatus) (message : String)
    (profileName : Option String := none) : ModulePostingResult where
  status := status
  eventId := c.eventId
  profileName := profileName
  message := some message

/-- Run a stage that may raise. -/
def Call.attempt {α : Type} (c : Call) (stage : Stage) (s : Session Tables)
    (k : Session Tables → Result PostingError Tables α) : Result PostingError Tables α :=
  match c.fails stage with
  | none => k s
  | some .raised => (.error (.stage stage), s)
  | some .flushRefused => (.error (.stage stage), s.rollback)

/-! ### Checks before ingestion -/

/-- G14. -/
def checkActor (c : Call) : Option ModulePostingResult :=
  match c.pipeline.partyService with
  | none =>
      some (c.answer .rejected
        "Actor validation is mandatory for posting; PartyService not configured")
  | some getById =>
      match getById c.request.event.actorId with
      | none =>
          some (c.answer .invalidActor
            ("Actor " ++ c.request.event.actorId.str ++ " is not a valid party"))
      | some party =>
          if party.canTransact then none
          else
            some (c.answer .actorFrozen
              ("Actor " ++ c.request.event.actorId.str ++ " is frozen and cannot post"))

def dateText (d : Date) : String := String.ofList d.isoformat

/-- R12, R25 and R13, as `validate_adjustment_allowed` checks them. -/
def checkPeriod (c : Call) : Option ModulePostingResult :=
  let effectiveDate := c.request.event.effectiveDate
  match c.pipeline.periodForDate effectiveDate with
  | none =>
      some (c.answer .periodClosed
        ("No fiscal period found for date: " ++ dateText effectiveDate))
  | some period =>
      if period.isClosed then
        some (c.answer .periodClosed
          ("Cannot post to closed period " ++ period.periodCode ++ " (effective_date: " ++
            dateText effectiveDate ++ ")"))
      else if period.status = .closing then
        some (c.answer .periodClosed
          ("Period " ++ period.periodCode ++
            " is in CLOSING state — only close-related postings are permitted"))
      else if c.request.isAdjustment && !period.allowsAdjustments then
        some (c.answer .adjustmentsNotAllowed "Period does not allow adjustments")
      else none

/-! ### Ingestion -/

/-- What the service is configured with. -/
structure Config where
  sha256 : String → String
  isCurrency : String → Bool

/-- `IngestorService.ingest` on this session; the auditor records acceptances and rejections. -/
def ingest (cfg : Config) (c : Call) (s : Session Tables) :
    Result PostingError Tables IngestResult :=
  let r := c.request.event
  if r.validate cfg.isCurrency ≠ [] then
    c.attempt .auditor s fun s =>
      (.ok (Ingestor.validationFailed r (r.validate cfg.isCurrency)), s)
  else
    match r.hash cfg.sha256 with
    | .error e => (.error (.payload e), s)
    | .ok payloadHash =>
        match s.current.events r.eventId with
        | some existing =>
            if existing.payloadHash ≠ payloadHash then
              c.attempt .auditor s fun s => (.ok (Ingestor.existingResult r payloadHash existing), s)
            else (.ok (Ingestor.existingResult r payloadHash existing), s)
        | none =>
            if c.eventRefused then
              (.ok (Ingestor.conflictResult r (s.committed.events r.eventId)), s.rollback)
            else
              let event := r.toEvent payloadHash c.ingestedAt
              c.attempt .auditor (s.flush (s.current.addEvent event)) fun s =>
                (.ok (Ingestor.acceptedResult r event), s)

/-! ### From the event to the intent -/

/-- `bool(value)`. -/
def truthy : PyVal → Bool
  | .none => false
  | .bool b => b
  | .int i => i ≠ 0
  | .scalar (.str s) => s ≠ ""
  | .scalar (.decimal d) => !d.numEq (.finite false 0 0)
  | .scalar (.bytes bs) => bs ≠ []
  | .scalar _ => true
  | .list xs => !xs.isEmpty
  | .dict ms => !ms.isEmpty
  | .object _ => true

def lookup (ms : List (String × PyVal)) (key : String) : PyVal := (ms.lookup key).getD .none

/-- Where the pipeline stops before the coordinator, or goes on. -/
inductive Preparation where
  | stop (result : ModulePostingResult)
  | raise (e : PostingError)
  | proceed (profile : Profile) (meaning : MeaningBuilderResult) (draft : IntentDraft)

/-- Is `(payload.get("metadata") or {}).get("migration_batch_id")` truthy?  `none` is an
`AttributeError`. -/
def hasMigrationBatch (metadata : PyVal) : Option Bool :=
  if !truthy metadata then some false
  else
    match metadata with
    | .dict ms => some (truthy (lookup ms "migration_batch_id"))
    | _ => none

def checkMigrationActor (c : Call) : Option ModulePostingResult :=
  match c.pipeline.partyService with
  | none => none
  | some getById =>
      match getById c.request.event.actorId with
      | none =>
          some (c.answer .invalidActor
            ("Actor " ++ c.request.event.actorId.str ++ " is not a valid party"))
      | some party =>
          if party.partyType = .system ∨ party.partyType = .migrationService then none
          else
            some (c.answer .guardRejected
              "import.historical_journal requires actor party_type in (system, migration_service)")

/-- The migration-only gate; `ok none` lets the event pass. -/
def importHardGate (c : Call) : Except PostingError (Option ModulePostingResult) :=
  if c.request.event.eventType ≠ "import.historical_journal" then .ok none
  else if c.request.event.producer ≠ "ingestion" then
    .ok (some (c.answer .guardRejected
      "import.historical_journal requires producer=ingestion (migration-only)"))
  else
    match hasMigrationBatch (lookup c.payload "metadata") with
    | none => .error .attributeError
    | some false =>
        .ok (some (c.answer .guardRejected
          "import.historical_journal requires payload.metadata.migration_batch_id"))
    | some true => .ok (checkMigrationActor c)

/-- The first control rule that applies and fires. -/
def triggeredRule (c : Call) : Option ControlRule :=
  c.pipeline.controlRules.find? fun rule =>
    (rule.appliesTo = "*" || rule.appliesTo = c.request.event.eventType) &&
      c.pipeline.evaluateExpression c.payload rule.expression

def checkControls (c : Call) : Option ModulePostingResult :=
  (triggeredRule c).map fun rule =>
    let message :=
      if rule.message ≠ "" then rule.message
      else if rule.reasonCode ≠ "" then rule.reasonCode
      else "Control not satisfied"
    c.answer (if rule.action.toLower = "reject" then .guardRejected else .guardBlocked) message

/-- The result for a meaning that could not be built. -/
def meaningFailure (c : Call) (profile : Profile) (meaning : MeaningBuilderResult) :
    ModulePostingResult :=
  let guard := meaning.guardResult.getD {}
  if guard.rejected then
    c.answer .guardRejected ("Guard rejected: " ++ guard.reasonCode.getD "None")
      (some profile.name)
  else if guard.blocked then
    c.answer .guardBlocked ("Guard blocked: " ++ guard.reasonCode.getD "None") (some profile.name)
  else c.answer .meaningFailed "MeaningBuilder failed to produce economic event" (some profile.name)

/-- Lines from the payload without a resolver of account keys. -/
def lacksResolver (c : Call) (profile : Profile) : Bool :=
  profile.intentSource = some "payload_lines" && c.request.accountKeyToRole.isNone

/-- Build the intent from the payload lines or from the profile. -/
def prepareIntent (c : Call) (profile : Profile) (meaning : MeaningBuilderResult) : Preparation :=
  if lacksResolver c profile then
    .stop (c.answer .intentFailed
      "account_key_to_role resolver required for import.historical_journal" (some profile.name))
  else
    match c.fails .intent with
    | some _ => .raise (.stage .intent)
    | none =>
        match c.pipeline.buildIntent c.request profile with
        | .error message => .stop (c.answer .intentFailed message (some profile.name))
        | .ok draft => .proceed profile meaning draft

def preparePolicy (c : Call) : Preparation :=
  match c.fails .policy with
  | some _ => .raise (.stage .policy)
  | none =>
      match c.pipeline.getProfile c.request with
      | none =>
          .stop (c.answer .profileNotFound
            ("No profile found for event type: " ++ c.request.event.eventType ++ " (effective " ++
              dateText c.request.event.effectiveDate ++ ")"))
      | some profile =>
          match c.fails .meaning with
          | some _ => .raise (.stage .meaning)
          | none =>
              let meaning := c.pipeline.buildMeaning c.request profile
              if meaning.success then prepareIntent c profile meaning
              else .stop (meaningFailure c profile meaning)

/-- Everything between ingestion and the coordinator. -/
def prepare (c : Call) : Preparation :=
  match importHardGate c with
  | .error e => .raise e
  | .ok (some result) => .stop result
  | .ok none =>
      match checkControls c with
      | some result => .stop result
      | none => preparePolicy c

def Call.toIntent (c : Call) (draft : IntentDraft) : AccountingIntent where
  econEventId := c.econEventId
  sourceEventId := c.eventId
  profileId := draft.profileId
  profileVersion := draft.profileVersion
  effectiveDate := c.request.event.effectiveDate
  ledgerIntents := draft.ledgerIntents
  ledgerIntents_ne_nil := draft.ledgerIntents_ne_nil
  snapshot := {
    coaVersion := c.request.coaVersion
    dimensionSchemaVersion := c.request.dimensionSchemaVersion }
  description := draft.description

/-! ### The coordinator -/

/-- What the pipeline reads of an `InterpretationResult`. -/
structure InterpretationResult where
  success : Bool
  outcome : Option InterpretationOutcome := none
  journalResult : Option JournalWriteResult := none
  errorCode : Option String := none
  errorMessage : Option String := none

/-- `record_posted`, `record_rejected` and `record_blocked`, with the outcome they build; only
a POSTED one has journal entries. -/
def record (c : Call) (o : InterpretationOutcome) (s : Session Tables) :
    Result PostingError Tables InterpretationOutcome :=
  match h : s.current.getOutcome o.sourceEventId with
  | some existing => (.error (.outcomeAlreadyExists o.sourceEventId existing.status), s)
  | none =>
      if o.journalEntryIds = some [] then
        (.error (.assertionError
          "L5 violation: POSTED outcome must reference at least one journal entry"), s)
      else
        match c.fails .outcome with
        | none => (.ok o, s.flush (s.current.addOutcome o h))
        | some .raised => (.error (.stage .outcome), s)
        | some .flushRefused => (.error (.stage .outcome), s.rollback)

def blankOutcome (intent : AccountingIntent) (status : OutcomeStatus) : InterpretationOutcome where
  sourceEventId := intent.sourceEventId
  status := status
  profileId := intent.profileId
  profileVersion := intent.profileVersion

/-- Record an outcome that is not POSTED, and answer with it. -/
def recordFailure (c : Call) (o : InterpretationOutcome) (errorCode errorMessage : String)
    (s : Session Tables) : Result PostingError Tables InterpretationResult :=
  (record c o s).andThen fun o s =>
    (.ok {
      success := false
      outcome := some o
      errorCode := some errorCode
      errorMessage := some errorMessage }, s)

/-- The guard fired although the meaning was built. -/
def handleGuard (c : Call) (intent : AccountingIntent) (guard : GuardEvaluationResult)
    (status : OutcomeStatus) (code text : String) (s : Session Tables) :
    Result PostingError Tables InterpretationResult :=
  let reasonCode := guard.reasonCode.getD code
  recordFailure c { blankOutcome intent status with reasonCode := some reasonCode } reasonCode
    (guard.triggeredGuard.getD text) s

/-- The outcome of a journal write. -/
def recordWrite (c : Call) (intent : AccountingIntent) (written : JournalWriteResult)
    (s : Session Tables) : Result PostingError Tables InterpretationResult :=
  if written.isSuccess then
    let o := { blankOutcome intent .posted with
      econEventId := some c.economicEventId
      journalEntryIds := some (written.entries.map (·.entryId)) }
    (record c o s).andThen fun o s =>
      (.ok { success := true, outcome := some o, journalResult := some written }, s)
  else if written.status = .roleResolutionFailed then
    recordFailure c
      { blankOutcome intent .blocked with
        reasonCode := some "ROLE_RESOLUTION_BLOCKED"
        unresolvedRoles := written.unresolvedRoles
        reasonMessage := written.errorMessage }
      "ROLE_RESOLUTION_BLOCKED" (written.errorMessage.getD "Role resolution failed") s
  else
    recordFailure c
      { blankOutcome intent .rejected with
        reasonCode := some (written.errorCode.getD "WRITE_FAILED")
        reasonMessage := written.errorMessage }
      (written.errorCode.getD "WRITE_FAILED") (written.errorMessage.getD "Journal write failed") s

/-- `JournalWriter.write` on the journal of the session. -/
def writeJournal (c : Call) (intent : AccountingIntent) (eventType : String) (s : Session Tables) :
    Result PostingError Tables JournalWriteResult :=
  let r := JournalWriter.write journalTable c.pipeline.journalServices intent
    c.request.event.actorId eventType c.interleaving s
  (r.1.mapError .write, r.2)

/-- The engines, the guards, the journal and the outcome. -/
def doInterpretAndPost (c : Call) (profile : Profile) (meaning : MeaningBuilderResult)
    (intent : AccountingIntent) (s : Session Tables) :
    Result PostingError Tables InterpretationResult :=
  c.attempt .engines s fun s =>
    match c.pipeline.dispatchEngines c.request profile with
    | some error =>
        (.ok {
          success := false
          errorCode := some "ENGINE_DISPATCH_FAILED"
          errorMessage := some ("Engine dispatch failed: " ++ error) }, s)
    | none =>
        let guard := meaning.guardResult.getD {}
        if guard.rejected then
          handleGuard c intent guard .rejected "GUARD_REJECTED" "Guard rejected" s
        else if guard.blocked then
          handleGuard c intent guard .blocked "GUARD_BLOCKED" "Guard blocked" s
        else
          match meaning.economicEvent with
          | none =>
              (.ok {
                success := false
                errorCode := some "INTERPRETATION_FAILED"
                errorMessage := some "MeaningBuilder did not produce economic event" }, s)
          | some economicType =>
              c.attempt .economicEvent s fun s =>
                (writeJournal c intent economicType s).andThen fun written s =>
                  recordWrite c intent written s

/-- `interpret_and_post`: an outcome also gets its decision log. -/
def interpretAndPost (c : Call) (profile : Profile) (meaning : MeaningBuilderResult)
    (intent : AccountingIntent) (s : Session Tables) :
    Result PostingError Tables InterpretationResult :=
  (doInterpretAndPost c profile meaning intent s).andThen fun r s =>
    if r.outcome.isSome then c.attempt .decisionLog s fun s => (.ok r, s) else (.ok r, s)

/-! ### The service -/

/-- The answer to an interpretation, after the subledger entries of a success. -/
def finish (c : Call) (profile : Profile) (intent : AccountingIntent) (r : InterpretationResult)
    (s : Session Tables) : Result PostingError Tables ModulePostingResult :=
  if !r.success then
    (.ok (c.answer .postingFailed (r.errorMessage.getD "") (some profile.name)), s)
  else
    c.attempt .subledger s fun s =>
      let entryIds := (r.journalResult.elim [] (·.entries)).map (·.entryId)
      if entryIds = [] then
        (.error (.assertionError
          "L5 violation: POSTED result must contain at least one journal entry"), s)
      else
        (.ok {
          status := .posted
          eventId := c.eventId
          journalEntryIds := entryIds
          ledgerIds := intent.ledgerIntents.map (·.ledgerId)
          profileName := some profile.name
          message := some "Event posted successfully" }, s)

/-- The pipeline for an event that has just been accepted. -/
def process (c : Call) (s : Session Tables) : Result PostingError Tables ModulePostingResult :=
  match prepare c with
  | .stop result => (.ok result, s)
  | .raise e => (.error e, s)
  | .proceed profile meaning draft =>
      let intent := c.toIntent draft
      (interpretAndPost c profile meaning intent s).andThen (finish c profile intent)

/-- Go on with the answer of the ingestor. -/
def handleIngest (c : Call) (ingested : IngestResult) (s : Session Tables) :
    Result PostingError Tables ModulePostingResult :=
  match ingested.status with
  | .rejected => (.ok (c.answer .ingestionFailed ingested.message), s)
  | .duplicate =>
      (.ok (c.answer .alreadyPosted "Event already ingested (idempotent duplicate)"), s)
  | .accepted => process c s

def doPostEvent (cfg : Config) (c : Call) (s : Session Tables) :
    Result PostingError Tables ModulePostingResult :=
  match checkActor c with
  | some result => (.ok result, s)
  | none =>
      match checkPeriod c with
      | some result => (.ok result, s)
      | none => (ingest cfg c s).andThen (handleIngest c)

/-- R7: a success is committed, an exception rolled back, when the service does so; any other
result leaves the transaction open. -/
def postEvent (cfg : Config) (c : Call) (s : Session Tables) :
    Result PostingError Tables ModulePostingResult :=
  match doPostEvent cfg c s with
  | (.ok result, s) => (.ok result, if c.autoCommit && result.isSuccess then s.commit else s)
  | (.error e, s) => (.error e, if c.autoCommit then s.rollback else s)

end FinanceAccounting.ModulePosting
