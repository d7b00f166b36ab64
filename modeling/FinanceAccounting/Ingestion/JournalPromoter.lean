import FinanceAccounting.Ingestion.Staging
import FinanceAccounting.Kernel.ModulePosting

/-! # The journal promoter

`JournalPromoter.promote` shapes the data of a staged journal record into the payload of an event
and has the posting pipeline post it.  The id of the event is computed from the content of the
record and its row in the source, so that a record that is promoted again comes with the id it had.
The payload also carries the batch.

The posting service is given by the call that it makes of its arguments.  What Python's standard
library does with texts, dates and hashes is a parameter. -/

namespace FinanceAccounting.JournalImport

open UnitOfWork (Session Result)
open Hashing (PyVal)
open Ingestion (PromoteResult)
open ModulePosting (Config Call PostRequest PostingError ModulePostingResult ModulePostingStatus Tables
  truthy lookup postEvent)

/-- What is used of the standard library. -/
structure Library where
  config : Config
  /-- `str(value)` of a value that is no text. -/
  str : PyVal → String
  dateFromisoformat : String → Option Date
  /-- `dict(value)` of a value that is no dictionary, or the text of its exception. -/
  dict : PyVal → Except String (List (String × PyVal))
  /-- `uuid5` in the namespace of imported journals. -/
  uuid5 : String → UUID

/-- `module_posting_service`, by the call that it makes of a request. -/
structure PostingService where
  call : PostRequest → Call
  request_call : ∀ request, (call request).request = request

/-- What `promote` is given besides the data of the record. -/
structure Kwargs where
  modulePostingService : Option PostingService := none
  accountKeyToRole : Option (String → Option String) := none
  batchId : Option UUID := none
  sourceRow : Option ℤ := none

inductive ImportError where
  | metadata (message : String)
  | posting (e : PostingError)

/-- `d[key] = value`. -/
def setItem (ms : List (String × PyVal)) (key : String) (value : PyVal) : List (String × PyVal) :=
  if (ms.lookup key).isSome then ms.map fun (k, v) => if k = key then (k, value) else (k, v)
  else ms ++ [(key, value)]

/-- The dictionaries of a list. -/
def dictionaries (xs : List PyVal) : List (List (String × PyVal)) :=
  xs.filterMap fun
    | .dict ms => some ms
    | _ => none

section Shaping

variable (lib : Library)

def Library.text : PyVal → String
  | .scalar (.str s) => s
  | v => lib.str v

/-- `_parse_date`. -/
def parseDate : PyVal → Option Date
  | .scalar (.date d) => some d
  | .scalar (.str s) => lib.dateFromisoformat (strip s)
  | _ => none

/-- `_str_strip`. -/
def strStrip : PyVal → String
  | .none => ""
  | v => strip (lib.text v)

/-! ### The id of the event -/

def orZero (s : String) : String := if s = "" then "0" else s

def signatureLine (line : List (String × PyVal)) : String :=
  strStrip lib (lookup line "account") ++ "|" ++ strStrip lib (lookup line "memo") ++ "|" ++
    orZero (strStrip lib (lookup line "debit")) ++ "|" ++
      orZero (strStrip lib (lookup line "credit"))

/-- `_content_signature`. -/
def contentSignature (effective : Date) (num name : PyVal) (lines : List PyVal)
    (sourceRow : Option ℤ) : String :=
  let row := (sourceRow.map fun n => "row:" ++ toString n).toList
  let lineParts := ((dictionaries lines).map (signatureLine lib)).insertionSort (· ≤ ·)
  lib.config.sha256 ("\n".intercalate
    ([effective.str, strStrip lib num, strStrip lib name] ++ row ++ ["|".intercalate lineParts]))

/-- `_deterministic_event_id`. -/
def deterministicEventId (effective : Date) (num name : PyVal) (lines : List PyVal)
    (sourceRow : Option ℤ) : UUID :=
  lib.uuid5 (contentSignature lib effective num name lines sourceRow)

/-! ### The payload -/

/-- `str(value)`, unless there is none. -/
def textOrNone : PyVal → PyVal
  | .none => .none
  | v => .scalar (.str (lib.text v))

def payloadLine (line : List (String × PyVal)) : PyVal :=
  .dict [("account", lookup line "account"), ("memo", lookup line "memo"),
    ("debit", textOrNone lib (lookup line "debit")),
    ("credit", textOrNone lib (lookup line "credit"))]

/-- `dict(mapped_data.get("metadata") or {})`. -/
def ownMetadata (mapped : List (String × PyVal)) : Except String (List (String × PyVal)) :=
  let value := lookup mapped "metadata"
  if truthy value then
    match value with
    | .dict ms => .ok ms
    | v => lib.dict v
  else .ok []

/-- The metadata with the batch. -/
def withBatch (metadata : List (String × PyVal)) : Option UUID → List (String × PyVal)
  | some batchId => setItem metadata "migration_batch_id" (.scalar (.str batchId.str))
  | none => metadata

/-- `mapped_data.get("currency", "USD")`. -/
def currencyOf (mapped : List (String × PyVal)) : PyVal :=
  (mapped.lookup "currency").getD (.scalar (.str "USD"))

def payload (effective : Date) (mapped metadata : List (String × PyVal)) (lines : List PyVal) :
    List (String × PyVal) :=
  [("date", .scalar (.str effective.str)),
    ("transaction_type", lookup mapped "transaction_type"),
    ("num", lookup mapped "num"),
    ("name", lookup mapped "name"),
    ("currency", currencyOf mapped),
    ("metadata", .dict metadata),
    ("lines", .list ((dictionaries lines).map (payloadLine lib)))]

/-- `name or transaction_type or "Import"`. -/
def description (mapped : List (String × PyVal)) : String :=
  if truthy (lookup mapped "name") then lib.text (lookup mapped "name")
  else if truthy (lookup mapped "transaction_type") then
    lib.text (lookup mapped "transaction_type")
  else "Import"

/-- What of a record is needed for an event. -/
structure Shape where
  effective : Date
  lines : List PyVal
  metadata : List (String × PyVal)

/-- The arguments of `post_event`. -/
def Shape.request (shape : Shape) (mapped : List (String × PyVal)) (actorId : UUID) (now : Datetime)
    (accountKeyToRole : String → Option String) (batchId : Option UUID) (sourceRow : Option ℤ) :
    PostRequest where
  event := {
    eventId := deterministicEventId lib shape.effective (lookup mapped "num") (lookup mapped "name")
      shape.lines sourceRow
    eventType := "import.historical_journal"
    occurredAt := now
    effectiveDate := shape.effective
    actorId := actorId
    producer := "ingestion"
    payload := payload lib shape.effective mapped (withBatch shape.metadata batchId) shape.lines }
  amount := .finite false 0 0
  currency := lib.text (currencyOf mapped)
  description := some (description lib mapped)
  accountKeyToRole := some accountKeyToRole

/-! ### Promotion -/

/-- `ModulePostingStatus.value`. -/
def statusValue : ModulePostingStatus → String
  | .posted => "posted"
  | .alreadyPosted => "already_posted"
  | .rejected => "rejected"
  | .transitionApplied => "transition_applied"
  | .transitionBlocked => "transition_blocked"
  | .transitionRejected => "transition_rejected"
  | .guardRejected => "guard_rejected"
  | .guardBlocked => "guard_blocked"
  | .periodClosed => "period_closed"
  | .adjustmentsNotAllowed => "adjustments_not_allowed"
  | .invalidActor => "invalid_actor"
  | .actorFrozen => "actor_frozen"
  | .ingestionFailed => "ingestion_failed"
  | .profileNotFound => "profile_not_found"
  | .meaningFailed => "meaning_failed"
  | .intentFailed => "intent_failed"
  | .postingFailed => "posting_failed"

def failure (message : String) : PromoteResult where
  success := false
  error := some message

/-- `result.message`, or a text with the status. -/
def failureMessage (result : ModulePostingResult) : String :=
  if result.message.getD "" = "" then
    "Posting pipeline returned " ++ statusValue result.status
  else result.message.getD ""

/-- The result of the promotion, from that of the pipeline and the tables after it. -/
def settle (eventId : UUID) (result : ModulePostingResult) (tables : Tables) : PromoteResult :=
  if result.status = .alreadyPosted then
    { success := true
      entityId := (tables.getOutcome eventId).bind fun o => (o.journalEntryIds.getD []).head? }
  else if result.status ≠ .posted then failure (failureMessage result)
  else { success := true, entityId := result.journalEntryIds.head? }

/-- Post, and settle. -/
def post (service : PostingService) (request : PostRequest) (s : Session Tables) :
    Result ImportError Tables PromoteResult :=
  match postEvent lib.config (service.call request) s with
  | (.ok result, s) => (.ok (settle request.event.eventId result s.current), s)
  | (.error e, s) => (.error (.posting e), s)

/-- `JournalPromoter.promote`. -/
def promote (mapped : List (String × PyVal)) (actorId : UUID) (now : Datetime) (kwargs : Kwargs)
    (s : Session Tables) : Result ImportError Tables PromoteResult :=
  match kwargs.modulePostingService, kwargs.accountKeyToRole with
  | some service, some accountKeyToRole =>
      match parseDate lib (lookup mapped "date") with
      | none => (.ok (failure "Invalid or missing date for journal entry"), s)
      | some effective =>
          match lookup mapped "lines" with
          | .list (line :: lines) =>
              match ownMetadata lib mapped with
              | .error message => (.error (.metadata message), s)
              | .ok metadata =>
                  let shape : Shape := ⟨effective, line :: lines, metadata⟩
                  post lib service
                    (shape.request lib mapped actorId now accountKeyToRole kwargs.batchId
                      kwargs.sourceRow) s
          | _ => (.ok (failure "Journal entry must have a non-empty lines array"), s)
  | _, _ =>
      (.ok (failure ("Journal promotion requires module_posting_service and account_key_to_role " ++
        "so data passes through the full posting pipeline (no bypass).")), s)

end Shaping

end FinanceAccounting.JournalImport
