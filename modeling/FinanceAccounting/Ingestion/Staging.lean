import FinanceAccounting.Ingestion.Validators
import FinanceAccounting.Library.KeyedTable
import FinanceAccounting.Library.UnitOfWork

/-! # Import staging

`ImportService` gives codes to the staged records of a batch; `PromotionService` turns valid records
into rows of the live tables.  Promoters are what the services are given; the auditor is not.  How
the rows of a source file become staged records, and how they are validated, is not modelled. -/

namespace FinanceAccounting.Ingestion

open UnitOfWork (Result Session)

/-! ### Tables -/

inductive ImportRecordStatus where
  | staged
  | valid
  | invalid
  | promoted
  | promotionFailed
  | skipped
deriving DecidableEq, Repr

inductive ImportBatchStatus where
  | loading
  | staged
  | validated
  | completed
  | failed
deriving DecidableEq, Repr

/-- A row of `import_batches`. -/
structure ImportBatch where
  id : UUID
  mappingName : String
  entityType : String
  status : ImportBatchStatus
  totalRecords : ℕ := 0
  validRecords : ℕ := 0
  invalidRecords : ℕ := 0
  promotedRecords : ℕ := 0
  skippedRecords : ℕ := 0
  completedAt : Option Datetime := none
  errorMessage : Option String := none

/-- A row of `import_records`. -/
structure ImportRecord where
  id : UUID
  batchId : UUID
  sourceRow : ℤ
  entityType : String
  status : ImportRecordStatus
  rawData : Dict
  mappedData : Option Dict
  validationErrors : List ValidationError
  promotedEntityId : Option UUID := none
  promotedAt : Option Datetime := none

/-- `rec.mapped_data or {}`. -/
def ImportRecord.mapped (rec : ImportRecord) : Dict := rec.mappedData.getD []

structure Tables (L : Type) where
  batches : List ImportBatch
  records : List ImportRecord
  live : L

namespace Tables

variable {L : Type} (t : Tables L)

def batch? (id : UUID) : Option ImportBatch := KeyedTable.get? ImportBatch.id t.batches id

def record? (id : UUID) : Option ImportRecord :=
  KeyedTable.get? ImportRecord.id t.records id

def putBatch (batch : ImportBatch) : Tables L :=
  { t with batches := KeyedTable.put ImportBatch.id t.batches batch }

def putRecord (rec : ImportRecord) : Tables L :=
  { t with records := KeyedTable.put ImportRecord.id t.records rec }

def withLive (live : L) : Tables L := { t with live := live }

/-- The records of a batch, ordered by their row in the source. -/
def recordsOf (batchId : UUID) : List ImportRecord :=
  (t.records.filter (·.batchId = batchId)).insertionSort fun r r' => r.sourceRow ≤ r'.sourceRow

end Tables

/-! ### The services -/

variable {L : Type}

structure PromoteResult where
  success : Bool
  entityId : Option UUID := none
  error : Option String := none

/-- What a promoter does to the transaction: it works inside its savepoint, or it ends the
transaction with all savepoints. -/
inductive TransactionEffect where
  | inside
  | rolledBack
  | committed
deriving DecidableEq, Repr

/-- An `EntityPromoter`: `promote` is given the batch and the row when the whole batch is promoted,
and leaves the live tables changed. -/
structure EntityPromoter (L : Type) where
  checkDuplicate : Dict → L → Except String Bool
  promote : Option (UUID × ℤ) → UUID → Dict → L →
    Except String PromoteResult × L × TransactionEffect

structure Services (L : Type) where
  builtins : Builtins
  database : Database L
  promoter : String → Option (EntityPromoter L)

variable (sv : Services L)

/-! ### Codes -/

/-- `str(code).strip()` of a code that is there. -/
def codeText (b : Builtins) (mapped : Dict) : Option String :=
  let code := mapped.get "code"
  if code.isNone || strip (b.text code) = "" then none else some (strip (b.text code))

/-- The codes that are in use for an entity. -/
def existingCodes (columns : Columns) (entityType : String) : List String :=
  if entityType = "account" then columns.accounts.filter (· ≠ "")
  else if entityType = "vendor" then
    ((columns.parties.filter (·.1 = "supplier")).map Prod.snd).filter (· ≠ "")
  else if entityType = "customer" then
    ((columns.parties.filter (·.1 = "customer")).map Prod.snd).filter (· ≠ "")
  else []

/-- The first name from a number on that is not used. -/
def firstFree (name : ℕ → String) (used : List String) (start : ℕ) : String :=
  ((((List.range (used.length + 1)).map fun k => name (start + k)).find?
    fun c => !used.contains c)).getD (name start)

/-- `f"{n:03d}"`. -/
def threeDigits (n : ℕ) : String := (toString n).leftpad 3 '0'

/-- `int(c)` of the codes that are numbers. -/
def numericCodes (b : Builtins) (used : List String) : Except Raised (List ℤ) :=
  (used.filter b.isdigit).mapM fun c =>
    match b.int (.str c) with
    | some r => r
    | none => .error (.valueError ("invalid literal for int() with base 10: " ++ b.repr (.str c)))

/-- The digits that `str` and `int` convert. -/
def maxStrDigits : ℕ := 4300

/-- `str(n)` of a whole number, which is refused from a number of digits on. -/
def numeralText (numeral : String) : Except Raised String :=
  if maxStrDigits < numeral.length then
    .error (.valueError ("Exceeds the limit (" ++ toString maxStrDigits ++
      " digits) for integer string conversion; use sys.set_int_max_str_digits() to increase the limit"))
  else .ok numeral

/-- `next_code`. -/
def nextCode (b : Builtins) (entityType : String) (used : List String) : Except Raised String :=
  if entityType = "account" then
    (numericCodes b used).bind fun numerics =>
      numeralText (firstFree toString used ((numerics.foldl max 0).toNat + 1))
  else if entityType = "vendor" then .ok (firstFree (fun n => "V-" ++ threeDigits n) used 1)
  else if entityType = "customer" then .ok (firstFree (fun n => "C-" ++ threeDigits n) used 1)
  else .ok ("IMP-" ++ toString (used.length + 1))

/-- The data of a record with a code; a missing name becomes the code. -/
def withCode (mapped : Dict) (code : String) : Dict :=
  let coded := mapped.set "code" (.str code)
  if (coded.get "name").truthy then coded else coded.set "name" (.str code)

/-- The records that are given codes, up to the first for which there is none. -/
def assignCodes (b : Builtins) (entityType : String) (used : List String) :
    List ImportRecord → List ImportRecord × Option Raised
  | [] => ([], none)
  | rec :: rest =>
      if (codeText b rec.mapped).isSome then assignCodes b entityType used rest
      else
        match nextCode b entityType used with
        | .error e => ([], some e)
        | .ok code =>
            let tail := assignCodes b entityType (used.insert code) rest
            ({ rec with mappedData := some (withCode rec.mapped code) } :: tail.1, tail.2)

/-- The codes that are in use when codes are assigned to the records of a batch. -/
def usedCodes (t : Tables L) (entityType : String) (recs : List ImportRecord) : List String :=
  ((existingCodes (sv.database.columns t.live) entityType).dedup ++
    recs.filterMap fun rec => codeText sv.builtins rec.mapped).dedup

/-- The assignments of `auto_assign_codes`. -/
def assignments (t : Tables L) (batch : ImportBatch) :
    List ImportRecord × Option Raised :=
  let entityType := sv.builtins.lower batch.entityType
  let recs := t.recordsOf batch.id
  assignCodes sv.builtins entityType (usedCodes sv t entityType recs) recs

/-- `auto_assign_codes`. -/
def autoAssignCodes (s : Session (Tables L)) (batchId : UUID) : Result Raised (Tables L) ℕ :=
  let t := s.current
  match t.batch? batchId with
  | none => (.error (.valueError ("Batch not found: " ++ batchId.str)), s)
  | some batch =>
      let assigned := assignments sv t batch
      let s := s.flush (assigned.1.foldl Tables.putRecord t)
      match assigned.2 with
      | some e => (.error e, s)
      | none => (.ok assigned.1.length, s)

/-! ### Promotion -/

/-- The message of a failure as the record keeps it, and as the result of the batch reports it. -/
structure Failure where
  message : String
  reported : String := message
deriving DecidableEq, Repr

/-- What became of a record in its promotion. -/
inductive PromotionOutcome where
  | promoted
  | skipped
  | failed (failure : Failure)
deriving DecidableEq, Repr

structure PromotionResult where
  totalAttempted : ℕ
  promoted : ℕ
  failed : ℕ
  skipped : ℕ
  /-- The record, its row and the message of every failure. -/
  errors : List (UUID × ℤ × String) := []

/-- The actor and the time of a promotion. -/
structure PromoteEnv where
  actorId : UUID
  now : Datetime

def ImportRecord.promotedAs (rec : ImportRecord) (env : PromoteEnv) (entityId : UUID) :
    ImportRecord :=
  { rec with
    status := .promoted, promotedEntityId := some entityId, promotedAt := some env.now }

def ImportRecord.promotionFailed (rec : ImportRecord) (failure : Failure) : ImportRecord :=
  { rec with
    status := .promotionFailed
    validationErrors := [⟨"PROMOTION_FAILED", failure.message, none⟩] }

/-- The failure that a promoter returns. -/
def Failure.ofError (error : Option String) : Failure where
  message := if error.getD "" = "" then "Unknown error" else error.getD ""
  reported := error.getD ""

/-- The call of a promoter: the entity that was created or the message of the failure, the live
tables, and the effect on the transaction. -/
def callPromoter (entityType : String) (context : Option (UUID × ℤ)) (actorId : UUID)
    (mapped : Dict) (live : L) : Except Failure UUID × L × TransactionEffect :=
  match sv.promoter entityType with
  | none =>
      (.error { message := "No promoter for entity_type " ++ sv.builtins.repr (.str entityType) },
        live, .inside)
  | some promoter =>
      let (result, live', effect) := promoter.promote context actorId mapped live
      let outcome :=
        match result with
        | .error message => .error { message := message }
        | .ok r =>
            match r.success, r.entityId with
            | true, some entityId => .ok entityId
            | _, _ => .error (.ofError r.error)
      (outcome, live', effect)

/-- The entity is a duplicate; what the check raises is a failure. -/
def isDuplicate (rec : ImportRecord) (live : L) : Except String Bool :=
  match sv.promoter rec.entityType with
  | none => .ok false
  | some promoter => promoter.checkDuplicate rec.mapped live

/-- The session after a promoter has ended the transaction. -/
def endTransaction (s : Session (Tables L)) (live : L) : TransactionEffect → Session (Tables L)
  | .inside => s
  | .rolledBack => s.rollback
  | .committed => (s.flush (s.current.withLive live)).commit

/-- The record as the session shows it after the transaction has ended. -/
def Tables.refresh (t : Tables L) (rec : ImportRecord) : ImportRecord :=
  (t.record? rec.id).getD rec

/-- One record of `promote_batch`, in its savepoint; the last component says that the transaction
has ended. -/
def promoteOne (env : PromoteEnv) (batchId : UUID) (s : Session (Tables L))
    (rec : ImportRecord) : PromotionOutcome × Session (Tables L) × Bool :=
  let t := s.current
  match isDuplicate sv rec t.live with
  | .error message =>
      (.failed { message }, s.flush (t.putRecord (rec.promotionFailed { message })), false)
  | .ok true => (.skipped, s.flush (t.putRecord { rec with status := .skipped }), false)
  | .ok false =>
      match callPromoter sv rec.entityType (some (batchId, rec.sourceRow)) env.actorId rec.mapped
          t.live with
      | (.ok entityId, live, .inside) =>
          (.promoted, s.flush ((t.withLive live).putRecord (rec.promotedAs env entityId)), false)
      | (.error failure, _, .inside) =>
          (.failed failure, s.flush (t.putRecord (rec.promotionFailed failure)), false)
      | (outcome, live, effect) =>
          let failure :=
            match outcome with
            | .ok _ => { message := "This transaction is closed" }
            | .error failure => failure
          let s := endTransaction s live effect
          let failed := (s.current.refresh rec).promotionFailed failure
          (.failed failure, s.flush (s.current.putRecord failed), true)

/-- The numbers of the outcomes so far. -/
structure Tally where
  promoted : ℕ := 0
  failed : ℕ := 0
  skipped : ℕ := 0
  errors : List (UUID × ℤ × String) := []

def Tally.add (tally : Tally) (rec : ImportRecord) : PromotionOutcome → Tally
  | .promoted => { tally with promoted := tally.promoted + 1 }
  | .skipped => { tally with skipped := tally.skipped + 1 }
  | .failed failure =>
      { tally with
        failed := tally.failed + 1
        errors := tally.errors ++ [(rec.id, rec.sourceRow, failure.reported)] }

/-- The loop of `promote_batch`; `view` is how the session shows a record of the list. -/
def promoteAll (env : PromoteEnv) (batchId : UUID) (view : ImportRecord → ImportRecord)
    (s : Session (Tables L)) (tally : Tally) :
    List ImportRecord → Session (Tables L) × Tally
  | [] => (s, tally)
  | rec :: rest =>
      match promoteOne sv env batchId s (view rec) with
      | (outcome, s', ended) =>
          promoteAll env batchId (if ended then s'.current.refresh else view) s'
            (tally.add (view rec) outcome) rest

/-- The valid records of a batch, ordered by their row. -/
def validRecords (t : Tables L) (batchId : UUID) : List ImportRecord :=
  (t.recordsOf batchId).filter (·.status = .valid)

/-- `promote_batch`; no record is blocked. -/
def promoteBatch (s : Session (Tables L)) (env : PromoteEnv) (batchId : UUID) (dryRun : Bool) :
    Result Raised (Tables L) PromotionResult :=
  match s.current.batch? batchId with
  | none => (.error (.valueError ("Batch not found: " ++ batchId.str)), s)
  | some batch =>
      let ready := validRecords s.current batchId
      if dryRun then (.ok ⟨ready.length, 0, 0, 0, []⟩, s)
      else
        let (s', tally) := promoteAll sv env batchId id s { skipped := batch.skippedRecords } ready
        let completed (batch : ImportBatch) : ImportBatch :=
          { batch with
            promotedRecords := batch.promotedRecords + tally.promoted
            skippedRecords := tally.skipped
            completedAt := some env.now
            status := .completed }
        let t := s'.current
        (.ok ⟨ready.length, tally.promoted, tally.failed, tally.skipped, tally.errors⟩,
          s'.flush (t.putBatch (completed ((t.batch? batchId).getD batch))))

/-- `promote_record`. -/
def promoteRecord (s : Session (Tables L)) (env : PromoteEnv) (recordId : UUID) (dryRun : Bool) :
    Result Raised (Tables L) ImportRecord :=
  let t := s.current
  match t.record? recordId with
  | none => (.error (.valueError ("Record not found: " ++ recordId.str)), s)
  | some rec =>
      if rec.status ≠ .valid then
        (.error (.valueError ("Record " ++ recordId.str ++ " is not VALID")), s)
      else if dryRun then (.ok rec, s)
      else
        match callPromoter sv rec.entityType none env.actorId rec.mapped t.live with
        | (.ok entityId, live, .inside) =>
            let promoted := rec.promotedAs env entityId
            (.ok promoted, s.flush ((t.withLive live).putRecord promoted))
        | (.error failure, _, .inside) =>
            let failed := rec.promotionFailed failure
            (.ok failed, s.flush (t.putRecord failed))
        | (_, live, effect) => (.error .resourceClosed, endTransaction s live effect)

end FinanceAccounting.Ingestion
