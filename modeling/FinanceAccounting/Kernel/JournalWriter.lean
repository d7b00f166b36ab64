import Mathlib.Data.List.Forall2
import FinanceAccounting.Kernel.AccountingIntent

/-! # The journal writer

`JournalWriter.write` turns an accounting intent into one journal entry for each of its
ledgers.  It refuses an unbalanced intent or one with an unknown role, looks for entries under
the idempotency keys of the ledgers, and creates the missing ones one after the other.  A
flush that raises `IntegrityError` makes it roll the whole session back and look for the entry
of another transaction; it then goes on with the next ledger, although the rollback has also
swept away the entries it created before.

The two main lemmas say what the code does for a single ledger: `createEntry_cases` for the
three flushes of an entry, and `writeLedger_cases` for a round of the loop with its handler. -/

namespace FinanceAccounting.JournalWriter

open UnitOfWork (Session Table Result)
open Journal
open Hashing (defaultContext)

/-! ### Results and exceptions -/

inductive WriteStatus where
  | written
  | alreadyExists
  | roleResolutionFailed
  | validationFailed
  | failed
deriving DecidableEq, Repr

structure RoleResolutionError where
  role : String
  ledgerId : String
  coaVersion : ℤ
deriving DecidableEq, Repr

def RoleResolutionError.message (e : RoleResolutionError) : String :=
  "Cannot resolve role '" ++ e.role ++ "' for ledger '" ++ e.ledgerId ++ "' at COA version " ++
    toString e.coaVersion

structure WrittenEntry where
  entryId : UUID
  ledgerId : String
  seq : ℕ
  idempotencyKey : String
deriving DecidableEq, Repr

structure JournalWriteResult where
  status : WriteStatus
  entries : List WrittenEntry := []
  errorCode : Option String := none
  errorMessage : Option String := none
  unresolvedRoles : Option (List String) := none
deriving DecidableEq, Repr

namespace JournalWriteResult

def success (entries : List WrittenEntry) : JournalWriteResult where
  status := .written
  entries := entries

def alreadyExists (entries : List WrittenEntry) : JournalWriteResult where
  status := .alreadyExists
  entries := entries

def roleResolutionFailed (roles : List String) (message : String) : JournalWriteResult where
  status := .roleResolutionFailed
  errorCode := some "ROLE_RESOLUTION_FAILED"
  errorMessage := some message
  unresolvedRoles := some roles

def validationFailed (errorCode message : String) : JournalWriteResult where
  status := .validationFailed
  errorCode := some errorCode
  errorMessage := some message

def failure (errorCode message : String) : JournalWriteResult where
  status := .failed
  errorCode := some errorCode
  errorMessage := some message

def isSuccess (r : JournalWriteResult) : Bool :=
  r.status = .written || r.status = .alreadyExists

end JournalWriteResult

/-- Exceptions that leave the writer, with the data they carry. -/
inductive WriteError where
  | integrityError
  | decimalSignal (signal : Decimal.Signal)
  | multipleRoundingLines (entryId : UUID) (roundingCount : ℕ)
  | roundingAmountExceeded (entryId : UUID) (roundingAmount threshold currency : String)
  | missingReferenceSnapshot (entryId : UUID) (missingFields : List String)
  | staleReferenceSnapshot (entryId : UUID) (staleComponents : List String)
  | subledgerReconciliation (ledgerId : String) (violations : List String)
  | crossLedgerReversal (journalEntryId : UUID) (originalLedgerId requestedLedgerId : String)
  | valueError (message : String)
deriving DecidableEq, Repr

/-! ### Balance and roles -/

/-- The failure of an unbalanced ledger. -/
def unbalanced (ledgerId currency : String) (imbalance : Decimal) : JournalWriteResult :=
  .validationFailed "UNBALANCED_INTENT"
    ("Ledger '" ++ ledgerId ++ "' is unbalanced for " ++ currency ++ ": imbalance = " ++
      String.ofList imbalance.toChars)

/-- The first currency of a ledger in which it is not balanced. -/
def checkCurrencies (l : LedgerIntent) :
    List String → Except Decimal.Signal (Option JournalWriteResult)
  | [] => .ok none
  | currency :: currencies => do
      let sumDebit ← l.totalDebits currency
      let sumCredit ← l.totalCredits currency
      if sumDebit.numEq sumCredit then checkCurrencies l currencies
      else
        let imbalance ← Decimal.sub defaultContext sumDebit sumCredit
        return some (unbalanced l.ledgerId currency imbalance)

/-- R4: the first ledger that is not balanced. -/
def checkBalances : List LedgerIntent → Except Decimal.Signal (Option JournalWriteResult)
  | [] => .ok none
  | l :: ls => do
      match ← checkCurrencies l l.currencies with
      | some failed => return some failed
      | none => checkBalances ls

/-- A binding of a role; the writer reads the account of it. -/
structure BindingRecord where
  accountId : UUID
  accountCode : String

/-- What the writer is built with: the role bindings, and the checks G9 and G10 that run on
the tables after the entries are written, where they are switched on. -/
structure Services (σ : Type) where
  bindings : String → Option BindingRecord
  subledgerControls : Option (AccountingIntent → σ → Except WriteError Unit) := none
  snapshotService : Option (AccountingIntent → σ → Except WriteError Unit) := none

variable {σ : Type}

def resolveFull (w : Services σ) (role ledgerId : String) (coaVersion : ℤ) :
    Except RoleResolutionError BindingRecord :=
  match w.bindings role with
  | some binding => .ok binding
  | none => .error ⟨role, ledgerId, coaVersion⟩

def resolveLines (w : Services σ) (ledgerId : String) (coaVersion : ℤ) (i : ℕ) :
    List IntentLine → Except RoleResolutionError (List ResolvedIntentLine)
  | [] => .ok []
  | line :: lines => do
      let binding ← resolveFull w line.accountRole ledgerId coaVersion
      let resolved ← resolveLines w ledgerId coaVersion (i + 1) lines
      return {
        accountId := binding.accountId
        accountCode := binding.accountCode
        accountRole := line.accountRole
        side := line.side
        amount := line.amount
        currency := line.currency
        dimensions := line.dimensions
        memo := line.memo
        isRounding := line.isRounding
        lineSeq := i } :: resolved

def resolveLedgers (w : Services σ) (coaVersion : ℤ) :
    List LedgerIntent → Except RoleResolutionError (List (LedgerIntent × List ResolvedIntentLine))
  | [] => .ok []
  | l :: ls => do
      let lines ← resolveLines w l.ledgerId coaVersion 0 l.lines
      let resolved ← resolveLedgers w coaVersion ls
      return (l, lines) :: resolved

/-- L1: every role has an account. -/
def resolveAllRoles (w : Services σ) (i : AccountingIntent) :
    Except RoleResolutionError (List (LedgerIntent × List ResolvedIntentLine)) :=
  resolveLedgers w i.snapshot.coaVersion i.ledgerIntents

/-! ### Creating an entry -/

/-- R5 and R22: at most one rounding line, and a small one. -/
def validateRoundingInvariants (entryId : UUID) (lines : List ResolvedIntentLine) :
    Except WriteError Unit :=
  let roundingLines := lines.filter (·.isRounding)
  let nonRounding := (lines.filter (!·.isRounding)).length
  if 1 < roundingLines.length then
    .error (.multipleRoundingLines entryId roundingLines.length)
  else
    match roundingLines with
    | [] => .ok ()
    | line :: _ =>
        let maxAllowed := Decimal.finite false (max 1 nonRounding) (-2)
        if line.amount.exceeds maxAllowed.toRat then
          .error (.roundingAmountExceeded entryId (String.ofList line.amount.toChars)
            (String.ofList maxAllowed.toChars) line.currency)
        else .ok ()

/-- The flushes of one entry. -/
inductive FlushPoint where
  | entry
  | lines
  | posting
deriving DecidableEq, Repr

/-- What surrounds the writing of one ledger: the id and times the writer draws, the entries
other transactions commit at its statements, and a flush that a constraint of another table or
a trigger refuses. -/
structure Interleaving where
  newId : UUID
  now : Datetime
  postedAt : Datetime
  beforeSelect : List JournalEntry := []
  beforeInsert : List JournalEntry := []
  refusal : Option FlushPoint := none
  afterRollback : List JournalEntry := []

/-- A ledger to write. -/
structure Turn where
  ledgerIntent : LedgerIntent
  lines : List ResolvedIntentLine
  env : Interleaving

def Turn.key (i : AccountingIntent) (t : Turn) : String :=
  i.idempotencyKey t.ledgerIntent.ledgerId

def toLine (line : ResolvedIntentLine) : JournalLine where
  accountId := line.accountId
  side := line.side
  amount := line.amount
  currency := line.currency
  dimensions := line.dimensions
  isRounding := line.isRounding
  lineMemo := line.memo
  exchangeRateId := none
  lineSeq := line.lineSeq

def draftEntry (i : AccountingIntent) (actorId : UUID) (eventType : String) (t : Turn) :
    JournalEntry where
  id := t.env.newId
  sourceEventId := i.sourceEventId
  sourceEventType := eventType
  occurredAt := i.createdAt.getD t.env.now
  effectiveDate := i.effectiveDate
  actorId := actorId
  idempotencyKey := t.key i
  postingRuleVersion := i.profileVersion
  coaVersion := some i.snapshot.coaVersion
  dimensionSchemaVersion := some i.snapshot.dimensionSchemaVersion
  roundingPolicyVersion := some i.snapshot.roundingPolicyVersion
  currencyRegistryVersion := some i.snapshot.currencyRegistryVersion
  entryMetadata := some
    [("ledger_id", t.ledgerIntent.ledgerId), ("profile_id", i.profileId),
      ("econ_event_id", i.econEventId.str)]
  description := i.description

variable (tbl : Table σ Journal)

/-- R21 and R9: the entry takes the next sequence number and is posted. -/
def finalizePosting (refusal : Option FlushPoint) (postedAt : Datetime) (entry : JournalEntry)
    (s : Session σ) : Result WriteError σ JournalEntry :=
  if entry.missingFields ≠ [] then
    (.error (.missingReferenceSnapshot entry.id entry.missingFields), s)
  else if refusal = some .posting then (.error .integrityError, s.rollback)
  else
    let j := s.seen tbl
    (.ok (entry.posted (j.counter + 1) postedAt), s.save tbl (j.post entry.id postedAt))

/-- A refused flush leaves the session rolled back. -/
def createEntry (i : AccountingIntent) (actorId : UUID) (eventType : String) (t : Turn)
    (s : Session σ) : Result WriteError σ JournalEntry :=
  let draft := draftEntry i actorId eventType t
  match if t.env.refusal = some .entry then none else (s.seen tbl).insert draft with
  | none => (.error .integrityError, s.rollback)
  | some j =>
      match validateRoundingInvariants draft.id t.lines with
      | .error e => (.error e, s.save tbl j)
      | .ok () =>
          if t.env.refusal = some .lines then (.error .integrityError, s.rollback)
          else
            let lines := t.lines.map toLine
            finalizePosting tbl t.env.refusal t.env.postedAt (draft.withLines lines)
              (s.save tbl (j.addLines draft.id lines))

/-! ### Writing an intent -/

/-- What becomes of a ledger: an entry is counted for it, or the call ends. -/
inductive Outcome (σ : Type) where
  | counted (entry : JournalEntry) (s : Session σ)
  | conflict (s : Session σ)
  | raised (e : WriteError) (s : Session σ)

/-- One round of the loop, with the handler of `IntegrityError`. -/
def writeLedger (i : AccountingIntent) (actorId : UUID) (eventType : String) (t : Turn)
    (s : Session σ) : Outcome σ :=
  match createEntry tbl i actorId eventType t (observeAll tbl s t.env.beforeInsert) with
  | (.ok entry, s) => .counted entry s
  | (.error .integrityError, s) =>
      let s := observeAll tbl s.rollback t.env.afterRollback
      match (s.seen tbl).getExistingEntry (t.key i) with
      | some existing => .counted existing s
      | none => .conflict s
  | (.error e, s) => .raised e s

/-- A ledger with the entry counted for it, as the result reports it. -/
def written (i : AccountingIntent) (p : Turn × JournalEntry) : WrittenEntry where
  entryId := p.2.id
  ledgerId := p.1.ledgerIntent.ledgerId
  seq := p.2.seq.getD 0
  idempotencyKey := p.1.key i

def concurrentInsert (t : Turn) : JournalWriteResult :=
  .failure "CONCURRENT_INSERT"
    ("Concurrent insert conflict for ledger '" ++ t.ledgerIntent.ledgerId ++ "'")

/-- G9 and G10. -/
def postChecks (w : Services σ) (i : AccountingIntent) (s : Session σ) : Except WriteError Unit := do
  match w.subledgerControls with
  | some validate => validate i s.current
  | none => pure ()
  match w.snapshotService, i.snapshot.fullSnapshotId with
  | some validate, some _ => validate i s.current
  | _, _ => pure ()

def writeLedgers (w : Services σ) (i : AccountingIntent) (actorId : UUID) (eventType : String)
    (counted : List (Turn × JournalEntry)) :
    List Turn → Session σ → Result WriteError σ JournalWriteResult
  | [], s =>
      match postChecks w i s with
      | .error e => (.error e, s)
      | .ok () => (.ok (.success (counted.map (written i))), s)
  | t :: ts, s =>
      match writeLedger tbl i actorId eventType t s with
      | .counted entry s => writeLedgers w i actorId eventType (counted ++ [(t, entry)]) ts s
      | .conflict s => (.ok (concurrentInsert t), s)
      | .raised e s => (.error e, s)

/-- R3: the ledgers whose entry is final already, with it, and the ledgers to write. -/
def selectExisting (i : AccountingIntent) :
    List Turn → Session σ → List (Turn × JournalEntry) × List Turn × Session σ
  | [], s => ([], [], s)
  | t :: ts, s =>
      let s := observeAll tbl s t.env.beforeSelect
      let rest := selectExisting i ts s
      match (s.seen tbl).getExistingEntry (t.key i) with
      | some existing =>
          if existing.isFinal then ((t, existing) :: rest.1, rest.2)
          else (rest.1, t :: rest.2.1, rest.2.2)
      | none => (rest.1, t :: rest.2.1, rest.2.2)

/-- The ledgers in the order of the intent; `env n` surrounds the `n`-th. -/
def toTurns (resolved : List (LedgerIntent × List ResolvedIntentLine)) (env : ℕ → Interleaving) :
    List Turn :=
  resolved.zipIdx.map fun p => ⟨p.1.1, p.1.2, env p.2⟩

def write (w : Services σ) (i : AccountingIntent) (actorId : UUID) (eventType : String)
    (env : ℕ → Interleaving) (s : Session σ) : Result WriteError σ JournalWriteResult :=
  match checkBalances i.ledgerIntents with
  | .error signal => (.error (.decimalSignal signal), s)
  | .ok (some failed) => (.ok failed, s)
  | .ok none =>
      match resolveAllRoles w i with
      | .error e => (.ok (.roleResolutionFailed [e.role] e.message), s)
      | .ok resolved =>
          match selectExisting tbl i (toTurns resolved env) s with
          | (existing, [], s) => (.ok (.alreadyExists (existing.map (written i))), s)
          | (existing, t :: ts, s) => writeLedgers tbl w i actorId eventType existing (t :: ts) s

/-! ### Resolved lines -/

/-- The line with the account that is bound to its role. -/
structure ResolvedBy (w : Services σ) (line : IntentLine) (r : ResolvedIntentLine) : Prop where
  role : r.accountRole = line.accountRole
  side : r.side = line.side
  amount : r.amount = line.amount
  currency : r.currency = line.currency
  binding : ∃ binding, w.bindings line.accountRole = some binding ∧
    r.accountId = binding.accountId ∧ r.accountCode = binding.accountCode

theorem forall₂_resolveLines {w : Services σ} {ledgerId : String} {coaVersion : ℤ}
    {lines : List IntentLine} {i : ℕ} {resolved : List ResolvedIntentLine}
    (h : resolveLines w ledgerId coaVersion i lines = .ok resolved) :
    List.Forall₂ (ResolvedBy w) lines resolved := by
  induction lines generalizing i resolved with
  | nil =>
      obtain rfl := Except.ok.inj h
      exact .nil
  | cons line lines ih =>
      rw [resolveLines, resolveFull] at h
      cases hbinding : w.bindings line.accountRole with
      | none =>
          rw [hbinding] at h
          cases h
      | some binding =>
          rw [hbinding] at h
          cases hrest : resolveLines w ledgerId coaVersion (i + 1) lines with
          | error e =>
              simp only [hrest] at h
              cases h
          | ok rest =>
              simp only [hrest] at h
              obtain rfl := Except.ok.inj h
              exact .cons ⟨rfl, rfl, rfl, rfl, binding, hbinding, rfl, rfl⟩ (ih hrest)

theorem mem_resolveLedgers {w : Services σ} {coaVersion : ℤ} {ls : List LedgerIntent}
    {resolved : List (LedgerIntent × List ResolvedIntentLine)}
    (h : resolveLedgers w coaVersion ls = .ok resolved) :
    ∀ p ∈ resolved, p.1 ∈ ls ∧ resolveLines w p.1.ledgerId coaVersion 0 p.1.lines = .ok p.2 := by
  induction ls generalizing resolved with
  | nil =>
      obtain rfl := Except.ok.inj h
      intro p hp
      cases hp
  | cons l ls ih =>
      rw [resolveLedgers] at h
      cases hlines : resolveLines w l.ledgerId coaVersion 0 l.lines with
      | error e =>
          rw [hlines] at h
          cases h
      | ok lines =>
          rw [hlines] at h
          cases hrest : resolveLedgers w coaVersion ls with
          | error e =>
              simp only [hrest] at h
              cases h
          | ok rest =>
              simp only [hrest] at h
              obtain rfl := Except.ok.inj h
              intro p hp
              rcases List.mem_cons.mp hp with rfl | hp
              · exact ⟨List.mem_cons_self, hlines⟩
              · obtain ⟨hmem, hresolved⟩ := ih hrest p hp
                exact ⟨List.mem_cons_of_mem l hmem, hresolved⟩

/-! ### One ledger -/

/-- A constraint of the journal or another refuses a flush of the ledger's entry, once the
rows committed before its insert are there. -/
def Refused (i : AccountingIntent) (actorId : UUID) (eventType : String) (t : Turn)
    (s : Session σ) : Prop :=
  t.env.refusal ≠ none ∨
    ¬((observeAll tbl s t.env.beforeInsert).seen tbl).Admits (draftEntry i actorId eventType t)

/-- The rounding check fails, after the entry has been inserted. -/
def Raises (tbl : Table σ Journal) (i : AccountingIntent) (actorId : UUID) (eventType : String)
    (t : Turn) (s : Session σ) : Prop :=
  validateRoundingInvariants t.env.newId t.lines ≠ .ok () ∧ t.env.refusal ≠ some .entry ∧
    ((observeAll tbl s t.env.beforeInsert).seen tbl).Admits (draftEntry i actorId eventType t)

/-- The ledger that the metadata of an entry name. -/
def ledgerOf (e : JournalEntry) : Option String := (e.entryMetadata.getD []).lookup "ledger_id"

/-- An entry that the turn of a ledger has created. -/
structure Ours (i : AccountingIntent) (t : Turn) (e : JournalEntry) : Prop where
  source : e.sourceEventId = i.sourceEventId
  key : e.idempotencyKey = t.key i
  ledger : ledgerOf e = some t.ledgerIntent.ledgerId

/-- The entry is POSTED and has all lines of the ledger. -/
structure Complete (t : Turn) (e : JournalEntry) : Prop where
  posted : e.status = .posted
  lines : e.lines = t.lines.map toLine

variable {tbl} {w : Services σ} {i : AccountingIntent} {actorId : UUID} {eventType : String}
variable {t : Turn} {s : Session σ}

theorem validateRoundingInvariants_ne {id : UUID} {lines : List ResolvedIntentLine}
    {e : WriteError} (h : validateRoundingInvariants id lines = .error e) :
    e ≠ .integrityError := by
  rintro rfl
  simp only [validateRoundingInvariants] at h
  split at h
  · cases h
  · split at h
    · cases h
    · split at h <;> cases h

/-- An entry with all its versions is posted unless the flush is refused. -/
theorem finalizePosting_eq {refusal : Option FlushPoint} {postedAt : Datetime}
    {entry : JournalEntry} (h : entry.missingFields = []) :
    finalizePosting tbl refusal postedAt entry s =
      if refusal = some .posting then (.error .integrityError, s.rollback)
      else (.ok (entry.posted ((s.seen tbl).counter + 1) postedAt),
        s.save tbl ((s.seen tbl).post entry.id postedAt)) := by
  simp [finalizePosting, h]

variable (tbl) in
/-- Creating an entry posts it with all its lines, is refused and rolled back, or raises with
the draft left behind. -/
theorem createEntry_cases (i : AccountingIntent) (actorId : UUID) (eventType : String) (t : Turn)
    (s : Session σ) :
    (∃ e j, createEntry tbl i actorId eventType t s = (.ok e, s.save tbl j) ∧
        (t.env.refusal = none ∧ (s.seen tbl).Admits (draftEntry i actorId eventType t)) ∧
        validateRoundingInvariants t.env.newId t.lines = .ok () ∧
        j.entries = (s.seen tbl).entries ++ [e] ∧ e.id = t.env.newId ∧ Ours i t e ∧
        Complete t e) ∨
      (createEntry tbl i actorId eventType t s = (.error .integrityError, s.rollback) ∧
        (t.env.refusal ≠ none ∨
          ¬(s.seen tbl).Admits (draftEntry i actorId eventType t)) ∧
        (validateRoundingInvariants t.env.newId t.lines ≠ .ok () → t.env.refusal ≠ some .entry →
          ¬(s.seen tbl).Admits (draftEntry i actorId eventType t))) ∨
      ∃ e j, createEntry tbl i actorId eventType t s = (.error e, s.save tbl j) ∧
        e ≠ .integrityError ∧
        (validateRoundingInvariants t.env.newId t.lines ≠ .ok () ∧ t.env.refusal ≠ some .entry ∧
          (s.seen tbl).Admits (draftEntry i actorId eventType t)) ∧
        ∃ d, d.id = t.env.newId ∧ Ours i t d ∧ j.entries = (s.seen tbl).entries ++ [d] := by
  unfold createEntry
  by_cases hadm : (s.seen tbl).Admits (draftEntry i actorId eventType t)
  · by_cases hentry : t.env.refusal = some .entry
    · exact Or.inr (Or.inl ⟨by simp [hentry], Or.inl (by simp [hentry]),
        fun _ hne => absurd hentry hne⟩)
    · simp only [if_neg hentry, insert_of_admits hadm]
      cases hround : validateRoundingInvariants (draftEntry i actorId eventType t).id t.lines with
      | error e =>
          have hraises : validateRoundingInvariants t.env.newId t.lines ≠ .ok () := by
            rw [show validateRoundingInvariants t.env.newId t.lines = .error e from hround]
            simp
          refine Or.inr (Or.inr ⟨e, _, rfl, validateRoundingInvariants_ne hround,
            ⟨hraises, hentry, hadm⟩, ?_⟩)
          exact ⟨draftEntry i actorId eventType t, rfl, ⟨rfl, rfl, rfl⟩, rfl⟩
      | ok =>
          by_cases hlines : t.env.refusal = some .lines
          · exact Or.inr (Or.inl ⟨by simp [hlines], Or.inl (by simp [hlines]),
              fun hne => absurd hround hne⟩)
          · simp only [if_neg hlines]
            rw [finalizePosting_eq (by rfl), Session.seen_save, Session.save_save]
            by_cases hposting : t.env.refusal = some .posting
            · exact Or.inr (Or.inl ⟨by simp [hposting], Or.inl (by simp [hposting]),
                fun hne => absurd hround hne⟩)
            · have hnone : t.env.refusal = none := by
                cases h : t.env.refusal with
                | none => rfl
                | some point => cases point <;> contradiction
              have hlast := entries_addLines_last
                (entries_append (j := s.seen tbl) hadm) (t.lines.map toLine)
              have hpost := entries_post_last hlast t.env.postedAt
              exact Or.inl ⟨_, _, if_neg hposting, ⟨hnone, hadm⟩, hround, hpost, rfl,
                ⟨rfl, rfl, rfl⟩, rfl, rfl⟩
  · exact Or.inr (Or.inl ⟨by simp [Journal.insert, hadm], Or.inr hadm, fun _ _ => hadm⟩)

/-- The session the handler of `IntegrityError` selects in. -/
def afterConflict (tbl : Table σ Journal) (t : Turn) (s : Session σ) : Session σ :=
  observeAll tbl (observeAll tbl s t.env.beforeInsert).rollback t.env.afterRollback

/-- The session a turn leaves. -/
def Outcome.session : Outcome σ → Session σ
  | .counted _ s | .conflict s | .raised _ s => s

variable (tbl) in
/-- What a round of the loop does: it adds the posted entry; or it rolls back, and counts the
entry it then finds under the key or ends the call; or it raises and leaves a draft. -/
theorem writeLedger_cases (i : AccountingIntent) (actorId : UUID) (eventType : String) (t : Turn)
    (s : Session σ) :
    (¬Raises tbl i actorId eventType t s ∧ ¬Refused tbl i actorId eventType t s ∧
        ∃ e j, writeLedger tbl i actorId eventType t s =
            .counted e ((observeAll tbl s t.env.beforeInsert).save tbl j) ∧
          j.entries = ((observeAll tbl s t.env.beforeInsert).seen tbl).entries ++ [e] ∧
          e.id = t.env.newId ∧ Ours i t e ∧ Complete t e) ∨
      (¬Raises tbl i actorId eventType t s ∧ Refused tbl i actorId eventType t s ∧
        ((∃ e, ((afterConflict tbl t s).seen tbl).getExistingEntry (t.key i) = some e ∧
            writeLedger tbl i actorId eventType t s = .counted e (afterConflict tbl t s)) ∨
          ((afterConflict tbl t s).seen tbl).getExistingEntry (t.key i) = none ∧
            writeLedger tbl i actorId eventType t s = .conflict (afterConflict tbl t s))) ∨
      (Raises tbl i actorId eventType t s ∧
        ∃ err j d, writeLedger tbl i actorId eventType t s =
            .raised err ((observeAll tbl s t.env.beforeInsert).save tbl j) ∧
          j.entries = ((observeAll tbl s t.env.beforeInsert).seen tbl).entries ++ [d] ∧
          d.id = t.env.newId ∧ Ours i t d) := by
  rcases createEntry_cases tbl i actorId eventType t
      (observeAll tbl s t.env.beforeInsert) with
    ⟨e, j, h, hfree, hround, hj, hid, hours, hcomplete⟩ | ⟨h, hrefused, hround⟩ |
    ⟨err, j, h, hne, hraises, d, hid, hours, hj⟩
  · refine Or.inl ⟨fun hraises => hraises.1 hround, ?_, e, j, by simp only [writeLedger, h], hj, hid,
      hours, hcomplete⟩
    rintro (hr | hr)
    · exact hr hfree.1
    · exact hr hfree.2
  · refine Or.inr (Or.inl ⟨fun hraises => hround hraises.1 hraises.2.1 hraises.2.2, hrefused, ?_⟩)
    have hw : writeLedger tbl i actorId eventType t s =
        match ((afterConflict tbl t s).seen tbl).getExistingEntry (t.key i) with
        | some existing => .counted existing (afterConflict tbl t s)
        | none => .conflict (afterConflict tbl t s) := by
      simp only [writeLedger, h, Session.rollback_rollback, afterConflict]
    cases hfound : ((afterConflict tbl t s).seen tbl).getExistingEntry (t.key i) with
    | none => exact Or.inr ⟨rfl, by rw [hw, hfound]⟩
    | some e => exact Or.inl ⟨e, rfl, by rw [hw, hfound]⟩
  · refine Or.inr (Or.inr ⟨hraises, err, j, d, ?_, hj, hid, hours⟩)
    unfold writeLedger
    rw [h]
    cases err <;> first | rfl | contradiction

end FinanceAccounting.JournalWriter
