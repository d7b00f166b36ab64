import FinanceAccounting.Kernel.ModulePosting
import FinanceAccounting.Kernel.SubledgerControl

/-! # Posting with subledgers

After a journal write `post_subledger_entries` creates the rows of the subledgers in the same
transaction.  A ledger without a subledger service, without a journal entry or without an entity
in the payload is passed over.

The subledger rows refer to journal entries by a foreign key, so `Books` has them next to the
tables of the pipeline and `linked` to the journal. -/

namespace FinanceAccounting.SubledgerPosting

open Hashing (PyVal)
open JournalWriter (WrittenEntry)
open ModulePosting (Call PostingError Tables)
open Subledger
open UnitOfWork (Session Result)

/-! ### Tables -/

/-- What `uq_sl_entry_idempotency` makes unique; a row without a line is not constrained. -/
def rowKey (row : SubledgerEntry) : Option (UUID × String × String) :=
  row.sourceLineId.map fun line => (row.journalEntryId, row.subledgerType, line)

/-- The journal has an entry for the row. -/
def Linked (tables : Tables) (row : SubledgerEntry) : Prop :=
  row.journalEntryId ∈ tables.journal.entries.map (·.id)

instance (tables : Tables) (row : SubledgerEntry) : Decidable (Linked tables row) := by
  unfold Linked
  infer_instance

/-- The tables of the pipeline and `subledger_entries`. -/
structure Books where
  tables : Tables
  subledger : List SubledgerEntry
  linked : ∀ row ∈ subledger, Linked tables row
  keys_nodup : (subledger.filterMap rowKey).Nodup

namespace Books

/-- `INSERT`; `none` is an `IntegrityError`. -/
def insert (books : Books) (row : SubledgerEntry) : Option Books :=
  if h : Linked books.tables row ∧ ((books.subledger ++ [row]).filterMap rowKey).Nodup then
    some {
      tables := books.tables
      subledger := books.subledger ++ [row]
      linked := by
        intro r hr
        rcases List.mem_append.mp hr with hr | hr
        · exact books.linked r hr
        · rw [List.mem_singleton.mp hr]
          exact h.1
      keys_nodup := h.2 }
  else none

end Books

/-! ### The subledger services -/

/-- What is used of the standard library. -/
structure Builtins where
  /-- `str(value)` of a value that is no text. -/
  str : PyVal → String
  upper : String → String

def Builtins.text (b : Builtins) : PyVal → String
  | .scalar (.str s) => s
  | value => b.str value

/-- A service, by its name in messages and the document types it allows. -/
structure SubledgerService where
  name : String
  documentTypes : List String

/-- The services of the orchestrator. -/
def subledgerServices : SubledgerType → Option SubledgerService
  | .ap => some ⟨"AP", ["ADJUSTMENT", "CREDIT_MEMO", "INVOICE", "PAYMENT", "REVERSAL"]⟩
  | .ar => some ⟨"AR", ["ADJUSTMENT", "CREDIT_MEMO", "INVOICE", "PAYMENT", "REVERSAL"]⟩
  | .bank =>
      some ⟨"Bank", ["ADJUSTMENT", "BANK_FEE", "DEPOSIT", "INTEREST", "REVERSAL", "TRANSFER",
        "WITHDRAWAL"]⟩
  | .inventory =>
      some ⟨"Inventory", ["ADJUSTMENT", "ISSUE", "RECEIPT", "REVALUATION", "REVERSAL",
        "TRANSFER"]⟩
  | .wip => some ⟨"Contract", ["ADJUSTMENT", "BILLING", "COST_INCURRENCE", "FEE", "REVERSAL"]⟩
  | .fixedAssets | .payroll | .intercompany => none

/-- `_ENTITY_ID_FIELDS`. -/
def entityIdFields : SubledgerType → List String
  | .ap => ["vendor_id", "supplier_id"]
  | .ar => ["customer_id"]
  | .inventory => ["item_id", "sku", "inventory_item_id"]
  | .bank => ["bank_account_id", "account_id"]
  | .wip => ["contract_id"]
  | .fixedAssets | .payroll | .intercompany => []

def resolveEntityId (b : Builtins) (t : SubledgerType) (payload : List (String × PyVal)) :
    Option String :=
  (entityIdFields t).findSome? fun field =>
    match ModulePosting.lookup payload field with
    | .none => none
    | value => some (b.text value)

/-- The part of the event type after its last point. -/
def deriveSourceDocumentType (b : Builtins) (eventType : String) : String :=
  b.upper ((eventType.splitOn ".").getLastD eventType)

/-- Exceptions of a call. -/
inductive Raised where
  | posting (e : PostingError)
  | valueError (message : String)
  | integrityError

/-- `repr` of a list of plain texts. -/
def listText (xs : List String) : String :=
  "[" ++ ", ".intercalate (xs.map fun x => "'" ++ x ++ "'") ++ "]"

/-- `validate_entry`. -/
def validateEntry (row : SubledgerEntry) : List String :=
  (if row.subledgerType = "" then ["Subledger type is required"] else []) ++
    (if row.entityId = "" then ["Entity ID is required"] else []) ++
    (if row.sourceDocumentType = "" then ["Source document type is required"] else []) ++
    (if row.sourceDocumentId = "" then ["Source document ID is required"] else []) ++
    (if (row.debitAmount <|> row.creditAmount).getD 0 = 0 then ["Amount cannot be zero"] else [])

/-- `_post_entry`: a refused row rolls back, and its handler is content with a row that is there
already. -/
def postEntry (row : SubledgerEntry) (s : Session Books) : Result Raised Books Unit :=
  match s.current.insert row with
  | some books => (.ok (), s.flush books)
  | none =>
      let s := s.rollback
      if s.current.subledger.any fun existing =>
          existing.journalEntryId = row.journalEntryId &&
            existing.subledgerType = row.subledgerType &&
            existing.sourceLineId = row.sourceLineId then
        (.ok (), s)
      else (.error .integrityError, s)

/-- `post` of a service. -/
def SubledgerService.post (svc : SubledgerService) (row : SubledgerEntry) (s : Session Books) :
    Result Raised Books Unit :=
  let errors := validateEntry row
  if errors ≠ [] then
    (.error (.valueError (svc.name ++ " subledger entry validation failed: " ++ listText errors)), s)
  else if row.sourceDocumentType ∉ svc.documentTypes then
    (.error (.valueError ("Invalid " ++ svc.name ++ " source document type: " ++
      row.sourceDocumentType ++ ". Allowed: " ++ listText svc.documentTypes)), s)
  else postEntry row s

/-! ### The bridge -/

/-- The entry written for a ledger. -/
def entryIdByLedger (written : List WrittenEntry) (ledgerId : String) : Option UUID :=
  (written.reverse.find? (·.ledgerId = ledgerId)).map (·.entryId)

def toRow (b : Builtins) (c : Call) (i : AccountingIntent) (t : SubledgerType) (entityId : String)
    (journalEntryId : UUID) (line : IntentLine) (lineIdx : ℕ) : SubledgerEntry where
  subledgerType := t.value
  entityId := entityId
  journalEntryId := journalEntryId
  sourceDocumentType := deriveSourceDocumentType b c.request.event.eventType
  sourceDocumentId := c.eventId.str
  sourceLineId := some (toString lineIdx)
  debitAmount := if line.side = .debit then some line.amount.toRat else none
  creditAmount := if line.side = .debit then none else some line.amount.toRat
  currency := line.currency
  effectiveDate := i.effectiveDate

/-- The rows of a ledger, one for each line, with the service that posts them. -/
def ledgerRows (b : Builtins) (c : Call) (i : AccountingIntent) (written : List WrittenEntry)
    (l : LedgerIntent) : List (SubledgerService × SubledgerEntry) :=
  match SubledgerType.ofValue l.ledgerId with
  | none => []
  | some t =>
      match subledgerServices t, entryIdByLedger written l.ledgerId,
        resolveEntityId b t c.payload with
      | some svc, some journalEntryId, some entityId =>
          l.lines.zipIdx.map fun p => (svc, toRow b c i t entityId journalEntryId p.1 p.2)
      | _, _, _ => []

/-- Post the rows in order. -/
def postRows : List (SubledgerService × SubledgerEntry) → Session Books → Result Raised Books Unit
  | [], s => (.ok (), s)
  | p :: ps, s => (p.1.post p.2 s).andThen fun _ s => postRows ps s

/-- `post_subledger_entries`. -/
def postSubledgerEntries (b : Builtins) (c : Call) (i : AccountingIntent)
    (written : List WrittenEntry) (s : Session Books) : Result Raised Books Unit :=
  postRows (i.ledgerIntents.flatMap (ledgerRows b c i written)) s

end FinanceAccounting.SubledgerPosting
