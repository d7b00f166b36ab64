import FinanceAccounting.Kernel.Journal
import FinanceAccounting.Kernel.LinkGraph
import FinanceAccounting.Kernel.Periods

/-! # Corrections

`CorrectionEngine` plans the correction of a document and executes the plan.  A plan is built by
a breadth-first traversal of the downstream links from the root: every artifact it meets is
recorded with its journal entries and with the reason why it cannot be unwound, if there is one,
and for every artifact that can be unwound a compensating entry is generated.  An execution hands
the compensating entries to the writer and then links every unwound artifact to the correcting
journal entry by CORRECTED_BY.

The correcting entry is referred to by the text of the event's identifier.  In the interpreter a
text is never equal to an identifier, so a link from that entry to itself passes for a link
between two artifacts; once stored it cannot be read any more.  The store keeps such rows apart,
in `unreadable`. -/

namespace FinanceAccounting.Correction

open LinkGraph (ArtifactRef ArtifactType LinkType EconomicLink LinkTable LinkError)
open Journal (LineSide)
open Periods (PeriodTable PeriodError)
open UnitOfWork (Session Result)

/-! ### Domain objects -/

inductive CorrectionType where
  | void
  | adjust
  | reclass
  | periodCorrect
deriving DecidableEq, Repr

def CorrectionType.value : CorrectionType → String
  | void => "void"
  | adjust => "adjust"
  | reclass => "reclass"
  | periodCorrect => "period"

inductive UnwindStrategy where
  | cascade
  | stopAtPosted
  | selective
  | dryRun
deriving DecidableEq, Repr

inductive CorrectionError where
  | valueError (message : String)
  | decimalSignal (signal : Decimal.Signal)
  | alreadyCorrected (documentRef correctionRef : String)
  | unwindDepthExceeded (rootRef : String) (maxDepth reachedDepth : ℤ)
  | cascadeBlocked (rootRef blockedRef reason : String) (depth : ℕ)
  | period (e : PeriodError)
  | link (e : LinkError)
  | writer (message : String)

/-- A line of a journal entry: account, money, side and identifier. -/
structure GLLine where
  accountId : String
  amount : Decimal
  currency : String
  isDebit : Bool
  lineId : UUID
deriving DecidableEq

structure GLEntry where
  entryId : UUID
  lines : List GLLine
deriving DecidableEq

/-- The journal entries of artifacts.  They come from one journal: an entry has the same lines
whichever artifact it is looked up for. -/
structure GLEntryLookup where
  entries : ArtifactRef → List GLEntry
  consistent : ∀ a b, ∀ e ∈ entries a, ∀ e' ∈ entries b, e.entryId = e'.entryId → e = e'

structure CompensatingLine where
  accountId : String
  amount : Decimal
  currency : String
  isDebit : Bool
  originalLineId : UUID
  memo : String
deriving DecidableEq

def CompensatingLine.reverseLine (line : GLLine) : CompensatingLine where
  accountId := line.accountId
  amount := line.amount
  currency := line.currency
  isDebit := !line.isDebit
  originalLineId := line.lineId
  memo := "Reversal of line " ++ line.lineId.str

/-- The rounded total of one side. -/
def sideTotal (lines : List CompensatingLine) (isDebit : Bool) : Except Decimal.Signal Decimal :=
  Decimal.sum Hashing.defaultContext
    ((lines.filter fun l => l.isDebit = isDebit).map CompensatingLine.amount)

/-- Debits equal credits, whatever the currencies. -/
def Balanced (lines : List CompensatingLine) : Prop :=
  ∃ debits credits, sideTotal lines true = .ok debits ∧ sideTotal lines false = .ok credits ∧
    debits.numEq credits = true

/-- An entry that passed `__post_init__`. -/
structure CompensatingEntry where
  artifactRef : ArtifactRef
  originalEntryId : UUID
  lines : List CompensatingLine
  postingDate : Date
  effectiveDate : Date
  memo : String
  correctionType : CorrectionType
  lines_ne_nil : lines ≠ []
  balanced : Balanced lines

/-- The checks of `__post_init__`. -/
def checkLines (lines : List CompensatingLine) :
    Except CorrectionError { ls : List CompensatingLine // ls ≠ [] ∧ Balanced ls } :=
  if hne : lines = [] then .error (.valueError "Compensating entry must have at least one line")
  else
    match hdebits : sideTotal lines true, hcredits : sideTotal lines false with
    | .error signal, _ => .error (.decimalSignal signal)
    | _, .error signal => .error (.decimalSignal signal)
    | .ok debits, .ok credits =>
        if heq : debits.numEq credits = true then
          .ok ⟨lines, hne, debits, credits, hdebits, hcredits, heq⟩
        else
          .error (.valueError ("Compensating entry unbalanced: debits=" ++
            String.ofList debits.toChars ++ ", credits=" ++ String.ofList credits.toChars))

structure AffectedArtifact where
  ref : ArtifactRef
  depth : ℕ
  pathFromRoot : List ArtifactRef
  originalGlEntries : List UUID
  linkTypeFollowed : Option String
  canUnwind : Bool
  blockReason : Option String

def AffectedArtifact.hasGlImpact (a : AffectedArtifact) : Bool := 0 < a.originalGlEntries.length

def AffectedArtifact.root (ref : ArtifactRef) (glEntries : List UUID) : AffectedArtifact where
  ref := ref
  depth := 0
  pathFromRoot := [ref]
  originalGlEntries := glEntries
  linkTypeFollowed := none
  canUnwind := true
  blockReason := none

def AffectedArtifact.downstream (ref : ArtifactRef) (parent : AffectedArtifact)
    (linkType : LinkType) (glEntries : List UUID) (blockReason : Option String) :
    AffectedArtifact where
  ref := ref
  depth := parent.depth + 1
  pathFromRoot := parent.pathFromRoot ++ [ref]
  originalGlEntries := glEntries
  linkTypeFollowed := some linkType.value
  canUnwind := blockReason.isNone
  blockReason := blockReason

/-- A plan whose first artifact is the root. -/
structure UnwindPlan where
  rootRef : ArtifactRef
  strategy : UnwindStrategy
  correctionType : CorrectionType
  affectedArtifacts : List AffectedArtifact
  compensatingEntries : List CompensatingEntry
  createdAt : Datetime
  maxDepthReached : ℕ
  warnings : List String
  head_root : affectedArtifacts.head?.map AffectedArtifact.ref = some rootRef

namespace UnwindPlan

def blockedArtifacts (plan : UnwindPlan) : List AffectedArtifact :=
  plan.affectedArtifacts.filter fun a => !a.canUnwind

/-- The artifacts marked for unwinding. -/
def unwound (plan : UnwindPlan) : List AffectedArtifact :=
  plan.affectedArtifacts.filter AffectedArtifact.canUnwind

def isDryRun (plan : UnwindPlan) : Bool := plan.strategy = .dryRun

def canExecute (plan : UnwindPlan) : Bool :=
  if plan.strategy = .dryRun then false
  else if plan.strategy = .cascade && !plan.blockedArtifacts.isEmpty then false
  else true

end UnwindPlan

/-! ### The engine -/

/-- What `JournalSelector` returns. -/
structure JournalLineDTO where
  id : UUID
  accountId : UUID
  side : LineSide
  amount : Decimal
  currency : String

structure JournalEntryDTO where
  id : UUID
  sourceEventId : UUID
  effectiveDate : Date
  seq : ℕ
  lines : List JournalLineDTO

/-- The journal with its primary key. -/
structure JournalView where
  entries : List JournalEntryDTO
  ids_nodup : (entries.map (·.id)).Nodup

def JournalView.getEntry (j : JournalView) (id : UUID) : Option JournalEntryDTO :=
  j.entries.find? fun e => e.id = id

/-- In the order of `seq`. -/
def JournalView.getEntriesByEvent (j : JournalView) (eventId : UUID) : List JournalEntryDTO :=
  (j.entries.filter fun e => e.sourceEventId = eventId).insertionSort fun a b => a.seq ≤ b.seq

def entryToTuples (e : JournalEntryDTO) : GLEntry where
  entryId := e.id
  lines := e.lines.map fun l =>
    { accountId := l.accountId.str
      amount := l.amount
      currency := l.currency
      isDebit := l.side = .debit
      lineId := l.id }

/-- The entries that the default lookup returns. -/
def defaultEntries (j : JournalView) (ref : ArtifactRef) : List GLEntry :=
  match ref.artifactType with
  | .journalEntry => ((j.getEntry ref.artifactId).map entryToTuples).toList
  | .event => (j.getEntriesByEvent ref.artifactId).map entryToTuples
  | _ => []

theorem mem_defaultEntries {j : JournalView} {ref : ArtifactRef} {e : GLEntry}
    (h : e ∈ defaultEntries j ref) : ∃ dto ∈ j.entries, e = entryToTuples dto := by
  unfold defaultEntries at h
  split at h
  · obtain ⟨dto, hdto, rfl⟩ := Option.map_eq_some_iff.mp (Option.mem_toList.mp h)
    exact ⟨dto, List.mem_of_find?_eq_some hdto, rfl⟩
  · obtain ⟨dto, hdto, rfl⟩ := List.mem_map.mp h
    have hmem := (List.mem_insertionSort _).mp hdto
    exact ⟨dto, (List.mem_filter.mp hmem).1, rfl⟩
  · cases h

def defaultGlLookup (j : JournalView) : GLEntryLookup where
  entries := defaultEntries j
  consistent a b e he e' he' heq := by
    obtain ⟨dto, hdto, rfl⟩ := mem_defaultEntries he
    obtain ⟨dto', hdto', rfl⟩ := mem_defaultEntries he'
    exact congrArg entryToTuples (List.inj_on_of_nodup_map j.ids_nodup hdto hdto' heq)

/-- The engine over the journal; without a period service there is no check of periods. -/
structure CorrectionEngine where
  glEntryLookup : Option GLEntryLookup
  journal : JournalView
  periods : Option PeriodTable

namespace CorrectionEngine

variable (engine : CorrectionEngine)

def lookup : GLEntryLookup := engine.glEntryLookup.getD (defaultGlLookup engine.journal)

def getGlEntries (ref : ArtifactRef) : List UUID :=
  (engine.lookup.entries ref).map GLEntry.entryId

def getEffectiveDate (ref : ArtifactRef) : Option Date :=
  match ref.artifactType with
  | .journalEntry | .event =>
      (engine.journal.getEntry ref.artifactId).map JournalEntryDTO.effectiveDate
  | _ => none

end CorrectionEngine

def findReversal (links : LinkTable) (ref : ArtifactRef) : Option EconomicLink :=
  (LinkGraph.getChildren links ref .reversedBy).head?

def findCorrection (links : LinkTable) (ref : ArtifactRef) : Option EconomicLink :=
  (LinkGraph.getChildren links ref .correctedBy).head?

/-- `DOWNSTREAM_LINK_TYPES`. -/
def downstreamLinkTypes : List LinkType :=
  [.fulfilledBy, .sourcedFrom, .derivedFrom, .consumedBy, .paidBy]

def downstreamChildren (links : LinkTable) (ref : ArtifactRef) : List EconomicLink :=
  links.filter fun l => l.parentRef = ref && l.linkType ∈ downstreamLinkTypes

namespace CorrectionEngine

variable (engine : CorrectionEngine) (links : LinkTable)

/-- The reason why an artifact cannot be unwound, if there is one. -/
def checkCanUnwind (ref : ArtifactRef) : Except CorrectionError (Option String) :=
  match findCorrection links ref with
  | some correction => .ok (some ("Already corrected by " ++ correction.childRef.str))
  | none =>
      match findReversal links ref with
      | some reversal => .ok (some ("Already reversed by " ++ reversal.childRef.str))
      | none =>
          match engine.periods, engine.getEffectiveDate ref with
          | some periods, some effectiveDate =>
              match Periods.validateEffectiveDate periods effectiveDate false with
              | .ok () => .ok none
              | .error (.closedPeriod code _) => .ok (some ("Period " ++ code ++ " is closed"))
              | .error (.periodNotFound _) => .ok none
              | .error e => .error (.period e)
          | _, _ => .ok none

/-! ### Traversal -/

/-- The loop over the links of one parent: the artifacts met for the first time, and the references
visited so far. -/
def visitChildren (parent : AffectedArtifact) :
    List EconomicLink → List ArtifactRef →
      Except CorrectionError (List AffectedArtifact × List ArtifactRef)
  | [], visited => .ok ([], visited)
  | link :: links', visited =>
      if link.childRef ∈ visited then visitChildren parent links' visited
      else
        match engine.checkCanUnwind links link.childRef with
        | .error e => .error e
        | .ok blockReason =>
            let child := AffectedArtifact.downstream link.childRef parent link.linkType
              (engine.getGlEntries link.childRef) blockReason
            (visitChildren parent links' (link.childRef :: visited)).map fun r =>
              (child :: r.1, r.2)

/-- The loop over the artifacts of one level. -/
def visitLevel : List AffectedArtifact → List ArtifactRef →
    Except CorrectionError (List AffectedArtifact × List ArtifactRef)
  | [], visited => .ok ([], visited)
  | parent :: parents, visited =>
      match engine.visitChildren links parent (downstreamChildren links parent.ref) visited with
      | .error e => .error e
      | .ok (children, visited') =>
          (visitLevel parents visited').map fun r => (children ++ r.1, r.2)

/-- The levels below a level, at most `depth` of them. -/
def visitLevels : ℕ → List AffectedArtifact → List ArtifactRef →
    Except CorrectionError (List AffectedArtifact)
  | 0, _, _ => .ok []
  | depth + 1, level, visited =>
      match engine.visitLevel links level visited with
      | .error e => .error e
      | .ok (next, visited') =>
          if next.isEmpty then .ok []
          else (visitLevels depth next visited').map fun below => next ++ below

def rootArtifact (rootRef : ArtifactRef) : AffectedArtifact :=
  AffectedArtifact.root rootRef (engine.getGlEntries rootRef)

/-- The artifacts below the root. -/
def traverseDownstream (rootRef : ArtifactRef) (maxDepth : ℤ) :
    Except CorrectionError (List AffectedArtifact) :=
  engine.visitLevels links maxDepth.toNat [engine.rootArtifact rootRef] [rootRef]

/-! ### Plans -/

structure Request where
  rootRef : ArtifactRef
  strategy : UnwindStrategy
  correctionType : CorrectionType
  maxDepth : Option ℤ
  postingDate : Option Date
  effectiveDate : Option Date
  now : Datetime

/-- `max_depth or DEFAULT_MAX_DEPTH`. -/
def Request.depth (request : Request) : ℤ :=
  match request.maxDepth with
  | none => 10
  | some depth => if depth = 0 then 10 else depth

/-- The reversal of an entry for an artifact. -/
def createReversal (request : Request) (ref : ArtifactRef) (entry : GLEntry) :
    Except CorrectionError CompensatingEntry :=
  (checkLines (entry.lines.map CompensatingLine.reverseLine)).map fun lines =>
    { artifactRef := ref
      originalEntryId := entry.entryId
      lines := lines.val
      postingDate := request.postingDate.getD request.now.date
      effectiveDate := request.effectiveDate.getD request.now.date
      memo := "Correction of " ++ ref.str
      correctionType := request.correctionType
      lines_ne_nil := lines.property.1
      balanced := lines.property.2 }

/-- Only the first entry of an artifact is reversed. -/
def generateCompensatingEntry (request : Request) (artifact : AffectedArtifact) :
    Except CorrectionError (Option CompensatingEntry) :=
  if artifact.hasGlImpact then
    match engine.lookup.entries artifact.ref with
    | [] => .ok none
    | entry :: _ =>
        if entry.lines.isEmpty then .ok none
        else (createReversal request artifact.ref entry).map some
  else .ok none

/-- The loop over the affected artifacts. -/
def generateEntries (request : Request) :
    List AffectedArtifact → Except CorrectionError (List CompensatingEntry)
  | [] => .ok []
  | artifact :: artifacts =>
      if artifact.canUnwind && artifact.hasGlImpact then
        match engine.generateCompensatingEntry request artifact with
        | .error e => .error e
        | .ok entry =>
            (generateEntries request artifacts).map fun entries => entry.toList ++ entries
      else generateEntries request artifacts

/-- There are links below the deepest level that was visited. -/
def depthExceeded (maxDepth : ℤ) (affected : List AffectedArtifact) : Bool :=
  maxDepth ≤ (affected.map AffectedArtifact.depth).foldr max 0 &&
    affected.any fun a => (a.depth : ℤ) = maxDepth && !(downstreamChildren links a.ref).isEmpty

def warning (a : AffectedArtifact) : String :=
  "Cannot unwind " ++ a.ref.str ++ ": " ++ a.blockReason.getD "None"

/-- The plan for artifacts of which the first is the root. -/
def createPlan (request : Request) (below : List AffectedArtifact)
    (entries : List CompensatingEntry) : UnwindPlan where
  rootRef := request.rootRef
  strategy := request.strategy
  correctionType := request.correctionType
  affectedArtifacts := engine.rootArtifact request.rootRef :: below
  compensatingEntries := entries
  createdAt := request.now
  maxDepthReached :=
    ((engine.rootArtifact request.rootRef :: below).map AffectedArtifact.depth).foldr max 0
  warnings := ((engine.rootArtifact request.rootRef :: below).filter fun a => !a.canUnwind).map warning
  head_root := rfl

def buildUnwindPlan (request : Request) : Except CorrectionError UnwindPlan :=
  match findCorrection links request.rootRef with
  | some correction =>
      .error (.alreadyCorrected request.rootRef.str correction.childRef.str)
  | none =>
      match engine.traverseDownstream links request.rootRef request.depth with
      | .error e => .error e
      | .ok below =>
          let affected := engine.rootArtifact request.rootRef :: below
          if depthExceeded links request.depth affected then
            .error (.unwindDepthExceeded request.rootRef.str request.depth
              ((affected.map AffectedArtifact.depth).foldr max 0 + 1))
          else if request.strategy = .dryRun then .ok (engine.createPlan request below [])
          else (engine.generateEntries request affected).map (engine.createPlan request below)

end CorrectionEngine

/-! ### Execution -/

/-- A CORRECTED_BY link as the engine makes it. -/
structure CorrectionLink where
  linkId : UUID
  parentRef : ArtifactRef
  childRef : ArtifactRef
  creatingEventId : UUID
  createdAt : Datetime
  metadata : List (String × Hashing.PyVal)

/-- The links, the rows that cannot be read back, and what the writer has written. -/
structure Store where
  links : LinkTable
  unreadable : List CorrectionLink
  written : List CompensatingEntry

/-- A row with an artifact of a search as its parent. -/
def Store.unreadableAmong (store : Store) (visited : List String) : Option CorrectionLink :=
  store.unreadable.find? fun row => row.parentRef.str ∈ visited

def Store.countUnreadable (store : Store) (parentRef : ArtifactRef) : ℕ :=
  store.unreadable.countP fun row => row.parentRef = parentRef

structure Execution where
  actorId : String
  creatingEventId : UUID
  journalEntryWriter : Option (CompensatingEntry → Except String UUID)
  recursionLimit : ℕ
  now : Datetime
  uuid4 : ℕ → UUID

structure CorrectionResult where
  plan : UnwindPlan
  journalEntriesCreated : List UUID
  linksCreated : List CorrectionLink
  executedAt : Datetime
  actorId : String
  executionEventId : UUID

namespace Execution

variable (x : Execution)

/-- The correcting journal entry. -/
def correctionDocRef : ArtifactRef := ⟨.journalEntry, x.creatingEventId⟩

/-- The loop that creates the journal entries; without a writer nothing is written. -/
def writeEntries (s : Session Store) :
    List CompensatingEntry → Result CorrectionError Store (List UUID)
  | [] => (.ok [], s)
  | entry :: entries =>
      match x.journalEntryWriter with
      | none => writeEntries s entries
      | some writer =>
          match writer entry with
          | .error e => (.error (.writer e), s)
          | .ok entryId =>
              (writeEntries (s.flush { s.current with written := s.current.written ++ [entry] })
                entries).andThen fun ids s => (.ok (entryId :: ids), s)

def linkOf (plan : UnwindPlan) (n : ℕ) (artifact : AffectedArtifact) : CorrectionLink where
  linkId := x.uuid4 n
  parentRef := artifact.ref
  childRef := x.correctionDocRef
  creatingEventId := x.creatingEventId
  createdAt := x.now
  metadata :=
    [("correction_type", .scalar (.str plan.correctionType.value)), ("depth", .int artifact.depth),
      ("actor_id", .scalar (.str x.actorId)),
      ("plan_artifacts_count", .int plan.affectedArtifacts.length)]

/-- The exception of reading a row that links the correcting entry to itself. -/
def selfLinkError (ref : ArtifactRef) : CorrectionError :=
  .valueError ("Self-link not allowed: parent and child are both " ++ ref.str)

/-- The artifacts whose children the search for a cycle has read. -/
def searched (links : LinkTable) (link : EconomicLink) : List String :=
  match GraphSearch.search (LinkGraph.childRefs links .correctedBy) ArtifactRef.str link.parentRef
      x.recursionLimit link.childRef ⟨[], []⟩ with
  | some (_, search) => search.visited.filter fun key => key ≠ link.parentRef.str
  | none => []

/-- `establish_link` for a link whose ends differ. -/
def establishOther (s : Session Store) (link : CorrectionLink) :
    Result CorrectionError Store Bool :=
  match EconomicLink.create link.linkId .correctedBy link.parentRef link.childRef
      link.creatingEventId link.createdAt (some link.metadata) with
  | .error e => (.error (.valueError e), s)
  | .ok l =>
      match LinkGraph.findExistingLink s.current.links l with
      | some _ => (.ok false, s)
      | none =>
          match s.current.unreadableAmong (x.searched s.current.links l) with
          | some row => (.error (selfLinkError row.parentRef), s)
          | none =>
              -- the rows are counted without being read
              if (LinkGraph.checkAcyclic x.recursionLimit s.current.links l).toBool &&
                  0 < s.current.countUnreadable link.parentRef then
                (.error (.link (.maxChildrenExceeded LinkType.correctedBy.value
                  link.parentRef.str 1 (s.current.countUnreadable link.parentRef +
                    LinkGraph.countChildren s.current.links link.parentRef .correctedBy))), s)
              else
                match LinkGraph.establishIn Store.links x.recursionLimit s l true
                    { s.current with links := s.current.links ++ [LinkGraph.fromDomain l] } with
                | (.ok result, s) => (.ok !result.wasDuplicate, s)
                | (.error e, s) => (.error (.link e), s)

/-- The search for a cycle from the correcting entry to itself: the start counts as visited, but
not as found. -/
def searchSelf (links : LinkTable) (ref : ArtifactRef) :
    GraphSearch.SearchResult ArtifactRef String :=
  match x.recursionLimit with
  | 0 => none
  | depth + 1 =>
      GraphSearch.searchAny
        (GraphSearch.search (LinkGraph.childRefs links .correctedBy) ArtifactRef.str ref depth)
        (LinkGraph.childRefs links .correctedBy ref) ⟨[ref.str], [ref]⟩

/-- `establish_link` for a link from the correcting entry to itself. -/
def establishSelf (s : Session Store) (link : CorrectionLink) : Result CorrectionError Store Bool :=
  if 0 < s.current.countUnreadable link.parentRef then
    (.error (selfLinkError link.parentRef), s)
  else
    match x.searchSelf s.current.links link.parentRef with
    | none => (.error (.link .recursionError), s)
    | some (_, search) =>
        match s.current.unreadableAmong search.visited with
        | some row => (.error (selfLinkError row.parentRef), s)
        | none =>
            if 0 < LinkGraph.countChildren s.current.links link.parentRef .correctedBy then
              (.error (.link (.maxChildrenExceeded LinkType.correctedBy.value link.parentRef.str 1
                (LinkGraph.countChildren s.current.links link.parentRef .correctedBy))), s)
            else if s.current.links.any fun l => l.linkId = link.linkId then
              (.error (.link (.duplicateLink LinkType.correctedBy.value link.parentRef.str
                link.childRef.str)), s.rollback)
            else
              (.ok true, s.flush { s.current with unreadable := s.current.unreadable ++ [link] })

def establish (s : Session Store) (link : CorrectionLink) : Result CorrectionError Store Bool :=
  if link.parentRef = link.childRef then x.establishSelf s link else x.establishOther s link

/-- The loop that links the artifacts. -/
def establishLinks (plan : UnwindPlan) :
    Session Store → ℕ → List AffectedArtifact → Result CorrectionError Store (List CorrectionLink)
  | s, _, [] => (.ok [], s)
  | s, n, artifact :: artifacts =>
      if artifact.canUnwind then
        (x.establish s (x.linkOf plan n artifact)).andThen fun isNew s =>
          (establishLinks plan s (n + 1) artifacts).andThen fun links s =>
            (.ok (if isNew then x.linkOf plan n artifact :: links else links), s)
      else establishLinks plan s n artifacts

def executeCorrection (s : Session Store) (plan : UnwindPlan) :
    Result CorrectionError Store CorrectionResult :=
  if plan.isDryRun then (.error (.valueError "Cannot execute a dry run plan"), s)
  else
    match plan.canExecute, plan.blockedArtifacts with
    | false, blocked :: _ =>
        (.error (.cascadeBlocked plan.rootRef.str blocked.ref.str
          (blocked.blockReason.getD "Unknown reason") blocked.depth), s)
    | _, _ =>
        if 0 < s.current.countUnreadable plan.rootRef then (.error (selfLinkError plan.rootRef), s)
        else
          match findCorrection s.current.links plan.rootRef with
          | some correction =>
              (.error (.alreadyCorrected plan.rootRef.str correction.childRef.str), s)
          | none =>
              (x.writeEntries s plan.compensatingEntries).andThen fun ids s =>
                (x.establishLinks plan s 0 plan.affectedArtifacts).andThen fun links s =>
                  (.ok
                    { plan := plan
                      journalEntriesCreated := ids
                      linksCreated := links
                      executedAt := x.now
                      actorId := x.actorId
                      executionEventId := x.creatingEventId }, s)

end Execution

end FinanceAccounting.Correction
