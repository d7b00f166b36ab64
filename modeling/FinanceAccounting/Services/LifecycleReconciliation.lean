import Mathlib.Data.Rat.Cast.Order
import FinanceAccounting.Library.DepthFirst
import FinanceAccounting.Engines.LifecycleChecks
import FinanceAccounting.Kernel.LinkGraph
import FinanceAccounting.Kernel.Reversal

/-! # Lifecycle reconciliation

`LifecycleReconciliationService`: `build_chain` walks the stored links downwards from a root and
makes a node of each artifact it enters from the posted journal entry of its event;
`check_artifact` runs the lifecycle checks on the chain.

The walk is a depth-first traversal (`walk_eq`).  `_build_node` sets neither the amount nor the
role bindings of a node, so that of the errors promised for an artifact (`Faulty`) the checks find
only the missing journal entries, and these only at links the walk has crossed
(`error_iff_of_checkArtifact`).  `catches_iff` says exactly for which stored links and entries the
promise is kept. -/

namespace FinanceAccounting.LifecycleReconciliation

open DepthFirst (Trail visit)
open Hashing (PyVal)
open Journal (JournalEntry)
open LifecycleChecks (LifecycleChain LifecycleCheckResult LifecycleEdge LifecycleNode Texts
  runAllChecks)
open LinkGraph (ArtifactRef EconomicLink LinkTable LinkType)
open Relation (ReflTransGen)
open Valuation (Money)

/-! ### The service -/

/-- The settings of the service.  `moneyOf raw currency` reads
`Money.of(Decimal(str(raw)), str(currency))`, `none` when that raises. -/
structure Service where
  texts : Texts
  moneyOf : PyVal → PyVal → Option Money
  agingThresholdDays : ℤ := 90
  amountTolerance : ℚ := 1 / 100
  recursionLimit : ℕ := 1000

/-- `get_posted_entry_by_event`. -/
def getPostedEntryByEvent (journal : Journal) (eventId : UUID) : Option JournalEntry :=
  journal.entries.find? fun e => e.sourceEventId = eventId ∧ e.status = .posted

/-- `LinkGraphService.get_children`, of every link type. -/
def getChildren (table : LinkTable) (parentRef : ArtifactRef) : List EconomicLink :=
  table.filter (·.parentRef = parentRef)

/-- `_build_node`. -/
def buildNode (journal : Journal) (ref : ArtifactRef) : LifecycleNode :=
  match getPostedEntryByEvent journal ref.artifactId with
  | none => { artifactRef := ref }
  | some dto =>
      { artifactRef := ref
        journalEntryId := some dto.id
        eventType := some dto.sourceEventType
        effectiveDate := some dto.effectiveDate
        postedAt := dto.postedAt
        coaVersion := dto.coaVersion
        dimensionSchemaVersion := dto.dimensionSchemaVersion
        roundingPolicyVersion := dto.roundingPolicyVersion
        currencyRegistryVersion := dto.currencyRegistryVersion
        postingRuleVersion := some dto.postingRuleVersion }

namespace Service

variable (service : Service)

/-- `_extract_amount`: the first of three keys whose value can be read as an amount. -/
def extractAmount (link : EconomicLink) : Option Money :=
  match link.metadata with
  | none => none
  | some metadata =>
      ["amount_applied", "amount", "total_amount"].findSome? fun key =>
        match metadata.lookup key with
        | none | some .none => none
        | some raw =>
            service.moneyOf raw ((metadata.lookup "currency").getD (.scalar (.str "USD")))

def buildEdge (link : EconomicLink) : LifecycleEdge where
  linkType := link.linkType
  parentRef := link.parentRef
  childRef := link.childRef
  linkAmount := service.extractAmount link
  createdAt := some link.createdAt

end Service

/-- The set and the lists that `_walk` adds to. -/
structure WalkState where
  visited : List ArtifactRef
  nodes : List LifecycleNode
  edges : List LifecycleEdge

section Walk

variable (service : Service) (table : LinkTable) (journal : Journal)

/-- `_walk`; `none` when the recursion is deeper than its limit. -/
def walk : ℕ → ArtifactRef → WalkState → Option WalkState
  | 0, _, _ => none
  | limit + 1, ref, state =>
      if ref ∈ state.visited then some state
      else (getChildren table ref).foldlM
        (fun state link =>
          walk limit link.childRef { state with edges := state.edges ++ [service.buildEdge link] })
        { state with
          visited := state.visited ++ [ref]
          nodes := state.nodes ++ [buildNode journal ref] }

/-- `build_chain`. -/
def buildChain (rootRef : ArtifactRef) : Option LifecycleChain :=
  (walk service table journal service.recursionLimit rootRef ⟨[], [], []⟩).map fun state =>
    { rootRef := rootRef, nodes := state.nodes, edges := state.edges }

inductive CheckError where
  | recursionError
deriving DecidableEq, Repr

/-- `check_artifact`. -/
def checkArtifact (rootRef : ArtifactRef) (asOfDate : Option Date) (now : Datetime) :
    Except CheckError LifecycleCheckResult :=
  match buildChain service table journal rootRef with
  | none => .error .recursionError
  | some chain =>
      .ok (runAllChecks service.texts chain (asOfDate.getD now.date) service.agingThresholdDays
        service.amountTolerance)

end Walk

/-! ### What the checks promise -/

section Promise

variable (service : Service) (table : LinkTable) (journal : Journal)
variable (roles : JournalEntry → List (String × UUID)) (ref : ArtifactRef)

/-- The debits of an entry in a currency. -/
def postedAmount (entry : JournalEntry) (currency : String) : ℚ :=
  ((entry.lines.filter fun line => line.side = .debit ∧ line.currency = currency).map
    (·.amount.toRat)).sum

/-- The amounts of links in a currency. -/
def linkAmounts (links : List EconomicLink) (currency : String) : ℚ :=
  (((links.filterMap service.extractAmount).filter (·.currency = currency)).map (·.amount)).sum

/-- RC-3: the children of an artifact consume more than it was posted with. -/
def OverConsumed : Prop :=
  ∃ entry ∈ getPostedEntryByEvent journal ref.artifactId,
    ∃ currency ∈ entry.lines.map (·.currency),
      postedAmount entry currency + service.amountTolerance <
        linkAmounts service (getChildren table ref) currency

/-- RC-7: several parents consume, through links of one type, more than an artifact was posted
with. -/
def OverAllocated : Prop :=
  ∃ entry ∈ getPostedEntryByEvent journal ref.artifactId,
    ∃ currency ∈ entry.lines.map (·.currency), ∃ linkType : LinkType,
      let links := table.filter fun link => link.childRef = ref ∧ link.linkType = linkType
      (∃ first ∈ links, ∃ second ∈ links, first.parentRef ≠ second.parentRef) ∧
        postedAmount entry currency < linkAmounts service links currency

/-- RC-2: a role of an artifact and of a linked child was resolved to different accounts;
`roles` says what the roles of an entry were resolved to. -/
def Remapped : Prop :=
  ∃ entry ∈ getPostedEntryByEvent journal ref.artifactId, ∃ link ∈ getChildren table ref,
    ∃ child ∈ getPostedEntryByEvent journal link.childRef.artifactId,
      ∃ role account childAccount, (role, account) ∈ roles entry ∧
        (role, childAccount) ∈ roles child ∧ account ≠ childAccount

/-- A stored link ends at the artifact. -/
def EndsLink : Prop := ∃ link ∈ table, ref = link.parentRef ∨ ref = link.childRef

/-- RC-6: a link ends at an artifact that has no posted entry. -/
def Orphaned : Prop :=
  EndsLink table ref ∧ getPostedEntryByEvent journal ref.artifactId = none

/-- What an error is promised for. -/
def Faulty : Prop :=
  OverConsumed service table journal ref ∨ OverAllocated service table journal ref ∨
    Remapped table journal roles ref ∨ Orphaned table journal ref

/-- Reachable by stored links, downwards. -/
def Reachable (rootRef ref : ArtifactRef) : Prop :=
  ReflTransGen (fun parent child => ∃ link ∈ table, link.parentRef = parent ∧
    link.childRef = child) rootRef ref

/-- The promise: a result, with an error for exactly the faulty among the reachable artifacts. -/
def Catches (rootRef : ArtifactRef) (asOfDate : Option Date) (now : Datetime) : Prop :=
  ∃ result, checkArtifact service table journal rootRef asOfDate now = .ok result ∧
    ∀ ref, Reachable table rootRef ref →
      ((∃ finding ∈ result.findings, finding.severity = .error ∧ finding.subject = some ref) ↔
        Faulty service table journal roles ref)

/-- A depth-first traversal of the stored links from the root nests no deeper than the limit. -/
def NestsWithin (limit : ℕ) (rootRef : ArtifactRef) : Prop :=
  (visit (getChildren table) EconomicLink.childRef limit rootRef ⟨[], []⟩).isSome

/-- The root and the ends of the stored links. -/
def artifacts (rootRef : ArtifactRef) : List ArtifactRef :=
  (rootRef :: table.flatMap fun link => [link.parentRef, link.childRef]).dedup

end Promise

/-! ### The walk -/

section Laws

variable {service : Service} {table : LinkTable} {journal : Journal}
variable {roles : JournalEntry → List (String × UUID)} {rootRef ref : ArtifactRef} {limit : ℕ}
variable {asOfDate : Option Date} {now : Datetime} {result : LifecycleCheckResult}
variable {trail : Trail ArtifactRef EconomicLink} {link : EconomicLink}

/-- The state a trail stands for. -/
def ofTrail (service : Service) (journal : Journal) (trail : Trail ArtifactRef EconomicLink) :
    WalkState where
  visited := trail.visited
  nodes := trail.visited.map (buildNode journal)
  edges := trail.crossed.map service.buildEdge

theorem ofTrail_enter : { ofTrail service journal trail with
      visited := (ofTrail service journal trail).visited ++ [ref]
      nodes := (ofTrail service journal trail).nodes ++ [buildNode journal ref] } =
    ofTrail service journal (trail.enter ref) := by
  simp [ofTrail, Trail.enter]

theorem ofTrail_cross : { ofTrail service journal trail with
      edges := (ofTrail service journal trail).edges ++ [service.buildEdge link] } =
    ofTrail service journal (trail.cross link) := by
  simp [ofTrail, Trail.cross]

/-- **The walk is a depth-first traversal.** -/
theorem walk_eq : walk service table journal limit ref (ofTrail service journal trail) =
    (visit (getChildren table) EconomicLink.childRef limit ref trail).map
      (ofTrail service journal) := by
  induction limit generalizing ref trail with
  | zero => rfl
  | succ limit ih =>
      rw [walk, visit]
      have hvisited : (ofTrail service journal trail).visited = trail.visited := rfl
      by_cases hold : ref ∈ trail.visited
      · rw [hvisited, if_pos hold, if_pos hold]
        rfl
      · rw [if_neg (hvisited ▸ hold), if_neg hold, ofTrail_enter]
        generalize trail.enter ref = entered
        generalize getChildren table ref = links
        induction links generalizing entered with
        | nil => rfl
        | cons link links ihlinks =>
            rw [List.foldlM_cons, List.foldlM_cons, ofTrail_cross, ih]
            cases visit (getChildren table) EconomicLink.childRef limit link.childRef
                (entered.cross link) with
            | none => rfl
            | some next => exact ihlinks next

/-- The chain of a trail. -/
def chainOf (service : Service) (journal : Journal) (rootRef : ArtifactRef)
    (trail : Trail ArtifactRef EconomicLink) : LifecycleChain where
  rootRef := rootRef
  nodes := trail.visited.map (buildNode journal)
  edges := trail.crossed.map service.buildEdge

theorem buildChain_eq : buildChain service table journal rootRef =
    (visit (getChildren table) EconomicLink.childRef service.recursionLimit rootRef
      ⟨[], []⟩).map (chainOf service journal rootRef) := by
  have hstart : (⟨[], [], []⟩ : WalkState) = ofTrail service journal ⟨[], []⟩ := rfl
  rw [buildChain, hstart, walk_eq, Option.map_map]
  rfl

/-- `check_artifact` on a finished traversal. -/
theorem checkArtifact_eq_ok_iff :
    checkArtifact service table journal rootRef asOfDate now = .ok result ↔
      ∃ trail, visit (getChildren table) EconomicLink.childRef service.recursionLimit rootRef
          ⟨[], []⟩ = some trail ∧
        result = runAllChecks service.texts (chainOf service journal rootRef trail)
          (asOfDate.getD now.date) service.agingThresholdDays service.amountTolerance := by
  rw [checkArtifact, buildChain_eq]
  cases visit (getChildren table) EconomicLink.childRef service.recursionLimit rootRef
      ⟨[], []⟩ with
  | none => simp
  | some trail => simp [eq_comm]

/-! ### The nodes -/

theorem artifactRef_buildNode : (buildNode journal ref).artifactRef = ref := by
  unfold buildNode
  split <;> rfl

theorem bare_buildNode : (buildNode journal ref).Bare := by
  unfold buildNode
  split <;> exact ⟨rfl, rfl⟩

theorem hasJournalEntry_buildNode : (buildNode journal ref).hasJournalEntry =
    (getPostedEntryByEvent journal ref.artifactId).isSome := by
  unfold buildNode
  split
  · rename_i hnone
    rw [hnone]
    rfl
  · rename_i dto hsome
    rw [hsome]
    rfl

theorem bare_of_mem_chainOf :
    ∀ node ∈ (chainOf service journal rootRef trail).nodes, node.Bare := by
  intro node hnode
  obtain ⟨ref, -, rfl⟩ := List.mem_map.mp hnode
  exact bare_buildNode

/-- What is entered has its node. -/
theorem getNode_chainOf (h : ref ∈ trail.visited) :
    (chainOf service journal rootRef trail).getNode ref = some (buildNode journal ref) := by
  have hcomp : ((fun node : LifecycleNode => decide (node.artifactRef = ref)) ∘
      buildNode journal) = fun entered => decide (entered = ref) := by
    funext entered
    simp only [Function.comp_apply, artifactRef_buildNode]
  have hfind : trail.visited.find? (fun entered => decide (entered = ref)) = some ref := by
    obtain ⟨found, hfound⟩ := Option.isSome_iff_exists.mp
      (List.find?_isSome.mpr ⟨ref, h, decide_eq_true rfl⟩ :
        (trail.visited.find? fun entered => decide (entered = ref)).isSome)
    have hmatch : decide (found = ref) = true :=
      @List.find?_some _ (fun entered => decide (entered = ref)) _ _ hfound
    obtain rfl := of_decide_eq_true hmatch
    exact hfound
  unfold LifecycleChain.getNode chainOf
  rw [List.find?_map, hcomp, hfind]
  rfl

theorem posted_chainOf (h : ref ∈ trail.visited) :
    (chainOf service journal rootRef trail).posted ref =
      (getPostedEntryByEvent journal ref.artifactId).isSome := by
  rw [LifecycleChain.posted, getNode_chainOf h]
  exact hasJournalEntry_buildNode

/-! ### What is found -/

theorem mem_getChildren : link ∈ getChildren table ref ↔ link ∈ table ∧ link.parentRef = ref := by
  simp [getChildren]

theorem reachable_iff : Reachable table rootRef ref ↔
    ReflTransGen (DepthFirst.Step (getChildren table) EconomicLink.childRef) rootRef ref := by
  have hstep : (fun parent child => ∃ link ∈ table, link.parentRef = parent ∧
      link.childRef = child) = DepthFirst.Step (getChildren table) EconomicLink.childRef := by
    funext parent child
    simp only [DepthFirst.Step, mem_getChildren, and_assoc]
  rw [Reachable, hstep]

/-- A link at the artifact is crossed: its parent can be reached. -/
def Crossed (table : LinkTable) (rootRef ref : ArtifactRef) : Prop :=
  ∃ link ∈ table, Reachable table rootRef link.parentRef ∧
    (ref = link.parentRef ∨ ref = link.childRef)

theorem reachable_of_crossed (h : Crossed table rootRef ref) : Reachable table rootRef ref := by
  obtain ⟨link, hlink, hreach, rfl | rfl⟩ := h
  · exact hreach
  · exact hreach.tail ⟨link, hlink, rfl, rfl⟩

theorem ends_chainOf_iff
    (h : visit (getChildren table) EconomicLink.childRef limit rootRef ⟨[], []⟩ = some trail) :
    (chainOf service journal rootRef trail).Ends ref ↔ Crossed table rootRef ref := by
  have hcrossed : ∀ link, link ∈ trail.crossed ↔
      link ∈ table ∧ Reachable table rootRef link.parentRef := by
    intro link
    rw [DepthFirst.mem_crossed_iff h]
    simp only [mem_getChildren, reachable_iff]
    constructor
    · rintro ⟨v, hreach, hlink, rfl⟩
      exact ⟨hlink, hreach⟩
    · rintro ⟨hlink, hreach⟩
      exact ⟨_, hreach, hlink, rfl⟩
  constructor
  · rintro ⟨edge, hedge, hend⟩
    obtain ⟨link, hlink, rfl⟩ := List.mem_map.mp hedge
    obtain ⟨hstored, hreach⟩ := (hcrossed link).mp hlink
    exact ⟨link, hstored, hreach, hend⟩
  · rintro ⟨link, hstored, hreach, hend⟩
    exact ⟨service.buildEdge link,
      List.mem_map_of_mem ((hcrossed link).mpr ⟨hstored, hreach⟩), hend⟩

/-- **What the checks find**: the ends of crossed links that have no posted entry. -/
theorem error_iff_of_checkArtifact
    (h : checkArtifact service table journal rootRef asOfDate now = .ok result) :
    (∃ finding ∈ result.findings, finding.severity = .error ∧ finding.subject = some ref) ↔
      Crossed table rootRef ref ∧ getPostedEntryByEvent journal ref.artifactId = none := by
  obtain ⟨trail, hvisit, rfl⟩ := checkArtifact_eq_ok_iff.mp h
  have hfound : (∃ finding ∈ (runAllChecks service.texts (chainOf service journal rootRef trail)
        (asOfDate.getD now.date) service.agingThresholdDays service.amountTolerance).findings,
      finding.severity = .error ∧ finding.subject = some ref) ↔
      ∃ finding ∈ LifecycleChecks.checkLinkEntryCorrespondence service.texts
        (chainOf service journal rootRef trail), finding.subject = some ref := by
    simp only [← and_assoc, LifecycleChecks.error_of_bare_iff bare_of_mem_chainOf]
  rw [hfound, LifecycleChecks.exists_orphaned_iff, ends_chainOf_iff hvisit]
  refine and_congr_right fun hcrossed => ?_
  have hvisited : ref ∈ trail.visited := by
    rw [DepthFirst.mem_visited_iff hvisit, ← reachable_iff]
    exact reachable_of_crossed hcrossed
  rw [posted_chainOf hvisited, Option.isSome_eq_false_iff, Option.isNone_iff_eq_none]

/-! ### When the promise is kept -/

theorem exists_checkArtifact_iff :
    (∃ result, checkArtifact service table journal rootRef asOfDate now = .ok result) ↔
      NestsWithin table service.recursionLimit rootRef := by
  simp only [checkArtifact_eq_ok_iff, NestsWithin, Option.isSome_iff_exists]
  constructor
  · rintro ⟨result, trail, hvisit, -⟩
    exact ⟨trail, hvisit⟩
  · rintro ⟨trail, hvisit⟩
    exact ⟨_, trail, hvisit, rfl⟩

/-- More calls may nest than there are artifacts. -/
theorem nestsWithin_of_lt (h : (artifacts table rootRef).length < limit) :
    NestsWithin table limit rootRef := by
  have hclosed : ∀ ref ∈ artifacts table rootRef, ∀ link ∈ getChildren table ref,
      link.childRef ∈ artifacts table rootRef := by
    intro ref _ link hlink
    refine List.mem_dedup.mpr (List.mem_cons_of_mem _ (List.mem_flatMap.mpr ⟨link, ?_, ?_⟩))
    · exact (mem_getChildren.mp hlink).1
    · exact List.mem_cons_of_mem _ List.mem_cons_self
  have hroot : rootRef ∈ artifacts table rootRef := List.mem_dedup.mpr List.mem_cons_self
  have hremaining : (DepthFirst.remaining (artifacts table rootRef)
      (⟨[], []⟩ : Trail ArtifactRef EconomicLink)).length < limit :=
    Nat.lt_of_le_of_lt (List.length_filter_le _ _) h
  obtain ⟨trail, hvisit⟩ := DepthFirst.exists_visit hclosed hroot hremaining
  exact Option.isSome_iff_exists.mpr ⟨trail, hvisit⟩

/-- Below the root every link end is at a crossed link. -/
theorem crossed_of_reachable (h : Reachable table rootRef ref)
    (hroot : ref = rootRef → ∃ link ∈ table, link.parentRef = rootRef) :
    Crossed table rootRef ref := by
  rcases ReflTransGen.cases_tail h with rfl | ⟨parent, hreach, link, hlink, rfl, rfl⟩
  · obtain ⟨link, hlink, hparent⟩ := hroot rfl
    exact ⟨link, hlink, hparent ▸ .refl, Or.inl hparent.symm⟩
  · exact ⟨link, hlink, hreach, Or.inr rfl⟩

/-- A link crossed at the root, or into it, leaves a link of the root. -/
theorem exists_child_of_crossed (h : Crossed table rootRef rootRef) :
    ∃ link ∈ table, link.parentRef = rootRef := by
  obtain ⟨link, hlink, hreach, hend⟩ := h
  rcases ReflTransGen.cases_head hreach with heq | ⟨next, ⟨first, hfirst, hparent, -⟩, -⟩
  · exact ⟨link, hlink, heq.symm⟩
  · exact ⟨first, hfirst, hparent⟩

/-- A faulty artifact that has its entry breaks the promise. -/
theorem not_posted_of_catches (h : Catches service table journal roles rootRef asOfDate now)
    (hreach : Reachable table rootRef ref) (hfaulty : Faulty service table journal roles ref) :
    getPostedEntryByEvent journal ref.artifactId = none := by
  obtain ⟨result, hok, hall⟩ := h
  exact ((error_iff_of_checkArtifact hok).mp ((hall ref hreach).mpr hfaulty)).2

/-- **What `check_artifact` catches.**  It reports an error for exactly the faulty among the
reachable artifacts if and only if the recursion stays within its limit, no reachable artifact is
over-consumed, over-allocated or remapped, and a root without posted entry at which a link ends is
the parent of a link.  The recursion stays within a limit above the number of artifacts. -/
theorem catches_iff (service : Service) (table : LinkTable) (journal : Journal)
    (roles : JournalEntry → List (String × UUID)) (rootRef : ArtifactRef)
    (asOfDate : Option Date) (now : Datetime) :
    (Catches service table journal roles rootRef asOfDate now ↔
      NestsWithin table service.recursionLimit rootRef ∧
      (∀ ref, Reachable table rootRef ref → ¬OverConsumed service table journal ref ∧
        ¬OverAllocated service table journal ref ∧ ¬Remapped table journal roles ref) ∧
      (Orphaned table journal rootRef → ∃ link ∈ table, link.parentRef = rootRef)) ∧
    ((artifacts table rootRef).length < service.recursionLimit →
      NestsWithin table service.recursionLimit rootRef) := by
  refine ⟨⟨fun hcatches => ⟨?_, fun ref hreach => ⟨?_, ?_, ?_⟩, fun horphaned => ?_⟩,
    fun ⟨hnests, hnone, hroot⟩ => ?_⟩, nestsWithin_of_lt⟩
  · obtain ⟨result, hok, -⟩ := hcatches
    exact exists_checkArtifact_iff.mp ⟨result, hok⟩
  · intro hconsumed
    have hunposted := not_posted_of_catches hcatches hreach (Or.inl hconsumed)
    obtain ⟨entry, hentry, -⟩ := hconsumed
    rw [hunposted] at hentry
    cases hentry
  · intro hallocated
    have hunposted := not_posted_of_catches hcatches hreach (Or.inr (Or.inl hallocated))
    obtain ⟨entry, hentry, -⟩ := hallocated
    rw [hunposted] at hentry
    cases hentry
  · intro hremapped
    have hunposted :=
      not_posted_of_catches hcatches hreach (Or.inr (Or.inr (Or.inl hremapped)))
    obtain ⟨entry, hentry, -⟩ := hremapped
    rw [hunposted] at hentry
    cases hentry
  · obtain ⟨result, hok, hall⟩ := hcatches
    have hfound := (hall rootRef .refl).mpr (Or.inr (Or.inr (Or.inr horphaned)))
    exact exists_child_of_crossed ((error_iff_of_checkArtifact hok).mp hfound).1
  · obtain ⟨result, hok⟩ := exists_checkArtifact_iff.mpr hnests
    refine ⟨result, hok, fun ref hreach => ?_⟩
    rw [error_iff_of_checkArtifact hok]
    obtain ⟨hconsumed, hallocated, hremapped⟩ := hnone ref hreach
    constructor
    · rintro ⟨⟨link, hlink, -, hend⟩, hunposted⟩
      exact Or.inr (Or.inr (Or.inr ⟨⟨link, hlink, hend⟩, hunposted⟩))
    · rintro (hfault | hfault | hfault | horphaned)
      · exact absurd hfault hconsumed
      · exact absurd hfault hallocated
      · exact absurd hfault hremapped
      · refine ⟨crossed_of_reachable hreach fun heq => ?_, horphaned.2⟩
        subst heq
        exact hroot horphaned

end Laws

/-! ### An invoice paid with more than its amount -/

def sampleInvoice : ArtifactRef := ⟨.invoice, ⟨0xe⟩⟩

def samplePayment : ArtifactRef := ⟨.payment, ⟨0xf⟩⟩

/-- An invoice over 1.50 USD and its payment, both posted. -/
def sampleJournal : Journal :=
  (Reversal.sampleJournal.insert
    { Reversal.sampleEntry with
      id := ⟨0xe1⟩, sourceEventId := ⟨0xf⟩, idempotencyKey := "sample:GL:2", seq := some 2 }).getD
    Reversal.sampleJournal

/-- The invoice is paid with 250. -/
def samplePaidBy : EconomicLink where
  linkId := ⟨1⟩
  linkType := .paidBy
  parentRef := sampleInvoice
  childRef := samplePayment
  creatingEventId := ⟨0xf⟩
  createdAt := sampleTime
  metadata := some [("amount_applied", .int 250)]
  parent_ne_child := by decide
  typesAllowed := by unfold LinkGraph.TypesAllowed; decide

/-- References in the order of their first occurrence, and amounts that are integers. -/
def sampleService : Service where
  texts :=
    { amount := fun x => toString x.num
      setOrder := List.dedup
      setOrder_perm := fun _ => .refl _ }
  moneyOf raw currency :=
    match raw, currency with
    | .int n, .scalar (.str code) => some ⟨n, code⟩
    | _, _ => none

/-- The check finds no error for the invoice. -/
theorem overpaid_not_caught :
    ¬Catches sampleService [samplePaidBy] sampleJournal (fun _ => []) sampleInvoice none
      sampleTime := by
  intro hcatches
  have hconsumed : OverConsumed sampleService [samplePaidBy] sampleJournal sampleInvoice :=
    ⟨Reversal.sampleEntry, by decide +kernel, "USD", by decide +kernel, by decide +kernel⟩
  have hunposted := not_posted_of_catches hcatches .refl (Or.inl hconsumed)
  exact absurd hunposted (by decide +kernel)

end FinanceAccounting.LifecycleReconciliation
