import Mathlib.Data.List.Dedup
import FinanceAccounting.Library.Rounding
import FinanceAccounting.Kernel.Valuation

/-! # Lifecycle checks

`LifecycleReconciliationChecker`: seven checks over a chain of artifacts, each a node with what is
known of its journal entry, and the links between them.  A check passes over whatever a node does
not have: RC-2 compares the accounts of roles where both ends have role bindings, RC-3 and RC-7
compare link amounts with the amount of a node, if it has one.

For nodes without amounts and role bindings RC-6 is the only check that finds errors
(`error_of_bare_iff`), at the ends of links that have no posted entry (`exists_orphaned_iff`). -/

namespace FinanceAccounting.LifecycleChecks

open Hashing (defaultContext)
open LinkGraph (ArtifactRef LinkType)
open Valuation (Money)

/-! ### The chain -/

inductive CheckSeverity where
  | error
  | warning
  | info
deriving DecidableEq, Repr

inductive CheckStatus where
  | passed
  | failed
  | warning
deriving DecidableEq, Repr

/-- An artifact with what is known of its journal entry. -/
structure LifecycleNode where
  artifactRef : ArtifactRef
  journalEntryId : Option UUID := none
  eventType : Option String := none
  effectiveDate : Option Date := none
  postedAt : Option Datetime := none
  amount : Option Money := none
  coaVersion : Option ℤ := none
  dimensionSchemaVersion : Option ℤ := none
  roundingPolicyVersion : Option ℤ := none
  currencyRegistryVersion : Option ℤ := none
  postingRuleVersion : Option ℤ := none
  roleBindings : Option (List (String × String)) := none

namespace LifecycleNode

def hasJournalEntry (node : LifecycleNode) : Bool := node.journalEntryId.isSome

def regimeTuple (node : LifecycleNode) : List (Option ℤ) :=
  [node.coaVersion, node.dimensionSchemaVersion, node.roundingPolicyVersion,
    node.currencyRegistryVersion, node.postingRuleVersion]

def hasRegimeData (node : LifecycleNode) : Bool := node.regimeTuple.any (·.isSome)

end LifecycleNode

structure LifecycleEdge where
  linkType : LinkType
  parentRef : ArtifactRef
  childRef : ArtifactRef
  linkAmount : Option Money := none
  createdAt : Option Datetime := none

structure LifecycleChain where
  rootRef : ArtifactRef
  nodes : List LifecycleNode
  edges : List LifecycleEdge

def LifecycleChain.getNode (chain : LifecycleChain) (ref : ArtifactRef) : Option LifecycleNode :=
  chain.nodes.find? (·.artifactRef = ref)

structure ReconciliationFinding where
  code : String
  severity : CheckSeverity
  message : String
  parentRef : Option ArtifactRef := none
  childRef : Option ArtifactRef := none

/-- The artifact a finding is about. -/
def ReconciliationFinding.subject (finding : ReconciliationFinding) : Option ArtifactRef :=
  finding.parentRef.or finding.childRef

structure LifecycleCheckResult where
  rootRef : ArtifactRef
  status : CheckStatus
  findings : List ReconciliationFinding
  nodesChecked : ℕ
  edgesChecked : ℕ
  checksPerformed : List String
  asOfDate : Date

/-- `from_findings`: the status is that of the worst finding. -/
def LifecycleCheckResult.fromFindings (rootRef : ArtifactRef)
    (findings : List ReconciliationFinding) (nodesChecked edgesChecked : ℕ)
    (checksPerformed : List String) (asOfDate : Date) : LifecycleCheckResult where
  rootRef := rootRef
  status :=
    if findings.any (·.severity = .error) then .failed
    else if findings.any (·.severity = .warning) then .warning
    else .passed
  findings := findings
  nodesChecked := nodesChecked
  edgesChecked := edgesChecked
  checksPerformed := checksPerformed
  asOfDate := asOfDate

/-! ### The checks -/

/-- `str` of an amount, and the order in which a set of references is visited. -/
structure Texts where
  amount : ℚ → String
  setOrder : List ArtifactRef → List ArtifactRef
  setOrder_perm : ∀ refs, (setOrder refs).Perm refs.dedup

/-- Link types of chains of fulfillment and payment. -/
def fulfillmentLinkTypes : List LinkType := [.fulfilledBy, .paidBy]

variable (texts : Texts)

def optionText (v : Option ℤ) : String := (v.map toString).getD "None"

/-- `_describe_regime_diffs`. -/
def describeRegimeDiffs (parent child : LifecycleNode) : String :=
  let names := ["coa_version", "dim_schema_version", "rounding_version", "currency_reg_version",
    "posting_rule_version"]
  let diffs := (names.zip (parent.regimeTuple.zip child.regimeTuple)).filterMap fun (name, pv, cv) =>
    if pv ≠ cv then some (name ++ ": " ++ optionText pv ++ " -> " ++ optionText cv) else none
  if diffs ≠ [] then String.intercalate "; " diffs else "unknown"

/-- RC-1. -/
def checkPolicyRegime (chain : LifecycleChain) : List ReconciliationFinding :=
  chain.edges.filterMap fun edge =>
    match chain.getNode edge.parentRef, chain.getNode edge.childRef with
    | some parentNode, some childNode =>
        if !parentNode.hasRegimeData || !childNode.hasRegimeData then none
        else if parentNode.regimeTuple ≠ childNode.regimeTuple then some {
          code := "POLICY_REGIME_DRIFT"
          severity := .warning
          message := "Policy regime changed between " ++ edge.parentRef.str ++ " and " ++
            edge.childRef.str ++ ": " ++ describeRegimeDiffs parentNode childNode
          parentRef := some edge.parentRef
          childRef := some edge.childRef }
        else none
    | _, _ => none

/-- The roles of both, sorted. -/
def commonRoles (parent child : List (String × String)) : List String :=
  ((parent.map Prod.fst).filter fun role => (child.map Prod.fst).contains role).insertionSort (· ≤ ·)

/-- RC-2: a role is resolved to the same account at both ends of a link. -/
def checkAccountRoleStability (chain : LifecycleChain) : List ReconciliationFinding :=
  chain.edges.flatMap fun edge =>
    match chain.getNode edge.parentRef, chain.getNode edge.childRef with
    | some parentNode, some childNode =>
        match parentNode.roleBindings, childNode.roleBindings with
        | some parentBindings, some childBindings =>
            (commonRoles parentBindings childBindings).filterMap fun role =>
              let parentCode := (parentBindings.lookup role).getD ""
              let childCode := (childBindings.lookup role).getD ""
              if parentCode ≠ childCode then some {
                code := "ACCOUNT_ROLE_REMAPPED"
                severity := .error
                message := "Role '" ++ role ++ "' resolved to '" ++ parentCode ++ "' on " ++
                  edge.parentRef.str ++ " but '" ++ childCode ++ "' on " ++ edge.childRef.str
                parentRef := some edge.parentRef
                childRef := some edge.childRef }
              else none
        | _, _ => []
    | _, _ => []

/-- RC-3 for the edges of one parent. -/
def amountFlowOf (parentRef : ArtifactRef) (parentAmount tolerance : ℚ)
    (childrenWithAmounts : List (LifecycleEdge × Money)) : List ReconciliationFinding :=
  if childrenWithAmounts = [] then []
  else
    let totalChild := defaultContext.total (childrenWithAmounts.map (·.2.amount))
    let limit := defaultContext.round (parentAmount + tolerance)
    let total : List ReconciliationFinding :=
      if limit < totalChild then [{
        code := "AMOUNT_FLOW_VIOLATION"
        severity := .error
        message := "Children of " ++ parentRef.str ++ " consume " ++ texts.amount totalChild ++
          " but parent amount is " ++ texts.amount parentAmount ++ " (exceeds by " ++
          texts.amount (defaultContext.round (totalChild - parentAmount)) ++ ")"
        parentRef := some parentRef }]
      else []
    total ++ childrenWithAmounts.filterMap fun (edge, amount) =>
      if limit < amount.amount then some {
        code := "AMOUNT_FLOW_VIOLATION"
        severity := .error
        message := "Single child " ++ edge.childRef.str ++ " amount " ++
          texts.amount amount.amount ++ " exceeds parent " ++ parentRef.str ++ " amount " ++
          texts.amount parentAmount
        parentRef := some parentRef
        childRef := some edge.childRef }
      else none

/-- RC-3: the children of an artifact do not consume more than its amount. -/
def checkAmountFlow (chain : LifecycleChain) (tolerance : ℚ) : List ReconciliationFinding :=
  (chain.edges.map (·.parentRef)).eraseDups.flatMap fun parentRef =>
    match (chain.getNode parentRef).bind (·.amount) with
    | none => []
    | some parentAmount =>
        amountFlowOf texts parentRef parentAmount.amount tolerance
          ((chain.edges.filter (·.parentRef = parentRef)).filterMap fun edge =>
            edge.linkAmount.map fun amount => (edge, amount))

/-- RC-4. -/
def checkTemporalOrdering (chain : LifecycleChain) : List ReconciliationFinding :=
  chain.edges.filterMap fun edge =>
    if edge.linkType ∉ fulfillmentLinkTypes then none
    else
      match chain.getNode edge.parentRef, chain.getNode edge.childRef with
      | some parentNode, some childNode =>
          match parentNode.effectiveDate, childNode.effectiveDate with
          | some parentDate, some childDate =>
              if childDate < parentDate then some {
                code := "TEMPORAL_ORDER_VIOLATION"
                severity := .warning
                message := "Child " ++ edge.childRef.str ++ " effective date " ++ childDate.str ++
                  " precedes parent " ++ edge.parentRef.str ++ " effective date " ++ parentDate.str
                parentRef := some edge.parentRef
                childRef := some edge.childRef }
              else none
          | _, _ => none
      | _, _ => none

/-- `(later - earlier).days`. -/
def daysBetween (later earlier : Date) : ℤ := (later.toordinal : ℤ) - earlier.toordinal

/-- RC-5. -/
def checkChainCompleteness (chain : LifecycleChain) (asOfDate : Date)
    (agingThresholdDays : ℤ) : List ReconciliationFinding :=
  let fulfillment := chain.edges.filter fun edge => edge.linkType ∈ fulfillmentLinkTypes
  let hasOutgoing := fulfillment.map (·.parentRef)
  let hasIncoming := fulfillment.map (·.childRef)
  chain.nodes.filterMap fun node =>
    let ref := node.artifactRef
    if ref = chain.rootRef ∧ ref ∉ hasIncoming then
      match node.effectiveDate with
      | some effectiveDate =>
          if ref ∉ hasOutgoing ∧ agingThresholdDays < daysBetween asOfDate effectiveDate then some {
            code := "CHAIN_INCOMPLETE"
            severity := .warning
            message := "Root " ++ ref.str ++ " has no fulfillment children and is " ++
              toString (daysBetween asOfDate effectiveDate) ++ " days old"
            parentRef := some ref }
          else none
      | none => none
    else if ref ∈ hasIncoming ∧ ref ∉ hasOutgoing then
      if node.eventType.any fun eventType =>
          eventType.toLower.toList.tails.any ("payment".toList.isPrefixOf ·) then none
      else
        match node.effectiveDate with
        | some effectiveDate =>
            if agingThresholdDays < daysBetween asOfDate effectiveDate then some {
              code := "CHAIN_INCOMPLETE"
              severity := .warning
              message := "Node " ++ ref.str ++ " has no outgoing fulfillment links and is " ++
                toString (daysBetween asOfDate effectiveDate) ++ " days old"
              parentRef := some ref }
            else none
        | none => none
    else none

/-- RC-6 at one end of a link. -/
def orphanedLink (chain : LifecycleChain) (ref : ArtifactRef) : Option ReconciliationFinding :=
  match chain.getNode ref with
  | none => some {
      code := "ORPHANED_LINK"
      severity := .error
      message := "Link references artifact " ++ ref.str ++ " but no node exists in the chain"
      parentRef := some ref }
  | some node =>
      if !node.hasJournalEntry then some {
        code := "ORPHANED_LINK"
        severity := .error
        message := "Artifact " ++ ref.str ++ " has no posted journal entry"
        parentRef := some ref }
      else none

/-- RC-6: the ends of a link have a posted journal entry. -/
def checkLinkEntryCorrespondence (chain : LifecycleChain) : List ReconciliationFinding :=
  (texts.setOrder (chain.edges.flatMap fun edge => [edge.parentRef, edge.childRef])).filterMap
    (orphanedLink chain)

/-- RC-7: several parents do not consume more than the amount of an artifact through links of one
type. -/
def checkAllocationUniqueness (chain : LifecycleChain) (tolerance : ℚ) :
    List ReconciliationFinding :=
  (chain.edges.map fun edge => (edge.childRef, edge.linkType)).eraseDups.filterMap
    fun (childRef, linkType) =>
      let edges := chain.edges.filter fun edge =>
        edge.childRef = childRef ∧ edge.linkType = linkType
      let amounts := edges.filterMap (·.linkAmount)
      if edges.length ≤ 1 then none
      else if amounts = [] then none
      else
        let totalAllocated := defaultContext.total (amounts.map (·.amount))
        match (chain.getNode childRef).bind (·.amount) with
        | none => none
        | some childAmount =>
            if defaultContext.round (childAmount.amount + tolerance) < totalAllocated then some {
              code := "DOUBLE_COUNT_RISK"
              severity := .error
              message := "Artifact " ++ childRef.str ++ " allocated " ++
                texts.amount totalAllocated ++ " across " ++ toString edges.length ++ " " ++
                linkType.value ++ " parents, but its amount is only " ++
                texts.amount childAmount.amount
              childRef := some childRef }
            else none

def runAllChecks (chain : LifecycleChain) (asOfDate : Date) (agingThresholdDays : ℤ)
    (amountTolerance : ℚ) : LifecycleCheckResult :=
  .fromFindings chain.rootRef
    (checkPolicyRegime chain ++ checkAccountRoleStability chain ++
      checkAmountFlow texts chain amountTolerance ++ checkTemporalOrdering chain ++
      checkChainCompleteness chain asOfDate agingThresholdDays ++
      checkLinkEntryCorrespondence texts chain ++
      checkAllocationUniqueness texts chain amountTolerance)
    chain.nodes.length chain.edges.length
    ["RC-1:policy_regime", "RC-2:account_role_stability", "RC-3:amount_flow",
      "RC-4:temporal_ordering", "RC-5:chain_completeness", "RC-6:link_entry_correspondence",
      "RC-7:allocation_uniqueness"]
    asOfDate

/-! ### Nodes without amounts and role bindings -/

/-- Neither an amount nor role bindings. -/
def LifecycleNode.Bare (node : LifecycleNode) : Prop :=
  node.amount = none ∧ node.roleBindings = none

/-- A link ends at the artifact. -/
def LifecycleChain.Ends (chain : LifecycleChain) (ref : ArtifactRef) : Prop :=
  ∃ edge ∈ chain.edges, ref = edge.parentRef ∨ ref = edge.childRef

/-- A node of the artifact has a journal entry. -/
def LifecycleChain.posted (chain : LifecycleChain) (ref : ArtifactRef) : Bool :=
  (chain.getNode ref).any (·.hasJournalEntry)

section Bare

variable {texts : Texts} {chain : LifecycleChain} {asOfDate : Date} {agingThresholdDays : ℤ}
variable {tolerance : ℚ} {finding : ReconciliationFinding} {ref : ArtifactRef}
variable {node : LifecycleNode}

theorem warning_of_checkPolicyRegime (h : finding ∈ checkPolicyRegime chain) :
    finding.severity = .warning := by
  obtain ⟨edge, -, hedge⟩ := List.mem_filterMap.mp h
  split at hedge
  · split at hedge
    · cases hedge
    · split at hedge
      · obtain rfl := Option.some.inj hedge
        rfl
      · cases hedge
  · cases hedge

theorem warning_of_checkTemporalOrdering (h : finding ∈ checkTemporalOrdering chain) :
    finding.severity = .warning := by
  obtain ⟨edge, -, hedge⟩ := List.mem_filterMap.mp h
  split at hedge
  · cases hedge
  · split at hedge
    · split at hedge
      · split at hedge
        · obtain rfl := Option.some.inj hedge
          rfl
        · cases hedge
      · cases hedge
    · cases hedge

theorem warning_of_checkChainCompleteness
    (h : finding ∈ checkChainCompleteness chain asOfDate agingThresholdDays) :
    finding.severity = .warning := by
  obtain ⟨node, -, hnode⟩ := List.mem_filterMap.mp h
  dsimp only at hnode
  split at hnode
  · split at hnode
    · split at hnode
      · obtain rfl := Option.some.inj hnode
        rfl
      · cases hnode
    · cases hnode
  · split at hnode
    · split at hnode
      · cases hnode
      · split at hnode
        · split at hnode
          · obtain rfl := Option.some.inj hnode
            rfl
          · cases hnode
        · cases hnode
    · cases hnode

theorem subject_of_orphanedLink (h : orphanedLink chain ref = some finding) :
    finding.severity = .error ∧ finding.subject = some ref := by
  unfold orphanedLink at h
  split at h
  · obtain rfl := Option.some.inj h
    exact ⟨rfl, rfl⟩
  · split at h
    · obtain rfl := Option.some.inj h
      exact ⟨rfl, rfl⟩
    · cases h

theorem exists_orphanedLink_iff :
    (∃ finding, orphanedLink chain ref = some finding) ↔ chain.posted ref = false := by
  unfold orphanedLink LifecycleChain.posted
  cases chain.getNode ref with
  | none => simp
  | some node => cases hentry : node.hasJournalEntry <;> simp [hentry]

theorem error_of_checkLinkEntryCorrespondence
    (h : finding ∈ checkLinkEntryCorrespondence texts chain) : finding.severity = .error := by
  obtain ⟨ref, -, hfound⟩ := List.mem_filterMap.mp h
  exact (subject_of_orphanedLink hfound).1

theorem mem_of_getNode (h : chain.getNode ref = some node) : node ∈ chain.nodes :=
  List.mem_of_find?_eq_some h

theorem amount_of_bare (h : ∀ node ∈ chain.nodes, node.Bare) :
    (chain.getNode ref).bind (·.amount) = none := by
  cases hnode : chain.getNode ref with
  | none => rfl
  | some node => exact (h node (mem_of_getNode hnode)).1

theorem checkAccountRoleStability_of_bare (h : ∀ node ∈ chain.nodes, node.Bare) :
    checkAccountRoleStability chain = [] := by
  unfold checkAccountRoleStability
  rw [List.flatMap_eq_nil_iff]
  intro edge _
  split
  · rename_i parentNode _ hparent _
    have hbindings := (h parentNode (mem_of_getNode hparent)).2
    split
    · rename_i hsome _
      rw [hbindings] at hsome
      cases hsome
    · rfl
  · rfl

theorem checkAmountFlow_of_bare (h : ∀ node ∈ chain.nodes, node.Bare) :
    checkAmountFlow texts chain tolerance = [] := by
  unfold checkAmountFlow
  rw [List.flatMap_eq_nil_iff]
  intro parentRef _
  rw [amount_of_bare h]

theorem checkAllocationUniqueness_of_bare (h : ∀ node ∈ chain.nodes, node.Bare) :
    checkAllocationUniqueness texts chain tolerance = [] := by
  unfold checkAllocationUniqueness
  rw [List.filterMap_eq_nil_iff]
  rintro ⟨childRef, linkType⟩ _
  dsimp only
  rw [amount_of_bare h]
  split
  · rfl
  · split
    · rfl
    · rfl

/-- **What is left of the errors** for bare nodes: those of RC-6. -/
theorem error_of_bare_iff (h : ∀ node ∈ chain.nodes, node.Bare) :
    finding ∈ (runAllChecks texts chain asOfDate agingThresholdDays tolerance).findings ∧
        finding.severity = .error ↔
      finding ∈ checkLinkEntryCorrespondence texts chain := by
  have hfindings :
      (runAllChecks texts chain asOfDate agingThresholdDays tolerance).findings =
        checkPolicyRegime chain ++ checkTemporalOrdering chain ++
          checkChainCompleteness chain asOfDate agingThresholdDays ++
          checkLinkEntryCorrespondence texts chain := by
    dsimp only [runAllChecks, LifecycleCheckResult.fromFindings]
    rw [checkAccountRoleStability_of_bare h, checkAmountFlow_of_bare h,
      checkAllocationUniqueness_of_bare h, List.append_nil, List.append_nil, List.append_nil]
  rw [hfindings]
  simp only [List.mem_append]
  constructor
  · rintro ⟨((hregime | htemporal) | hcomplete) | horphaned, herror⟩
    · rw [warning_of_checkPolicyRegime hregime] at herror
      cases herror
    · rw [warning_of_checkTemporalOrdering htemporal] at herror
      cases herror
    · rw [warning_of_checkChainCompleteness hcomplete] at herror
      cases herror
    · exact horphaned
  · intro horphaned
    exact ⟨Or.inr horphaned, error_of_checkLinkEntryCorrespondence horphaned⟩

/-- **RC-6 finds the ends of links that have no posted entry.** -/
theorem exists_orphaned_iff :
    (∃ finding ∈ checkLinkEntryCorrespondence texts chain, finding.subject = some ref) ↔
      chain.Ends ref ∧ chain.posted ref = false := by
  have hmem : ref ∈ texts.setOrder (chain.edges.flatMap fun edge => [edge.parentRef, edge.childRef])
      ↔ chain.Ends ref := by
    rw [(texts.setOrder_perm _).mem_iff, List.mem_dedup, List.mem_flatMap]
    simp only [LifecycleChain.Ends, List.mem_cons, List.not_mem_nil, or_false]
  constructor
  · rintro ⟨finding, hfinding, hsubject⟩
    obtain ⟨ref', href', hfound⟩ := List.mem_filterMap.mp hfinding
    obtain rfl : ref' = ref :=
      Option.some.inj ((subject_of_orphanedLink hfound).2.symm.trans hsubject)
    exact ⟨hmem.mp href', exists_orphanedLink_iff.mp ⟨finding, hfound⟩⟩
  · rintro ⟨hends, hunposted⟩
    obtain ⟨finding, hfound⟩ := exists_orphanedLink_iff.mpr hunposted
    exact ⟨finding, List.mem_filterMap.mpr ⟨ref, hmem.mpr hends, hfound⟩,
      (subject_of_orphanedLink hfound).2⟩

end Bare

end FinanceAccounting.LifecycleChecks
