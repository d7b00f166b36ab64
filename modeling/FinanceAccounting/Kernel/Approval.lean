import Mathlib.Data.List.Dedup
import Mathlib.Data.List.Sort
import FinanceAccounting.Kernel.Hashing

/-! # Approval rules

The approval domain types with the lifecycle table `approvalTransitions` (AL-1), and the pure
engine over them: which rule of a policy applies to an amount (AL-6), whether a role may decide
under it, and whether the decisions on record reach its threshold (AL-9). -/

namespace FinanceAccounting.Approval

open Hashing (PyVal PyError)

/-! ### Lifecycle -/

inductive ApprovalStatus where
  | pending
  | approved
  | rejected
  | escalated
  | expired
  | cancelled
  | autoApproved
deriving DecidableEq

def ApprovalStatus.value : ApprovalStatus → String
  | .pending => "pending"
  | .approved => "approved"
  | .rejected => "rejected"
  | .escalated => "escalated"
  | .expired => "expired"
  | .cancelled => "cancelled"
  | .autoApproved => "auto_approved"

/-- `APPROVAL_TRANSITIONS`. -/
def approvalTransitions : ApprovalStatus → List ApprovalStatus
  | .pending => [.approved, .rejected, .escalated, .expired, .cancelled, .autoApproved]
  | .escalated => [.approved, .rejected, .expired]
  | .approved | .rejected | .expired | .cancelled | .autoApproved => []

/-- `TERMINAL_APPROVAL_STATUSES`. -/
def terminalApprovalStatuses : List ApprovalStatus :=
  [.approved, .rejected, .expired, .cancelled, .autoApproved]

/-- `status.in_(["pending", "escalated"])`. -/
def ApprovalStatus.isOpen (status : ApprovalStatus) : Bool :=
  status = .pending || status = .escalated

theorem isOpen_iff_not_terminal {status : ApprovalStatus} :
    status.isOpen = true ↔ status ∉ terminalApprovalStatuses := by
  cases status <;> decide

/-- No transition leaves a terminal status. -/
theorem not_terminal_of_mem {status next : ApprovalStatus}
    (h : next ∈ approvalTransitions status) : status ∉ terminalApprovalStatuses := by
  cases status <;> simp [approvalTransitions, terminalApprovalStatuses] at h ⊢

inductive ApprovalDecision where
  | approve
  | reject
  | escalate
deriving DecidableEq

/-! ### Rules, policies and decisions -/

structure ApprovalRule where
  ruleName : String
  priority : ℤ
  minAmount : Option Decimal := none
  maxAmount : Option Decimal := none
  requiredRoles : List String := []
  minApprovers : ℤ := 1
  requireDistinctRoles : Bool := false
  guardExpression : Option String := none
  autoApproveBelow : Option Decimal := none

structure ApprovalPolicy where
  policyName : String
  version : ℤ
  rules : List ApprovalRule := []
  policyCurrency : Option String := none
  policyHash : Option String := none

/-- A row of `approval_decisions`, or the record made from it. -/
structure ApprovalDecisionRecord where
  decisionId : UUID
  requestId : UUID
  actorId : UUID
  actorRole : String
  decision : ApprovalDecision
  comment : String := ""
  decidedAt : Datetime

structure ApprovalEvaluation where
  needsApproval : Bool
  isApproved : Bool := false
  isRejected : Bool := false
  matchedRule : Option ApprovalRule := none
  requiredApprovers : ℤ := 0
  currentApprovers : ℤ := 0
  autoApproved : Bool := false
  reason : String := ""

/-! ### The engine -/

/-- `_evaluate_simple_guard`, on an expression and a context. -/
abbrev SimpleGuard := String → PyVal → Except PyError Bool

/-- A comparison of Decimals. -/
def lessThan (a b : Decimal) : Except PyError Bool :=
  (a.less b).mapError .decimalSignal

/-- `_rule_matches`. -/
def ruleMatches (simpleGuard : SimpleGuard) (rule : ApprovalRule) (amount : Option Decimal)
    (context : Option PyVal) : Except PyError Bool := do
  if ← below amount rule.autoApproveBelow then
    return true
  if ← below amount rule.minAmount then
    return false
  if ← reaches amount rule.maxAmount then
    return false
  match rule.guardExpression, context with
  | some expression, some context => simpleGuard expression context
  | _, _ => return true
where
  /-- `amount < bound`, where both are there. -/
  below : Option Decimal → Option Decimal → Except PyError Bool
    | some amount, some bound => lessThan amount bound
    | _, _ => .ok false
  /-- `amount >= bound`, where both are there. -/
  reaches : Option Decimal → Option Decimal → Except PyError Bool
    | some amount, some bound => (lessThan amount bound).map not
    | _, _ => .ok false

/-- The first of some rules that matches. -/
def firstMatch (simpleGuard : SimpleGuard) (amount : Option Decimal) (context : Option PyVal) :
    List ApprovalRule → Except PyError (Option ApprovalRule)
  | [] => .ok none
  | rule :: rules => do
      if ← ruleMatches simpleGuard rule amount context then
        return some rule
      firstMatch simpleGuard amount context rules

/-- `select_matching_rule`: rules in the order of their priority, the first match wins. -/
def selectMatchingRule (simpleGuard : SimpleGuard) (rules : List ApprovalRule)
    (amount : Option Decimal) (context : Option PyVal) : Except PyError (Option ApprovalRule) :=
  firstMatch simpleGuard amount context (rules.insertionSort fun a b => a.priority ≤ b.priority)

/-- `evaluate_approval_requirement`. -/
def evaluateApprovalRequirement (simpleGuard : SimpleGuard) (policy : Option ApprovalPolicy)
    (amount : Option Decimal) (context : Option PyVal) : Except PyError ApprovalEvaluation := do
  let some policy := policy
    | return { needsApproval := false, reason := "No policy configured" }
  let some rule ← selectMatchingRule simpleGuard policy.rules amount context
    | return { needsApproval := false, reason := "No matching rule for amount/context" }
  if ← ruleMatches.below amount rule.autoApproveBelow then
    return {
      needsApproval := true
      isApproved := true
      autoApproved := true
      matchedRule := some rule
      reason := "Auto-approved: " ++ text amount ++ " below threshold " ++
        text rule.autoApproveBelow }
  return {
    needsApproval := true
    matchedRule := some rule
    requiredApprovers := rule.minApprovers
    reason := "Approval required by rule '" ++ rule.ruleName ++ "'" }
where
  /-- `str(amount)`. -/
  text (d : Option Decimal) : String := d.elim "None" fun d => String.ofList d.toChars

/-- `validate_actor_authority`. -/
def validateActorAuthority (actorRole : String) (rule : ApprovalRule) : Bool :=
  rule.requiredRoles.isEmpty || rule.requiredRoles.contains actorRole

def approvals (decisions : List ApprovalDecisionRecord) : List ApprovalDecisionRecord :=
  decisions.filter fun d => d.decision = .approve

/-- `evaluate_approval_status`: a rejection blocks, else the approvals, or their distinct roles,
are counted. -/
def evaluateApprovalStatus (rule : ApprovalRule) (decisions : List ApprovalDecisionRecord) :
    ApprovalEvaluation :=
  match decisions.find? fun d => d.decision = .reject with
  | some d => {
      needsApproval := true
      isRejected := true
      matchedRule := some rule
      requiredApprovers := rule.minApprovers
      reason := "Rejected by " ++ d.actorId.str }
  | none =>
      let currentCount : ℤ :=
        if rule.requireDistinctRoles then
          ((approvals decisions).map (·.actorRole)).dedup.length
        else (approvals decisions).length
      let isApproved := decide (rule.minApprovers ≤ currentCount)
      { needsApproval := true
        isApproved := isApproved
        matchedRule := some rule
        requiredApprovers := rule.minApprovers
        currentApprovers := currentCount
        reason :=
          if isApproved then "Approved"
          else toString currentCount ++ "/" ++ toString rule.minApprovers ++ " approvals" }

/-! ### What an approval means -/

/-- The approvals by actors whose role the rule accepts. -/
def eligibleApprovals (rule : ApprovalRule) (decisions : List ApprovalDecisionRecord) :
    List ApprovalDecisionRecord :=
  (approvals decisions).filter fun d => validateActorAuthority d.actorRole rule

/-- The engine reports approval, and enough distinct eligible actors have approved, with
distinct roles where the rule asks for them. -/
structure Approves (rule : ApprovalRule) (decisions : List ApprovalDecisionRecord) : Prop where
  reported : (evaluateApprovalStatus rule decisions).isApproved = true
  actors : rule.minApprovers ≤ ((eligibleApprovals rule decisions).map (·.actorId)).dedup.length
  roles : rule.requireDistinctRoles = true →
    rule.minApprovers ≤ ((eligibleApprovals rule decisions).map (·.actorRole)).dedup.length

theorem isApproved_iff {rule : ApprovalRule} {decisions : List ApprovalDecisionRecord} :
    (evaluateApprovalStatus rule decisions).isApproved = true ↔
      (∀ d ∈ decisions, d.decision ≠ .reject) ∧
        rule.minApprovers ≤ if rule.requireDistinctRoles then
          (((approvals decisions).map (·.actorRole)).dedup.length : ℤ)
        else (approvals decisions).length := by
  unfold evaluateApprovalStatus
  cases hfind : decisions.find? fun d => d.decision = .reject with
  | some d =>
      have hmem := List.mem_of_find?_eq_some hfind
      have hd : d.decision = .reject := by simpa using List.find?_some hfind
      simp only [Bool.false_eq_true, false_iff]
      exact fun h => h.1 d hmem hd
  | none =>
      have hnone : ∀ d ∈ decisions, d.decision ≠ .reject := by
        intro d hd
        simpa using List.find?_eq_none.mp hfind d hd
      simp only [decide_eq_true_eq]
      exact ⟨fun h => ⟨hnone, h⟩, fun h => h.2⟩

theorem eligibleApprovals_append (rule : ApprovalRule) (ds es : List ApprovalDecisionRecord) :
    eligibleApprovals rule (ds ++ es) = eligibleApprovals rule ds ++ eligibleApprovals rule es := by
  simp only [eligibleApprovals, approvals, List.filter_append]

/-- Distinct values of a part are distinct values of the whole. -/
theorem length_dedup_map_le {α β : Type*} [DecidableEq β] {xs ys : List α} (h : xs.Sublist ys)
    (f : α → β) : (xs.map f).dedup.length ≤ (ys.map f).dedup.length := by
  refine List.Subperm.length_le ?_
  refine List.subperm_of_subset (List.nodup_dedup _) fun b hb => ?_
  rw [List.mem_dedup] at hb ⊢
  exact (h.map f).subset hb

/-- **Approval comes down to the eligible approvers**: without a rejection the engine reports
approval as soon as they are enough. -/
theorem approves_iff {rule : ApprovalRule} {decisions : List ApprovalDecisionRecord}
    (hactors : (decisions.map (·.actorId)).Nodup) :
    Approves rule decisions ↔
      (∀ d ∈ decisions, d.decision ≠ .reject) ∧
        rule.minApprovers ≤ (eligibleApprovals rule decisions).length ∧
        (rule.requireDistinctRoles = true →
          rule.minApprovers ≤ ((eligibleApprovals rule decisions).map (·.actorRole)).dedup.length) := by
  have hsub : (eligibleApprovals rule decisions).Sublist (approvals decisions) :=
    List.filter_sublist
  have hnodup : ((eligibleApprovals rule decisions).map (·.actorId)).Nodup :=
    ((hsub.trans List.filter_sublist).map _).nodup hactors
  have hdistinct : ((eligibleApprovals rule decisions).map (·.actorId)).dedup.length =
      (eligibleApprovals rule decisions).length := by
    rw [hnodup.dedup, List.length_map]
  constructor
  · intro h
    exact ⟨(isApproved_iff.mp h.reported).1, hdistinct ▸ h.actors, h.roles⟩
  · rintro ⟨hreject, hcount, hroles⟩
    refine ⟨isApproved_iff.mpr ⟨hreject, ?_⟩, hdistinct.symm ▸ hcount, hroles⟩
    split
    · rename_i hdist
      exact (hroles hdist).trans (by exact_mod_cast length_dedup_map_le hsub (·.actorRole))
    · exact hcount.trans (by exact_mod_cast hsub.length_le)

end FinanceAccounting.Approval
