import FinanceAccounting.Kernel.ApprovalService
import FinanceAccounting.Library.Traversals

/-! # Workflow transitions and their approval gate

`WorkflowExecutor.execute_transition`: the transition is looked up, role permissions and the
guard are checked, and where a policy is configured the approval gate decides.  A caller may
supply the request that has been approved; `gate_kept_iff` says exactly when the gate then lets
through only what that request was made for. -/

namespace FinanceAccounting.WorkflowExecutor

open Approval
open Hashing (PyVal)
open UnitOfWork (Session Result)

/-! ### Role permissions -/

/-- `WORKFLOW_ACTION_TO_PERMISSION`. -/
def workflowActionToPermission : List ((String × String) × String) := [
  (("ap_invoice", "submit"), "ap.invoice.enter"),
  (("ap_invoice", "approve"), "ap.invoice.approve"),
  (("ap_invoice", "post"), "ap.invoice.enter"),
  (("ap_payment", "submit"), "ap.payment.enter"),
  (("ap_payment", "approve"), "ap.payment.approve"),
  (("ap_payment", "release"), "ap.payment.release"),
  (("ap_inventory_invoice", "post"), "ap.invoice.enter"),
  (("ar_invoice", "submit"), "ar.invoice.enter"),
  (("ar_invoice", "post"), "ar.invoice.enter"),
  (("ar_receipt", "post"), "ar.payment.apply"),
  (("ar_receipt_application", "post"), "ar.payment.apply"),
  (("ar_credit_memo", "post"), "ar.credit_memo.issue"),
  (("ar_write_off", "post"), "ar.invoice.enter"),
  (("ar_deferred_revenue", "post"), "ar.invoice.enter"),
  (("ar_refund", "post"), "ar.payment.apply"),
  (("ar_finance_charge", "post"), "ar.invoice.enter")]

/-- `get_permission_for_transition`. -/
def getPermissionForTransition (workflowName action : String) : Option String :=
  workflowActionToPermission.lookup (workflowName, action)

structure CompiledRbacConfig where
  authorityRoleRequired : Bool
  rolePermissions : List (String × List String)
  roleConflicts : List (List String)
  permissionConflictsHard : List (List String)

/-- The text of a set; its order is that of the list. -/
def setText (xs : List String) : String :=
  "\x7b" ++ ", ".intercalate (xs.map fun x => "'" ++ x ++ "'") ++ "\x7d"

/-- The permissions of a role; of two entries for a role the later one counts. -/
def permissionsOf (rbac : CompiledRbacConfig) (role : String) : List String :=
  (rbac.rolePermissions.reverse.lookup role).getD []

/-- `check_rbac`: the reason of a denial, if there is one. -/
def checkRbac (rbac : CompiledRbacConfig) (assignedRoles : List String)
    (authorityRole : Option String) (requiredPermission : String) : Option String :=
  match actingRoles with
  | .error reason => some reason
  | .ok [] => none
  | .ok roles =>
      let permissions := roles.flatMap (permissionsOf rbac)
      if !permissions.contains requiredPermission then
        some ("RBAC: permission '" ++ requiredPermission ++ "' not granted to actor")
      else
        match rbac.roleConflicts.find? fun pair => pair.all assignedRoles.contains with
        | some pair =>
            some ("RBAC: SoD role conflict: actor has conflicting roles " ++ setText pair)
        | none =>
            (rbac.permissionConflictsHard.find? (conflicts permissions)).map fun pair =>
              "RBAC: SoD permission conflict: '" ++ requiredPermission ++ "' conflicts with " ++
                setText (pair.filter (· ≠ requiredPermission))
where
  /-- The roles that the actor acts under. -/
  actingRoles : Except String (List String) :=
    if rbac.authorityRoleRequired then
      match authorityRole with
      | none => .error "RBAC: authority role required but not provided"
      | some role =>
          if strip role = "" then .error "RBAC: authority role required but not provided"
          else if !assignedRoles.contains role then
            .error ("RBAC: actor does not have authority role '" ++ role ++ "'")
          else .ok [role]
    else .ok assignedRoles
  /-- The permission is in the pair, and another of the pair is granted too. -/
  conflicts (permissions pair : List String) : Bool :=
    pair.contains requiredPermission &&
      pair.any fun p => p ≠ requiredPermission && permissions.contains p

/-! ### Workflows -/

structure Transition where
  fromState : String
  toState : String
  action : String
  /-- The name of its guard. -/
  guard : Option String := none
  postsEntry : Bool := false
  requiresApproval : Bool := false

structure Workflow where
  name : String
  transitions : List Transition

/-- The registered evaluator of each guard; one that raises returns nothing. -/
abbrev GuardExecutor := String → Option (PyVal → Option Bool)

/-- `GuardExecutor.evaluate`. -/
def evaluateGuard (guards : GuardExecutor) (guard : String) (context : PyVal) : Bool :=
  match guards guard with
  | none => false
  | some fn => (fn context).getD false

/-- The executor with its collaborators; `simple_guard` evaluates the expressions of rules. -/
structure Executor where
  sha256 : String → String
  policies : String → Option ApprovalPolicy
  /-- `org_hierarchy.get_actor_roles`. -/
  actorRoles : UUID → List String
  guards : GuardExecutor
  compiledRbac : Option CompiledRbacConfig
  simpleGuard : SimpleGuard

structure TransitionResult where
  success : Bool
  newState : Option String := none
  approvalRequired : Bool := false
  approvalRequestId : Option UUID := none
  postsEntry : Bool := false
  reason : String := ""

structure ExecuteTransition where
  workflow : Workflow
  entityType : String
  entityId : UUID
  currentState : String
  action : String
  actorId : UUID
  actorRole : String
  amount : Option Decimal := none
  currency : String := "USD"
  context : Option PyVal := none
  approvalRequestId : Option UUID := none

/-- `_find_transition`. -/
def findTransition (workflow : Workflow) (currentState action : String) : Option Transition :=
  workflow.transitions.find? fun t => t.fromState = currentState && t.action = action

namespace Executor

variable (ex : Executor)

/-- `_resolve_policy`: the policy of the action, else the policy of the workflow. -/
def resolvePolicy (workflowName action : String) : Option ApprovalPolicy :=
  match ex.policies (workflowName ++ ":" ++ action) with
  | some policy => some policy
  | none => ex.policies workflowName

/-- Why the actor is denied, where permissions are configured and the actor has roles. -/
def rbacDenial (a : ExecuteTransition) : Option String :=
  match ex.compiledRbac, getPermissionForTransition a.workflow.name a.action with
  | some rbac, some requiredPermission =>
      let assignedRoles := ex.actorRoles a.actorId
      if assignedRoles.isEmpty then none
      else
        let role := strip a.actorRole
        checkRbac rbac assignedRoles (if role = "" then none else some role) requiredPermission
  | _, _ => none

/-- The guard of the transition that is not satisfied. -/
def failedGuard (transition : Transition) (context : Option PyVal) : Option String :=
  transition.guard.filter fun guard => !evaluateGuard ex.guards guard (context.getD (.dict []))

/-- APPROVED or AUTO_APPROVED. -/
def granted (status : ApprovalStatus) : Bool := status = .approved || status = .autoApproved

/-- `_check_existing_approval`. -/
def checkExistingApproval (approvalRequestId : UUID) (transition : Transition) (t : Tables) :
    Except ApprovalError TransitionResult :=
  (getRequest ex.sha256 approvalRequestId t).map fun request =>
    if granted request.status then
      { success := true
        newState := some transition.toState
        postsEntry := transition.postsEntry
        reason := "Pre-approved (status=" ++ request.status.value ++ ")" }
    else if request.status = .rejected then
      { success := false, reason := "Approval request was rejected" }
    else
      { success := false
        approvalRequired := true
        approvalRequestId := some approvalRequestId
        reason := "Approval not yet resolved (status=" ++ request.status.value ++ ")" }

/-- What identifies the transition of a call. -/
def key (a : ExecuteTransition) (transition : Transition) : TransitionKey where
  workflowName := a.workflow.name
  entityType := a.entityType
  entityId := a.entityId
  transitionAction := a.action
  fromState := a.currentState
  toState := transition.toState

/-- Make a request, or let the transition pass where the policy asks for none. -/
def requireApproval (policy : ApprovalPolicy) (transition : Transition) (a : ExecuteTransition)
    (d d' : Draws) (s : Session Log) : Result ApprovalError Log TransitionResult :=
  match evaluateApprovalRequirement ex.simpleGuard (some policy) a.amount a.context with
  | .error e => (.error (.raised e), s)
  | .ok evaluation =>
      let passed : TransitionResult :=
        { success := true
          newState := some transition.toState
          postsEntry := transition.postsEntry
          reason := evaluation.reason }
      if !evaluation.needsApproval then (.ok passed, s)
      else
        match evaluation.matchedRule with
        | none =>
            (.ok { success := false, reason := "Approval required but no matching rule found" }, s)
        | some rule =>
            let request : CreateRequest :=
              { key a transition with
                policy
                matchedRuleName := rule.ruleName
                requestorId := a.actorId
                amount := a.amount
                currency := a.currency }
            (createRequest ex.sha256 request d s).andThen fun model s =>
              if evaluation.autoApproved then
                (recordAutoApproval model.requestId d' s).andThen fun _ s =>
                  (.ok { passed with approvalRequestId := some model.requestId }, s)
              else
                (.ok {
                  success := false
                  approvalRequired := true
                  approvalRequestId := some model.requestId
                  reason := "Approval required: " ++ evaluation.reason }, s)

/-- `execute_transition`; `d` and `d'` are what creating and approving a request draw. -/
def executeTransition (a : ExecuteTransition) (d d' : Draws) (s : Session Log) :
    Result ApprovalError Log TransitionResult :=
  match findTransition a.workflow a.currentState a.action with
  | none =>
      (.ok {
        success := false
        reason := "No transition from '" ++ a.currentState ++ "' via action '" ++ a.action ++
          "' in workflow '" ++ a.workflow.name ++ "'" }, s)
  | some transition =>
      match ex.rbacDenial a with
      | some reason => (.ok { success := false, reason }, s)
      | none =>
          match ex.failedGuard transition a.context with
          | some guard => (.ok { success := false, reason := "Guard not satisfied: " ++ guard }, s)
          | none =>
              match ex.resolvePolicy a.workflow.name a.action with
              | none =>
                  (.ok {
                    success := true
                    newState := some transition.toState
                    postsEntry := transition.postsEntry
                    reason := "No approval policy -- transition allowed" }, s)
              | some policy =>
                  match a.approvalRequestId with
                  | some approvalRequestId =>
                      (ex.checkExistingApproval approvalRequestId transition s.current.tables, s)
                  | none => ex.requireApproval policy transition a d d' s

/-- The exception raised in place of `UnauthorizedApproverError`, whose third argument the call
leaves out. -/
def unauthorizedApprover : ApprovalError :=
  .typeError ("UnauthorizedApproverError.__init__() missing 1 required positional argument: " ++
    "'required_roles'")

/-- `record_approval_decision`, up to the service's answer. -/
def recordApprovalDecision (requestId actorId : UUID) (actorRole : String)
    (decision : ApprovalDecision) (comment : String) (d : Draws) (s : Session Log) :
    Result ApprovalError Log TransitionResult :=
  match getRequest ex.sha256 requestId s.current.tables with
  | .error e => (.error e, s)
  | .ok request =>
      let policy := ex.resolvePolicy request.workflowName request.transitionAction
      match unauthorized policy request with
      | .error e => (.error (.raised e), s)
      | .ok true => (.error unauthorizedApprover, s)
      | .ok false =>
          (recordDecision ⟨requestId, actorId, actorRole, decision, comment, policy⟩ d s).andThen
            fun updated s =>
              if updated.status = .approved then
                (.ok { success := true, newState := some updated.toState, reason := "Approved" }, s)
              else if updated.status = .rejected then
                (.ok { success := false, reason := "Rejected" }, s)
              else
                (.ok {
                  success := false
                  approvalRequired := true
                  approvalRequestId := some requestId
                  reason := "Decision recorded; status=" ++ updated.status.value }, s)
where
  /-- The rule for the amount of the request does not accept the role. -/
  unauthorized (policy : Option ApprovalPolicy) (request : ApprovalRequestModel) :
      Except Hashing.PyError Bool :=
    match policy, request.matchedRule with
    | some policy, some _ =>
        (selectMatchingRule ex.simpleGuard policy.rules request.amount none).map fun rule =>
          rule.any fun rule => !validateActorAuthority actorRole rule
    | _, _ => .ok false

/-! ### The gate -/

variable {ex} {a : ExecuteTransition} {d d' : Draws} {s : Session Log}

/-- The transition requires approval: it says so, or a policy is configured for it. -/
def RequiresApproval (ex : Executor) (a : ExecuteTransition) (transition : Transition) : Prop :=
  transition.requiresApproval = true ∨ (ex.resolvePolicy a.workflow.name a.action).isSome

/-- The request is approved and was made for the transition of the call. -/
structure GrantedFor (a : ExecuteTransition) (transition : Transition)
    (model : ApprovalRequestModel) : Prop where
  granted : granted model.status = true
  key : model.toTransitionKey = key a transition

/-- **The approval gate**: a supplied request lets a transition that requires approval through
only if it is approved and was made for this transition. -/
def GateKept (ex : Executor) (a : ExecuteTransition) (d d' : Draws) (s : Session Log) : Prop :=
  ∀ result requestId transition, (ex.executeTransition a d d' s).1 = .ok result →
    result.success = true → a.approvalRequestId = some requestId →
      findTransition a.workflow a.currentState a.action = some transition →
        RequiresApproval ex a transition →
          ∃ model, s.current.tables.load requestId = some model ∧ GrantedFor a transition model

/-- The call comes as far as the gate: nothing denies it before. -/
structure ReachesGate (ex : Executor) (a : ExecuteTransition) (requestId : UUID)
    (transition : Transition) : Prop where
  supplied : a.approvalRequestId = some requestId
  found : findTransition a.workflow a.currentState a.action = some transition
  permitted : ex.rbacDenial a = none
  guarded : ex.failedGuard transition a.context = none

/-- The condition on the supplied request: where a policy is configured, a request that is intact
and approved was made for the transition; where none is, a transition that says it requires
approval comes with such a request. -/
def Fits (ex : Executor) (a : ExecuteTransition) (t : Tables) : Prop :=
  ∀ requestId transition, ReachesGate ex a requestId transition →
    (∀ model, (ex.resolvePolicy a.workflow.name a.action).isSome →
      getRequest ex.sha256 requestId t = .ok model → granted model.status = true →
        model.toTransitionKey = key a transition) ∧
    (ex.resolvePolicy a.workflow.name a.action = none → transition.requiresApproval = true →
      ∃ model, t.load requestId = some model ∧ GrantedFor a transition model)

theorem load_of_getRequest {sha256 : String → String} {requestId : UUID} {t : Tables}
    {model : ApprovalRequestModel} (h : getRequest sha256 requestId t = .ok model) :
    t.load requestId = some model := by
  unfold getRequest at h
  split at h
  · cases h
  · rename_i model' hload
    rw [hload]
    split at h
    · exact congrArg some (Except.ok.inj h)
    · split at h
      · cases h
      · split at h
        · cases h
        · exact congrArg some (Except.ok.inj h)

/-- What lets a call succeed with a supplied request. -/
theorem success_iff {requestId : UUID} {transition : Transition}
    (h : ReachesGate ex a requestId transition) :
    (∃ result, (ex.executeTransition a d d' s).1 = .ok result ∧ result.success = true) ↔
      (ex.resolvePolicy a.workflow.name a.action = none ∨
        ∃ model, getRequest ex.sha256 requestId s.current.tables = .ok model ∧
          granted model.status = true) := by
  unfold executeTransition
  simp only [h.found, h.permitted, h.guarded, h.supplied]
  cases hpolicy : ex.resolvePolicy a.workflow.name a.action with
  | none => exact iff_of_true ⟨_, rfl, rfl⟩ (Or.inl rfl)
  | some policy =>
      simp only [checkExistingApproval, reduceCtorEq, false_or]
      cases hget : getRequest ex.sha256 requestId s.current.tables with
      | error e => simp [Except.map]
      | ok model =>
          simp only [Except.map, Except.ok.injEq, exists_eq_left']
          by_cases hgranted : granted model.status = true
          · simp [hgranted]
          · simp only [hgranted]
            by_cases hrejected : model.status = .rejected <;> simp [hrejected]

/-- A call that succeeds came as far as the gate. -/
theorem reachesGate_of_success {requestId : UUID} {transition : Transition}
    {result : TransitionResult} (hok : (ex.executeTransition a d d' s).1 = .ok result)
    (hsuccess : result.success = true) (hsupplied : a.approvalRequestId = some requestId)
    (hfound : findTransition a.workflow a.currentState a.action = some transition) :
    ReachesGate ex a requestId transition := by
  unfold executeTransition at hok
  simp only [hfound] at hok
  refine ⟨hsupplied, hfound, ?_, ?_⟩
  · cases hdenial : ex.rbacDenial a with
    | none => rfl
    | some reason =>
        simp only [hdenial, Except.ok.injEq] at hok
        rw [← hok] at hsuccess
        cases hsuccess
  · cases hguard : ex.failedGuard transition a.context with
    | none => rfl
    | some guard =>
        cases hdenial : ex.rbacDenial a with
        | none =>
            simp only [hdenial, hguard, Except.ok.injEq] at hok
            rw [← hok] at hsuccess
            cases hsuccess
        | some reason =>
            simp only [hdenial, Except.ok.injEq] at hok
            rw [← hok] at hsuccess
            cases hsuccess

/-- **The gate is kept exactly when the supplied request fits the call.** -/
theorem gate_kept_iff (ex : Executor) (a : ExecuteTransition) (d d' : Draws) (s : Session Log) :
    GateKept ex a d d' s ↔ Fits ex a s.current.tables := by
  constructor
  · intro hkept requestId transition hreaches
    refine ⟨fun model hpolicy hget hgranted => ?_, fun hpolicy hflag => ?_⟩
    · obtain ⟨result, hok, hsuccess⟩ : ∃ result, (ex.executeTransition a d d' s).1 = .ok result ∧
          result.success = true := (success_iff hreaches).mpr (Or.inr ⟨model, hget, hgranted⟩)
      obtain ⟨model', hload, hfor⟩ := hkept result requestId transition hok hsuccess
        hreaches.supplied hreaches.found (Or.inr hpolicy)
      obtain rfl := Option.some.inj ((load_of_getRequest hget).symm.trans hload)
      exact hfor.key
    · obtain ⟨result, hok, hsuccess⟩ : ∃ result, (ex.executeTransition a d d' s).1 = .ok result ∧
          result.success = true := (success_iff hreaches).mpr (Or.inl hpolicy)
      exact hkept result requestId transition hok hsuccess hreaches.supplied hreaches.found
        (Or.inl hflag)
  · intro hfits result requestId transition hok hsuccess hsupplied hfound hrequires
    have hreaches := reachesGate_of_success hok hsuccess hsupplied hfound
    obtain ⟨hmatch, hflagged⟩ := hfits requestId transition hreaches
    rcases (success_iff hreaches).mp ⟨result, hok, hsuccess⟩ with hnone | ⟨model, hget, hgranted⟩
    · refine hflagged hnone (hrequires.resolve_right ?_)
      rw [hnone]
      decide
    · cases hpolicy : ex.resolvePolicy a.workflow.name a.action with
      | none =>
          refine hflagged hpolicy (hrequires.resolve_right ?_)
          rw [hpolicy]
          decide
      | some policy =>
          refine ⟨model, load_of_getRequest hget, hgranted, ?_⟩
          exact hmatch model (by rw [hpolicy]; rfl) hget hgranted

/-- Payments are approved by one approver. -/
def samplePolicy : ApprovalPolicy where
  policyName := "Payments"
  version := 1
  rules := [{ ruleName := "any", priority := 1 }]

/-- The digest is that of the payload of the one request below. -/
def sampleExecutor : Executor where
  sha256 _ := "7e965c79ecad41df0c899db03beb1a29b78d6f5f66a13f757255d6b5d6cb2a3e"
  policies name := if name = "ap_payment" then some samplePolicy else none
  actorRoles _ := []
  guards _ := none
  compiledRbac := none
  simpleGuard _ _ := .ok true

/-- The approval of a payment by its number. -/
def sampleCall (entityId : UUID) (approvalRequestId : Option UUID) : ExecuteTransition where
  workflow := ⟨"ap_payment", [⟨"submitted", "approved", "approve", none, true, true⟩]⟩
  entityType := "payment"
  entityId := entityId
  currentState := "submitted"
  action := "approve"
  actorId := ⟨1⟩
  actorRole := "clerk"
  approvalRequestId := approvalRequestId

/-- Payment 7 has been requested and approved. -/
def sampleSession : Session Log :=
  let d : Draws := ⟨sampleTime, ⟨10⟩, false⟩
  let s := (sampleExecutor.executeTransition (sampleCall ⟨7⟩ none) d d
    (Session.start (UnitOfWork.Logged.start .empty))).2
  (sampleExecutor.recordApprovalDecision ⟨10⟩ ⟨2⟩ "controller" .approve "" ⟨sampleTime, ⟨11⟩, false⟩
    s).2

/-- **The approval of one payment lets another through.** -/
theorem approval_reused :
    ¬GateKept sampleExecutor (sampleCall ⟨8⟩ (some ⟨10⟩)) ⟨sampleTime, ⟨12⟩, false⟩
      ⟨sampleTime, ⟨13⟩, false⟩ sampleSession := by
  rw [gate_kept_iff]
  intro h
  have hother : (getRequest sampleExecutor.sha256 ⟨10⟩ sampleSession.current.tables).toOption.any
      (fun model => granted model.status && model.entityId = ⟨7⟩) = true := by
    decide +kernel
  obtain ⟨model, hmodel, hboth⟩ := (Option.any_eq_true ..).mp hother
  rw [Bool.and_eq_true, decide_eq_true_eq] at hboth
  have hget : getRequest sampleExecutor.sha256 ⟨10⟩ sampleSession.current.tables = .ok model := by
    revert hmodel
    cases getRequest sampleExecutor.sha256 ⟨10⟩ sampleSession.current.tables with
    | error e => exact fun hmodel => by cases hmodel
    | ok model' => exact fun hmodel => congrArg Except.ok (Option.some.inj hmodel)
  have hkey := (h ⟨10⟩ _ ⟨rfl, rfl, rfl, rfl⟩).1 model (by decide) hget hboth.1
  have hid : model.entityId = ⟨8⟩ := congrArg TransitionKey.entityId hkey
  rw [hid] at hboth
  exact absurd hboth.2 (by decide)

end Executor

end FinanceAccounting.WorkflowExecutor
