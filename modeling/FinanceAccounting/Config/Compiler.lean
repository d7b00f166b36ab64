import Mathlib.Data.Finset.Card
import FinanceAccounting.Config.Fingerprint
import FinanceAccounting.Config.GuardAst
import FinanceAccounting.Library.Traversals
import Mathlib.Data.Finset.Dedup

/-! # The configuration compiler

`compile_policy_pack`: every step collects its errors, and the pack is returned when none of them
is more than a warning.  Policies, guards and controls are copied as they are; the dispatch index
groups the policies by event type (`candidates_matchIndex`).

The dispatch check only warns, so a pack may have policies that no precedence tells apart
(`dispatch_only_warns`). -/

namespace FinanceAccounting.Config

open Hashing (PyVal sortKeys)

/-! ### Errors -/

inductive Severity where
  | error
  | warning
deriving DecidableEq, Repr

structure CompilationError where
  category : String
  message : String
  policyName : String := ""
  severity : Severity := .error

inductive CompileFailure where
  | compilationFailed (errors : List CompilationError)
  /-- A where-clause with a list or a mapping for a value is no key of a dictionary. -/
  | unhashable
  | recursionError

/-! ### The pack -/

/-- A compiled policy has the fields of its definition. -/
abbrev CompiledPolicy := PolicyDefinition

structure PolicyMatchIndex where
  entries : List (String × List CompiledPolicy)

def PolicyMatchIndex.getCandidates (index : PolicyMatchIndex) (eventType : String) :
    List CompiledPolicy :=
  (index.entries.lookup eventType).getD []

structure ResolvedEngineContract where
  engineName : String
  engineVersion : String
  parameterKey : String

structure FrozenEngineParams where
  engineName : String
  parameters : List (String × PyVal)

structure CompiledApprovalPolicy where
  policyName : String
  version : ℤ
  appliesToWorkflow : String
  appliesToAction : Option String
  policyCurrency : Option String
  rules : List ApprovalRuleDef
  effectiveFrom : Option String
  effectiveTo : Option String
  policyHash : String

structure CompiledRbacConfig where
  rbacVersion : String
  authorityRoleRequired : Bool
  multiRoleActionsAllowed : Bool
  rolePermissions : List (String × Finset String)
  roleConflicts : List (List String)
  permissionConflictsHard : List (List String)
  permissionConflictsSoft : List (List String)
  lifecycleConflicts : List (String × List String)
  overrideRoles : List OverrideRoleDef
  inheritanceDepthLimit : ℤ

structure CompiledPolicyPack where
  configId : String
  configVersion : ℤ
  checksum : String
  scope : ConfigScope
  policies : List CompiledPolicy
  matchIndex : PolicyMatchIndex
  roleBindings : List RoleBinding
  engineContracts : List ResolvedEngineContract
  resolvedEngineParams : List FrozenEngineParams
  controls : List ControlRule
  capabilities : List (String × Bool)
  canonicalFingerprint : String
  subledgerContracts : List SubledgerContractDef
  approvalPolicies : List CompiledApprovalPolicy
  importMappings : List ImportMappingDef
  compiledRbac : Option CompiledRbacConfig

/-- What the compiler takes from Python: how deep calls may be nested, the parser of expressions,
whether `Decimal` reads a text, `lower`, `repr`, the equality of where-clauses as dictionary keys,
and what hashing needs. -/
structure Toolchain where
  recursionLimit : ℕ
  parse : Parser
  readsDecimal : String → Bool
  lower : String → String
  repr : PyVal → String
  reprWhere : List (String × PyVal) → String
  sameWhere : List (String × PyVal) → List (String × PyVal) → Bool
  dumping : Dumping

/-! ### Guards and controls -/

/-- `_compile_guards`. -/
def compileGuards (t : Toolchain) (policy : PolicyDefinition) : List CompilationError :=
  policy.guards.flatMap fun guard =>
    (validateGuardExpression t.parse guard.expression).map fun astErr =>
      { category := "guard"
        message := "Invalid guard expression in policy '" ++ policy.name ++ "': " ++
          astErr.message ++ " (expression: " ++ guard.expression ++ ")"
        policyName := policy.name }

/-- `_compile_controls`. -/
def compileControls (t : Toolchain) (controls : List ControlRule) : List CompilationError :=
  controls.flatMap fun control =>
    (validateGuardExpression t.parse control.expression).map fun astErr =>
      { category := "control"
        message := "Invalid control expression '" ++ control.name ++ "': " ++ astErr.message }

/-! ### The dispatch index -/

/-- `_is_admissible`. -/
def isAdmissible (t : Toolchain) (capabilities : List (String × Bool)) (policy : CompiledPolicy) :
    Bool :=
  policy.capabilityTags.all fun tag => (capabilities.lookup (t.lower tag)).getD false

/-- Append a policy to the list of its event type. -/
def addCandidate (policy : CompiledPolicy) :
    List (String × List CompiledPolicy) → List (String × List CompiledPolicy)
  | [] => [(policy.trigger.eventType, [policy])]
  | (eventType, policies) :: entries =>
      if eventType = policy.trigger.eventType then (eventType, policies ++ [policy]) :: entries
      else (eventType, policies) :: addCandidate policy entries

/-- The policies by event type. -/
def groupByEventType (policies : List CompiledPolicy) : List (String × List CompiledPolicy) :=
  policies.foldl (fun entries policy => addCandidate policy entries) []

def hashable : PyVal → Bool
  | .list _ => false
  | .dict _ => false
  | _ => true

/-- Append a policy to the list of its where-clause. -/
def addByWhere (t : Toolchain) (policy : CompiledPolicy) :
    List (List (String × PyVal) × List CompiledPolicy) →
      List (List (String × PyVal) × List CompiledPolicy)
  | [] => [(policy.trigger.conditions, [policy])]
  | (key, group) :: groups =>
      if t.sameWhere key policy.trigger.conditions then (key, group ++ [policy]) :: groups
      else (key, group) :: addByWhere t policy groups

def priorityOf (policy : CompiledPolicy) : ℤ := (policy.precedence.map (·.priority)).getD 0

/-- `_check_dispatch_ambiguity`. -/
def checkDispatchAmbiguity (t : Toolchain) (eventType : String) (policies : List CompiledPolicy) :
    Except CompileFailure (List CompilationError) :=
  if policies.all fun p => p.trigger.conditions.all fun c => hashable c.2 then
    let groups := policies.foldl (fun groups p => addByWhere t p groups) []
    .ok (groups.filterMap fun (key, group) =>
      if 1 < group.length ∧ (group.map priorityOf).toFinset.card < group.length then
        some {
          category := "dispatch"
          message := "Potentially ambiguous dispatch for event_type '" ++ eventType ++
            "' with where=" ++ t.reprWhere key ++ ": policies " ++
            t.repr (.list (group.map fun p => str p.name)) ++ " share the same precedence. " ++
            "Assign distinct priorities or non-overlapping effective date ranges."
          severity := .warning }
      else none)
  else .error .unhashable

/-- The findings of the check for all event types. -/
def checkDispatch (t : Toolchain) (capabilities : List (String × Bool)) :
    List (String × List CompiledPolicy) → Except CompileFailure (List CompilationError)
  | [] => .ok []
  | (eventType, candidates) :: entries => do
      let found ← checkDispatchAmbiguity t eventType (candidates.filter (isAdmissible t capabilities))
      let rest ← checkDispatch t capabilities entries
      return found ++ rest

/-! ### Engines -/

/-- `ENGINE_CONTRACTS`: names and versions. -/
def engineContracts : List (String × String) :=
  [("variance", "1.0"), ("allocation", "1.0"), ("matching", "1.0"), ("aging", "1.0"),
    ("tax", "1.0"), ("allocation_cascade", "1.0"), ("billing", "1.0"), ("ice", "1.0")]

/-- `_build_contracts_from_registry`. -/
def buildContractsFromRegistry (config : AccountingConfigurationSet) :
    List ResolvedEngineContract :=
  engineContracts.map fun (engineName, engineVersion) =>
    { engineName
      engineVersion
      parameterKey :=
        if engineName ∈ config.engineConfigs.map (·.engineName) then engineName else "" }

/-- `_validate_engine_references`. -/
def validateEngineReferences (policies : List CompiledPolicy)
    (contracts : List ResolvedEngineContract) : List CompilationError :=
  policies.flatMap fun policy =>
    (policy.requiredEngines.filter fun engine => engine ∉ contracts.map (·.engineName)).map
      fun engineName =>
        { category := "engine"
          message := "Policy '" ++ policy.name ++ "' requires engine '" ++ engineName ++
            "' but no contract exists"
          policyName := policy.name }

/-- The dictionary of engine parameters: the last configuration of an engine counts, in the place
of the first. -/
def setEngineParams (params : FrozenEngineParams) :
    List FrozenEngineParams → List FrozenEngineParams
  | [] => [params]
  | p :: ps =>
      if p.engineName = params.engineName then params :: ps else p :: setEngineParams params ps

/-- `_resolve_engine_params`: the parameters. -/
def resolveEngineParams (configs : List EngineConfigDef) : List FrozenEngineParams :=
  configs.foldl (fun params ec => setEngineParams ⟨ec.engineName, ec.parameters⟩ params) []

/-- `_resolve_engine_params`: the references that lead nowhere. -/
def unresolvedEngineParams (config : AccountingConfigurationSet) : List CompilationError :=
  config.policies.filterMap fun policy =>
    match policy.engineParametersRef with
    | none => none
    | some ref =>
        if ref = "" ∨ ref ∈ config.engineConfigs.map (·.engineName) then none
        else some {
          category := "engine"
          message := "Policy '" ++ policy.name ++ "' references engine params '" ++ ref ++
            "' but no engine config exists with that name"
          policyName := policy.name }

/-! ### Approval policies -/

/-- `str` of a list of integers. -/
def reprInts (xs : List ℤ) : String := "[" ++ ", ".intercalate (xs.map toString) ++ "]"

/-- The amounts of a rule with the names of their fields. -/
def amountFields (rule : ApprovalRuleDef) : List (String × Option String) :=
  [("min_amount", rule.minAmount), ("max_amount", rule.maxAmount),
    ("auto_approve_below", rule.autoApproveBelow)]

def checkApprovalRule (t : Toolchain) (policy : ApprovalPolicyDef) (rule : ApprovalRuleDef) :
    List CompilationError :=
  ((amountFields rule).filterMap fun (fieldName, val) =>
    match val with
    | none => none
    | some val =>
        if t.readsDecimal val then none
        else some {
          category := "approval"
          message := "Approval rule '" ++ rule.ruleName ++ "' in policy '" ++ policy.policyName ++
            "': '" ++ fieldName ++ "' is not a valid Decimal: " ++ val
          policyName := policy.policyName }) ++
    match rule.guardExpression with
    | none => []
    | some "" => []
    | some expression =>
        (validateGuardExpression t.parse expression).map fun astErr =>
          { category := "approval"
            message := "Invalid guard expression in approval rule '" ++ rule.ruleName ++
              "' of policy '" ++ policy.policyName ++ "': " ++ astErr.message
            policyName := policy.policyName }

def checkApprovalPolicy (t : Toolchain) (policy : ApprovalPolicyDef) : List CompilationError :=
  let priorities := policy.rules.map (·.priority)
  (if priorities.length ≠ priorities.toFinset.card then
    [{ category := "approval"
       message := "Approval policy '" ++ policy.policyName ++ "' has duplicate rule priorities: " ++
         reprInts priorities
       policyName := policy.policyName }]
    else []) ++ policy.rules.flatMap (checkApprovalRule t policy)

/-- The rule in the document that is hashed; the escalation timeout is not in it. -/
def approvalRuleDocument (r : ApprovalRuleDef) : Json :=
  .obj (sortKeys [("rule_name", .str r.ruleName), ("priority", .int r.priority),
    ("min_amount", orNull .str r.minAmount), ("max_amount", orNull .str r.maxAmount),
    ("required_roles", strings r.requiredRoles), ("min_approvers", .int r.minApprovers),
    ("require_distinct_roles", .bool r.requireDistinctRoles),
    ("guard_expression", orNull .str r.guardExpression),
    ("auto_approve_below", orNull .str r.autoApproveBelow)])

def approvalPolicyDocument (p : ApprovalPolicyDef) : Json :=
  .obj (sortKeys [("policy_name", .str p.policyName), ("version", .int p.version),
    ("applies_to_workflow", .str p.appliesToWorkflow),
    ("applies_to_action", orNull .str p.appliesToAction),
    ("policy_currency", orNull .str p.policyCurrency),
    ("rules", .arr (p.rules.map approvalRuleDocument))])

def compileApprovalPolicy (t : Toolchain) (p : ApprovalPolicyDef) : CompiledApprovalPolicy where
  policyName := p.policyName
  version := p.version
  appliesToWorkflow := p.appliesToWorkflow
  appliesToAction := p.appliesToAction
  policyCurrency := p.policyCurrency
  rules := p.rules.insertionSort fun a b => a.priority ≤ b.priority
  effectiveFrom := p.effectiveFrom
  effectiveTo := p.effectiveTo
  policyHash := t.dumping.digest (approvalPolicyDocument p)

/-! ### Roles of actors -/

/-- `PERMISSION_TAXONOMY`. -/
def permissionTaxonomy : List String :=
  ["ap.invoice.enter", "ap.invoice.view", "ap.invoice.approve", "ap.payment.enter",
    "ap.payment.release", "ap.payment.approve", "ap.hold.vendor", "ap.aging.view",
    "ar.invoice.enter", "ar.invoice.view", "ar.credit_memo.issue", "ar.payment.apply",
    "ar.aging.view", "gl.journal.post", "journal.post.manual", "period.close", "gl.reconcile",
    "gl.export.full", "reporting.sensitive", "reporting.export.bulk", "pii.export",
    "rbac.role.define", "rbac.sod.modify", "rbac.assignment.approve"]

def rbacError (message : String) : CompilationError := { category := "rbac", message }

/-- The role with a name; of several the last. -/
def roleNamed (roles : List RoleDef) (name : String) : Option RoleDef :=
  roles.reverse.find? (·.name = name)

/-- `_resolve_depth`, with the errors on the way; the first number bounds the nesting of its
calls. -/
def resolveDepth (roles : List RoleDef) (depthLimit : ℤ) :
    ℕ → List String → String → Except CompileFailure (ℤ × List CompilationError)
  | 0, _, _ => .error .recursionError
  | nesting + 1, path, roleName =>
      if roleName ∈ path then
        .ok (0,
          [rbacError ("Role inheritance cycle: " ++ " -> ".intercalate path ++ " -> " ++ roleName)])
      else
        match roleNamed roles roleName with
        | none => .ok (0, [])
        | some r =>
            if r.inherits.isEmpty then .ok (1, [])
            else
              r.inherits.foldlM (fun (maxChild, errors) parent => do
                let (below, found) ←
                  resolveDepth roles depthLimit nesting (path ++ [roleName]) parent
                let d := below + 1
                -- The limit is looked at when the nested call has returned.
                return (max maxChild d, errors ++ found ++
                  if depthLimit < d then
                    [rbacError ("Role '" ++ roleName ++ "' exceeds inheritance_depth_limit=" ++
                      toString depthLimit ++ " (path includes " ++ parent ++ ")")]
                  else [])) (0, [])

/-- `_expanded_permissions`, with the roles seen; the number bounds the nesting of its calls. -/
def expandedPermissions (roles : List RoleDef) :
    ℕ → List String → String → Except CompileFailure (Finset String × List String)
  | 0, _, _ => .error .recursionError
  | nesting + 1, seen, roleName =>
      if roleName ∈ seen then .ok (∅, seen)
      else
        match roleNamed roles roleName with
        | none => .ok (∅, seen)
        | some r =>
            r.inherits.foldlM (fun (perms, seen) parent => do
              let (inherited, seen) ← expandedPermissions roles nesting seen parent
              return (perms ∪ inherited, seen)) (r.permissions.toFinset, roleName :: seen)

def rolePermissions (recursionLimit : ℕ) (rbac : RbacConfigDef) :
    Except CompileFailure (List (String × Finset String)) :=
  rbac.roles.mapM fun r =>
    (expandedPermissions rbac.roles recursionLimit [] r.name).map fun found => (r.name, found.1)

/-- The permissions of a role or an override that the taxonomy does not have. -/
def unknownPermissions (owner name : String) (permissions : List String) : List CompilationError :=
  (permissions.filter (· ∉ permissionTaxonomy)).map fun p =>
    rbacError ("Permission '" ++ p ++ "' in " ++ owner ++ " '" ++ name ++
      "' is not in PERMISSION_TAXONOMY")

/-- The errors of permissions: those that the taxonomy does not have, and those of it that nobody
has. -/
def permissionErrors (rbac : RbacConfigDef) (rolePermissions : List (String × Finset String)) :
    List CompilationError :=
  let assigned := rolePermissions.map Prod.snd ++ rbac.overrideRoles.map (·.permissions.toFinset)
  (rbac.roles.flatMap fun r => unknownPermissions "role" r.name r.permissions) ++
    (rbac.overrideRoles.flatMap fun ov => unknownPermissions "override" ov.name ov.permissions) ++
    (permissionTaxonomy.filter fun p => assigned.all fun perms => p ∉ perms).map fun p =>
      rbacError ("Permission '" ++ p ++ "' is in PERMISSION_TAXONOMY but not assigned to any role " ++
        "(orphan)")

/-- `_validate_and_compile_rbac`: the errors, and the result where there are none. -/
def compileRbac (recursionLimit : ℕ) (rbac : RbacConfigDef) :
    Except CompileFailure (List CompilationError × Option CompiledRbacConfig) := do
  let depths ← rbac.roles.mapM fun r =>
    resolveDepth rbac.roles rbac.hierarchyRules.inheritanceDepthLimit recursionLimit [] r.name
  let permissions ← rolePermissions recursionLimit rbac
  let errors := depths.flatMap Prod.snd ++ permissionErrors rbac permissions
  return (errors,
    if errors.isEmpty then
      some {
        rbacVersion := rbac.rbacConfig.version
        authorityRoleRequired := rbac.authorityRules.authorityRoleRequired
        multiRoleActionsAllowed := rbac.authorityRules.multiRoleActionsAllowed
        rolePermissions := permissions
        roleConflicts := rbac.segregationOfDuties.roleConflicts
        permissionConflictsHard := rbac.segregationOfDuties.permissionConflicts.hardBlock
        permissionConflictsSoft := rbac.segregationOfDuties.permissionConflicts.softWarn
        lifecycleConflicts := rbac.segregationOfDuties.lifecycleConflicts
        overrideRoles := rbac.overrideRoles
        inheritanceDepthLimit := rbac.hierarchyRules.inheritanceDepthLimit }
    else none)

/-! ### The compiler -/

/-- The step for the roles, which a configuration need not have. -/
def rbacStep (t : Toolchain) (config : AccountingConfigurationSet) :
    Except CompileFailure (List CompilationError × Option CompiledRbacConfig) :=
  match config.rbac with
  | none => .ok ([], none)
  | some rbac => compileRbac t.recursionLimit rbac

/-- The errors of all steps but the dispatch check and the one for the roles. -/
def otherErrors (t : Toolchain) (config : AccountingConfigurationSet)
    (contracts : List ResolvedEngineContract) : List CompilationError :=
  config.policies.flatMap (compileGuards t) ++
    (if contracts.isEmpty then [] else validateEngineReferences config.policies contracts) ++
    unresolvedEngineParams config ++ compileControls t config.controls ++
    config.approvalPolicies.flatMap (checkApprovalPolicy t)

/-- The pack that is returned when there are no errors. -/
def packOf (t : Toolchain) (config : AccountingConfigurationSet)
    (contracts : List ResolvedEngineContract) : CompiledPolicyPack where
  configId := config.configId
  configVersion := config.version
  checksum := config.checksum
  scope := config.scope
  policies := config.policies
  matchIndex := ⟨groupByEventType config.policies⟩
  roleBindings := config.roleBindings
  engineContracts := contracts
  resolvedEngineParams := resolveEngineParams config.engineConfigs
  controls := config.controls
  capabilities := config.capabilities
  canonicalFingerprint := computeFingerprint t.dumping config
  subledgerContracts := config.subledgerContracts
  approvalPolicies := config.approvalPolicies.map (compileApprovalPolicy t)
  importMappings := config.importMappings
  compiledRbac := (rbacStep t config).toOption.bind Prod.snd

/-- The engine contracts that are given, else those of the registry. -/
def contractsFor (config : AccountingConfigurationSet)
    (engineContracts : Option (List ResolvedEngineContract)) : List ResolvedEngineContract :=
  engineContracts.getD (buildContractsFromRegistry config)

/-- `compile_policy_pack`. -/
def compilePolicyPack (t : Toolchain) (config : AccountingConfigurationSet)
    (engineContracts : Option (List ResolvedEngineContract)) :
    Except CompileFailure CompiledPolicyPack := do
  let found ← checkDispatch t config.capabilities (groupByEventType config.policies)
  let (rbacErrors, _) ← rbacStep t config
  let errors := otherErrors t config (contractsFor config engineContracts) ++ rbacErrors ++ found
  let actualErrors := errors.filter (·.severity = .error)
  if actualErrors.isEmpty then .ok (packOf t config (contractsFor config engineContracts))
  else .error (.compilationFailed actualErrors)

/-! ### What a pack has -/

theorem lookup_addCandidate (policy : CompiledPolicy) (eventType : String)
    (entries : List (String × List CompiledPolicy)) :
    ((addCandidate policy entries).lookup eventType).getD [] =
      (entries.lookup eventType).getD [] ++
        if policy.trigger.eventType = eventType then [policy] else [] := by
  induction entries with
  | nil =>
      rw [addCandidate, List.lookup_cons]
      by_cases h : policy.trigger.eventType = eventType
      · rw [h, beq_self_eq_true, if_pos rfl]
        rfl
      · have hbeq : (eventType == policy.trigger.eventType) = false :=
          beq_eq_false_iff_ne.mpr (Ne.symm h)
        simp [hbeq, h]
  | cons entry entries ih =>
      obtain ⟨key, policies⟩ := entry
      rw [addCandidate]
      by_cases hkey : key = policy.trigger.eventType
      · rw [if_pos hkey, List.lookup_cons, List.lookup_cons]
        by_cases h : eventType = key
        · have heq : policy.trigger.eventType = eventType := by rw [h, hkey]
          rw [h, beq_self_eq_true, ← h, if_pos heq]
          rfl
        · have hne : policy.trigger.eventType ≠ eventType := fun heq => h (heq.symm.trans hkey.symm)
          have hbeq : (eventType == key) = false := by simpa using h
          simp [hbeq, hne]
      · rw [if_neg hkey, List.lookup_cons, List.lookup_cons]
        by_cases h : eventType = key
        · have hne : policy.trigger.eventType ≠ eventType := fun heq => hkey (h.symm.trans heq.symm)
          rw [if_neg hne, h, beq_self_eq_true, List.append_nil]
        · have hbeq : (eventType == key) = false := by simpa using h
          simp only [hbeq]
          exact ih

/-- The index has the policies of an event type in their order. -/
theorem candidates_matchIndex (policies : List CompiledPolicy) (eventType : String) :
    PolicyMatchIndex.getCandidates ⟨groupByEventType policies⟩ eventType =
      policies.filter (·.trigger.eventType = eventType) := by
  have key : ∀ (ps : List CompiledPolicy) (entries : List (String × List CompiledPolicy)),
      ((ps.foldl (fun entries policy => addCandidate policy entries) entries).lookup eventType).getD
          [] =
        (entries.lookup eventType).getD [] ++ ps.filter (·.trigger.eventType = eventType) := by
    intro ps
    induction ps with
    | nil => simp
    | cons p ps ih =>
        intro entries
        rw [List.foldl_cons, ih, lookup_addCandidate, List.filter_cons]
        by_cases h : p.trigger.eventType = eventType
        · simp [h]
        · simp [h]
  rw [PolicyMatchIndex.getCandidates, groupByEventType, key]
  simp

theorem checkDispatchAmbiguity_warns {t : Toolchain} {eventType : String}
    {policies : List CompiledPolicy} {found : List CompilationError}
    (h : checkDispatchAmbiguity t eventType policies = .ok found) :
    ∀ e ∈ found, e.severity = .warning := by
  unfold checkDispatchAmbiguity at h
  split at h
  · obtain rfl := Except.ok.inj h
    intro e he
    obtain ⟨⟨key, group⟩, -, hgroup⟩ := List.mem_filterMap.mp he
    dsimp only at hgroup
    split at hgroup
    · obtain rfl := Option.some.inj hgroup
      rfl
    · cases hgroup
  · cases h

/-- **No finding of the dispatch check is an error.** -/
theorem dispatch_only_warns {t : Toolchain} {capabilities : List (String × Bool)}
    {entries : List (String × List CompiledPolicy)} {found : List CompilationError}
    (h : checkDispatch t capabilities entries = .ok found) :
    ∀ e ∈ found, e.severity = .warning := by
  induction entries generalizing found with
  | nil =>
      obtain rfl := Except.ok.inj h
      simp
  | cons entry entries ih =>
      rw [checkDispatch] at h
      cases hfirst : checkDispatchAmbiguity t entry.1 (entry.2.filter (isAdmissible t capabilities)) with
      | error e =>
          rw [hfirst] at h
          cases h
      | ok first =>
          rw [hfirst] at h
          cases hrest : checkDispatch t capabilities entries with
          | error e =>
              simp only [hrest] at h
              cases h
          | ok rest =>
              simp only [hrest] at h
              obtain rfl := Except.ok.inj h
              intro e he
              rcases List.mem_append.mp he with he | he
              · exact checkDispatchAmbiguity_warns hfirst e he
              · exact ih hrest e he

/-- Compilation succeeds or fails whatever policies compete: the dispatch check only needs
where-clauses that are keys of a dictionary. -/
theorem compilePolicyPack_eq_ok {t : Toolchain} {config : AccountingConfigurationSet}
    {contracts : Option (List ResolvedEngineContract)} {pack : CompiledPolicyPack} :
    compilePolicyPack t config contracts = .ok pack ↔
      (∃ found, checkDispatch t config.capabilities (groupByEventType config.policies) =
        .ok found) ∧
      (∃ step, rbacStep t config = .ok step ∧
        ∀ e ∈ otherErrors t config (contractsFor config contracts) ++ step.1,
          e.severity = .warning) ∧
      pack = packOf t config (contractsFor config contracts) := by
  have hwarning : ∀ e : CompilationError, ¬e.severity = .error ↔ e.severity = .warning := by
    intro e
    cases e.severity <;> simp
  have hempty : ∀ {found errors : List CompilationError}, (∀ e ∈ found, e.severity = .warning) →
      (((errors ++ found).filter (·.severity = .error)).isEmpty = true ↔
        ∀ e ∈ errors, e.severity = .warning) := by
    intro found errors hfound
    simp only [List.isEmpty_iff, List.filter_eq_nil_iff, decide_eq_true_iff, hwarning,
      List.forall_mem_append]
    exact and_iff_left hfound
  unfold compilePolicyPack
  simp only [Traversals.bind_eq_ok, Traversals.ite_eq_ok]
  constructor
  · rintro ⟨found, hfound, step, hstep, hnone, rfl⟩
    exact ⟨⟨found, hfound⟩, ⟨step, hstep, (hempty (dispatch_only_warns hfound)).mp hnone⟩, rfl⟩
  · rintro ⟨⟨found, hfound⟩, ⟨step, hstep, hnone⟩, rfl⟩
    exact ⟨found, hfound, step, hstep, (hempty (dispatch_only_warns hfound)).mpr hnone, rfl⟩

end FinanceAccounting.Config
