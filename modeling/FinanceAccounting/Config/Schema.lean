import FinanceAccounting.Kernel.Hashing

/-! # The configuration schema

The records of `finance_config.schema` that a configuration set is assembled from, and those of
`finance_config.compiler` that the compiler makes of them.  Records with one shape in source and
compiled form (a trigger, a role binding) are shared, as in the code. -/

namespace FinanceAccounting.Config

open Hashing (PyVal)

/-! ### Scope and policies -/

structure ConfigScope where
  legalEntity : String
  jurisdiction : String
  regulatoryRegime : String
  currency : String
  effectiveFrom : Date
  effectiveTo : Option Date := none

structure PolicyTriggerDef where
  eventType : String
  schemaVersion : ℤ := 1
  /-- The where-clause: field paths with the values they must have. -/
  conditions : List (String × PyVal) := []

structure PolicyMeaningDef where
  economicType : String
  quantityField : Option String := none
  dimensions : List String := []

structure LedgerEffectDef where
  ledger : String
  debitRole : String
  creditRole : String

structure GuardDef where
  guardType : String
  expression : String
  reasonCode : String
  message : String := ""

structure PrecedenceDef where
  mode : String := "normal"
  priority : ℤ := 0
  overrides : List String := []

structure LineMappingDef where
  role : String
  side : String
  ledger : String := "GL"
  fromContext : Option String := none
  foreach : Option String := none

structure PolicyDefinition where
  name : String
  version : ℤ
  trigger : PolicyTriggerDef
  meaning : PolicyMeaningDef
  ledgerEffects : List LedgerEffectDef
  guards : List GuardDef := []
  effectiveFrom : Date
  effectiveTo : Option Date := none
  scope : String := "*"
  precedence : Option PrecedenceDef := none
  valuationModel : Option String := none
  lineMappings : List LineMappingDef := []
  intentSource : Option String := none
  requiredEngines : List String := []
  engineParametersRef : Option String := none
  varianceDisposition : Option String := none
  capabilityTags : List String := []
  description : String := ""
  module : String := ""

/-! ### Roles, ledgers, controls, engines -/

structure RoleBinding where
  role : String
  ledger : String
  accountCode : String
  effectiveFrom : Date
  effectiveTo : Option Date := none

structure LedgerDefinition where
  ledgerId : String
  name : String
  requiredRoles : List String := []

structure ControlRule where
  name : String
  appliesTo : String
  action : String
  expression : String
  reasonCode : String
  message : String := ""

structure EngineConfigDef where
  engineName : String
  versionConstraint : String := "*"
  parameters : List (String × PyVal) := []

structure SubledgerContractDef where
  subledgerId : String
  ownerModule : String
  controlAccountRole : String
  entryTypes : List String := []
  isDebitNormal : Bool := true
  timing : String := "real_time"
  toleranceType : String := "none"
  toleranceAmount : String := "0"
  tolerancePercentage : String := "0"
  enforceOnPost : Bool := true
  enforceOnClose : Bool := true

structure PrecedenceRule where
  name : String
  description : String := ""
  ruleType : String := "specificity"

/-! ### Approval policies -/

structure ApprovalRuleDef where
  ruleName : String
  priority : ℤ
  minAmount : Option String := none
  maxAmount : Option String := none
  requiredRoles : List String := []
  minApprovers : ℤ := 1
  requireDistinctRoles : Bool := false
  guardExpression : Option String := none
  autoApproveBelow : Option String := none
  escalationTimeoutHours : Option ℤ := none

structure ApprovalPolicyDef where
  policyName : String
  version : ℤ := 1
  appliesToWorkflow : String := ""
  appliesToAction : Option String := none
  policyCurrency : Option String := none
  rules : List ApprovalRuleDef := []
  effectiveFrom : Option String := none
  effectiveTo : Option String := none

/-! ### Imports and schedules -/

inductive EventFieldType where
  | string
  | integer
  | decimal
  | boolean
  | date
  | datetime
  | uuid
  | currency
  | object
  | array
deriving DecidableEq, Repr

structure ImportFieldDef where
  source : String
  target : String
  fieldType : EventFieldType := .string
  required : Bool := false
  default : PyVal := .none
  format : Option String := none
  transform : Option String := none

structure ImportValidationDef where
  ruleType : String
  fields : List String := []
  scope : String := "batch"
  referenceEntity : Option String := none
  expression : Option String := none
  message : String := ""

structure ImportMappingDef where
  name : String
  version : ℤ := 1
  entityType : String := ""
  sourceFormat : String := "csv"
  sourceOptions : List (String × PyVal) := []
  fieldMappings : List ImportFieldDef := []
  validations : List ImportValidationDef := []
  dependencyTier : ℤ := 0

structure BatchScheduleDef where
  name : String
  taskType : String
  frequency : String
  parameters : List (String × PyVal) := []
  cronExpression : Option String := none
  maxRetries : ℤ := 3
  isActive : Bool := true
  legalEntity : Option String := none

/-! ### Roles of actors -/

structure RbacConfigMetadata where
  version : String
  effectiveFrom : Date
  supersedes : Option String := none

structure AuthorityRulesDef where
  authorityRoleRequired : Bool := true
  multiRoleActionsAllowed : Bool := false

structure RoleDef where
  name : String
  permissions : List String
  inherits : List String := []

structure PermissionConflictsDef where
  hardBlock : List (List String) := []
  softWarn : List (List String) := []

structure SegregationOfDutiesDef where
  roleConflicts : List (List String) := []
  permissionConflicts : PermissionConflictsDef := {}
  lifecycleConflicts : List (String × List String) := []

structure OverrideRoleDef where
  name : String
  permissions : List String
  expiry : String
  requiresDualApproval : Bool := true

structure HierarchyRulesDef where
  inheritanceDepthLimit : ℤ := 2

structure RbacConfigDef where
  rbacConfig : RbacConfigMetadata
  authorityRules : AuthorityRulesDef
  roles : List RoleDef
  segregationOfDuties : SegregationOfDutiesDef
  overrideRoles : List OverrideRoleDef := []
  hierarchyRules : HierarchyRulesDef := {}

/-! ### The configuration set -/

inductive ConfigStatus where
  | draft
  | reviewed
  | approved
  | published
  | superseded
deriving DecidableEq, Repr

structure AccountingConfigurationSet where
  configId : String
  version : ℤ
  checksum : String
  scope : ConfigScope
  status : ConfigStatus
  policies : List PolicyDefinition
  roleBindings : List RoleBinding
  predecessor : Option String := none
  policyPrecedenceRules : List PrecedenceRule := []
  ledgerDefinitions : List LedgerDefinition := []
  engineConfigs : List EngineConfigDef := []
  controls : List ControlRule := []
  capabilities : List (String × Bool) := []
  subledgerContracts : List SubledgerContractDef := []
  approvalPolicies : List ApprovalPolicyDef := []
  importMappings : List ImportMappingDef := []
  batchSchedules : List BatchScheduleDef := []
  rbac : Option RbacConfigDef := none

end FinanceAccounting.Config
