import Mathlib.Data.List.Lex
import Mathlib.Data.Prod.Lex
import FinanceAccounting.Library.LatestRows
import FinanceAccounting.Config.Compiler
import FinanceAccounting.Reporting.Statements

/-! # Reference snapshots

`ReferenceSnapshotService` captures a hash of every component of the reference data, and
`validate_integrity` captures them again and compares.  The state is the rows of the tables as the
session has them, and the compiled pack; what the queries return is a `Reading`, which leaves open
the order of rows that tie. -/

namespace FinanceAccounting.Snapshots

open Config (CompiledPolicyPack Dumping PolicyDefinition RoleBinding strings orNull)
open Hashing (sortKeys)
open LatestRows (Answers scan)
open Reporting (NormalBalance accountTypeValue)

/-! ### Reference data -/

/-- The account type of an object: the member that it was made with, or the text of the column
once the row is loaded. -/
inductive AccountTypeAttribute where
  | member (t : AccountType)
  | text (value : String)
deriving DecidableEq

def AccountTypeAttribute.value : AccountTypeAttribute → String
  | .member t => accountTypeValue t
  | .text value => value

structure Account where
  code : String
  name : String
  accountType : AccountTypeAttribute
  normalBalance : NormalBalance
  isActive : Bool := true
  tags : Option (List String) := none
  parentId : Option UUID := none
  currency : Option String := none
deriving DecidableEq

structure Dimension where
  code : String
  name : String
  description : Option String := none
  isRequired : Bool := false
  isActive : Bool := true
deriving DecidableEq

structure DimensionValue where
  dimensionCode : String
  code : String
  name : String
  description : Option String := none
  isActive : Bool := true
deriving DecidableEq

structure ExchangeRate where
  fromCurrency : String
  toCurrency : String
  rate : Decimal
  effectiveAt : Datetime

def DimensionValue.key (v : DimensionValue) : String × String := (v.dimensionCode, v.code)

/-- The reference data.  Codes are unique. -/
structure ReferenceState where
  accounts : List Account := []
  dimensions : List Dimension := []
  dimensionValues : List DimensionValue := []
  rates : List ExchangeRate := []
  compiledPack : Option CompiledPolicyPack := none
  accounts_nodup : (accounts.map (·.code)).Nodup := by decide
  dimensions_nodup : (dimensions.map (·.code)).Nodup := by decide
  values_nodup : (dimensionValues.map (·.key)).Nodup := by decide

/-! ### Queries -/

/-- The order that the database has on texts, by its sort keys. -/
structure Collation where
  sortKey : String → List ℕ
  injective : Function.Injective sortKey

def Collation.pairKey (c : Collation) (p : String × String) : List ℕ ×ₗ List ℕ :=
  toLex (c.sortKey p.1, c.sortKey p.2)

def ExchangeRate.pair (r : ExchangeRate) : String × String := (r.fromCurrency, r.toCurrency)

/-- The rates that the query selects. -/
def ReferenceState.ratesUpTo (s : ReferenceState) (asOf : Datetime) : List ExchangeRate :=
  s.rates.filter fun r => r.effectiveAt.instant ≤ asOf.instant

/-- What the queries return. -/
structure Reading (c : Collation) (s : ReferenceState) (asOf : Datetime) where
  accounts : List Account
  dimensions : List Dimension
  dimensionValues : List DimensionValue
  rates : List ExchangeRate
  accounts_answers : Answers (fun a => c.sortKey a.code) (fun _ => ()) s.accounts accounts
  dimensions_answers : Answers (fun d => c.sortKey d.code) (fun _ => ()) s.dimensions dimensions
  values_answers :
    Answers (fun v => c.pairKey v.key) (fun _ => ()) s.dimensionValues dimensionValues
  rates_answers :
    Answers (fun r => c.pairKey r.pair) (·.effectiveAt.instant) (s.ratesUpTo asOf) rates

/-! ### Snapshots -/

inductive SnapshotComponentType where
  | coa
  | dimensionSchema
  | fxRates
  | taxRules
  | policyRegistry
  | roundingPolicy
  | accountRoles
  | configurationSet
deriving DecidableEq

def SnapshotComponentType.value : SnapshotComponentType → String
  | .coa => "coa"
  | .dimensionSchema => "dimension_schema"
  | .fxRates => "fx_rates"
  | .taxRules => "tax_rules"
  | .policyRegistry => "policy_registry"
  | .roundingPolicy => "rounding_policy"
  | .accountRoles => "account_roles"
  | .configurationSet => "configuration_set"

inductive CaptureError where
  | attributeError (message : String)
  | valueError (message : String)
deriving DecidableEq

structure ComponentVersion where
  componentType : SnapshotComponentType
  version : ℤ
  contentHash : String
  effectiveFrom : Datetime
  effectiveTo : Option Datetime := none
  version_pos : 1 ≤ version
  contentHash_ne : contentHash ≠ ""

/-- `ComponentVersion.__post_init__`. -/
def componentVersion (componentType : SnapshotComponentType) (version : ℤ) (contentHash : String)
    (effectiveFrom : Datetime) : Except CaptureError ComponentVersion :=
  if hversion : version < 1 then
    .error (.valueError ("Version must be >= 1, got " ++ toString version))
  else if hhash : contentHash = "" then .error (.valueError "Content hash is required")
  else
    .ok {
      componentType := componentType
      version := version
      contentHash := contentHash
      effectiveFrom := effectiveFrom
      version_pos := not_lt.mp hversion
      contentHash_ne := hhash }

structure ReferenceSnapshot where
  snapshotId : UUID
  capturedAt : Datetime
  capturedBy : UUID
  componentVersions : List ComponentVersion

/-- The components are in the order in which the set returns them. -/
structure SnapshotRequest where
  requestedBy : UUID
  includeComponents : List SnapshotComponentType
  asOf : Option Datetime := none

structure SnapshotIntegrityError where
  snapshotId : UUID
  componentType : SnapshotComponentType
  expectedHash : String
  actualHash : String
  message : String

structure SnapshotValidationResult where
  snapshotId : UUID
  isValid : Bool
  errors : List SnapshotIntegrityError := []

/-! ### States of the components -/

/-- What the service takes from elsewhere: the hash, the currencies of the registry by code, with
their decimal places, and the order of the database. -/
structure Environment where
  dumping : Dumping
  currencies : List (String × ℕ)
  collation : Collation

/-- A dictionary, for `sort_keys=True`. -/
def record (members : List (String × Json)) : Json := .obj (sortKeys members)

/-- `acc.account_type.value if acc.account_type else None`. -/
def accountTypeEntry : AccountTypeAttribute → Except CaptureError (Option String)
  | .member t => .ok (some (accountTypeValue t))
  | .text value =>
      if value = "" then .ok none
      else .error (.attributeError "'str' object has no attribute 'value'")

def accountDocument (a : Account) (accountType : Option String) : Json :=
  record [("code", .str a.code), ("name", .str a.name), ("account_type", orNull .str accountType),
    ("is_active", .bool a.isActive), ("currency", orNull .str a.currency)]

def coaState (accounts : List Account) : Except CaptureError Json := do
  let entries ← accounts.mapM fun a => do
    let accountType ← accountTypeEntry a.accountType
    return accountDocument a accountType
  return .arr entries

def dimensionDocument (d : Dimension) : Json :=
  record [("code", .str d.code), ("name", .str d.name), ("is_active", .bool d.isActive),
    ("is_required", .bool d.isRequired)]

def valueDocument (v : DimensionValue) : Json :=
  record [("dimension_code", .str v.dimensionCode), ("code", .str v.code), ("name", .str v.name),
    ("is_active", .bool v.isActive)]

def schemaState (dimensions : List Dimension) (values : List DimensionValue) : Json :=
  record [("dimensions", .arr (dimensions.map dimensionDocument)),
    ("values", .arr (values.map valueDocument))]

def rateDocument (r : ExchangeRate) : Json :=
  record [("from", .str r.fromCurrency), ("to", .str r.toCurrency),
    ("rate", .str (String.ofList r.rate.toChars)),
    ("effective_at", .str (String.ofList r.effectiveAt.isoformat))]

/-- The most recent rate of every pair. -/
def rateState (c : Collation) (rates : List ExchangeRate) : Json :=
  .arr ((scan (fun r => c.pairKey r.pair) rates).map rateDocument)

def roundingTolerance (decimalPlaces : ℕ) : Decimal := .finite false 1 (-decimalPlaces)

def roundingState (currencies : List (String × ℕ)) : Json :=
  record [("currencies", .arr (currencies.map fun p => record [("code", .str p.1),
    ("decimal_places", .int p.2),
    ("rounding_tolerance", .str (String.ofList (roundingTolerance p.2).toChars))]))]

def taxDocument (p : PolicyDefinition) : Json :=
  record [("name", .str p.name), ("version", .int p.version),
    ("trigger_event_type", .str p.trigger.eventType), ("scope", .str p.scope),
    ("module", .str p.module), ("required_engines", strings p.requiredEngines)]

def taxState (pack : Option CompiledPolicyPack) : Json :=
  match pack with
  | none => record [("rules", .arr [])]
  | some pack =>
      record [("rules", .arr ((pack.policies.filter (·.module = "tax")).map taxDocument))]

def policyDocument (p : PolicyDefinition) : Json :=
  record [("name", .str p.name), ("version", .int p.version),
    ("trigger_event_type", .str p.trigger.eventType), ("scope", .str p.scope),
    ("module", .str p.module), ("required_engines", strings p.requiredEngines),
    ("capability_tags", strings p.capabilityTags), ("description", .str p.description)]

def policyState (pack : Option CompiledPolicyPack) : Json :=
  match pack with
  | none => record [("policies", .arr [])]
  | some pack => record [("policies", .arr (pack.policies.map policyDocument))]

def roleDocument (rb : RoleBinding) : Json :=
  record [("role", .str rb.role), ("ledger", .str rb.ledger), ("account_code", .str rb.accountCode),
    ("effective_from", .str rb.effectiveFrom.str),
    ("effective_to", orNull .str (rb.effectiveTo.map (·.str)))]

def roleState (pack : Option CompiledPolicyPack) : Json :=
  match pack with
  | none => record [("roles", .arr [])]
  | some pack => record [("roles", .arr (pack.roleBindings.map roleDocument))]

/-! ### Capturing -/

section Capture

variable (env : Environment) {s : ReferenceState} {asOf : Datetime}

/-- The version of a table, from its record count. -/
def countVersion {α : Type} (rows : List α) : ℤ := max 1 (rows.length : ℤ)

/-- The version of the pack; one when there is none. -/
def packVersion (pack : Option CompiledPolicyPack) : ℤ := (pack.map (·.configVersion)).getD 1

variable (s) in
/-- The state of a component. -/
def componentState (reading : Reading env.collation s asOf) :
    SnapshotComponentType → Except CaptureError Json
  | .coa => coaState reading.accounts
  | .dimensionSchema => .ok (schemaState reading.dimensions reading.dimensionValues)
  | .fxRates => .ok (rateState env.collation reading.rates)
  | .roundingPolicy => .ok (roundingState env.currencies)
  | .taxRules => .ok (taxState s.compiledPack)
  | .policyRegistry => .ok (policyState s.compiledPack)
  | .accountRoles => .ok (roleState s.compiledPack)
  | .configurationSet =>
      .ok (record [("component", .str SnapshotComponentType.configurationSet.value)])

variable (s) in
/-- The version of a component. -/
def versionOf : SnapshotComponentType → ℤ
  | .coa => countVersion s.accounts
  | .dimensionSchema => countVersion s.dimensions
  | .fxRates => countVersion s.rates
  | .roundingPolicy => 1
  | .taxRules => packVersion s.compiledPack
  | .policyRegistry => packVersion s.compiledPack
  | .accountRoles => packVersion s.compiledPack
  | .configurationSet => 1

/-- `_capture_component`. -/
def captureComponent (reading : Reading env.collation s asOf)
    (componentType : SnapshotComponentType) : Except CaptureError ComponentVersion := do
  let state ← componentState env s reading componentType
  componentVersion componentType (versionOf s componentType) (env.dumping.digest state) asOf

/-- The time at which a request captures. -/
def SnapshotRequest.capturedAt (request : SnapshotRequest) (now : Datetime) : Datetime :=
  request.asOf.getD now

def capture (request : SnapshotRequest) (now : Datetime) (snapshotId : UUID)
    (reading : Reading env.collation s (request.capturedAt now)) :
    Except CaptureError ReferenceSnapshot := do
  let componentVersions ← request.includeComponents.mapM (captureComponent env reading)
  return {
    snapshotId := snapshotId
    capturedAt := request.capturedAt now
    capturedBy := request.requestedBy
    componentVersions := componentVersions }

/-- The first characters of a hash, in messages. -/
def short (hash : String) : String := String.ofList (hash.toList.take 8)

/-- The error of a component, if its hash has drifted. -/
def checkComponent (snapshot : ReferenceSnapshot) (reading : Reading env.collation s asOf)
    (cv : ComponentVersion) : Except CaptureError (Option SnapshotIntegrityError) := do
  let current ← captureComponent env reading cv.componentType
  if current.contentHash ≠ cv.contentHash then
    return some {
      snapshotId := snapshot.snapshotId
      componentType := cv.componentType
      expectedHash := cv.contentHash
      actualHash := current.contentHash
      message := cv.componentType.value ++ " has changed since snapshot. Expected hash " ++
        short cv.contentHash ++ "..., got " ++ short current.contentHash ++ "..." }
  else return none

/-- `validate_integrity`, with what the queries return at the time of the snapshot. -/
def validateIntegrity (snapshot : ReferenceSnapshot)
    (reading : Reading env.collation s snapshot.capturedAt) :
    Except CaptureError SnapshotValidationResult := do
  let checks ← snapshot.componentVersions.mapM (checkComponent env snapshot reading)
  let errors := checks.filterMap id
  return {
    snapshotId := snapshot.snapshotId
    isValid := errors.isEmpty
    errors := errors }

end Capture

end FinanceAccounting.Snapshots
