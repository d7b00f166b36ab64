import FinanceAccounting.Config.Schema
import FinanceAccounting.Library.Digest

/-! # Assembly and fingerprint of a configuration

`assemble` composes the parsed fragments of a directory into a configuration set, with the
checksum of `assemble_from_directory` over what it lists of them; `computeFingerprint` is the
fingerprint that the compiler puts on the pack.  Both hash a JSON text with sorted keys.

`Covered` is the data that the two cover, and `fingerprint_eq_iff` says that without collisions
fingerprints are equal exactly when the covered data are. -/

namespace FinanceAccounting.Config

open Hashing (PyVal sortKeys)

/-! ### Canonical JSON -/

/-- What hashing takes from elsewhere: the text of the values that JSON does not have, and the
hash function. -/
structure Dumping where
  default : PyVal → String
  sha256 : String → String

mutual

/-- The document of a value, for `sort_keys=True` and `default=str`. -/
def jsonOf (default : PyVal → String) : PyVal → Json
  | .none => .null
  | .bool b => .bool b
  | .int i => .int i
  | .scalar (.str s) => .str s
  | .scalar s => .str (default (.scalar s))
  | .list xs => .arr (itemsOf default xs)
  | .dict ms => .obj (sortKeys (membersOf default ms))
  | .object typeName => .str (default (.object typeName))

def itemsOf (default : PyVal → String) : List PyVal → List Json
  | [] => []
  | x :: xs => jsonOf default x :: itemsOf default xs

def membersOf (default : PyVal → String) : List (String × PyVal) → List (String × Json)
  | [] => []
  | (k, v) :: ms => (k, jsonOf default v) :: membersOf default ms

end

/-- `hashlib.sha256(json.dumps(document, sort_keys=True))`, with the separators `", "` and
`": "`. -/
def Dumping.digest (d : Dumping) (document : Json) : String :=
  d.sha256 (String.ofList (document.renderWith [' ']))

def strings (xs : List String) : Json := .arr (xs.map .str)

/-- The document of a value that may be absent. -/
def orNull (f : String → Json) : Option String → Json
  | some x => f x
  | none => .null

/-! ### The root fragment -/

def str (s : String) : PyVal := .scalar (.str s)

def capabilitiesValue (capabilities : List (String × Bool)) : PyVal :=
  .dict (capabilities.map fun c => (c.1, .bool c.2))

/-- A rule of `precedence_rules` with the keys it has. -/
structure PrecedenceRuleData where
  name : String
  description : Option String := none
  ruleType : Option String := none

/-- The mapping in `root.yaml`: the keys that the assembler reads, and any others. -/
structure RootData where
  configId : String
  version : Option ℤ := none
  scope : ConfigScope
  status : Option String := none
  capabilities : Option (List (String × Bool)) := none
  predecessor : Option String := none
  precedenceRules : Option (List PrecedenceRuleData) := none
  others : List (String × PyVal) := []

/-- A key with its value, where the mapping has it. -/
def entry (key : String) (value : Option PyVal) : List (String × PyVal) :=
  value.toList.map fun v => (key, v)

def ConfigScope.value (s : ConfigScope) : PyVal :=
  .dict ([("legal_entity", str s.legalEntity), ("jurisdiction", str s.jurisdiction),
    ("regulatory_regime", str s.regulatoryRegime), ("currency", str s.currency),
    ("effective_from", .scalar (.date s.effectiveFrom))] ++
    entry "effective_to" (s.effectiveTo.map fun d => .scalar (.date d)))

def PrecedenceRuleData.value (r : PrecedenceRuleData) : PyVal :=
  .dict (("name", str r.name) :: (entry "description" (r.description.map str) ++
    entry "rule_type" (r.ruleType.map str)))

def RootData.value (r : RootData) : PyVal :=
  .dict (("config_id", str r.configId) :: ("scope", r.scope.value) ::
    (entry "version" (r.version.map .int) ++ entry "status" (r.status.map str) ++
      entry "capabilities" (r.capabilities.map capabilitiesValue) ++
      entry "predecessor" (r.predecessor.map str) ++
      entry "precedence_rules" (r.precedenceRules.map fun rs => .list (rs.map (·.value))) ++
      r.others))

/-! ### Assembly -/

/-- The fragments of a directory, each parsed into its records. -/
structure Fragments where
  root : RootData
  roleBindings : List RoleBinding := []
  ledgerDefinitions : List LedgerDefinition := []
  policies : List PolicyDefinition := []
  engineConfigs : List EngineConfigDef := []
  controls : List ControlRule := []
  subledgerContracts : List SubledgerContractDef := []
  approvalPolicies : List ApprovalPolicyDef := []
  importMappings : List ImportMappingDef := []
  batchSchedules : List BatchScheduleDef := []
  rbac : Option RbacConfigDef := none

inductive AssemblyError where
  | valueError
  | assertionError
deriving DecidableEq, Repr

def ConfigStatus.ofValue (s : String) : Option ConfigStatus :=
  match s with
  | "draft" => some .draft
  | "reviewed" => some .reviewed
  | "approved" => some .approved
  | "published" => some .published
  | "superseded" => some .superseded
  | _ => none

/-- What the checksum covers. -/
def Fragments.allData (default : PyVal → String) (f : Fragments) : List (String × Json) :=
  [("root", jsonOf default f.root.value),
    ("role_bindings", .int f.roleBindings.length),
    ("policies", strings (f.policies.map (·.name))),
    ("engine_configs", strings (f.engineConfigs.map (·.engineName))),
    ("controls", strings (f.controls.map (·.name))),
    ("capabilities", jsonOf default (capabilitiesValue (f.root.capabilities.getD []))),
    ("import_mappings", strings (f.importMappings.map (·.name))),
    ("batch_schedules", strings (f.batchSchedules.map (·.name))),
    ("rbac", orNull .str (f.rbac.map (·.rbacConfig.version)))]

/-- The document under the checksum. -/
def Fragments.document (default : PyVal → String) (f : Fragments) : Json :=
  .obj (sortKeys (f.allData default))

/-- The set with the contents of the fragments. -/
def Fragments.configurationSet (f : Fragments) (status : ConfigStatus) (checksum : String) :
    AccountingConfigurationSet where
  configId := f.root.configId
  version := f.root.version.getD 1
  checksum := checksum
  scope := f.root.scope
  status := status
  policies := f.policies
  roleBindings := f.roleBindings
  predecessor := f.root.predecessor
  policyPrecedenceRules := (f.root.precedenceRules.getD []).map fun r =>
    { name := r.name
      description := r.description.getD ""
      ruleType := r.ruleType.getD "specificity" }
  ledgerDefinitions := f.ledgerDefinitions
  engineConfigs := f.engineConfigs
  controls := f.controls
  capabilities := f.root.capabilities.getD []
  subledgerContracts := f.subledgerContracts
  approvalPolicies := f.approvalPolicies
  importMappings := f.importMappings
  batchSchedules := f.batchSchedules
  rbac := f.rbac

/-- `assemble_from_directory`. -/
def assemble (d : Dumping) (f : Fragments) : Except AssemblyError AccountingConfigurationSet :=
  match ConfigStatus.ofValue (f.root.status.getD "draft") with
  | none => .error .valueError
  | some status =>
      let checksum := d.digest (f.document d.default)
      if checksum.length = 64 then .ok (f.configurationSet status checksum)
      else .error .assertionError

/-! ### The fingerprint -/

/-- `sorted` of texts. -/
def sorted (xs : List String) : List String := xs.insertionSort (· ≤ ·)

def scopeData (scope : ConfigScope) : List (String × Json) :=
  [("legal_entity", .str scope.legalEntity),
    ("jurisdiction", .str scope.jurisdiction),
    ("regime", .str scope.regulatoryRegime),
    ("currency", .str scope.currency),
    ("effective_from", .str scope.effectiveFrom.str)]

/-- What the fingerprint covers. -/
def fingerprintData (config : AccountingConfigurationSet) : List (String × Json) :=
  [("config_id", .str config.configId),
    ("version", .int config.version),
    ("checksum", .str config.checksum),
    ("scope", .obj (sortKeys (scopeData config.scope))),
    ("policy_count", .int config.policies.length),
    ("policy_names", strings (sorted (config.policies.map (·.name)))),
    ("role_binding_count", .int config.roleBindings.length),
    ("capability_keys", strings (sorted (config.capabilities.map Prod.fst))),
    ("import_mapping_names", strings (sorted (config.importMappings.map (·.name))))]

/-- `_compute_fingerprint`. -/
def computeFingerprint (d : Dumping) (config : AccountingConfigurationSet) : String :=
  d.digest (.obj (sortKeys (fingerprintData config)))

/-! ### What is covered -/

/-- The data that reach the checksum or the fingerprint: the root fragment as JSON, with what is
read of it, and of the other fragments a number, names, and the version of the actors' roles. -/
structure Covered where
  root : Json
  configId : String
  version : ℤ
  legalEntity : String
  jurisdiction : String
  regulatoryRegime : String
  currency : String
  effectiveFrom : String
  capabilities : Json
  capabilityKeys : List String
  roleBindings : ℕ
  policies : List String
  engineConfigs : List String
  controls : List String
  importMappings : List String
  batchSchedules : List String
  rbacVersion : Option String

def Fragments.covered (default : PyVal → String) (f : Fragments) : Covered where
  root := jsonOf default f.root.value
  configId := f.root.configId
  version := f.root.version.getD 1
  legalEntity := f.root.scope.legalEntity
  jurisdiction := f.root.scope.jurisdiction
  regulatoryRegime := f.root.scope.regulatoryRegime
  currency := f.root.scope.currency
  effectiveFrom := f.root.scope.effectiveFrom.str
  capabilities := jsonOf default (capabilitiesValue (f.root.capabilities.getD []))
  capabilityKeys := sorted ((f.root.capabilities.getD []).map Prod.fst)
  roleBindings := f.roleBindings.length
  policies := f.policies.map (·.name)
  engineConfigs := f.engineConfigs.map (·.engineName)
  controls := f.controls.map (·.name)
  importMappings := f.importMappings.map (·.name)
  batchSchedules := f.batchSchedules.map (·.name)
  rbacVersion := f.rbac.map (·.rbacConfig.version)

/-! ### Equal documents -/

/-- Objects with the same keys in the same order are equal once their sorted members are. -/
theorem eq_of_sortKeys_eq {β : Type} {ms ns : List (String × β)}
    (hkeys : ms.map Prod.fst = ns.map Prod.fst) (hnodup : (ms.map Prod.fst).Nodup)
    (h : sortKeys ms = sortKeys ns) : ms = ns := by
  have hperm : ms.Perm ns := by
    have hms : (sortKeys ms).Perm ms := List.perm_insertionSort _ ms
    have hns : (sortKeys ns).Perm ns := List.perm_insertionSort _ ns
    exact hms.symm.trans (h ▸ hns)
  apply List.ext_getElem hperm.length_eq
  intro i hi hi'
  have hmem : ms[i] ∈ ns := hperm.mem_iff.mp (List.getElem_mem hi)
  have hkey : ms[i].1 = ns[i].1 := by
    have hget : (ms.map Prod.fst)[i]? = (ns.map Prod.fst)[i]? := by rw [hkeys]
    rw [List.getElem?_map, List.getElem?_map, List.getElem?_eq_getElem hi,
      List.getElem?_eq_getElem hi'] at hget
    exact Option.some.inj hget
  rw [hkeys] at hnodup
  exact List.inj_on_of_nodup_map hnodup hmem (List.getElem_mem hi') hkey

theorem digest_eq_iff {d : Dumping} (hd : Digest.CollisionFree d.sha256) {a b : Json} :
    d.digest a = d.digest b ↔ a = b := by
  constructor
  · intro h
    have htext := String.ofList_injective (hd.injective h)
    exact Json.renderWith_injective htext
  · rintro rfl
    rfl

theorem strings_inj {xs ys : List String} : strings xs = strings ys ↔ xs = ys := by
  constructor
  · intro h
    have hmap := Json.arr.inj h
    exact List.map_injective_iff.mpr (fun _ _ h => Json.str.inj h) hmap
  · rintro rfl
    rfl

theorem orNull_inj {a b : Option String} : orNull .str a = orNull .str b ↔ a = b := by
  cases a <;> cases b <;> simp [orNull]

/-- The checksum covers the root fragment, and of the others what is listed. -/
theorem document_eq_iff {default : PyVal → String} {f₁ f₂ : Fragments} :
    f₁.document default = f₂.document default ↔ f₁.allData default = f₂.allData default := by
  constructor
  · intro h
    exact eq_of_sortKeys_eq rfl (by simp [Fragments.allData]) (Json.obj.inj h)
  · intro h
    rw [Fragments.document, h, Fragments.document]

theorem scopeData_eq_iff {s₁ s₂ : ConfigScope} :
    Json.obj (sortKeys (scopeData s₁)) = Json.obj (sortKeys (scopeData s₂)) ↔
      scopeData s₁ = scopeData s₂ := by
  constructor
  · intro h
    exact eq_of_sortKeys_eq rfl (by simp [scopeData]) (Json.obj.inj h)
  · intro h
    rw [h]

theorem computeFingerprint_eq_iff {d : Dumping} (hd : Digest.CollisionFree d.sha256)
    {c₁ c₂ : AccountingConfigurationSet} :
    computeFingerprint d c₁ = computeFingerprint d c₂ ↔
      fingerprintData c₁ = fingerprintData c₂ := by
  unfold computeFingerprint
  rw [digest_eq_iff hd]
  constructor
  · intro h
    exact eq_of_sortKeys_eq rfl (by simp [fingerprintData]) (Json.obj.inj h)
  · intro h
    rw [h]

/-- An assembled set has the contents of its fragments, and their checksum. -/
theorem assemble_eq_ok {d : Dumping} {f : Fragments} {c : AccountingConfigurationSet}
    (h : assemble d f = .ok c) :
    ∃ status, c = f.configurationSet status (d.digest (f.document d.default)) := by
  unfold assemble at h
  split at h
  · cases h
  · rename_i status _
    dsimp only at h
    split at h
    · exact ⟨status, (Except.ok.inj h).symm⟩
    · cases h

/-- **Fingerprints are equal exactly when the covered data are.** -/
theorem fingerprint_eq_iff {d : Dumping} (hd : Digest.CollisionFree d.sha256) {f₁ f₂ : Fragments}
    {c₁ c₂ : AccountingConfigurationSet} (h₁ : assemble d f₁ = .ok c₁)
    (h₂ : assemble d f₂ = .ok c₂) :
    computeFingerprint d c₁ = computeFingerprint d c₂ ↔
      f₁.covered d.default = f₂.covered d.default := by
  obtain ⟨status₁, rfl⟩ := assemble_eq_ok h₁
  obtain ⟨status₂, rfl⟩ := assemble_eq_ok h₂
  rw [computeFingerprint_eq_iff hd]
  unfold fingerprintData Fragments.covered Fragments.configurationSet
  simp only [List.cons.injEq, Prod.mk.injEq, true_and, and_true, Json.str.injEq, Json.int.injEq,
    digest_eq_iff hd, document_eq_iff, strings_inj, scopeData_eq_iff, Covered.mk.injEq,
    Fragments.allData, orNull_inj, Nat.cast_inj]
  simp only [scopeData, List.cons.injEq, Prod.mk.injEq, true_and, and_true, Json.str.injEq]
  constructor
  · rintro ⟨hid, hver, ⟨hroot, hroles, hpol, hengines, hcontrols, hcap, hmaps, hbatch, hrbac⟩,
      ⟨hentity, hjur, hregime, hcur, hfrom⟩, -, -, -, hkeys, -⟩
    exact ⟨hroot, hid, hver, hentity, hjur, hregime, hcur, hfrom, hcap, hkeys, hroles, hpol,
      hengines, hcontrols, hmaps, hbatch, hrbac⟩
  · rintro ⟨hroot, hid, hver, hentity, hjur, hregime, hcur, hfrom, hcap, hkeys, hroles, hpol,
      hengines, hcontrols, hmaps, hbatch, hrbac⟩
    have hcount : f₁.policies.length = f₂.policies.length := by
      simpa using congrArg List.length hpol
    exact ⟨hid, hver, ⟨hroot, hroles, hpol, hengines, hcontrols, hcap, hmaps, hbatch, hrbac⟩,
      ⟨hentity, hjur, hregime, hcur, hfrom⟩, hcount, by rw [hpol], hroles, hkeys, by rw [hmaps]⟩

end FinanceAccounting.Config
