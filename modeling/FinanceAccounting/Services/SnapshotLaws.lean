import FinanceAccounting.Library.Traversals
import FinanceAccounting.Config.Integrity
import FinanceAccounting.Services.ReferenceSnapshot

/-! # What a snapshot detects

The hash of a component covers some fields of its rows and policies.  Without collisions a
snapshot is valid on a state exactly when these fields are those of the captured one
(`isValid_iff`).

`drift_detected_iff` compares this with the drift that replay depends on: normal balance, tags and
parent of an account, the description of a dimension, and where-clause, guards, ledger effects and
line mappings of a policy are not covered; rates that tie may be captured in either way; and a
loaded account has no type that the service can read. -/

namespace FinanceAccounting.Snapshots

open Config (CompiledPolicyPack PolicyDefinition RoleBinding PolicyTriggerDef GuardDef LedgerEffectDef
  LineMappingDef strings orNull strings_inj orNull_inj digest_eq_iff eq_of_sortKeys_eq)
open LatestRows (Answers Apart Latest scan)
open Reporting (accountTypeValue)
open Traversals

/-! ### Drift -/

/-- What posting reads of an account. -/
structure AccountView where
  code : String
  accountType : String
  normalBalance : Reporting.NormalBalance
  isActive : Bool
  tags : Option (List String)
  parentId : Option UUID

def Account.view (a : Account) : AccountView :=
  ⟨a.code, a.accountType.value, a.normalBalance, a.isActive, a.tags, a.parentId⟩

/-- What posting reads of a policy. -/
structure PolicyView where
  name : String
  trigger : PolicyTriggerDef
  guards : List GuardDef
  ledgerEffects : List LedgerEffectDef
  lineMappings : List LineMappingDef

def policyView (p : PolicyDefinition) : PolicyView :=
  ⟨p.name, p.trigger, p.guards, p.ledgerEffects, p.lineMappings⟩

/-- The policies of the pack, and its role bindings. -/
def ReferenceState.policies (s : ReferenceState) : List PolicyDefinition :=
  (s.compiledPack.map (·.policies)).getD []

def ReferenceState.roleBindings (s : ReferenceState) : List RoleBinding :=
  (s.compiledPack.map (·.roleBindings)).getD []

/-- The rates in force, by pair, value and instant. -/
def ReferenceState.InForce (s : ReferenceState) (asOf : Datetime) (r : ExchangeRate) : Prop :=
  r ∈ s.ratesUpTo asOf ∧ ∀ r' ∈ s.ratesUpTo asOf, r'.pair = r.pair →
    r'.effectiveAt.instant ≤ r.effectiveAt.instant

def ExchangeRate.view (r : ExchangeRate) : (String × String) × ℚ × ℤ :=
  (r.pair, r.rate.toRat, r.effectiveAt.instant)

/-- The two states are the same for replay. -/
structure Same (s s' : ReferenceState) (asOf : Datetime) : Prop where
  accounts : (s.accounts.map Account.view).Perm (s'.accounts.map Account.view)
  dimensions : s.dimensions.Perm s'.dimensions
  dimensionValues : s.dimensionValues.Perm s'.dimensionValues
  rates : ∀ v, (∃ r, s.InForce asOf r ∧ r.view = v) ↔ ∃ r, s'.InForce asOf r ∧ r.view = v
  roleBindings : s.roleBindings = s'.roleBindings
  policies : s.policies.map policyView = s'.policies.map policyView

/-! ### What the hashes cover -/

/-- What is captured of an account. -/
def Account.covered (a : Account) : String × String × Option String × Bool × Option String :=
  (a.code, a.name, (if a.accountType.value = "" then none else some a.accountType.value),
    a.isActive, a.currency)

def Dimension.covered (d : Dimension) : String × String × Bool × Bool :=
  (d.code, d.name, d.isActive, d.isRequired)

def DimensionValue.covered (v : DimensionValue) : String × String × String × Bool :=
  (v.dimensionCode, v.code, v.name, v.isActive)

def coveredPolicy (p : PolicyDefinition) :
    String × ℤ × String × String × String × List String × List String × String :=
  (p.name, p.version, p.trigger.eventType, p.scope, p.module, p.requiredEngines, p.capabilityTags,
    p.description)

/-- A rate as it is captured, by its texts. -/
def ExchangeRate.covered (r : ExchangeRate) : (String × String) × String × String :=
  (r.pair, String.ofList r.rate.toChars, String.ofList r.effectiveAt.isoformat)

/-- The states have the same covered fields, those of the rates apart. -/
structure SameCovered (s s' : ReferenceState) : Prop where
  accounts : (s.accounts.map Account.covered).Perm (s'.accounts.map Account.covered)
  dimensions : (s.dimensions.map Dimension.covered).Perm (s'.dimensions.map Dimension.covered)
  dimensionValues : (s.dimensionValues.map DimensionValue.covered).Perm
    (s'.dimensionValues.map DimensionValue.covered)
  policies : s.policies.map coveredPolicy = s'.policies.map coveredPolicy
  roleBindings : s.roleBindings = s'.roleBindings

/-- Every account has a type that the service can read, and the version of the pack is positive. -/
structure Capturable (s : ReferenceState) : Prop where
  accounts : ∀ a ∈ s.accounts, ∀ value, a.accountType = .text value → value = ""
  version : ∀ pack, s.compiledPack = some pack → 1 ≤ pack.configVersion

/-- Rates that tie are captured alike. -/
def TiesAgree (s : ReferenceState) (asOf : Datetime) : Prop :=
  ∀ r r', s.InForce asOf r → s.InForce asOf r' → r.pair = r'.pair → r.covered = r'.covered

/-- Some pair has no rate in force in common, and has one in one of the states. -/
def RatesApart (s s' : ReferenceState) (asOf : Datetime) : Prop :=
  ∃ p, (∃ r, (r ∈ s.ratesUpTo asOf ∨ r ∈ s'.ratesUpTo asOf) ∧ r.pair = p) ∧
    ∀ r r', s.InForce asOf r → s'.InForce asOf r' → r.pair = p → r'.pair = p →
      r.covered ≠ r'.covered

section Laws

variable {env : Environment} {s s' : ReferenceState} {asOf : Datetime}

/-! ### Documents -/

theorem record_inj {ms ns : List (String × Json)} (hkeys : ms.map Prod.fst = ns.map Prod.fst)
    (hnodup : (ms.map Prod.fst).Nodup) : record ms = record ns ↔ ms = ns := by
  constructor
  · intro h
    exact eq_of_sortKeys_eq hkeys hnodup (Json.obj.inj h)
  · rintro rfl
    rfl

theorem map_document_inj {α β : Type} {document : α → Json} {covered : α → β}
    (h : ∀ a b, document a = document b ↔ covered a = covered b) {xs ys : List α} :
    xs.map document = ys.map document ↔ xs.map covered = ys.map covered := by
  induction xs generalizing ys with
  | nil => cases ys <;> simp
  | cons x xs ih =>
      cases ys with
      | nil => simp
      | cons y ys => simp only [List.map_cons, List.cons.injEq, h, ih]

theorem accountDocument_inj {a b : Account} {t u : Option String} :
    accountDocument a t = accountDocument b u ↔
      a.code = b.code ∧ a.name = b.name ∧ t = u ∧ a.isActive = b.isActive ∧
        a.currency = b.currency := by
  unfold accountDocument
  refine Iff.trans (record_inj rfl (by simp)) ?_
  simp [orNull_inj]

theorem dimensionDocument_inj (a b : Dimension) :
    dimensionDocument a = dimensionDocument b ↔ a.covered = b.covered := by
  unfold dimensionDocument Dimension.covered
  refine Iff.trans (record_inj rfl (by simp)) ?_
  simp

theorem valueDocument_inj (a b : DimensionValue) :
    valueDocument a = valueDocument b ↔ a.covered = b.covered := by
  unfold valueDocument DimensionValue.covered
  refine Iff.trans (record_inj rfl (by simp)) ?_
  simp

theorem rateDocument_inj (a b : ExchangeRate) :
    rateDocument a = rateDocument b ↔ a.covered = b.covered := by
  unfold rateDocument ExchangeRate.covered ExchangeRate.pair
  refine Iff.trans (record_inj rfl (by simp)) ?_
  simp [and_assoc]

theorem policyDocument_inj (p q : PolicyDefinition) :
    policyDocument p = policyDocument q ↔ coveredPolicy p = coveredPolicy q := by
  unfold policyDocument coveredPolicy
  refine Iff.trans (record_inj rfl (by simp)) ?_
  simp [strings_inj]

theorem roleDocument_inj (a b : RoleBinding) : roleDocument a = roleDocument b ↔ a = b := by
  unfold roleDocument
  refine Iff.trans (record_inj rfl (by simp)) ?_
  obtain ⟨role, ledger, accountCode, effectiveFrom, effectiveTo⟩ := a
  obtain ⟨role', ledger', accountCode', effectiveFrom', effectiveTo'⟩ := b
  have hdate : ∀ d d' : Date, d.str = d'.str ↔ d = d' := fun d d' =>
    ⟨fun h => Date.isoformat_injective (String.ofList_injective h), congrArg _⟩
  have hoption : effectiveTo.map (·.str) = effectiveTo'.map (·.str) ↔
      effectiveTo = effectiveTo' := by
    cases effectiveTo <;> cases effectiveTo' <;> simp [hdate]
  simp [orNull_inj, hdate, hoption]

/-! ### Capturing -/

/-- The document of an account with a type that the service can read. -/
def coveredDocument (a : Account) : Json :=
  accountDocument a (if a.accountType.value = "" then none else some a.accountType.value)

theorem coveredDocument_inj (a b : Account) :
    coveredDocument a = coveredDocument b ↔ a.covered = b.covered := by
  unfold coveredDocument Account.covered
  rw [accountDocument_inj]
  simp only [Prod.mk.injEq]

theorem accountTypeEntry_eq_ok {t : AccountTypeAttribute} {entry : Option String} :
    accountTypeEntry t = .ok entry ↔ (∀ value, t = .text value → value = "") ∧
      entry = if t.value = "" then none else some t.value := by
  cases t with
  | member t =>
      have hne : accountTypeValue t ≠ "" := by cases t <;> decide
      constructor
      · intro h
        obtain rfl := Except.ok.inj h
        exact ⟨nofun, (if_neg hne).symm⟩
      · rintro ⟨-, rfl⟩
        exact congrArg Except.ok (if_neg hne).symm
  | text value =>
      unfold accountTypeEntry
      by_cases hvalue : value = ""
      · simp [hvalue, AccountTypeAttribute.value, eq_comm]
      · simp [hvalue]

theorem coaState_of_readable {accounts : List Account}
    (h : ∀ a ∈ accounts, ∀ value, a.accountType = .text value → value = "") :
    coaState accounts = .ok (.arr (accounts.map coveredDocument)) := by
  unfold coaState
  rw [mapM_of_forall (g := coveredDocument) fun a ha => ?_]
  · rfl
  · rw [accountTypeEntry_eq_ok.mpr ⟨h a ha, rfl⟩]
    rfl

theorem readable_of_coaState {accounts : List Account} {state : Json}
    (h : coaState accounts = .ok state) :
    ∀ a ∈ accounts, ∀ value, a.accountType = .text value → value = "" := by
  intro a ha
  obtain ⟨entries, hentries, -⟩ := bind_eq_ok.mp h
  obtain ⟨entry, -, hentry⟩ := (mem_of_mapM hentries).1 a ha
  obtain ⟨accountType, htype, -⟩ := bind_eq_ok.mp hentry
  exact (accountTypeEntry_eq_ok.mp htype).1

/-- The state of a component of a state that can be captured. -/
def stateOf (env : Environment) (s : ReferenceState) (reading : Reading env.collation s asOf)
    (c : SnapshotComponentType) : Json :=
  match c with
  | .coa => .arr (reading.accounts.map coveredDocument)
  | .dimensionSchema => schemaState reading.dimensions reading.dimensionValues
  | .fxRates => rateState env.collation reading.rates
  | .roundingPolicy => roundingState env.currencies
  | .taxRules => taxState s.compiledPack
  | .policyRegistry => policyState s.compiledPack
  | .accountRoles => roleState s.compiledPack
  | .configurationSet => record [("component", .str SnapshotComponentType.configurationSet.value)]

theorem componentVersion_eq_ok {c : SnapshotComponentType} {version : ℤ} {hash : String}
    {cv : ComponentVersion} (h : componentVersion c version hash asOf = .ok cv) :
    cv.componentType = c ∧ cv.contentHash = hash ∧ 1 ≤ version := by
  unfold componentVersion at h
  split at h
  · cases h
  · rename_i hversion
    split at h
    · cases h
    · obtain rfl := Except.ok.inj h
      exact ⟨rfl, rfl, not_lt.mp hversion⟩

section Hash

variable (hd : Digest.CollisionFree env.dumping.sha256)

theorem versionOf_pos (hc : Capturable s) (c : SnapshotComponentType) : 1 ≤ versionOf s c := by
  have hpack : 1 ≤ packVersion s.compiledPack := by
    unfold packVersion
    cases hcompiled : s.compiledPack with
    | none => exact le_rfl
    | some pack => exact hc.version pack hcompiled
  cases c with
  | coa => exact le_max_left _ _
  | dimensionSchema => exact le_max_left _ _
  | fxRates => exact le_max_left _ _
  | roundingPolicy => exact le_rfl
  | configurationSet => exact le_rfl
  | taxRules => exact hpack
  | policyRegistry => exact hpack
  | accountRoles => exact hpack

include hd in
/-- A state that can be captured is captured, by its hashes. -/
theorem exists_component (hc : Capturable s) (reading : Reading env.collation s asOf)
    (c : SnapshotComponentType) : ∃ cv, captureComponent env reading c = .ok cv ∧
      cv.componentType = c ∧ cv.contentHash = env.dumping.digest (stateOf env s reading c) := by
  have hstate : componentState env s reading c = .ok (stateOf env s reading c) := by
    cases c with
    | coa =>
        refine coaState_of_readable fun a ha => hc.accounts a ?_
        exact reading.accounts_answers.perm.mem_iff.mp ha
    | _ => rfl
  have hhash : env.dumping.digest (stateOf env s reading c) ≠ "" := hd.nonempty _
  refine ⟨⟨c, versionOf s c, env.dumping.digest (stateOf env s reading c), asOf, none,
    versionOf_pos hc c, hhash⟩, ?_, rfl, rfl⟩
  unfold captureComponent
  rw [hstate]
  show componentVersion _ _ _ _ = _
  unfold componentVersion
  rw [dif_neg (not_lt.mpr (versionOf_pos hc c)), dif_neg hhash]

/-- What is captured with all components can be captured. -/
theorem capturable_of_components {reading : Reading env.collation s asOf}
    (h : ∀ c, ∃ cv, captureComponent env reading c = .ok cv) : Capturable s := by
  constructor
  · intro a ha
    obtain ⟨cv, hcv⟩ := h .coa
    obtain ⟨state, hstate, -⟩ := bind_eq_ok.mp hcv
    exact readable_of_coaState hstate a (reading.accounts_answers.perm.mem_iff.mpr ha)
  · intro pack hpack
    obtain ⟨cv, hcv⟩ := h .policyRegistry
    obtain ⟨state, -, hversion⟩ := bind_eq_ok.mp hcv
    have hpos := (componentVersion_eq_ok hversion).2.2
    simpa [versionOf, packVersion, hpack] using hpos

/-- What is captured with all components is a list of their hashes. -/
theorem capture_eq_ok {request : SnapshotRequest} {now : Datetime} {snapshotId : UUID}
    {reading : Reading env.collation s (request.capturedAt now)} {snapshot : ReferenceSnapshot}
    (h : capture env request now snapshotId reading = .ok snapshot) :
    ∃ cvs, request.includeComponents.mapM (captureComponent env reading) = .ok cvs ∧
      snapshot = ⟨snapshotId, request.capturedAt now, request.requestedBy, cvs⟩ := by
  obtain ⟨cvs, hcvs, hsnapshot⟩ := bind_eq_ok.mp h
  exact ⟨cvs, hcvs, (Except.ok.inj hsnapshot).symm⟩

include hd in
theorem exists_capture (hc : Capturable s) (request : SnapshotRequest) (now : Datetime)
    (snapshotId : UUID) (reading : Reading env.collation s (request.capturedAt now)) :
    ∃ cvs, request.includeComponents.mapM (captureComponent env reading) = .ok cvs ∧
      capture env request now snapshotId reading =
        .ok ⟨snapshotId, request.capturedAt now, request.requestedBy, cvs⟩ := by
  have hall : ∀ c ∈ request.includeComponents, ∃ cv, captureComponent env reading c = .ok cv := by
    intro c _
    obtain ⟨cv, hcv, -⟩ := exists_component hd hc reading c
    exact ⟨cv, hcv⟩
  obtain ⟨cvs, hcvs⟩ := exists_mapM hall
  exact ⟨cvs, hcvs, bind_eq_ok.mpr ⟨cvs, hcvs, rfl⟩⟩

include hd in
/-- A captured component has the hash of the state. -/
theorem contentHash_of_component (hc : Capturable s) {reading : Reading env.collation s asOf}
    {c : SnapshotComponentType} {cv : ComponentVersion}
    (h : captureComponent env reading c = .ok cv) :
    cv.componentType = c ∧ cv.contentHash = env.dumping.digest (stateOf env s reading c) := by
  obtain ⟨cv', hcv', htype, hhash⟩ := exists_component hd hc reading c
  obtain rfl := Except.ok.inj (h.symm.trans hcv')
  exact ⟨htype, hhash⟩

/-! ### Validating -/

include hd in
theorem exists_check (hc : Capturable s) (snapshot : ReferenceSnapshot)
    (reading : Reading env.collation s asOf) (cv : ComponentVersion) :
    ∃ e, checkComponent env snapshot reading cv = .ok e ∧ (e = none ↔
      env.dumping.digest (stateOf env s reading cv.componentType) = cv.contentHash) := by
  obtain ⟨current, hcurrent, -, hhash⟩ := exists_component hd hc reading cv.componentType
  rw [← hhash]
  unfold checkComponent
  rw [hcurrent]
  by_cases heq : current.contentHash = cv.contentHash
  · exact ⟨none, if_neg (not_not.mpr heq), by simp [heq]⟩
  · exact ⟨_, if_pos heq, by simp [heq]⟩

include hd in
/-- **Validation compares the hashes** of all components. -/
theorem exists_validation (hc : Capturable s) (snapshot : ReferenceSnapshot)
    (reading : Reading env.collation s snapshot.capturedAt) :
    ∃ r, validateIntegrity env snapshot reading = .ok r ∧ (r.isValid = true ↔
      ∀ cv ∈ snapshot.componentVersions,
        env.dumping.digest (stateOf env s reading cv.componentType) = cv.contentHash) := by
  have hall : ∀ cv ∈ snapshot.componentVersions,
      ∃ e, checkComponent env snapshot reading cv = .ok e := by
    intro cv _
    obtain ⟨e, he, -⟩ := exists_check hd hc snapshot reading cv
    exact ⟨e, he⟩
  obtain ⟨checks, hchecks⟩ := exists_mapM hall
  obtain ⟨hof, hto⟩ := mem_of_mapM hchecks
  have hvalid : (checks.filterMap id).isEmpty = true ↔ ∀ e ∈ checks, e = none := by
    rw [List.isEmpty_iff, List.filterMap_eq_nil_iff]
    simp only [id_eq]
  refine ⟨⟨snapshot.snapshotId, (checks.filterMap id).isEmpty, checks.filterMap id⟩,
    bind_eq_ok.mpr ⟨checks, hchecks, rfl⟩, ?_⟩
  rw [hvalid]
  constructor
  · intro hnone cv hcv
    obtain ⟨e, he, hcheck⟩ := hof cv hcv
    obtain ⟨e', he', hiff⟩ := exists_check hd hc snapshot reading cv
    obtain rfl := Except.ok.inj (hcheck.symm.trans he')
    exact hiff.mp (hnone e he)
  · intro hhash e he
    obtain ⟨cv, hcv, hcheck⟩ := hto e he
    obtain ⟨e', he', hiff⟩ := exists_check hd hc snapshot reading cv
    obtain rfl := Except.ok.inj (hcheck.symm.trans he')
    exact hiff.mpr (hhash cv hcv)

/-- Validation of all components is over a state that can be captured. -/
theorem capturable_of_validation {snapshot : ReferenceSnapshot}
    {reading : Reading env.collation s snapshot.capturedAt} {r : SnapshotValidationResult}
    (hall : ∀ c, ∃ cv ∈ snapshot.componentVersions, cv.componentType = c)
    (h : validateIntegrity env snapshot reading = .ok r) : Capturable s := by
  obtain ⟨checks, hchecks, -⟩ := bind_eq_ok.mp h
  have hcomponents : ∀ c, ∃ cv, captureComponent env reading c = .ok cv := by
    intro c
    obtain ⟨cv, hcv, rfl⟩ := hall c
    obtain ⟨e, -, hcheck⟩ := (mem_of_mapM hchecks).1 cv hcv
    obtain ⟨current, hcurrent, -⟩ := bind_eq_ok.mp hcheck
    exact ⟨current, hcurrent⟩
  exact capturable_of_components hcomponents

include hd in
/-- The components of a snapshot and their hashes. -/
theorem components_of_capture {cs : List SnapshotComponentType} (hcs : ∀ c, c ∈ cs)
    (hc : Capturable s) {reading : Reading env.collation s asOf} {cvs : List ComponentVersion}
    (h : cs.mapM (captureComponent env reading) = .ok cvs) :
    (∀ c, ∃ cv ∈ cvs, cv.componentType = c) ∧
      ∀ cv ∈ cvs, cv.contentHash = env.dumping.digest (stateOf env s reading cv.componentType) := by
  constructor
  · intro c
    obtain ⟨cv, hcv, hcapture⟩ := (mem_of_mapM h).1 c (hcs c)
    exact ⟨cv, hcv, (contentHash_of_component hd hc hcapture).1⟩
  · intro cv hcv
    obtain ⟨c, -, hcapture⟩ := (mem_of_mapM h).2 cv hcv
    obtain ⟨rfl, hhash⟩ := contentHash_of_component hd hc hcapture
    exact hhash

end Hash

/-! ### The states of the components -/

theorem record_single_inj {k : String} {a b : Json} :
    record [(k, a)] = record [(k, b)] ↔ a = b := by
  refine Iff.trans (record_inj rfl (by simp)) ?_
  simp

theorem policyState_eq (s : ReferenceState) :
    policyState s.compiledPack = record [("policies", .arr (s.policies.map policyDocument))] := by
  unfold policyState ReferenceState.policies
  cases s.compiledPack <;> rfl

theorem taxState_eq (s : ReferenceState) : taxState s.compiledPack =
    record [("rules", .arr ((s.policies.filter (·.module = "tax")).map taxDocument))] := by
  unfold taxState ReferenceState.policies
  cases s.compiledPack <;> rfl

theorem roleState_eq (s : ReferenceState) :
    roleState s.compiledPack = record [("roles", .arr (s.roleBindings.map roleDocument))] := by
  unfold roleState ReferenceState.roleBindings
  cases s.compiledPack <;> rfl

/-- The tax rules are covered by the registry. -/
theorem taxDocuments_eq {ps qs : List PolicyDefinition}
    (h : ps.map coveredPolicy = qs.map coveredPolicy) :
    (ps.filter (·.module = "tax")).map taxDocument =
      (qs.filter (·.module = "tax")).map taxDocument := by
  induction ps generalizing qs with
  | nil =>
      obtain rfl := List.map_eq_nil_iff.mp h.symm
      rfl
  | cons p ps ih =>
      cases qs with
      | nil => cases h
      | cons q qs =>
          obtain ⟨hpq, hrest⟩ := List.cons.inj h
          simp only [coveredPolicy, Prod.mk.injEq] at hpq
          obtain ⟨hname, hversion, htrigger, hscope, hmodule, hengines, -, -⟩ := hpq
          have hdocument : taxDocument p = taxDocument q := by
            simp only [taxDocument, hname, hversion, htrigger, hscope, hmodule, hengines]
          simp only [List.filter_cons, hmodule]
          split
          · rw [List.map_cons, List.map_cons, hdocument, ih hrest]
          · exact ih hrest

section Readings

variable {c : Collation}

theorem pairKey_injective (c : Collation) : Function.Injective c.pairKey := by
  intro p q h
  obtain ⟨h1, h2⟩ := Prod.mk.inj (toLex.injective h)
  exact Prod.ext (c.injective h1) (c.injective h2)

theorem nodup_keys {α β κ : Type} {rows : List α} {code : α → β} {key : β → κ}
    (hkey : Function.Injective key) (h : (rows.map code).Nodup) :
    (rows.map fun a => key (code a)).Nodup := by
  have hmap := h.map hkey
  rwa [List.map_map] at hmap

theorem accounts_eq_iff (reading : Reading c s asOf) (reading' : Reading c s' asOf) :
    reading.accounts.map Account.covered = reading'.accounts.map Account.covered ↔
      (s.accounts.map Account.covered).Perm (s'.accounts.map Account.covered) :=
  LatestRows.map_answers_eq_iff (fun e => c.sortKey e.1) (fun _ => rfl)
    (nodup_keys c.injective s.accounts_nodup) (nodup_keys c.injective s'.accounts_nodup)
    reading.accounts_answers reading'.accounts_answers

theorem dimensions_eq_iff (reading : Reading c s asOf) (reading' : Reading c s' asOf) :
    reading.dimensions.map Dimension.covered = reading'.dimensions.map Dimension.covered ↔
      (s.dimensions.map Dimension.covered).Perm (s'.dimensions.map Dimension.covered) :=
  LatestRows.map_answers_eq_iff (fun e => c.sortKey e.1) (fun _ => rfl)
    (nodup_keys c.injective s.dimensions_nodup) (nodup_keys c.injective s'.dimensions_nodup)
    reading.dimensions_answers reading'.dimensions_answers

theorem values_eq_iff (reading : Reading c s asOf) (reading' : Reading c s' asOf) :
    reading.dimensionValues.map DimensionValue.covered =
        reading'.dimensionValues.map DimensionValue.covered ↔
      (s.dimensionValues.map DimensionValue.covered).Perm
        (s'.dimensionValues.map DimensionValue.covered) :=
  LatestRows.map_answers_eq_iff (fun e => c.pairKey (e.1, e.2.1)) (fun _ => rfl)
    (nodup_keys (pairKey_injective c) s.values_nodup)
    (nodup_keys (pairKey_injective c) s'.values_nodup)
    reading.values_answers reading'.values_answers

/-- The entries of the rates. -/
def Reading.captured (reading : Reading c s asOf) : List ((String × String) × String × String) :=
  (scan (fun r => c.pairKey r.pair) reading.rates).map ExchangeRate.covered

theorem inForce_iff (c : Collation) (r : ExchangeRate) : s.InForce asOf r ↔
    Latest (fun r => c.pairKey r.pair) (·.effectiveAt.instant) (s.ratesUpTo asOf) r := by
  unfold ReferenceState.InForce Latest
  simp only [(pairKey_injective c).eq_iff]

/-- Every result for the rates is the one of some reading. -/
theorem exists_reading (c : Collation) {rates : List ExchangeRate}
    (h : Answers (fun r => c.pairKey r.pair) (·.effectiveAt.instant) (s.ratesUpTo asOf) rates) :
    ∃ reading : Reading c s asOf, reading.rates = rates := by
  obtain ⟨accounts, haccounts, -⟩ := LatestRows.exists_answers
    (fun a : Account => c.sortKey a.code) (fun _ => ()) s.accounts fun _ => True
  obtain ⟨dimensions, hdimensions, -⟩ := LatestRows.exists_answers
    (fun d : Dimension => c.sortKey d.code) (fun _ => ()) s.dimensions fun _ => True
  obtain ⟨values, hvalues, -⟩ := LatestRows.exists_answers
    (fun v : DimensionValue => c.pairKey v.key) (fun _ => ()) s.dimensionValues fun _ => True
  exact ⟨⟨accounts, dimensions, values, rates, haccounts, hdimensions, hvalues, h⟩, rfl⟩

theorem nonempty_reading (c : Collation) (s : ReferenceState) (asOf : Datetime) :
    Nonempty (Reading c s asOf) := by
  obtain ⟨rates, hrates, -⟩ := LatestRows.exists_answers (fun r : ExchangeRate => c.pairKey r.pair)
    (·.effectiveAt.instant) (s.ratesUpTo asOf) fun _ => True
  obtain ⟨reading, -⟩ := exists_reading c hrates
  exact ⟨reading⟩

/-- **Rates are captured alike** in all readings exactly when those that tie are. -/
theorem tiesAgree_iff (c : Collation) : TiesAgree s asOf ↔
    ∀ reading reading' : Reading c s asOf, reading.captured = reading'.captured := by
  have hgroup : ∀ r : ExchangeRate, c.pairKey r.covered.1 = c.pairKey r.pair := fun _ => rfl
  constructor
  · intro h reading reading'
    refine (LatestRows.scans_agree_iff (fun e => c.pairKey e.1) hgroup).mpr ?_ _ _
      reading.rates_answers reading'.rates_answers
    intro r r' hr hr' hpair
    exact h r r' ((inForce_iff c r).mpr hr) ((inForce_iff c r').mpr hr') (pairKey_injective c hpair)
  · intro h r r' hr hr' hpair
    refine (LatestRows.scans_agree_iff (fun e => c.pairKey e.1) hgroup).mp ?_ r r'
      ((inForce_iff c r).mp hr) ((inForce_iff c r').mp hr') (congrArg c.pairKey hpair)
    intro rates rates' hrates hrates'
    obtain ⟨reading, rfl⟩ := exists_reading c hrates
    obtain ⟨reading', rfl⟩ := exists_reading c hrates'
    exact h reading reading'

/-- **Rates are never captured alike** exactly when a pair has no rate in force in common. -/
theorem ratesApart_iff (c : Collation) : RatesApart s s' asOf ↔
    ∀ (reading : Reading c s asOf) (reading' : Reading c s' asOf),
      reading.captured ≠ reading'.captured := by
  have hgroup : ∀ r : ExchangeRate, c.pairKey r.covered.1 = c.pairKey r.pair := fun _ => rfl
  constructor
  · rintro ⟨p, ⟨r, hr, hpair⟩, hapart⟩ reading reading'
    refine (LatestRows.scans_differ_iff (fun e => c.pairKey e.1) hgroup).mpr ?_ _ _
      reading.rates_answers reading'.rates_answers
    refine ⟨c.pairKey p, ⟨r, hr, congrArg _ hpair⟩, fun a b ha hb hap hbp => ?_⟩
    exact hapart a b ((inForce_iff c a).mpr ha) ((inForce_iff c b).mpr hb)
      (pairKey_injective c hap) (pairKey_injective c hbp)
  · intro h
    have hdiffer : ∀ rates rates',
        Answers (fun r => c.pairKey r.pair) (·.effectiveAt.instant) (s.ratesUpTo asOf) rates →
        Answers (fun r => c.pairKey r.pair) (·.effectiveAt.instant) (s'.ratesUpTo asOf) rates' →
          (scan (fun r => c.pairKey r.pair) rates).map ExchangeRate.covered ≠
            (scan (fun r => c.pairKey r.pair) rates').map ExchangeRate.covered := by
      intro rates rates' hrates hrates'
      obtain ⟨reading, rfl⟩ := exists_reading c hrates
      obtain ⟨reading', rfl⟩ := exists_reading c hrates'
      exact h reading reading'
    obtain ⟨k, ⟨r, hr, rfl⟩, hapart⟩ :=
      (LatestRows.scans_differ_iff (fun e => c.pairKey e.1) hgroup).mp hdiffer
    refine ⟨r.pair, ⟨r, hr, rfl⟩, fun a b ha hb hap hbp => ?_⟩
    exact hapart a b ((inForce_iff c a).mp ha) ((inForce_iff c b).mp hb) (congrArg _ hap)
      (congrArg _ hbp)

theorem sameStates_iff (reading : Reading env.collation s asOf)
    (reading' : Reading env.collation s' asOf) :
    (∀ c, stateOf env s reading c = stateOf env s' reading' c) ↔
      SameCovered s s' ∧ reading.captured = reading'.captured := by
  have hcoa : stateOf env s reading .coa = stateOf env s' reading' .coa ↔
      (s.accounts.map Account.covered).Perm (s'.accounts.map Account.covered) := by
    rw [← accounts_eq_iff reading reading', ← map_document_inj coveredDocument_inj]
    exact ⟨Json.arr.inj, congrArg _⟩
  have hschema : stateOf env s reading .dimensionSchema = stateOf env s' reading' .dimensionSchema ↔
      (s.dimensions.map Dimension.covered).Perm (s'.dimensions.map Dimension.covered) ∧
        (s.dimensionValues.map DimensionValue.covered).Perm
          (s'.dimensionValues.map DimensionValue.covered) := by
    rw [← dimensions_eq_iff reading reading', ← values_eq_iff reading reading',
      ← map_document_inj dimensionDocument_inj, ← map_document_inj valueDocument_inj]
    show schemaState _ _ = schemaState _ _ ↔ _
    unfold schemaState
    refine Iff.trans (record_inj rfl (by simp)) ?_
    simp
  have hrates : stateOf env s reading .fxRates = stateOf env s' reading' .fxRates ↔
      reading.captured = reading'.captured := by
    unfold Reading.captured
    rw [← map_document_inj rateDocument_inj]
    exact ⟨Json.arr.inj, congrArg _⟩
  have hpolicies : stateOf env s reading .policyRegistry = stateOf env s' reading' .policyRegistry ↔
      s.policies.map coveredPolicy = s'.policies.map coveredPolicy := by
    show policyState _ = policyState _ ↔ _
    rw [policyState_eq, policyState_eq, record_single_inj, ← map_document_inj policyDocument_inj]
    exact ⟨Json.arr.inj, congrArg _⟩
  have hroles : stateOf env s reading .accountRoles = stateOf env s' reading' .accountRoles ↔
      s.roleBindings = s'.roleBindings := by
    show roleState _ = roleState _ ↔ _
    rw [roleState_eq, roleState_eq, record_single_inj]
    have hmap : s.roleBindings.map roleDocument = s'.roleBindings.map roleDocument ↔
        s.roleBindings = s'.roleBindings :=
      List.map_inj_right fun a b => (roleDocument_inj a b).mp
    rw [← hmap]
    exact ⟨Json.arr.inj, congrArg _⟩
  constructor
  · intro h
    obtain ⟨hdimensions, hvalues⟩ := hschema.mp (h _)
    exact ⟨⟨hcoa.mp (h _), hdimensions, hvalues, hpolicies.mp (h _), hroles.mp (h _)⟩,
      hrates.mp (h _)⟩
  · rintro ⟨h, hcaptured⟩ c
    cases c with
    | coa => exact hcoa.mpr h.accounts
    | dimensionSchema => exact hschema.mpr ⟨h.dimensions, h.dimensionValues⟩
    | fxRates => exact hrates.mpr hcaptured
    | policyRegistry => exact hpolicies.mpr h.policies
    | accountRoles => exact hroles.mpr h.roleBindings
    | taxRules =>
        show taxState _ = taxState _
        rw [taxState_eq, taxState_eq, taxDocuments_eq h.policies]
    | roundingPolicy => rfl
    | configurationSet => rfl

end Readings

/-! ### Validity -/

/-- **A snapshot of all components is valid** on the states with the same covered fields. -/
theorem isValid_iff (hd : Digest.CollisionFree env.dumping.sha256)
    {cs : List SnapshotComponentType} (hcs : ∀ c, c ∈ cs) (hc : Capturable s)
    (hc' : Capturable s') (snapshotId requestedBy : UUID) {cvs : List ComponentVersion}
    {reading : Reading env.collation s asOf}
    (hcapture : cs.mapM (captureComponent env reading) = .ok cvs)
    (reading' : Reading env.collation s' asOf) :
    ∃ r, validateIntegrity env ⟨snapshotId, asOf, requestedBy, cvs⟩ reading' = .ok r ∧
      (r.isValid = true ↔ SameCovered s s' ∧ reading.captured = reading'.captured) := by
  obtain ⟨hall, hhash⟩ := components_of_capture hd hcs hc hcapture
  obtain ⟨r, hr, hvalid⟩ := exists_validation hd hc' ⟨snapshotId, asOf, requestedBy, cvs⟩ reading'
  refine ⟨r, hr, hvalid.trans ?_⟩
  rw [← sameStates_iff reading reading']
  constructor
  · intro h c
    obtain ⟨cv, hcv, rfl⟩ := hall c
    exact (digest_eq_iff hd).mp ((hhash cv hcv).symm.trans (h cv hcv).symm)
  · intro h cv hcv
    rw [hhash cv hcv, h]

end Laws

/-! ### A ledger with one account -/

def sampleCollation : Collation where
  sortKey s := s.toList.map Char.toNat
  injective _ _ h := String.ext (List.map_injective_iff.mpr (fun _ _ => Char.toNat_inj.mp) h)

def sampleEnvironment : Environment :=
  ⟨Config.sampleToolchain.dumping, [("USD", 2)], sampleCollation⟩

/-- An account of assets, before it is loaded. -/
def sampleAccount (code : String) (normalBalance : Reporting.NormalBalance) : Account where
  code := code
  name := "Cash"
  accountType := .member .asset
  normalBalance := normalBalance

def sampleState (a : Account) : ReferenceState := { accounts := [a], accounts_nodup := by simp }

def sampleRequest : SnapshotRequest where
  requestedBy := ⟨0⟩
  includeComponents := [.coa, .dimensionSchema, .fxRates, .taxRules, .policyRegistry,
    .roundingPolicy, .accountRoles, .configurationSet]

theorem capturable_sample (code : String) (normalBalance : Reporting.NormalBalance) :
    Capturable (sampleState (sampleAccount code normalBalance)) := by
  constructor
  · intro a ha value hvalue
    obtain rfl := List.mem_singleton.mp ha
    cases hvalue
  · intro pack hpack
    cases hpack

theorem drift_sample {a b : Account} (h : a.view ≠ b.view) :
    ¬ Same (sampleState a) (sampleState b) sampleTime := by
  intro hsame
  have haccounts := hsame.accounts
  simp only [sampleState, List.map_cons, List.map_nil, List.perm_singleton, List.cons.injEq,
    and_true] at haccounts
  exact h haccounts

/-! ### Detection -/

/-- Every snapshot is valid on the state that it captures, and on no state with drift. -/
def DetectsDrift (env : Environment) (request : SnapshotRequest) (now : Datetime)
    (snapshotId : UUID) (s s' : ReferenceState) : Prop :=
  ∀ (reading : Reading env.collation s (request.capturedAt now)) (snapshot : ReferenceSnapshot),
    capture env request now snapshotId reading = .ok snapshot →
      (∀ reading₁ : Reading env.collation s snapshot.capturedAt,
        ∃ r, validateIntegrity env snapshot reading₁ = .ok r ∧ r.isValid = true) ∧
      (¬ Same s s' (request.capturedAt now) →
        ∀ reading₂ : Reading env.collation s' snapshot.capturedAt,
          ∃ r, validateIntegrity env snapshot reading₂ = .ok r ∧ r.isValid = false)

/-- **Replay drift is detected** exactly where rates that tie are captured alike, and the drifted
state can be captured and differs in what the hashes cover. -/
theorem drift_detected_iff {env : Environment}
    (hd : Digest.CollisionFree env.dumping.sha256) (request : SnapshotRequest)
    (hcs : ∀ c, c ∈ request.includeComponents) (now : Datetime) (snapshotId : UUID)
    (s s' : ReferenceState) :
    DetectsDrift env request now snapshotId s s' ↔
      (Capturable s → TiesAgree s (request.capturedAt now) ∧
        (¬ Same s s' (request.capturedAt now) →
          Capturable s' ∧ (¬ SameCovered s s' ∨ RatesApart s s' (request.capturedAt now)))) := by
  constructor
  · intro h hc
    constructor
    · refine (tiesAgree_iff env.collation).mpr fun reading reading' => ?_
      obtain ⟨cvs, hcvs, hcapture⟩ := exists_capture hd hc request now snapshotId reading
      obtain ⟨r, hr, hvalid⟩ := (h reading _ hcapture).1 reading'
      obtain ⟨r', hr', hiff⟩ := isValid_iff hd hcs hc hc snapshotId request.requestedBy hcvs reading'
      obtain rfl := Except.ok.inj (hr.symm.trans hr')
      exact (hiff.mp hvalid).2
    · intro hdrift
      have hc' : Capturable s' := by
        obtain ⟨reading⟩ := nonempty_reading env.collation s (request.capturedAt now)
        obtain ⟨reading'⟩ := nonempty_reading env.collation s' (request.capturedAt now)
        obtain ⟨cvs, hcvs, hcapture⟩ := exists_capture hd hc request now snapshotId reading
        obtain ⟨r, hr, -⟩ := (h reading _ hcapture).2 hdrift reading'
        exact capturable_of_validation (components_of_capture hd hcs hc hcvs).1 hr
      refine ⟨hc', or_iff_not_imp_left.mpr fun hcovered => ?_⟩
      refine (ratesApart_iff env.collation).mpr fun reading reading' heq => ?_
      obtain ⟨cvs, hcvs, hcapture⟩ := exists_capture hd hc request now snapshotId reading
      obtain ⟨r, hr, hinvalid⟩ := (h reading _ hcapture).2 hdrift reading'
      obtain ⟨r', hr', hiff⟩ :=
        isValid_iff hd hcs hc hc' snapshotId request.requestedBy hcvs reading'
      obtain rfl := Except.ok.inj (hr.symm.trans hr')
      rw [hiff.mpr ⟨not_not.mp hcovered, heq⟩] at hinvalid
      cases hinvalid
  · intro h reading snapshot hcapture
    obtain ⟨cvs, hcvs, rfl⟩ := capture_eq_ok hcapture
    have hc : Capturable s := by
      have hcomponents : ∀ c, ∃ cv, captureComponent env reading c = .ok cv := by
        intro c
        obtain ⟨cv, -, hcv⟩ := (mem_of_mapM hcvs).1 c (hcs c)
        exact ⟨cv, hcv⟩
      exact capturable_of_components hcomponents
    obtain ⟨hties, hdetect⟩ := h hc
    constructor
    · intro reading₁
      obtain ⟨r, hr, hiff⟩ := isValid_iff hd hcs hc hc snapshotId request.requestedBy hcvs reading₁
      refine ⟨r, hr, hiff.mpr ⟨⟨.refl _, .refl _, .refl _, rfl, rfl⟩, ?_⟩⟩
      exact (tiesAgree_iff env.collation).mp hties reading reading₁
    · intro hdrift reading₂
      obtain ⟨hc', hdiffer⟩ := hdetect hdrift
      obtain ⟨r, hr, hiff⟩ := isValid_iff hd hcs hc hc' snapshotId request.requestedBy hcvs reading₂
      refine ⟨r, hr, Bool.eq_false_iff.mpr fun hvalid => ?_⟩
      obtain ⟨hcovered, hrates⟩ := hiff.mp hvalid
      rcases hdiffer with hdiffer | hapart
      · exact hdiffer hcovered
      · exact (ratesApart_iff env.collation).mp hapart reading reading₂ hrates

/-- A new code is detected. -/
theorem drift_detected_sample :
    DetectsDrift sampleEnvironment sampleRequest sampleTime ⟨1⟩
      (sampleState (sampleAccount "1000" .debit)) (sampleState (sampleAccount "1001" .debit)) := by
  refine (drift_detected_iff Config.collisionFree_sample sampleRequest (fun c => ?_) sampleTime ⟨1⟩
    _ _).mpr fun _ => ⟨?_, fun _ => ⟨capturable_sample _ _, .inl fun hcovered => ?_⟩⟩
  · cases c <;> decide
  · intro r r' hr
    cases hr.1
  · have haccounts := hcovered.accounts
    simp [sampleState, sampleAccount, Account.covered] at haccounts

/-- The normal balance of an account is not covered. -/
theorem drift_undetected :
    ¬ DetectsDrift sampleEnvironment sampleRequest sampleTime ⟨1⟩
      (sampleState (sampleAccount "1000" .debit)) (sampleState (sampleAccount "1000" .credit)) := by
  intro h
  have hcs : ∀ c, c ∈ sampleRequest.includeComponents := fun c => by cases c <;> decide
  have hdrift : ¬ Same (sampleState (sampleAccount "1000" .debit))
      (sampleState (sampleAccount "1000" .credit)) sampleTime :=
    drift_sample (by simp [Account.view, sampleAccount])
  obtain ⟨reading⟩ := nonempty_reading sampleEnvironment.collation
    (sampleState (sampleAccount "1000" .debit)) sampleTime
  obtain ⟨reading'⟩ := nonempty_reading sampleEnvironment.collation
    (sampleState (sampleAccount "1000" .credit)) sampleTime
  obtain ⟨cvs, hcvs, hcapture⟩ := exists_capture Config.collisionFree_sample
    (capturable_sample _ _) sampleRequest sampleTime ⟨1⟩ reading
  obtain ⟨r, hr, hinvalid⟩ := (h reading _ hcapture).2 hdrift reading'
  obtain ⟨r', hr', hiff⟩ := isValid_iff Config.collisionFree_sample hcs (capturable_sample _ _)
    (capturable_sample _ _) ⟨1⟩ sampleRequest.requestedBy hcvs reading'
  obtain rfl := Except.ok.inj (hr.symm.trans hr')
  have hrates : reading.captured = reading'.captured := by
    unfold Reading.captured
    rw [reading.rates_answers.perm.eq_nil, reading'.rates_answers.perm.eq_nil]
  rw [hiff.mpr ⟨⟨.refl _, .refl _, .refl _, rfl, rfl⟩, hrates⟩] at hinvalid
  cases hinvalid

end FinanceAccounting.Snapshots
