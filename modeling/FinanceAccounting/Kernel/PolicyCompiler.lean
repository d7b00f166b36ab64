import FinanceAccounting.Library.TransitionSystem
import FinanceAccounting.Kernel.PolicySelector
import FinanceAccounting.Kernel.PostingStrategy
import FinanceAccounting.Ingestion.EventSchemas

/-! # Compiling policies

`PolicyCompiler.compile_and_register`: a profile is registered for selection when its structure,
its overlaps with the registered profiles (P1), its field references (P10) and the roles that its
ledgers require (P7) pass their checks.

The overlap check is exact (`profilesOverlap_iff_compete`).  The resolution that it counts on is not
that of the selector; `lookups_classified` says what a lookup can answer after any run. -/

namespace FinanceAccounting.PolicyCompiler

open PolicySelector
open PostingStrategy (ValidationError)
open EventSchemas (EventSchema EventFieldSchema)
open TransitionSystem (along_of_mem run)

/-! ### Profiles -/

structure LedgerEffect where
  ledger : String
  debitRole : String
  creditRole : String

structure PolicyMeaning where
  economicType : String
  quantityField : Option String := none
  dimensions : List String := []

/-- A policy with what the compiler reads of it besides. -/
structure Profile extends AccountingPolicy where
  schemaVersion : ℤ := 1
  meaning : PolicyMeaning
  ledgerEffects : List LedgerEffect
  economicType_ne : meaning.economicType ≠ "" := by decide

/-- `get_field_references`; dimensions are field paths where they have a dot. -/
def getFieldReferences (p : Profile) : List String :=
  (p.trigger.conditions.map (·.1) ++ (p.meaning.quantityField.filter (· ≠ "")).toList ++
    p.meaning.dimensions.filter fun dim => '.' ∈ dim.toList).eraseDups

mutual

/-- The paths of a field and of the fields in it. -/
def fieldPaths (pre : String) : EventFieldSchema → List String
  | .mk head nestedFields itemSchema =>
      let path := pre ++ head.name
      path :: ((if head.fieldType = .object then iterateFieldPaths (path ++ ".") nestedFields
        else []) ++
        if head.fieldType = .array then iterateFieldPaths (path ++ "[*].") itemSchema else [])

/-- `_iterate_field_paths`. -/
def iterateFieldPaths (pre : String) : List EventFieldSchema → List String
  | [] => []
  | field :: fields => fieldPaths pre field ++ iterateFieldPaths pre fields

end

/-- The roles that a ledger requires for each economic type. -/
abbrev LedgerRegistry := List (String × List (String × List String))

/-- `get_required_roles`. -/
def getRequiredRoles (ledgers : LedgerRegistry) (ledgerId economicType : String) : List String :=
  ((ledgers.lookup ledgerId).bind (·.lookup economicType)).getD []

/-- `_register_default_gl`. -/
def defaultLedgers : LedgerRegistry :=
  [("GL", [("InventoryIncrease", ["InventoryAsset", "GRNI"]),
    ("InventoryDecrease", ["COGS", "InventoryAsset"]),
    ("Revenue", ["AccountsReceivable", "Revenue"]),
    ("Expense", ["Expense", "AccountsPayable"]),
    ("Payment", ["Cash", "AccountsPayable"]),
    ("Receipt", ["Cash", "AccountsReceivable"])])]

/-! ### Overlaps -/

/-- `date.max`. -/
def dateMax : Date := Date.of 9999 12 31 (by decide)

/-- `_date_ranges_overlap`. -/
def dateRangesOverlap (p q : AccountingPolicy) : Bool :=
  p.effectiveFrom ≤ q.effectiveTo.getD dateMax && q.effectiveFrom ≤ p.effectiveTo.getD dateMax

/-- The scope ends in `":*"`. -/
def isPrefixScope (scope : String) : Bool := [':', '*'].isSuffixOf scope.toList

/-- What the values of a prefix scope begin with. -/
def stem (scope : String) : List Char := scope.toList.dropLast

/-- `_scopes_overlap`. -/
def scopesOverlap (scope₁ scope₂ : String) : Bool :=
  if scope₁ = "*" ∨ scope₂ = "*" then true
  else if isPrefixScope scope₁ && isPrefixScope scope₂ then
    (stem scope₂).isPrefixOf (stem scope₁) || (stem scope₁).isPrefixOf (stem scope₂)
  else if isPrefixScope scope₁ then (stem scope₁).isPrefixOf scope₂.toList
  else if isPrefixScope scope₂ then (stem scope₂).isPrefixOf scope₁.toList
  else scope₁ = scope₂

/-- `_profiles_overlap`. -/
def profilesOverlap (p q : AccountingPolicy) : Bool :=
  p.trigger.eventType = q.trigger.eventType && dateRangesOverlap p q && scopesOverlap p.scope q.scope

/-- `_precedence_resolves`. -/
def precedenceResolves (p q : AccountingPolicy) : Bool :=
  q.precedence.overrides.contains p.name || p.precedence.overrides.contains q.name ||
    specificity p ≠ specificity q || priority p ≠ priority q ||
    p.precedence.mode ≠ q.precedence.mode

/-- Profiles of two names that overlap unresolved. -/
def conflicts (p other : AccountingPolicy) : Bool :=
  other.name ≠ p.name && profilesOverlap p other && !precedenceResolves p other

/-! ### The compiler -/

structure CompilationResult where
  success : Bool
  errors : List ValidationError
  warnings : List ValidationError

/-- Its switches, the registries that it reads, and `repr` of a list of texts. -/
structure Compiler where
  checkOverlaps : Bool := true
  checkSchema : Bool := true
  checkLedger : Bool := true
  schemas : List EventSchema := []
  ledgers : LedgerRegistry := defaultLedgers
  repr : List String → String

/-- `_validate_structure`. -/
def validateStructure (p : Profile) : List ValidationError :=
  (if p.effectiveTo.any (· < p.effectiveFrom) then
    [{ code := "INVALID_EFFECTIVE_RANGE"
       message := "effective_to must be >= effective_from"
       field := some "effective_to" }]
    else []) ++
  if p.ledgerEffects.isEmpty then
    [{ code := "NO_LEDGER_EFFECTS"
       message := "Profile must have at least one ledger effect"
       field := some "ledger_effects" }]
    else []

/-- `_validate_no_overlaps`. -/
def validateNoOverlaps (existing : List AccountingPolicy) (p : AccountingPolicy) :
    List ValidationError :=
  ((existing.filter (·.trigger.eventType = p.trigger.eventType)).filter (conflicts p)).map
    fun other => {
      code := "PROFILE_OVERLAP"
      message := "Profile '" ++ p.name ++ "' overlaps with '" ++ other.name ++
        "' and cannot be resolved by precedence rules"
      field := some "trigger" }

namespace Compiler

variable (c : Compiler)

/-- The schema that `EventSchemaRegistry` has for a profile. -/
def schemaOf (p : Profile) : Option EventSchema :=
  c.schemas.find? fun s => s.eventType = p.trigger.eventType ∧ s.version = p.schemaVersion

/-- `_validate_field_references`: the errors and the warnings. -/
def validateFieldReferences (p : Profile) : List ValidationError × List ValidationError :=
  match c.schemaOf p with
  | none =>
      ([], [{
        code := "SCHEMA_NOT_REGISTERED"
        message := "No schema registered for " ++ p.trigger.eventType ++ " v" ++
          toString p.schemaVersion ++ ". Field references cannot be validated."
        field := some "trigger.event_type" }])
  | some schema =>
      (((getFieldReferences p).filter (· ∉ iterateFieldPaths "" schema.fields)).map fun path => {
        code := "INVALID_FIELD_REFERENCE"
        message := "Field '" ++ path ++ "' does not exist in schema for " ++ schema.eventType
        field := some path }, [])

/-- The required roles that an effect does not provide. -/
def missingRoles (p : Profile) (effect : LedgerEffect) : List String :=
  (getRequiredRoles c.ledgers effect.ledger p.meaning.economicType).eraseDups.filter
    (· ∉ [effect.debitRole, effect.creditRole])

/-- `_validate_ledger_requirements`. -/
def validateLedgerRequirements (p : Profile) : List ValidationError :=
  (p.ledgerEffects.filter fun effect => !(c.missingRoles p effect).isEmpty).map fun effect => {
    code := "MISSING_REQUIRED_ROLES"
    message := "Profile '" ++ p.name ++ "' is missing required roles for " ++
      p.meaning.economicType ++ " on " ++ effect.ledger ++ ": " ++
      c.repr (Ranking.ascending (fun role => role) (c.missingRoles p effect))
    field := some "ledger_effects" }

/-- What the checks collect, in their order. -/
def errors (existing : List AccountingPolicy) (p : Profile) : List ValidationError :=
  validateStructure p ++
    (if c.checkOverlaps then validateNoOverlaps existing p.toAccountingPolicy else []) ++
    (if c.checkSchema then (c.validateFieldReferences p).1 else []) ++
    if c.checkLedger then c.validateLedgerRequirements p else []

def compile (existing : List AccountingPolicy) (p : Profile) : CompilationResult :=
  let warnings := if c.checkSchema then (c.validateFieldReferences p).2 else []
  if c.errors existing p = [] then ⟨true, [], warnings⟩ else ⟨false, c.errors existing p, []⟩

end Compiler

/-! ### Registration -/

/-- The registered profiles in the order of their registration. -/
structure Registered where
  profiles : List Profile
  keys : (profiles.map fun p => (p.name, p.version)).Nodup

namespace Registered

def empty : Registered := ⟨[], by simp⟩

def policies (r : Registered) : List AccountingPolicy := r.profiles.map (·.toAccountingPolicy)

/-- What the selector sees. -/
def registry (r : Registered) : Registry where
  policies := r.policies
  keys := by
    rw [policies, List.map_map]
    exact r.keys

/-- `PolicySelector.register`; the receipt is optional. -/
def register (r : Registered) (p : Profile) (receipt : Option CompilationReceipt) :
    Except SelectorError Registered :=
  if receipt.any fun receipt => receipt.policyName ≠ p.name || receipt.policyVersion ≠ p.version then
    .error (.uncompiledPolicy p.name p.version)
  else if h : (p.name, p.version) ∈ r.profiles.map fun p => (p.name, p.version) then
    .error (.policyAlreadyRegistered p.name p.version)
  else
    .ok {
      profiles := r.profiles ++ [p]
      keys := by
        rw [List.map_append]
        refine List.nodup_append.mpr ⟨r.keys, List.nodup_singleton _, ?_⟩
        rintro key hkey _ hp rfl
        obtain rfl := List.mem_singleton.mp hp
        exact h hkey }

end Registered

def compileAndRegister (c : Compiler) (r : Registered) (p : Profile) :
    Except SelectorError (CompilationResult × Registered) :=
  let result := c.compile r.policies p
  if result.success then (r.register p none).map fun r' => (result, r') else .ok (result, r)

/-- A call that raises leaves the registry as it is. -/
def step (r : Registered) (call : Compiler × Profile) : Option Registered :=
  match compileAndRegister call.1 r call.2 with
  | .ok (_, r') => some r'
  | .error _ => some r

/-! ### The overlap check is exact -/

/-- Some day and some scope value are those of both policies. -/
def Compete (p q : AccountingPolicy) : Prop :=
  p.trigger.eventType = q.trigger.eventType ∧
    (∃ day, p.isEffectiveOn day = true ∧ q.isEffectiveOn day = true) ∧
    ∃ value, p.matchesScope value = true ∧ q.matchesScope value = true

/-- The policy is in force on some day. -/
def ValidRange (p : AccountingPolicy) : Prop := ∀ last ∈ p.effectiveTo, p.effectiveFrom ≤ last

theorem le_dateMax (d : Date) : d ≤ dateMax := by
  have hyear := d.year_le
  have hmonth := d.month_le
  show d.year * 10 ^ 4 + d.month * 10 ^ 2 + d.day ≤ 9999 * 10 ^ 4 + 12 * 10 ^ 2 + 31
  have hdays := d.day_le.trans (daysInMonth_le d.year d.month)
  omega

/-- A policy without an end is in force to the last day there is. -/
theorem isEffectiveOn_iff {p : AccountingPolicy} {day : Date} :
    p.isEffectiveOn day = true ↔ p.effectiveFrom ≤ day ∧ day ≤ p.effectiveTo.getD dateMax := by
  unfold AccountingPolicy.isEffectiveOn
  cases p.effectiveTo with
  | none => simp [le_dateMax]
  | some last => simp

theorem dateRangesOverlap_iff {p q : AccountingPolicy} (hp : ValidRange p) (hq : ValidRange q) :
    dateRangesOverlap p q = true ↔
      ∃ day, p.isEffectiveOn day = true ∧ q.isEffectiveOn day = true := by
  have hlast : ∀ {p : AccountingPolicy}, ValidRange p →
      p.effectiveFrom ≤ p.effectiveTo.getD dateMax := by
    intro p hp
    cases hto : p.effectiveTo with
    | none => exact le_dateMax _
    | some last => exact hp last hto
  simp only [dateRangesOverlap, Bool.and_eq_true, decide_eq_true_eq, isEffectiveOn_iff]
  constructor
  · rintro ⟨hpq, hqp⟩
    -- the later of the two first days
    refine ⟨max p.effectiveFrom q.effectiveFrom, ⟨le_max_left _ _, ?_⟩, le_max_right _ _, ?_⟩
    · exact max_le (hlast hp) hqp
    · exact max_le hpq (hlast hq)
  · rintro ⟨day, ⟨hpday, hdayp⟩, hqday, hdayq⟩
    exact ⟨hpday.trans hdayq, hqday.trans hdayp⟩

/-- The values of a scope. -/
def InScope (scope value : String) : Prop :=
  scope = "*" ∨ if isPrefixScope scope then stem scope <+: value.toList else scope = value

theorem matchesScope_iff {p : AccountingPolicy} {value : String} :
    p.matchesScope value = true ↔ InScope p.scope value := by
  unfold AccountingPolicy.matchesScope InScope isPrefixScope stem
  split_ifs <;> simp_all

theorem exists_inScope (scope : String) : ∃ value, InScope scope value := by
  by_cases hprefix : isPrefixScope scope = true
  · refine ⟨String.ofList (stem scope), Or.inr ?_⟩
    rw [if_pos hprefix]
    simp
  · refine ⟨scope, Or.inr ?_⟩
    rw [if_neg hprefix]

theorem scopesOverlap_iff {scope₁ scope₂ : String} :
    scopesOverlap scope₁ scope₂ = true ↔ ∃ value, InScope scope₁ value ∧ InScope scope₂ value := by
  by_cases hall : scope₁ = "*" ∨ scope₂ = "*"
  · refine iff_of_true (by rw [scopesOverlap, if_pos hall]) ?_
    rcases hall with h | h
    · obtain ⟨value, hvalue⟩ := exists_inScope scope₂
      exact ⟨value, Or.inl h, hvalue⟩
    · obtain ⟨value, hvalue⟩ := exists_inScope scope₁
      exact ⟨value, hvalue, Or.inl h⟩
  rw [not_or] at hall
  simp only [scopesOverlap, InScope, hall.1, hall.2, or_self, if_false, false_or]
  cases h₁ : isPrefixScope scope₁ <;> cases h₂ : isPrefixScope scope₂ <;>
    simp only [Bool.and_self, Bool.and_true, Bool.and_false, if_true, if_false, Bool.or_eq_true,
      List.isPrefixOf_iff_prefix, decide_eq_true_eq, Bool.false_eq_true]
  case false.false => exact ⟨fun h => ⟨scope₁, rfl, h.symm⟩, fun ⟨_, h₁, h₂⟩ => h₁.trans h₂.symm⟩
  case false.true => exact ⟨fun h => ⟨scope₁, rfl, h⟩, fun ⟨_, h₁, h₂⟩ => h₁ ▸ h₂⟩
  case true.false => exact ⟨fun h => ⟨scope₂, h, rfl⟩, fun ⟨_, h₁, h₂⟩ => h₂ ▸ h₁⟩
  case true.true =>
    constructor
    · -- the longer stem is a value of both
      rintro (h | h)
      · exact ⟨String.ofList (stem scope₁), by simp, by simpa using h⟩
      · exact ⟨String.ofList (stem scope₂), by simpa using h, by simp⟩
    · rintro ⟨value, h₁, h₂⟩
      exact List.prefix_or_prefix_of_prefix h₂ h₁

/-- Policies that can match one event overlap. -/
theorem Compete.overlap {p q : AccountingPolicy} (h : Compete p q) : profilesOverlap p q = true := by
  obtain ⟨heventType, ⟨day, hp, hq⟩, value, hpvalue, hqvalue⟩ := h
  rw [isEffectiveOn_iff] at hp hq
  rw [matchesScope_iff] at hpvalue hqvalue
  simp only [profilesOverlap, dateRangesOverlap, Bool.and_eq_true, decide_eq_true_eq]
  exact ⟨⟨heventType, hp.1.trans hq.2, hq.1.trans hp.2⟩,
    scopesOverlap_iff.mpr ⟨value, hpvalue, hqvalue⟩⟩

/-- **The overlap check is exact**: policies with a range overlap exactly when there are a day and a
scope value at which both are candidates for an event. -/
theorem profilesOverlap_iff_compete {p q : AccountingPolicy} (hp : ValidRange p)
    (hq : ValidRange q) : profilesOverlap p q = true ↔ Compete p q := by
  refine ⟨fun h => ?_, Compete.overlap⟩
  simp only [profilesOverlap, Bool.and_eq_true, decide_eq_true_eq] at h
  obtain ⟨⟨heventType, hdates⟩, hscopes⟩ := h
  simp only [Compete, matchesScope_iff]
  exact ⟨heventType, (dateRangesOverlap_iff hp hq).mp hdates, scopesOverlap_iff.mp hscopes⟩

/-! ### What a call registers -/

/-- What has been found of a profile that is registered. -/
structure Compiled (c : Compiler) (registered : List Profile) (p : Profile) : Prop where
  range : ValidRange p.toAccountingPolicy
  effects : p.ledgerEffects ≠ []
  apart : c.checkOverlaps = true →
    ∀ other ∈ registered, conflicts p.toAccountingPolicy other.toAccountingPolicy = false
  references : c.checkSchema = true → (c.validateFieldReferences p).1 = []
  roles : c.checkLedger = true → c.validateLedgerRequirements p = []

theorem compiled_of_success {c : Compiler} {r : Registered} {p : Profile}
    (h : (c.compile r.policies p).success = true) : Compiled c r.profiles p := by
  have herrors : c.errors r.policies p = [] := by
    by_contra hne
    rw [Compiler.compile, if_neg hne] at h
    cases h
  simp only [Compiler.errors, validateStructure, List.append_eq_nil_iff] at herrors
  obtain ⟨⟨⟨⟨hrange, heffects⟩, hoverlaps⟩, hschema⟩, hledger⟩ := herrors
  refine ⟨fun last hlast => ?_, fun hnil => ?_, fun hcheck other hother => ?_, fun hcheck => ?_,
    fun hcheck => ?_⟩
  · rw [Option.mem_def.mp hlast] at hrange
    simpa using hrange
  · simp [hnil] at heffects
  · rw [if_pos hcheck, validateNoOverlaps, List.map_eq_nil_iff, List.filter_eq_nil_iff] at hoverlaps
    by_contra hconflict
    rw [Bool.not_eq_false] at hconflict
    refine hoverlaps other.toAccountingPolicy (List.mem_filter.mpr ⟨?_, ?_⟩) hconflict
    · exact List.mem_map.mpr ⟨other, hother, rfl⟩
    · simp only [conflicts, profilesOverlap, Bool.and_eq_true, decide_eq_true_eq] at hconflict
      simpa using hconflict.1.2.1.1.symm
  · rwa [if_pos hcheck] at hschema
  · rwa [if_pos hcheck] at hledger

/-- A call leaves the registry as it is, or adds the profile that it compiled. -/
theorem step_cases {r r' : Registered} {call : Compiler × Profile} (h : step r call = some r') :
    r' = r ∨ Compiled call.1 r.profiles call.2 ∧ r'.profiles = r.profiles ++ [call.2] := by
  unfold step compileAndRegister at h
  dsimp only at h
  by_cases hsuccess : (call.1.compile r.policies call.2).success = true
  · rw [if_pos hsuccess] at h
    cases hregister : r.register call.2 none with
    | error e =>
        rw [hregister] at h
        exact Or.inl (Option.some.inj h).symm
    | ok r₁ =>
        rw [hregister] at h
        obtain rfl := Option.some.inj h
        refine Or.inr ⟨compiled_of_success hsuccess, ?_⟩
        unfold Registered.register at hregister
        rw [if_neg (by simp)] at hregister
        split at hregister
        · cases hregister
        · rw [← Except.ok.inj hregister]
  · rw [if_neg hsuccess] at h
    exact Or.inl (Option.some.inj h).symm

/-! ### The profiles of a run -/

/-- No two registered profiles conflict. -/
def Lawful (r : Registered) : Prop :=
  r.profiles.Pairwise fun p q => conflicts q.toAccountingPolicy p.toAccountingPolicy = false

theorem Lawful.step {r r' : Registered} {call : Compiler × Profile} (hr : Lawful r)
    (hcheck : call.1.checkOverlaps = true) (h : step r call = some r') : Lawful r' := by
  rcases step_cases h with rfl | ⟨hcompiled, hprofiles⟩
  · exact hr
  · rw [Lawful, hprofiles, List.pairwise_append]
    refine ⟨hr, List.pairwise_singleton _ _, fun p hp q hq => ?_⟩
    obtain rfl := List.mem_singleton.mp hq
    exact hcompiled.apart hcheck p hp

theorem lawful_of_run {calls : List (Compiler × Profile)} {r : Registered}
    (hchecks : ∀ call ∈ calls, call.1.checkOverlaps = true)
    (hrun : run step .empty calls = some r) : Lawful r :=
  (along_of_mem hchecks .empty).run_invariant (fun _ _ _ hr hcheck h => hr.step hcheck h)
    (show Lawful .empty from .nil) hrun

theorem Lawful.not_conflict {r : Registered} (hr : Lawful r) {p q : AccountingPolicy}
    (hp : p ∈ r.registry.policies) (hq : q ∈ r.registry.policies) :
    conflicts p q = false ∨ conflicts q p = false := by
  by_cases hpq : p = q
  · exact Or.inl (by simp [conflicts, hpq])
  have hapart : r.registry.policies.Pairwise fun p q =>
      conflicts p q = false ∨ conflicts q p = false :=
    List.pairwise_map.mpr (hr.imp Or.inr)
  have hsymm : Std.Symm fun p q => conflicts p q = false ∨ conflicts q p = false :=
    ⟨fun _ _ h => h.symm⟩
  exact hapart.forall hp hq hpq

/-! ### What the selector answers -/

/-- Policies that the selector cannot tell apart and the compiler let pass: versions of one policy,
or normal ones of which one names the other; the selector reads names of overriding ones only. -/
structure Unresolved (p q : AccountingPolicy) : Prop where
  ne : p ≠ q
  specificity_eq : specificity p = specificity q
  priority_eq : priority p = priority q
  passed : p.name = q.name ∨ p.precedence.mode = .normal ∧ q.precedence.mode = .normal ∧
    (p.name ∈ q.precedence.overrides ∨ q.name ∈ p.precedence.overrides)

/-- What an answer says of the matching policies, where `Tied` policies cannot be told apart.  The
list is empty in the middle of the cascade where they all override one another. -/
def Classified (Tied : AccountingPolicy → AccountingPolicy → Prop) (ms : List AccountingPolicy) :
    Except SelectorError AccountingPolicy → Prop
  | .ok p => p ∈ ms ∧ (ms = [p] ∨ ∀ q ∈ ms, ¬Overrides q p)
  | .error (.policyNotFound _ _) => ms = []
  | .error (.multiplePoliciesMatch _ _) => ∃ p ∈ ms, ∃ q ∈ ms, Tied p q
  | .error .indexError => ms ≠ [] ∧ ∀ p ∈ ms, ∃ q ∈ ms, Overrides q p
  | .error _ => False

/-- Two survivors on a level. -/
structure OnLevel (ms : List AccountingPolicy) (p q : AccountingPolicy) : Prop where
  left : p ∈ survivors ms
  right : q ∈ survivors ms
  ne : p ≠ q
  specificity_eq : specificity p = specificity q
  priority_eq : priority p = priority q

theorem Classified.mono {Tied Tied' : AccountingPolicy → AccountingPolicy → Prop}
    {ms : List AccountingPolicy} {answer : Except SelectorError AccountingPolicy}
    (h : Classified Tied ms answer) (himp : ∀ p q, Tied p q → Tied' p q) :
    Classified Tied' ms answer := by
  unfold Classified at h ⊢
  split at h
  case h_3 =>
    obtain ⟨p, hp, q, hq, htied⟩ := h
    exact ⟨p, hp, q, hq, himp p q htied⟩
  all_goals exact h

section Cascade

variable {profiles : List AccountingPolicy}

theorem perm_byName : (byName profiles).Perm profiles :=
  (Ranking.perm_ascending _ _).trans
    ((Ranking.perm_descending _ _).trans (Ranking.perm_descending _ _))

/-- The cascade ends with one of the policies, without any, or with two on a level. -/
theorem resolve_cases (hnodup : profiles.Nodup) :
    (∃ p ∈ profiles, resolve profiles = .ok p) ∨
      (profiles = [] ∧ resolve profiles = .error .indexError) ∨
      ∃ p ∈ profiles, ∃ q ∈ profiles, p ≠ q ∧ specificity p = specificity q ∧
        priority p = priority q ∧
        ∃ eventType names, resolve profiles = .error (.multiplePoliciesMatch eventType names) := by
  match profiles, hnodup with
  | [], _ => exact Or.inr (Or.inl ⟨rfl, rfl⟩)
  | [p], _ => exact Or.inl ⟨p, List.mem_singleton_self p, rfl⟩
  | a :: b :: rest, hnodup =>
      generalize hps : a :: b :: rest = ps at *
      have hlen : 2 ≤ ps.length := by simp [← hps]
      rcases leader_cases specificity hnodup hlen with ⟨p, hlead, htop⟩ | ⟨hs, -⟩
      · exact Or.inl ⟨p, htop.1, resolve_of_specificity hlen hlead⟩
      have hlen' : 2 ≤ (Ranking.descending specificity ps).length := by
        rwa [Ranking.length_descending]
      rcases leader_cases priority (Ranking.nodup_descending hnodup) hlen' with
        ⟨p, hlead, htop⟩ | ⟨hp, -⟩
      · exact Or.inl ⟨p, Ranking.mem_descending.mp htop.1, resolve_of_priority hlen hs hlead⟩
      obtain ⟨p, q, rest', hnames⟩ := exists_cons_cons (perm_byName.length_eq.symm ▸ hlen)
      have hresolve := resolve_of_names hlen hs hp hnames
      have hmem : ∀ x ∈ byName ps, x ∈ ps := fun _ hx => perm_byName.mem_iff.mp hx
      have hnames' : (byName ps).Nodup := perm_byName.nodup_iff.mpr hnodup
      rw [hnames] at hmem hnames'
      split_ifs at hresolve with hlevel
      · refine Or.inr (Or.inr ⟨p, hmem p List.mem_cons_self, q,
          hmem q (List.mem_cons_of_mem _ List.mem_cons_self), ?_, hlevel.1, hlevel.2, _, _,
          hresolve⟩)
        rintro rfl
        exact (List.nodup_cons.mp hnames').1 List.mem_cons_self
      · exact Or.inl ⟨p, hmem p List.mem_cons_self, hresolve⟩

end Cascade

section Lookup

variable {b : Builtins} {r : Registered} {query : Query}

theorem mem_candidates {reg : Registry} {p : AccountingPolicy} (h : p ∈ matching b reg query) :
    p ∈ candidates reg query := by
  unfold matching specificMatches at h
  dsimp only at h
  split at h
  · exact List.mem_of_mem_filter h
  · split at h
    · exact List.mem_of_mem_filter h
    · exact List.mem_of_mem_filter (List.mem_of_mem_filter h)

theorem fits_of_matching {reg : Registry} {p : AccountingPolicy} (hp : p ∈ matching b reg query) :
    p.trigger.eventType = query.eventType ∧ p.isEffectiveOn query.effectiveDate = true ∧
      p.matchesScope query.scopeValue = true := by
  have h := mem_candidates hp
  simp only [candidates, List.mem_filter, decide_eq_true_eq] at h
  exact ⟨h.1.1.2, h.1.2, h.2⟩

/-- Two candidates of one lookup compete for its event. -/
theorem compete_of_matching {reg : Registry} {p q : AccountingPolicy}
    (hp : p ∈ matching b reg query) (hq : q ∈ matching b reg query) : Compete p q := by
  obtain ⟨htype, hday, hvalue⟩ := fits_of_matching hp
  obtain ⟨htype', hday', hvalue'⟩ := fits_of_matching hq
  exact ⟨htype.trans htype'.symm, ⟨_, hday, hday'⟩, _, hvalue, hvalue'⟩

/-- An overriding survivor leaves none but overriding ones that it does not name. -/
theorem override_of_survivors {ms : List AccountingPolicy} {p q : AccountingPolicy}
    (hp : p ∈ survivors ms) (hq : q ∈ survivors ms) (hmode : p.precedence.mode = .override) :
    q.precedence.mode = .override ∧ q.name ∉ p.precedence.overrides := by
  have hfree := (mem_survivors.mp hq).2 p (mem_survivors.mp hp).1
  simp only [Overrides, hmode, true_and, not_or] at hfree
  cases hqmode : q.precedence.mode with
  | normal => exact absurd hqmode hfree.1
  | override => exact ⟨rfl, hfree.2⟩

/-- What the compiler let pass of two survivors on a level. -/
theorem passed_of_not_conflict {ms : List AccountingPolicy} {p q : AccountingPolicy}
    (hp : p ∈ survivors ms) (hq : q ∈ survivors ms) (hcompete : Compete p q)
    (hs : specificity p = specificity q) (hprio : priority p = priority q)
    (h : conflicts p q = false) :
    p.name = q.name ∨ p.precedence.mode = .normal ∧ q.precedence.mode = .normal ∧
      (p.name ∈ q.precedence.overrides ∨ q.name ∈ p.precedence.overrides) := by
  have hresolved : q.name = p.name ∨ precedenceResolves p q = true := by
    simpa [conflicts, hcompete.overlap, or_iff_not_imp_left] using h
  rcases hresolved with hname | hresolved
  · exact Or.inl hname.symm
  cases hqmode : q.precedence.mode with
  | override =>
      obtain ⟨hpmode, hpname⟩ := override_of_survivors hq hp hqmode
      have hqname := (override_of_survivors hp hq hpmode).2
      simp [precedenceResolves, hs, hprio, hpmode, hqmode, hpname, hqname] at hresolved
  | normal =>
      cases hpmode : p.precedence.mode with
      | override => cases hqmode.symm.trans (override_of_survivors hp hq hpmode).1
      | normal =>
          exact Or.inr ⟨rfl, rfl, by simpa [precedenceResolves, hs, hprio, hpmode, hqmode] using hresolved⟩

theorem Lawful.unresolved (hr : Lawful r) {p q : AccountingPolicy}
    (h : OnLevel (matching b r.registry query) p q) : Unresolved p q := by
  have hpms := (mem_survivors.mp h.left).1
  have hqms := (mem_survivors.mp h.right).1
  have hpolicy : ∀ p ∈ matching b r.registry query, p ∈ r.registry.policies :=
    fun p hp => (matching_sublist b r.registry query).subset hp
  refine ⟨h.ne, h.specificity_eq, h.priority_eq, ?_⟩
  rcases hr.not_conflict (hpolicy p hpms) (hpolicy q hqms) with hpq | hqp
  · exact passed_of_not_conflict h.left h.right (compete_of_matching hpms hqms) h.specificity_eq
      h.priority_eq hpq
  · rcases passed_of_not_conflict h.right h.left (compete_of_matching hqms hpms)
      h.specificity_eq.symm h.priority_eq.symm hqp with hname | ⟨hqmode, hpmode, hnamed⟩
    · exact Or.inl hname.symm
    · exact Or.inr ⟨hpmode, hqmode, hnamed.symm⟩

end Lookup

/-- The answers of a lookup, over any registry. -/
theorem findForEvent_classified (b : Builtins) (reg : Registry) (query : Query) :
    Classified (OnLevel (matching b reg query)) (matching b reg query) (findForEvent b reg query) := by
  have hnodup : (survivors (matching b reg query)).Nodup :=
    ((survivors_sublist _).trans (matching_sublist b reg query)).nodup (nodup_policies reg)
  unfold findForEvent
  generalize matching b reg query = ms at *
  match ms with
  | [] => exact rfl
  | [p] => exact ⟨List.mem_singleton_self p, Or.inl rfl⟩
  | p₁ :: p₂ :: rest =>
      dsimp only
      rcases resolve_cases hnodup with ⟨p, hp, hfound⟩ | ⟨hnil, hfound⟩ |
          ⟨p, hp, q, hq, hne, hs, hprio, eventType, names, hfound⟩
      · rw [hfound]
        exact ⟨(mem_survivors.mp hp).1, Or.inr (mem_survivors.mp hp).2⟩
      · rw [hfound]
        refine ⟨List.cons_ne_nil _ _, fun p hp => ?_⟩
        by_contra hfree
        have hmem := mem_survivors.mpr ⟨hp, fun q hq hover => hfree ⟨q, hq, hover⟩⟩
        rw [hnil] at hmem
        cases hmem
      · rw [hfound]
        exact ⟨p, (mem_survivors.mp hp).1, q, (mem_survivors.mp hq).1, hp, hq, hne, hs, hprio⟩

/-- **P1 over any run**: a lookup finds a matching policy that no other overrides, reports that none
matches, reports an ambiguity of two that the compiler took for resolved, or fails where all that
match override one another. -/
theorem lookups_classified {calls : List (Compiler × Profile)} {r : Registered}
    (hchecks : ∀ call ∈ calls, call.1.checkOverlaps = true)
    (hrun : run step .empty calls = some r) (b : Builtins) (query : Query) :
    Classified Unresolved (matching b r.registry query) (findForEvent b r.registry query) :=
  (findForEvent_classified b r.registry query).mono fun _ _ =>
    (lawful_of_run hchecks hrun).unresolved

/-! ### What is selected has been compiled -/

/-- P7 and P10: the references are paths of the schema, and every effect has the roles that its
ledger requires. -/
structure Complete (c : Compiler) (p : Profile) : Prop where
  range : ValidRange p.toAccountingPolicy
  effects : p.ledgerEffects ≠ []
  references : ∀ schema ∈ c.schemaOf p, ∀ path ∈ getFieldReferences p,
    path ∈ iterateFieldPaths "" schema.fields
  roles : ∀ effect ∈ p.ledgerEffects,
    ∀ role ∈ getRequiredRoles c.ledgers effect.ledger p.meaning.economicType,
      role = effect.debitRole ∨ role = effect.creditRole

theorem Compiled.complete {c : Compiler} {registered : List Profile} {p : Profile}
    (h : Compiled c registered p) (hschema : c.checkSchema = true) (hledger : c.checkLedger = true) :
    Complete c p := by
  refine ⟨h.range, h.effects, fun schema hs path hpath => ?_, fun effect heffect role hrole => ?_⟩
  · have hnone := h.references hschema
    rw [Compiler.validateFieldReferences, Option.mem_def.mp hs] at hnone
    have hall := List.filter_eq_nil_iff.mp (List.map_eq_nil_iff.mp hnone) path hpath
    simpa using hall
  · have hnone := h.roles hledger
    have hall := List.filter_eq_nil_iff.mp (List.map_eq_nil_iff.mp hnone) effect heffect
    simp only [Bool.not_eq_true', Bool.not_eq_false, List.isEmpty_iff, Compiler.missingRoles,
      List.filter_eq_nil_iff, List.mem_eraseDups] at hall
    by_contra hother
    rw [not_or] at hother
    exact hall role hrole (by simpa using hother)

/-- What is registered was handed to the compiler, and is complete. -/
def Handed (c : Compiler) (profiles : List Profile) (r : Registered) : Prop :=
  ∀ p ∈ r.profiles, p ∈ profiles ∧ Complete c p

theorem handed_of_run {c : Compiler} {profiles : List Profile} {r : Registered}
    (hschema : c.checkSchema = true) (hledger : c.checkLedger = true)
    (hrun : run step .empty (profiles.map fun p => (c, p)) = some r) : Handed c profiles r := by
  have hstep : ∀ r call r', Handed c profiles r → call ∈ profiles.map (fun p => (c, p)) →
      step r call = some r' → Handed c profiles r' := by
    intro r call r' hr hcall h p hp
    obtain ⟨q, hq, rfl⟩ := List.mem_map.mp hcall
    rcases step_cases h with rfl | ⟨hcompiled, hprofiles⟩
    · exact hr p hp
    · rw [hprofiles, List.mem_append, List.mem_singleton] at hp
      rcases hp with hold | rfl
      · exact hr p hold
      · exact ⟨hq, hcompiled.complete hschema hledger⟩
  exact (along_of_mem (fun _ hcall => hcall) .empty).run_invariant hstep
    (fun _ hp => absurd hp List.not_mem_nil) hrun

/-- **What is selected has been compiled**: over what a compiler has registered, a lookup returns a
profile that was handed to it, fits the event and is complete. -/
theorem selected_complete {c : Compiler} {profiles : List Profile} {r : Registered}
    {b : Builtins} {query : Query} {p : AccountingPolicy} (hschema : c.checkSchema = true)
    (hledger : c.checkLedger = true)
    (hrun : run step .empty (profiles.map fun p => (c, p)) = some r)
    (hfound : findForEvent b r.registry query = .ok p) :
    ∃ profile ∈ profiles, profile.toAccountingPolicy = p ∧ Complete c profile ∧
      p.trigger.eventType = query.eventType ∧ p.isEffectiveOn query.effectiveDate = true ∧
      p.matchesScope query.scopeValue = true := by
  have hanswer := findForEvent_classified b r.registry query
  rw [hfound] at hanswer
  have hmem : p ∈ matching b r.registry query := hanswer.1
  obtain ⟨profile, hprofile, rfl⟩ :=
    List.mem_map.mp ((matching_sublist b r.registry query).subset hmem)
  obtain ⟨hcalled, hcomplete⟩ := handed_of_run hschema hledger hrun profile hprofile
  exact ⟨profile, hcalled, rfl, hcomplete, fits_of_matching hmem⟩

theorem receipt_ne : "inventory.receipt" ≠ "" := by decide

theorem receipt_namespaced : '.' ∈ "inventory.receipt".toList := by decide

theorem increase_ne : "InventoryIncrease" ≠ "" := by decide

theorem version_ge (n : ℕ) : (1 : ℤ) ≤ n + 1 := by omega

/-- The versions of a profile for receipts, all in force. -/
def sampleProfile (n : ℕ) : Profile where
  name := "inventory.receipt"
  name_ne := receipt_ne
  version := n + 1
  version_ge := version_ge n
  trigger := { eventType := "inventory.receipt" }
  eventType_ne := receipt_ne
  effectiveFrom := sampleTime.date
  meaning := {
    economicType := "InventoryIncrease"
    quantityField := some "lines[*].quantity"
    dimensions := ["item.warehouse"] }
  economicType_ne := increase_ne
  ledgerEffects := [⟨"GL", "InventoryAsset", "GRNI"⟩]

/-- Receipts with an item and a list of lines. -/
def sampleSchema : EventSchema where
  eventType := "inventory.receipt"
  version := 4
  fields :=
    [.mk { name := "item", fieldType := .object }
        [.mk { name := "warehouse", fieldType := .string } [] []] [],
      .mk { name := "lines", fieldType := .array, itemType := some .object } []
        [.mk { name := "quantity", fieldType := .decimal } [] []]]
  version_pos := by decide
  namespaced := receipt_namespaced
  fields_valid := by decide

def sampleCompiler : Compiler where
  schemas := [sampleSchema]
  repr _ := ""

def sampleFirst : Registered where
  profiles := [sampleProfile 0]
  keys := List.nodup_singleton _

def sampleRegistered : Registered where
  profiles := [sampleProfile 0, sampleProfile 1]
  keys := List.nodup_cons.mpr ⟨by simp [sampleProfile], List.nodup_singleton _⟩

/-- **The first version is found**: its schema has the two fields, and its effect the roles that the
ledger requires of an increase. -/
theorem first_complete : Complete sampleCompiler (sampleProfile 0) := by
  have hrun : run step .empty ([sampleProfile 0].map fun p => (sampleCompiler, p)) =
      some sampleFirst := rfl
  have hfound : findForEvent sampleBuiltins sampleFirst.registry sampleQuery =
      .ok (sampleProfile 0).toAccountingPolicy := rfl
  obtain ⟨profile, hprofile, -, hcomplete, -⟩ := selected_complete rfl rfl hrun hfound
  obtain rfl := List.mem_singleton.mp hprofile
  exact hcomplete

/-- **Two versions of a policy pass the compiler, and the selector cannot tell them apart.** -/
theorem versions_unresolved :
    ∃ p ∈ matching sampleBuiltins sampleRegistered.registry sampleQuery,
      ∃ q ∈ matching sampleBuiltins sampleRegistered.registry sampleQuery, Unresolved p q := by
  have hrun : run step .empty [(sampleCompiler, sampleProfile 0),
      (sampleCompiler, sampleProfile 1)] = some sampleRegistered := rfl
  have hfound : findForEvent sampleBuiltins sampleRegistered.registry sampleQuery =
      .error (.multiplePoliciesMatch "inventory.receipt" ["inventory.receipt", "inventory.receipt"]) :=
    rfl
  have h := lookups_classified (by simp [sampleCompiler]) hrun sampleBuiltins sampleQuery
  rwa [hfound] at h

/-- The policy on its first day only. -/
def onFirstDay (p : AccountingPolicy) : AccountingPolicy :=
  { p with effectiveTo := some p.effectiveFrom }

/-- **Policies for a range of items and for a part of it overlap.** -/
theorem sample_overlap :
    Compete (onFirstDay (samplePolicy "inventory.receipt" "SKU:*" 1 receipt_ne))
      (onFirstDay (samplePolicy "inventory.receipt" "SKU:A:*" 1 receipt_ne)) :=
  (profilesOverlap_iff_compete (fun _ h => (Option.some.inj h).le)
    fun _ h => (Option.some.inj h).le).mp (by decide)

end FinanceAccounting.PolicyCompiler
