import FinanceAccounting.Services.PackPolicySource

/-! # Dispatch by a compiled pack

When `get_profile` finds several policies and cannot tell them apart.  The compiler checks
candidates with equal where-clauses for distinct priorities, and only warns; so whether a query is
ambiguous depends on the policies that match it (`Ambiguous`), not on the compilation
(`dispatch_unambiguous_iff`). -/

namespace FinanceAccounting.PackPolicySource

open Config (AccountingConfigurationSet CompiledPolicy CompiledPolicyPack ResolvedEngineContract
  Toolchain isAdmissible priorityOf compilePolicyPack)
open PolicySelector (AccountingPolicy Query SelectorError)
open Ranking (ascending descending Shared)

/-! ### The policies that match -/

/-- What a policy of the set needs to be a candidate, before the where-clauses are looked at. -/
def isCandidate (t : Toolchain) (config : AccountingConfigurationSet) (q : Query)
    (p : CompiledPolicy) : Bool :=
  p.trigger.eventType = q.eventType && isAdmissible t config.capabilities p &&
    isEffectiveOn q.effectiveDate p && matchesScope q.scopeValue p

/-- The policies of the set that match. -/
def matchingPolicies (r : Reading) (t : Toolchain) (config : AccountingConfigurationSet)
    (q : Query) : Except WhereError (List CompiledPolicy) :=
  filterByWhere r q.payload (config.policies.filter (isCandidate t config q))

variable {r : Reading} {t : Toolchain} {config : AccountingConfigurationSet}
  {contracts : Option (List ResolvedEngineContract)} {pack : CompiledPolicyPack} {q : Query}

theorem eligible_eq (h : compilePolicyPack t config contracts = .ok pack) (q : Query) :
    eligible t pack q = config.policies.filter (isCandidate t config q) := by
  rw [(Config.compilePolicyPack_eq_ok.mp h).2.2]
  unfold eligible
  dsimp only [Config.packOf]
  rw [Config.candidates_matchIndex, List.filter_filter, List.filter_filter, List.filter_filter]
  apply List.filter_congr
  intro p _
  unfold isCandidate
  cases isAdmissible t config.capabilities p <;> cases isEffectiveOn q.effectiveDate p <;>
    cases matchesScope q.scopeValue p <;> simp

theorem getProfile_eq (h : compilePolicyPack t config contracts = .ok pack) (q : Query) :
    getProfile r t pack q =
      match matchingPolicies r t config q with
      | .error e => .error (.comparison e)
      | .ok matching => select r q matching := by
  unfold getProfile
  rw [eligible_eq h q]
  rfl

/-! ### Ties -/

/-- No two of the three steps of the cascade tell the policies apart: several have the greatest
specificity, several the greatest priority, and the first two by name are level in both. -/
structure Tied (ps : List CompiledPolicy) : Prop where
  many : 2 ≤ ps.length
  specificity : Shared specificity ps
  priority : Shared priorityOf ps
  names : ∀ p q rest, byName ps = p :: q :: rest → Level p q

/-- The error that says that several policies match. -/
def IsMultiple : Except SelectorError CompiledPolicy → Prop
  | .error (.multiplePoliciesMatch _ _) => True
  | _ => False

theorem leader_eq_none_iff {key : CompiledPolicy → ℤ} {ps : List CompiledPolicy}
    (h : 2 ≤ ps.length) :
    leader key (descending key ps) = none ↔ Shared key ps := by
  obtain ⟨a, b, rest, hsorted⟩ := PolicySelector.exists_cons_cons
    ((Ranking.length_descending key ps).symm ▸ h)
  rw [Ranking.shared_iff hsorted, hsorted, leader]
  by_cases hlt : key b < key a
  · simp [hlt]
  · simp [hlt]

theorem resolveContenders_of_two {eventType : String} {ps : List CompiledPolicy}
    (h : 2 ≤ ps.length) :
    resolveContenders eventType ps =
      match leader specificity (descending specificity ps) with
      | some p => .ok p
      | none =>
          match leader priorityOf (descending priorityOf (descending specificity ps)) with
          | some p => .ok p
          | none =>
              match byName ps with
              | [] => .error .indexError
              | [p] => .ok p
              | p :: q :: rest =>
                  if Level p q then
                    .error (.multiplePoliciesMatch eventType ((p :: q :: rest).map (·.name)))
                  else .ok p := by
  match ps, h with
  | a :: b :: rest, _ => rfl

/-- **The cascade cannot decide exactly when the policies are tied.** -/
theorem resolveContenders_multiple_iff {eventType : String} {ps : List CompiledPolicy} :
    IsMultiple (resolveContenders eventType ps) ↔ Tied ps := by
  by_cases hmany : 2 ≤ ps.length
  · rw [resolveContenders_of_two hmany]
    have hspec : leader specificity (descending specificity ps) = none ↔ Shared specificity ps :=
      leader_eq_none_iff hmany
    have hmany' : 2 ≤ (descending specificity ps).length := by
      rw [Ranking.length_descending]
      exact hmany
    have hprio : leader priorityOf (descending priorityOf (descending specificity ps)) = none ↔
        Shared priorityOf (descending specificity ps) := leader_eq_none_iff hmany'
    rw [Ranking.shared_congr (Ranking.perm_descending specificity ps)] at hprio
    obtain ⟨p, q, rest, hnames⟩ : ∃ p q rest, byName ps = p :: q :: rest :=
      PolicySelector.exists_cons_cons (by
        rw [byName, Ranking.length_ascending, Ranking.length_descending]
        exact hmany')
    cases hs : leader specificity (descending specificity ps) with
    | some a =>
        rw [hs] at hspec
        exact iff_of_false (fun h => h) fun h => absurd (hspec.mpr h.specificity) (by simp)
    | none =>
        cases hp : leader priorityOf (descending priorityOf (descending specificity ps)) with
        | some a =>
            rw [hp] at hprio
            exact iff_of_false (fun h => h) fun h => absurd (hprio.mpr h.priority) (by simp)
        | none =>
            dsimp only
            rw [hnames]
            dsimp only
            by_cases hlevel : Level p q
            · rw [if_pos hlevel]
              refine iff_of_true trivial ⟨hmany, hspec.mp hs, hprio.mp hp, ?_⟩
              intro p' q' rest' h'
              rw [hnames] at h'
              obtain ⟨rfl, rfl, -⟩ : p = p' ∧ q = q' ∧ rest = rest' := by simpa using h'
              exact hlevel
            · rw [if_neg hlevel]
              exact iff_of_false (fun h => h) fun h => hlevel (h.names p q rest hnames)
  · refine iff_of_false ?_ fun h => hmany h.many
    match ps, hmany with
    | [], _ => exact fun h => h
    | [p], _ => exact fun h => h
    | a :: b :: rest, hmany => exact absurd (by simp) hmany

/-- The matching policies that are left when the overrides are applied are tied. -/
def Ambiguous (r : Reading) (t : Toolchain) (config : AccountingConfigurationSet) (q : Query) :
    Prop :=
  ∃ ms, matchingPolicies r t config q = .ok ms ∧ 2 ≤ ms.length ∧ Tied (contenders r ms)

theorem resolvePrecedence_multiple_iff {eventType : String} {ms : List CompiledPolicy} :
    IsMultiple (resolvePrecedence r eventType ms) ↔ ms.length ≠ 1 ∧ Tied (contenders r ms) := by
  have hseveral : ∀ ps : List CompiledPolicy, ms.length ≠ 1 →
      (Tied ps ↔ ms.length ≠ 1 ∧ Tied ps) := fun ps h => ⟨fun htied => ⟨h, htied⟩, And.right⟩
  match ms with
  | [] =>
      show IsMultiple (resolveContenders eventType (contenders r [])) ↔ _
      exact resolveContenders_multiple_iff.trans (hseveral (contenders r []) (by simp))
  | [p] => exact iff_of_false (fun h => h) (by simp)
  | a :: b :: rest =>
      show IsMultiple (resolveContenders eventType (contenders r (a :: b :: rest))) ↔ _
      exact resolveContenders_multiple_iff.trans (hseveral _ (by simp))

/-- The error that `get_profile` raises when several policies match. -/
def RaisesMultiple (result : Except ProfileError AccountingPolicy) : Prop :=
  ∃ eventType names, result = .error (.selector (.multiplePoliciesMatch eventType names))

theorem select_multiple_iff {ms : List CompiledPolicy} :
    RaisesMultiple (select r q ms) ↔ 2 ≤ ms.length ∧ Tied (contenders r ms) := by
  have hresolve : IsMultiple (resolvePrecedence r q.eventType ms) ↔
      ms.length ≠ 1 ∧ Tied (contenders r ms) := resolvePrecedence_multiple_iff
  unfold select
  cases ms with
  | nil =>
      apply iff_of_false
      · rintro ⟨eventType, names, h⟩
        cases h
      · simp
  | cons m ms =>
      rw [if_neg (by simp)]
      have hlength : 2 ≤ (m :: ms).length ↔ (m :: ms).length ≠ 1 := by
        rw [List.length_cons]
        omega
      rw [hlength, ← hresolve]
      cases resolvePrecedence r q.eventType (m :: ms) with
      | error e =>
          cases e with
          | multiplePoliciesMatch eventType names => exact iff_of_true ⟨_, _, rfl⟩ trivial
          | _ => exact iff_of_false (by rintro ⟨_, _, h⟩; cases h) fun h => h
      | ok selected =>
          refine iff_of_false ?_ fun h => h
          rintro ⟨_, _, h⟩
          dsimp only at h
          split at h
          · cases h
          · cases h

/-- **Dispatch of a compiled pack** never fails for several matching policies exactly when the
query is not ambiguous. -/
theorem dispatch_unambiguous_iff (h : compilePolicyPack t config contracts = .ok pack)
    (q : Query) : ¬RaisesMultiple (getProfile r t pack q) ↔ ¬Ambiguous r t config q := by
  rw [getProfile_eq h q]
  unfold Ambiguous
  cases hmatching : matchingPolicies r t config q with
  | error e =>
      apply iff_of_true
      · rintro ⟨eventType, names, h⟩
        cases h
      · rintro ⟨ms, hms, -⟩
        cases hms
  | ok ms =>
      dsimp only
      rw [select_multiple_iff]
      simp

/-! ### Two policies for one event -/

def samplePolicy (name : String) : CompiledPolicy where
  name := name
  version := 1
  trigger := { eventType := "inventory.receipt" }
  meaning := { economicType := "InventoryIncrease" }
  ledgerEffects := []
  effectiveFrom := sampleTime.date

/-- Two policies without a precedence for the same receipts. -/
def sampleConfig : AccountingConfigurationSet where
  configId := "US-GAAP-2026-v1"
  version := 1
  checksum := ""
  scope := {
    legalEntity := "ACME"
    jurisdiction := "US"
    regulatoryRegime := "GAAP"
    currency := "USD"
    effectiveFrom := sampleTime.date }
  status := .published
  policies := [samplePolicy "ReceiptA", samplePolicy "ReceiptB"]
  roleBindings := []

/-- A standard library of which nothing is looked at. -/
def sampleToolchain : Toolchain where
  recursionLimit := 1000
  parse _ := .error "invalid syntax"
  readsDecimal _ := false
  lower := id
  repr _ := ""
  reprWhere _ := ""
  sameWhere _ _ := true
  dumping := ⟨fun _ => "", id⟩

def sampleReading : Reading where
  str _ := ""
  decimal _ := none
  lower := id
  isdigit _ := false
  int _ := none
  float _ := none
  objectCompare _ _ _ := .error .typeError

def sampleReceipt : Query where
  eventType := "inventory.receipt"
  effectiveDate := sampleTime.date

theorem exists_samplePack : ∃ pack, compilePolicyPack sampleToolchain sampleConfig none = .ok pack :=
  ⟨_, Config.compilePolicyPack_eq_ok.mpr
    ⟨⟨_, rfl⟩, ⟨_, rfl, fun e he => by cases he⟩, rfl⟩⟩

/-- A receipt of another kind is dispatched to no policy. -/
theorem unambiguous_sample :
    ∃ pack, compilePolicyPack sampleToolchain sampleConfig none = .ok pack ∧
      ¬RaisesMultiple (getProfile sampleReading sampleToolchain pack
        { sampleReceipt with eventType := "inventory.issue" }) := by
  obtain ⟨pack, hpack⟩ := exists_samplePack
  refine ⟨pack, hpack, (dispatch_unambiguous_iff hpack _).mpr ?_⟩
  rintro ⟨ms, hms, hmany, -⟩
  obtain rfl : [] = ms := Except.ok.inj hms
  simp at hmany

/-- **Two policies with the same trigger and precedence are compiled, and a receipt then matches
both.** -/
theorem compiled_pack_ambiguous :
    ∃ pack, compilePolicyPack sampleToolchain sampleConfig none = .ok pack ∧
      RaisesMultiple (getProfile sampleReading sampleToolchain pack sampleReceipt) := by
  obtain ⟨pack, hpack⟩ := exists_samplePack
  refine ⟨pack, hpack, "inventory.receipt", ["ReceiptA", "ReceiptB"], ?_⟩
  rw [getProfile_eq hpack]
  rfl

end FinanceAccounting.PackPolicySource
