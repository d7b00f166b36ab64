import FinanceAccounting.Config.Compiler
import FinanceAccounting.Kernel.WorkflowExecutor
import FinanceAccounting.Library.Dicts

/-! # The two maps of approval policies

`build_approval_policies_for_executor` and `_build_approval_policy_map` each turn the approval
policies of a compiled pack into the dictionary in which the executor looks a policy up.  The first
takes a policy without an action for one of `approve`, enters the first policy of a workflow under
the name of the workflow too, and drops amounts that are no numbers; the second does none of this.
So the two resolve alike for a pack without approval policies and for no other
(`resolvesAlike_iff`). -/

namespace FinanceAccounting.ApprovalMaps

open Approval (ApprovalPolicy ApprovalRule)
open Config (ApprovalRuleDef CompiledApprovalPolicy)
open WorkflowExecutor (Executor)

/-! ### Policies in a map -/

/-- An `ApprovalPolicy` with what it applies to. -/
structure ScopedPolicy extends ApprovalPolicy where
  appliesToWorkflow : String
  appliesToAction : Option String

abbrev PolicyMap := List (String × ScopedPolicy)

/-- `_resolve_policy`, in the map that the executor was given. -/
def resolvePolicy (policies : PolicyMap) (workflowName action : String) : Option ScopedPolicy :=
  match Dicts.get? policies (workflowName ++ ":" ++ action) with
  | some policy => some policy
  | none => Dicts.get? policies workflowName

/-! ### The two conversions -/

section Conversions

-- `decimal` is `Decimal(s)`, where the text is a number
variable (decimal : String → Option Decimal)

/-- A text that is there and not empty. -/
def truthy (s : Option String) : Option String := s.filter (· ≠ "")

/-- `_to_decimal`: what is no number counts as missing. -/
def toDecimal (s : Option String) : Option Decimal := (truthy s).bind decimal

def ruleForExecutor (cr : ApprovalRuleDef) : ApprovalRule where
  ruleName := cr.ruleName
  priority := cr.priority
  minAmount := toDecimal decimal cr.minAmount
  maxAmount := toDecimal decimal cr.maxAmount
  requiredRoles := cr.requiredRoles
  minApprovers := cr.minApprovers
  requireDistinctRoles := cr.requireDistinctRoles
  guardExpression := cr.guardExpression
  autoApproveBelow := toDecimal decimal cr.autoApproveBelow

/-- `cp.applies_to_action or "approve"`. -/
def actionForExecutor (cp : CompiledApprovalPolicy) : String :=
  (truthy cp.appliesToAction).getD "approve"

def policyForExecutor (cp : CompiledApprovalPolicy) : ScopedPolicy where
  policyName := cp.policyName
  version := cp.version
  appliesToWorkflow := cp.appliesToWorkflow
  appliesToAction := some (actionForExecutor cp)
  rules := cp.rules.map (ruleForExecutor decimal)
  policyCurrency := cp.policyCurrency
  policyHash := truthy (some cp.policyHash)

def keyForExecutor (cp : CompiledApprovalPolicy) : String :=
  cp.appliesToWorkflow ++ ":" ++ actionForExecutor cp

/-- A policy of the pack, under its key and, if there is none yet, under its workflow. -/
def addForExecutor (result : PolicyMap) (cp : CompiledApprovalPolicy) : PolicyMap :=
  let result := Dicts.setItem result (keyForExecutor cp) (policyForExecutor decimal cp)
  if (Dicts.get? result cp.appliesToWorkflow).isSome then result
  else Dicts.setItem result cp.appliesToWorkflow (policyForExecutor decimal cp)

/-- `build_approval_policies_for_executor`. -/
def buildApprovalPoliciesForExecutor (pack : List CompiledApprovalPolicy) : PolicyMap :=
  pack.foldl (addForExecutor decimal) []

/-- `Decimal(s) if s else None`; what is no number raises. -/
def readDecimal (s : Option String) : Option (Option Decimal) :=
  match truthy s with
  | none => some none
  | some text => (decimal text).map some

def ruleForOrchestrator (r : ApprovalRuleDef) : Option ApprovalRule := do
  let minAmount ← readDecimal decimal r.minAmount
  let maxAmount ← readDecimal decimal r.maxAmount
  let autoApproveBelow ← readDecimal decimal r.autoApproveBelow
  return {
    ruleName := r.ruleName
    priority := r.priority
    minAmount := minAmount
    maxAmount := maxAmount
    requiredRoles := r.requiredRoles
    minApprovers := r.minApprovers
    requireDistinctRoles := r.requireDistinctRoles
    guardExpression := r.guardExpression
    autoApproveBelow := autoApproveBelow }

def policyForOrchestrator (cap : CompiledApprovalPolicy) : Option ScopedPolicy :=
  (cap.rules.mapM (ruleForOrchestrator decimal)).map fun rules =>
    { policyName := cap.policyName
      version := cap.version
      appliesToWorkflow := cap.appliesToWorkflow
      appliesToAction := cap.appliesToAction
      rules := rules
      policyCurrency := cap.policyCurrency
      policyHash := some cap.policyHash }

def keyForOrchestrator (cap : CompiledApprovalPolicy) : String :=
  match truthy cap.appliesToAction with
  | some action => cap.appliesToWorkflow ++ ":" ++ action
  | none => cap.appliesToWorkflow

/-- `_build_approval_policy_map`; none where an amount raises. -/
def buildApprovalPolicyMap (pack : List CompiledApprovalPolicy) : Option PolicyMap :=
  pack.foldlM (fun result cap => (policyForOrchestrator decimal cap).map
    (Dicts.setItem result (keyForOrchestrator cap))) []

/-! ### What the maps are to do -/

/-- What a map finds for an action is a policy of the pack for that action or for all of them, and
every policy of the pack is found. -/
structure Faithful (convert : CompiledApprovalPolicy → Option ScopedPolicy)
    (pack : List CompiledApprovalPolicy) (policies : PolicyMap) : Prop where
  applied : ∀ workflowName action policy, resolvePolicy policies workflowName action = some policy →
    ∃ cp ∈ pack, convert cp = some policy ∧
      ∀ restricted, truthy cp.appliesToAction = some restricted → restricted = action
  kept : ∀ cp ∈ pack, ∃ workflowName action policy,
    resolvePolicy policies workflowName action = some policy ∧ convert cp = some policy

/-- Both maps are built and faithful, and they resolve every action alike. -/
def ResolvesAlike (pack : List CompiledApprovalPolicy) : Prop :=
  ∃ policies, buildApprovalPolicyMap decimal pack = some policies ∧
    (∀ workflowName action,
      resolvePolicy (buildApprovalPoliciesForExecutor decimal pack) workflowName action =
        resolvePolicy policies workflowName action) ∧
    Faithful (fun cp => some (policyForExecutor decimal cp)) pack
      (buildApprovalPoliciesForExecutor decimal pack) ∧
    Faithful (policyForOrchestrator decimal) pack policies

end Conversions

/-! ### The map for the executor -/

section Maps

variable {decimal : String → Option Decimal} {d : PolicyMap} {cp : CompiledApprovalPolicy}
  {pack : List CompiledApprovalPolicy} {key : String} {policy : ScopedPolicy}

theorem truthy_eq_some {s : Option String} {text : String} :
    truthy s = some text ↔ s = some text ∧ text ≠ "" := by
  simp [truthy, Option.filter_eq_some_iff]

theorem actionForExecutor_ne (cp : CompiledApprovalPolicy) : actionForExecutor cp ≠ "" := by
  unfold actionForExecutor
  cases h : truthy cp.appliesToAction with
  | none => simp
  | some action => exact (truthy_eq_some.mp h).2

/-- **Step lemma**: an entry of the map was there, or is that of the policy. -/
theorem get?_addForExecutor (h : Dicts.get? (addForExecutor decimal d cp) key = some policy) :
    Dicts.get? d key = some policy ∨
      (key = keyForExecutor cp ∨ key = cp.appliesToWorkflow) ∧
        policy = policyForExecutor decimal cp := by
  have hset {d : PolicyMap} {key' : String}
      (h : Dicts.get? (Dicts.setItem d key' (policyForExecutor decimal cp)) key = some policy) :
      Dicts.get? d key = some policy ∨ key = key' ∧ policy = policyForExecutor decimal cp := by
    rw [Dicts.get?_setItem] at h
    split_ifs at h with heq
    · exact .inr ⟨heq.symm, (Option.some.inj h).symm⟩
    · exact .inl h
  unfold addForExecutor at h
  dsimp only at h
  split_ifs at h with hthere
  · exact (hset h).imp id fun h => ⟨.inl h.1, h.2⟩
  · rcases hset h with h | ⟨hkey, hpolicy⟩
    · exact (hset h).imp id fun h => ⟨.inl h.1, h.2⟩
    · exact .inr ⟨.inr hkey, hpolicy⟩

/-- **Step lemma**: entries stay, and there is one for the workflow of the policy. -/
theorem isSome_addForExecutor (h : (Dicts.get? d key).isSome ∨ key = cp.appliesToWorkflow) :
    (Dicts.get? (addForExecutor decimal d cp) key).isSome := by
  have hset {d : PolicyMap} {key' : String} (h : (Dicts.get? d key).isSome ∨ key = key') :
      (Dicts.get? (Dicts.setItem d key' (policyForExecutor decimal cp)) key).isSome := by
    rw [Dicts.get?_setItem]
    split_ifs with heq
    · rfl
    · exact h.resolve_right (Ne.symm heq)
  unfold addForExecutor
  dsimp only
  split_ifs with hthere
  · rcases h with h | rfl
    · exact hset (.inl h)
    · exact hthere
  · exact hset (h.imp (fun h => hset (.inl h)) id)

/-- **The entries of the map**: those of the policies of the pack. -/
theorem get?_buildForExecutor
    (h : Dicts.get? (buildApprovalPoliciesForExecutor decimal pack) key = some policy) :
    ∃ cp ∈ pack, (key = keyForExecutor cp ∨ key = cp.appliesToWorkflow) ∧
      policy = policyForExecutor decimal cp := by
  have hrun : ∀ (pack : List CompiledApprovalPolicy) (d : PolicyMap),
      Dicts.get? (pack.foldl (addForExecutor decimal) d) key = some policy →
        Dicts.get? d key = some policy ∨
          ∃ cp ∈ pack, (key = keyForExecutor cp ∨ key = cp.appliesToWorkflow) ∧
            policy = policyForExecutor decimal cp := by
    intro pack
    induction pack with
    | nil => exact fun d h => .inl h
    | cons cp pack ih =>
        intro d h
        rcases ih _ h with h | ⟨cp', hcp', hentry⟩
        · exact (get?_addForExecutor h).imp id fun hentry => ⟨cp, List.mem_cons_self, hentry⟩
        · exact .inr ⟨cp', List.mem_cons_of_mem cp hcp', hentry⟩
  exact (hrun pack [] h).resolve_left fun h => nomatch h

/-- **Every workflow of the pack has an entry**, whatever the action of its policies. -/
theorem isSome_buildForExecutor (hcp : cp ∈ pack) :
    (Dicts.get? (buildApprovalPoliciesForExecutor decimal pack) cp.appliesToWorkflow).isSome := by
  have hkeep : ∀ (pack : List CompiledApprovalPolicy) (d : PolicyMap),
      (Dicts.get? d cp.appliesToWorkflow).isSome ∨ cp ∈ pack →
        (Dicts.get? (pack.foldl (addForExecutor decimal) d) cp.appliesToWorkflow).isSome := by
    intro pack
    induction pack with
    | nil => exact fun d h => h.resolve_right List.not_mem_nil
    | cons cp' pack ih =>
        rintro d (h | h)
        · exact ih _ (.inl (isSome_addForExecutor (.inl h)))
        · rcases List.mem_cons.mp h with rfl | h
          · exact ih _ (.inl (isSome_addForExecutor (.inr rfl)))
          · exact ih _ (.inr h)
  exact hkeep pack [] (.inr hcp)

/-! ### The two maps -/

/-- There is a text longer than some. -/
theorem exists_longer (texts : List String) : ∃ z : String, ∀ t ∈ texts, t.length < z.length := by
  induction texts with
  | nil => exact ⟨"", fun t ht => (List.not_mem_nil ht).elim⟩
  | cons t texts ih =>
      obtain ⟨z, hz⟩ := ih
      refine ⟨z ++ t ++ ":", fun t' ht' => ?_⟩
      simp only [String.length_append]
      rcases List.mem_cons.mp ht' with rfl | ht'
      · have : (":" : String).length = 1 := rfl
        omega
      · have := hz t' ht'
        omega

/-- An action that no policy names, under which the map for the executor has no entry. -/
theorem exists_other_action (decimal : String → Option Decimal)
    (pack : List CompiledApprovalPolicy) (workflowName : String) :
    ∃ action, (∀ cp ∈ pack, actionForExecutor cp ≠ action) ∧
      Dicts.get? (buildApprovalPoliciesForExecutor decimal pack) (workflowName ++ ":" ++ action) =
        none := by
  obtain ⟨z, hz⟩ := exists_longer
    (pack.flatMap fun cp => [actionForExecutor cp, keyForExecutor cp, cp.appliesToWorkflow])
  have hlonger : ∀ cp ∈ pack, ∀ t ∈ [actionForExecutor cp, keyForExecutor cp, cp.appliesToWorkflow],
      t.length < z.length := fun cp hcp t ht => hz t (List.mem_flatMap.mpr ⟨cp, hcp, ht⟩)
  refine ⟨z, fun cp hcp heq => ?_, ?_⟩
  · have := hlonger cp hcp _ List.mem_cons_self
    rw [heq] at this
    exact this.false
  · rw [Option.eq_none_iff_forall_ne_some]
    intro policy h
    obtain ⟨cp, hcp, hkey, -⟩ := get?_buildForExecutor h
    have hlength : (workflowName ++ ":" ++ z).length < z.length := by
      rcases hkey with hkey | hkey
      · exact hkey ▸ hlonger cp hcp _ (by simp)
      · exact hkey ▸ hlonger cp hcp _ (by simp)
    simp only [String.length_append] at hlength
    omega

/-- With a policy in the pack, an action that no policy names tells the two maps apart. -/
theorem not_resolvesAlike_of_mem (hcp : cp ∈ pack) : ¬ResolvesAlike decimal pack := by
  rintro ⟨policies, -, halike, -, hfaithful⟩
  obtain ⟨action, hother, hnone⟩ := exists_other_action decimal pack cp.appliesToWorkflow
  obtain ⟨policy, hpolicy⟩ := Option.isSome_iff_exists.mp
    (show (Dicts.get? (buildApprovalPoliciesForExecutor decimal pack) cp.appliesToWorkflow).isSome
      from isSome_buildForExecutor hcp)
  have hfound : resolvePolicy (buildApprovalPoliciesForExecutor decimal pack)
      cp.appliesToWorkflow action = some policy := by
    unfold resolvePolicy
    rw [hnone]
    exact hpolicy
  obtain ⟨cp', hcp', -, hscope⟩ := get?_buildForExecutor hpolicy
  rw [halike] at hfound
  obtain ⟨cp'', -, hconvert, hrestricted⟩ := hfaithful.applied _ _ _ hfound
  -- the policy that both find names an action, so in the pack it is restricted to it
  obtain ⟨rules, -, rfl⟩ := Option.map_eq_some_iff.mp hconvert
  have hnamed : cp''.appliesToAction = some (actionForExecutor cp') :=
    congrArg ScopedPolicy.appliesToAction hscope
  exact hother cp' hcp' (hrestricted _
    (truthy_eq_some.mpr ⟨hnamed, actionForExecutor_ne cp'⟩))

end Maps

/-- **The two maps resolve alike** for a pack without approval policies, and for no other. -/
theorem resolvesAlike_iff (decimal : String → Option Decimal)
    (pack : List CompiledApprovalPolicy) : ResolvesAlike decimal pack ↔ pack = [] := by
  constructor
  · intro h
    rw [List.eq_nil_iff_forall_not_mem]
    exact fun cp hcp => not_resolvesAlike_of_mem hcp h
  · rintro rfl
    refine ⟨[], rfl, fun _ _ => rfl, ⟨fun _ _ _ h => ?_, fun _ h => (List.not_mem_nil h).elim⟩,
      ⟨fun _ _ _ h => ?_, fun _ h => (List.not_mem_nil h).elim⟩⟩
    · exact (nomatch h)
    · exact (nomatch h)

/-- A policy for the approval of invoices. -/
def samplePolicy : CompiledApprovalPolicy where
  policyName := "ap_invoice_approval"
  version := 1
  appliesToWorkflow := "ap_invoice"
  appliesToAction := some "approve"
  policyCurrency := none
  rules := []
  effectiveFrom := none
  effectiveTo := none
  policyHash := "9f2c"

/-- The policy for approvals is found for the payment of an invoice too, in one of the maps. -/
theorem payment_resolved_unlike :
    (resolvePolicy (buildApprovalPoliciesForExecutor (fun _ => none) [samplePolicy])
        "ap_invoice" "pay").isSome = true ∧
      (buildApprovalPolicyMap (fun _ => none) [samplePolicy]).map
        (fun policies => (resolvePolicy policies "ap_invoice" "pay").isSome) = some false ∧
      ¬ResolvesAlike (fun _ => none) [samplePolicy] :=
  ⟨by decide +kernel, by decide +kernel, not_resolvesAlike_of_mem List.mem_cons_self⟩

end FinanceAccounting.ApprovalMaps
