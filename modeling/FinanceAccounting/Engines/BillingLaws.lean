import FinanceAccounting.Engines.IndirectCostLaws
import FinanceAccounting.Library.TransitionSystem

/-! # Billing over the life of a contract

A contract has a type, a funding limit, a ceiling and a fee ceiling; its history is what earlier
calls have billed.  Each call is given the amount billed so far.  The history stays within the
contract as long as every call fits (`life_within_iff`).  A call asks for an amount; the funding
limit cuts it down, and so does the ceiling where the branch of the contract type looks at it.  The
fee is cut down as if it were the first one, and milestones are billed whenever they are complete. -/

namespace FinanceAccounting.Billing

open Traversals (bind_eq_ok map_eq_ok)
open TransitionSystem (run Along Throughout)

variable (b : Builtins)

/-! ### Contracts and their histories -/

structure Contract where
  contractType : BillingContractType
  currency : String
  fundingLimit : Option ℚ := none
  ceilingAmount : Option ℚ := none
  feeCeiling : Option ℚ := none

/-- What the calls so far have billed: the sum of the gross amounts, the sum of the fees, and the
milestones. -/
structure History where
  billed : ℚ := 0
  fees : ℚ := 0
  milestones : List String := []
deriving DecidableEq, Repr

/-- The input of a call: the contract and the amount billed so far are what they are. -/
def Contract.input (k : Contract) (h : History) (bi : BillingInput) : BillingInput :=
  { bi with
    contractType := k.contractType
    currency := k.currency
    feeCeiling := k.feeCeiling
    cumulativeBilled := h.billed
    fundingLimit := k.fundingLimit
    ceilingAmount := k.ceilingAmount }

def BillingContractType.FixedPrice (t : BillingContractType) : Prop := t = .ffp ∨ t = .fpi

instance : DecidablePred BillingContractType.FixedPrice := fun t =>
  inferInstanceAs (Decidable (t = .ffp ∨ t = .fpi))

/-- The milestones that a call bills. -/
def Contract.milestonesOf (k : Contract) (bi : BillingInput) : List String :=
  if k.contractType.FixedPrice then (completed bi.milestones).map (·.milestoneId) else []

/-- A call; one that raises bills nothing. -/
def Contract.step (k : Contract) (h : History) (bi : BillingInput) : Option History :=
  match calculateBilling b (k.input h bi) with
  | .error _ => some h
  | .ok r => some {
      billed := h.billed + r.grossBilling.amount
      fees := h.fees + r.feeAmount.amount
      milestones := h.milestones ++ k.milestonesOf bi }

/-- No limit of the contract is exceeded, and no milestone is billed twice. -/
def Contract.Within (k : Contract) (h : History) : Prop :=
  (∀ l ∈ k.fundingLimit, h.billed ≤ l) ∧ (∀ l ∈ k.ceilingAmount, h.billed ≤ l) ∧
    (∀ l ∈ k.feeCeiling, h.fees ≤ l) ∧ h.milestones.Nodup

/-! ### What a call asks for -/

/-- The costs with their fee, and the fee before its ceiling. -/
def costPlusDemand (bi : BillingInput) (costs : CostBreakdown) (rates : IndirectRates) :
    Except BillingError (ℚ × ℚ) := do
  let i ← calculateIndirectCosts b costs rates bi.currency
  let totalCost := b.ctx.round ((costs.totalDirect b).amount + i.total b)
  let rawFee ← twoPlaces b (b.ctx.round (totalCost * bi.feeRate))
  return (b.ctx.round (totalCost + (capAt b bi.feeCeiling 0 rawFee).1), rawFee)

/-- The amount of a call before the funding limit and the ceiling, and its fee before the fee
ceiling. -/
def demanded (bi : BillingInput) : Except BillingError (ℚ × ℚ) :=
  match bi.contractType with
  | .cpff | .cpif | .cpaf =>
      match bi.costBreakdown, bi.indirectRates with
      | some costs, some rates => costPlusDemand b bi costs rates
      | _, _ => .error (.valueError "")
  | .tm => do
      let (_, totalLabor) ← laborLines b bi.currency 0 bi.laborEntries
      let material := bi.materialPassthrough.filter fun m => 0 < m.amount
      return (b.ctx.round (totalLabor + (material.map (·.amount)).getD 0), 0)
  | .lh => do
      let (_, totalLabor) ← laborLines b bi.currency 0 bi.laborEntries
      return (totalLabor, 0)
  | .ffp | .fpi => .ok (b.ctx.total ((completed bi.milestones).map (·.amount)), 0)

/-- The ceiling, where the branch of the contract type looks at it. -/
def checkedCeiling (bi : BillingInput) : Option ℚ :=
  if bi.contractType.FixedPrice then none else bi.ceilingAmount

/-- What is asked for, cut down by the limits. -/
def CutDown (bi : BillingInput) (ceilingAmount : Option ℚ) (amount rawFee : ℚ)
    (r : BillingResult) : Prop :=
  r.grossBilling.amount = (capAt b ceilingAmount bi.cumulativeBilled
      (capAt b bi.fundingLimit bi.cumulativeBilled amount).1).1 ∧
    r.feeAmount.amount = (capAt b bi.feeCeiling 0 rawFee).1

section Spec

variable {b} {bi : BillingInput} {r : BillingResult}

theorem capAt_le_iff {limit : Option ℚ} {used amount y : ℚ} :
    (capAt b limit used amount).1 ≤ y ↔
      amount ≤ y ∨ ∃ l ∈ limit, remainingOf b l used ≤ y := by
  unfold capAt
  cases limit with
  | none => simp
  | some l =>
      simp only [Option.mem_some_iff, exists_eq_left']
      split
      · rename_i hlt
        exact ⟨Or.inr, fun h => h.elim hlt.le.trans id⟩
      · rename_i hge
        exact ⟨Or.inl, fun h => h.elim id (not_lt.mp hge).trans⟩

theorem remainingOf_nonneg (limit used : ℚ) : 0 ≤ remainingOf b limit used := by
  unfold remainingOf
  dsimp only
  split
  · exact le_rfl
  · rename_i h
    exact not_lt.mp h

/-- Nothing is not cut down. -/
theorem capAt_zero (limit : Option ℚ) (used : ℚ) : (capAt b limit used 0).1 = 0 := by
  unfold capAt
  cases limit with
  | none => rfl
  | some l => simp only [not_lt.mpr (remainingOf_nonneg l used), if_false]

/-- The caps of a contract without a fee. -/
theorem billTotal_cases {lines : List BillingLineItem} {total : ℚ} {ceilingAmount : Option ℚ}
    (h : billTotal b bi lines total ceilingAmount = .ok r) :
    CutDown b bi ceilingAmount total 0 r := by
  unfold billTotal at h
  obtain ⟨⟨withholding, net⟩, -, h⟩ := bind_eq_ok.mp h
  cases h
  exact ⟨rfl, (capAt_zero _ _).symm⟩

/-- The fee and the caps of a cost plus contract. -/
theorem costPlus_cases (h : calculateCostPlusBilling b bi = .ok r) :
    ∃ costs rates amount rawFee, bi.costBreakdown = some costs ∧ bi.indirectRates = some rates ∧
      costPlusDemand b bi costs rates = .ok (amount, rawFee) ∧
      CutDown b bi bi.ceilingAmount amount rawFee r := by
  unfold calculateCostPlusBilling at h
  cases hcosts : bi.costBreakdown with
  | none => simp [hcosts] at h
  | some costs =>
      cases hrates : bi.indirectRates with
      | none => simp [hcosts, hrates] at h
      | some rates =>
          simp only [hcosts, hrates] at h
          obtain ⟨i, hi, h⟩ := bind_eq_ok.mp h
          obtain ⟨⟨fee, hit⟩, hfee, h⟩ := bind_eq_ok.mp h
          obtain ⟨⟨withholding, net⟩, -, h⟩ := bind_eq_ok.mp h
          cases h
          obtain ⟨rawFee, hraw, hfee⟩ := map_eq_ok.mp hfee
          cases hfee
          refine ⟨costs, rates, _, rawFee, rfl, rfl, ?_, rfl, rfl⟩
          exact bind_eq_ok.mpr ⟨i, hi, bind_eq_ok.mpr ⟨rawFee, hraw, rfl⟩⟩

/-- Hours at their rates, and materials at cost. -/
theorem tm_cases (h : calculateTmBilling b bi = .ok r) :
    ∃ lines totalLabor, laborLines b bi.currency 0 bi.laborEntries = .ok (lines, totalLabor) ∧
      CutDown b bi bi.ceilingAmount (b.ctx.round (totalLabor +
        ((bi.materialPassthrough.filter fun m => 0 < m.amount).map (·.amount)).getD 0)) 0 r := by
  obtain ⟨⟨lines, totalLabor⟩, hlabor, h⟩ := bind_eq_ok.mp h
  exact ⟨lines, totalLabor, hlabor, billTotal_cases h⟩

theorem lh_cases (h : calculateLhBilling b bi = .ok r) :
    ∃ lines totalLabor, laborLines b bi.currency 0 bi.laborEntries = .ok (lines, totalLabor) ∧
      CutDown b bi bi.ceilingAmount totalLabor 0 r := by
  obtain ⟨⟨lines, totalLabor⟩, hlabor, h⟩ := bind_eq_ok.mp h
  exact ⟨lines, totalLabor, hlabor, billTotal_cases h⟩

/-- **What a call bills** is what it asks for, cut down by the limits. -/
theorem billing_cases (h : calculateBilling b bi = .ok r) :
    ∃ amount rawFee, demanded b bi = .ok (amount, rawFee) ∧
      CutDown b bi (checkedCeiling bi) amount rawFee r := by
  unfold calculateBilling at h
  unfold demanded checkedCeiling BillingContractType.FixedPrice
  cases htype : bi.contractType <;> simp only [htype] at h ⊢
  case cpff | cpif | cpaf =>
    obtain ⟨costs, rates, amount, rawFee, hcosts, hrates, hdemand, hcut⟩ := costPlus_cases h
    simp only [hcosts, hrates]
    exact ⟨amount, rawFee, hdemand, hcut⟩
  case tm =>
    obtain ⟨lines, totalLabor, hlabor, hcut⟩ := tm_cases h
    refine ⟨_, _, ?_, hcut⟩
    rw [hlabor]
    rfl
  case lh =>
    obtain ⟨lines, totalLabor, hlabor, hcut⟩ := lh_cases h
    refine ⟨_, _, ?_, hcut⟩
    rw [hlabor]
    rfl
  case ffp =>
    unfold calculateFfpBilling at h
    have hcut := billTotal_cases h
    refine ⟨_, _, rfl, ?_⟩
    simpa only [true_or, if_true] using hcut
  case fpi =>
    unfold calculateFpiBilling calculateFfpBilling at h
    have hcut := billTotal_cases h
    refine ⟨_, _, rfl, ?_⟩
    simp only [or_true, if_true]
    exact ⟨hcut.1, hcut.2.trans ((capAt_zero _ _).trans (capAt_zero _ _).symm)⟩

end Spec

/-! ### Calls that fit -/

/-- The amount fits what earlier calls have left of a limit, or is cut down to it: by the funding
limit, or by the ceiling if the contract has no fixed price. -/
def Contract.FitsLimit (k : Contract) (h : History) (amount l : ℚ) : Prop :=
  amount ≤ l - h.billed ∨ (∃ m ∈ k.fundingLimit, remainingOf b m h.billed ≤ l - h.billed) ∨
    ¬ k.contractType.FixedPrice ∧ ∃ m ∈ k.ceilingAmount, remainingOf b m h.billed ≤ l - h.billed

/-- The fee fits what earlier calls have left of the fee ceiling, or the whole fee ceiling does. -/
def Contract.FitsFee (k : Contract) (h : History) (rawFee : ℚ) : Prop :=
  ∀ l ∈ k.feeCeiling, rawFee ≤ l - h.fees ∨ remainingOf b l 0 ≤ l - h.fees

/-- The milestones are billed once in the call, and not before. -/
def Contract.FreshMilestones (k : Contract) (h : History) (bi : BillingInput) : Prop :=
  (k.milestonesOf bi).Nodup ∧ ∀ id ∈ k.milestonesOf bi, id ∉ h.milestones

/-- A call that does not raise asks for no more than the contract has left. -/
def Contract.Fits (k : Contract) (h : History) (bi : BillingInput) : Prop :=
  (∃ r, calculateBilling b (k.input h bi) = .ok r) →
    ∀ amount rawFee, demanded b (k.input h bi) = .ok (amount, rawFee) →
      (∀ l ∈ k.fundingLimit, k.FitsLimit b h amount l) ∧
        (∀ l ∈ k.ceilingAmount, k.FitsLimit b h amount l) ∧ k.FitsFee b h rawFee ∧
        k.FreshMilestones h bi

section Life

variable {b} {k : Contract} {h h' : History} {bi : BillingInput} {r : BillingResult}

/-- What a call adds to a history stays below a limit exactly when it fits. -/
theorem fitsLimit_iff {amount rawFee l : ℚ}
    (hcut : CutDown b (k.input h bi) (checkedCeiling (k.input h bi)) amount rawFee r) :
    h.billed + r.grossBilling.amount ≤ l ↔ k.FitsLimit b h amount l := by
  have hceiling : checkedCeiling (k.input h bi) =
      if k.contractType.FixedPrice then none else k.ceilingAmount := rfl
  unfold Contract.FitsLimit
  rw [← le_sub_iff_add_le', hcut.1, capAt_le_iff, capAt_le_iff, hceiling, or_assoc]
  refine or_congr_right (or_congr_right ?_)
  by_cases hfixed : k.contractType.FixedPrice
  · simp [hfixed]
  · simp only [hfixed, if_false, not_false_eq_true, true_and]
    rfl

theorem fitsFee_iff {amount rawFee : ℚ} {ceiling : Option ℚ}
    (hcut : CutDown b (k.input h bi) ceiling amount rawFee r) :
    (∀ l ∈ k.feeCeiling, h.fees + r.feeAmount.amount ≤ l) ↔ k.FitsFee b h rawFee := by
  unfold Contract.FitsFee
  refine forall₂_congr fun l hl => ?_
  have hfee : (k.input h bi).feeCeiling = some l := hl
  rw [← le_sub_iff_add_le', hcut.2, capAt_le_iff, hfee]
  simp

/-- **One call**: a history within the contract stays there exactly when the call fits. -/
theorem within_step (hs : k.Within h) (hstep : k.step b h bi = some h') :
    k.Within h' ↔ k.Fits b h bi := by
  unfold Contract.step at hstep
  cases hrun : calculateBilling b (k.input h bi) with
  | error e =>
      rw [hrun] at hstep
      obtain rfl := Option.some.inj hstep
      refine iff_of_true hs ?_
      rintro ⟨r, hr⟩
      rw [hrun] at hr
      cases hr
  | ok r =>
      rw [hrun] at hstep
      obtain rfl := Option.some.inj hstep
      obtain ⟨amount, rawFee, hdemand, hcut⟩ := billing_cases hrun
      have hfresh : (h.milestones ++ k.milestonesOf bi).Nodup ↔ k.FreshMilestones h bi := by
        rw [List.nodup_append]
        unfold Contract.FreshMilestones
        constructor
        · rintro ⟨-, hnodup, hdisjoint⟩
          exact ⟨hnodup, fun id hid hold => hdisjoint id hold id hid rfl⟩
        · rintro ⟨hnodup, hdisjoint⟩
          refine ⟨hs.2.2.2, hnodup, ?_⟩
          rintro id hold id' hid rfl
          exact hdisjoint id hid hold
      unfold Contract.Within Contract.Fits
      rw [hdemand, hfresh, fitsFee_iff hcut]
      simp only [fitsLimit_iff hcut, Except.ok.injEq, Prod.mk.injEq]
      constructor
      · rintro hfits - amount' rawFee' ⟨rfl, rfl⟩
        exact hfits
      · intro hfits
        exact hfits ⟨r, hrun⟩ amount rawFee ⟨rfl, rfl⟩

end Life

/-- **The life of a contract**: whatever is billed, no limit is exceeded and no milestone is billed
twice, exactly when no limit is negative and every call fits. -/
theorem life_within_iff (k : Contract) (calls : List BillingInput) :
    Throughout (k.step b) k.Within {} calls ↔
      ((∀ l ∈ k.fundingLimit, 0 ≤ l) ∧ (∀ l ∈ k.ceilingAmount, 0 ≤ l) ∧
        ∀ l ∈ k.feeCeiling, 0 ≤ l) ∧ Along (k.step b) (k.Fits b) {} calls := by
  have htotal : ∀ h bi, (k.step b h bi).isSome := by
    intro h bi
    unfold Contract.step
    split <;> rfl
  have hfirst : k.Within {} ↔ (∀ l ∈ k.fundingLimit, 0 ≤ l) ∧ (∀ l ∈ k.ceilingAmount, 0 ≤ l) ∧
      ∀ l ∈ k.feeCeiling, 0 ≤ l :=
    ⟨fun h => ⟨h.1, h.2.1, h.2.2.1⟩, fun h => ⟨h.1, h.2.1, h.2.2, List.nodup_nil⟩⟩
  constructor
  · intro hlife
    have hstart := hlife.head
    exact ⟨hfirst.mp hstart, (TransitionSystem.throughout_iff_along_of_step htotal
      (fun _ _ _ => within_step) hstart calls).mp hlife⟩
  · rintro ⟨hlimits, hfits⟩
    exact (TransitionSystem.throughout_iff_along_of_step htotal (fun _ _ _ => within_step)
      (hfirst.mpr hlimits) calls).mpr hfits

/-! ### A ceiling, a fee and a milestone -/

def fixedPrice : Contract where
  contractType := .ffp
  currency := "USD"
  ceilingAmount := some 100

/-- One complete milestone of 150. -/
def milestoneCall : BillingInput where
  contractType := .ffp
  currency := "USD"
  milestones := [{
    milestoneId := "M-1"
    description := "Delivery"
    amount := 150
    completionPct := 100
    amount_nonneg := by norm_num
    completionPct_bounds := by norm_num }]

def costPlus : Contract where
  contractType := .cpff
  currency := "USD"
  feeCeiling := some 5

theorem hundred_nonneg : 0 ≤ (⟨100, "USD"⟩ : Valuation.Money).amount := by norm_num

/-- Costs that are not there are not negative. -/
theorem absent_nonneg : ∀ m ∈ [none, none, none, none],
    0 ≤ (m.map fun m : Valuation.Money => m.amount).getD 0 := by simp

/-- A hundred of labor with a fee of five per cent. -/
def laborCall : BillingInput where
  contractType := .cpff
  currency := "USD"
  costBreakdown := some {
    directLabor := ⟨100, "USD"⟩
    directLabor_nonneg := hundred_nonneg
    others_nonneg := absent_nonneg }
  indirectRates := some { nonneg := ⟨le_rfl, le_rfl, le_rfl, le_rfl⟩ }
  feeRate := 5 / 100

/-- The ceiling of a fixed price does not count, the fee ceiling starts anew with each call, and a
milestone that stays complete is billed again. -/
theorem life_not_within :
    ¬ Throughout (fixedPrice.step sampleBuiltins) fixedPrice.Within {} [milestoneCall] ∧
      ¬ Throughout (costPlus.step sampleBuiltins) costPlus.Within {} [laborCall, laborCall] ∧
      ¬ Throughout ({ fixedPrice with ceilingAmount := none }.step sampleBuiltins)
        { fixedPrice with ceilingAmount := none }.Within {} [milestoneCall, milestoneCall] := by
  refine ⟨fun h => ?_, fun h => ?_, fun h => ?_⟩
  · have hrun : run (fixedPrice.step sampleBuiltins) {} [milestoneCall] =
        some ⟨150, 0, ["M-1"]⟩ := by decide +kernel
    have hceiling := (h [milestoneCall] [] _ rfl hrun).2.1 100 rfl
    norm_num at hceiling
  · have hrun : run (costPlus.step sampleBuiltins) {} [laborCall, laborCall] =
        some ⟨210, 10, []⟩ := by decide +kernel
    have hfee := (h [laborCall, laborCall] [] _ rfl hrun).2.2.1 5 rfl
    norm_num at hfee
  · have hrun : run ({ fixedPrice with ceilingAmount := none }.step sampleBuiltins) {}
        [milestoneCall, milestoneCall] = some ⟨300, 0, ["M-1", "M-1"]⟩ := by decide +kernel
    have hnodup := (h [milestoneCall, milestoneCall] [] _ rfl hrun).2.2.2
    simp at hnodup

end FinanceAccounting.Billing
