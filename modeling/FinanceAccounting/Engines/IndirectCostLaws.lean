import Mathlib.Data.List.ReduceOption
import FinanceAccounting.Engines.AllocationCascade
import FinanceAccounting.Engines.IncurredCost
import FinanceAccounting.Library.Traversals

/-! # One cost, three computations of its indirect costs

The invoice, the incurred cost submission and the cascade each apply the rates of a contract to
bases of their own.  The invoice puts overhead on labor and fringe, and the administrative rate on
all costs before it; the submission leaves fringe and overhead out of its bases, and the cascade
has no step for material handling.  `totals_eq` says by how much the three totals differ, and
`totals_agree_iff` when they agree to a cent for each rate.  The sums must fit the digits of the
context, because each computation adds up in an order of its own. -/

namespace FinanceAccounting.Billing

open AllocationCascade
open IncurredCost (ContractCostInput IndirectPoolInput compileScheduleH)
open Decimal (HasPlaces quantize)
open Valuation (Money)
open Traversals (bind_eq_ok map_eq_ok)

variable (b : Builtins)

/-! ### The same costs and rates -/

/-- The pools of the cascade: labor, the other direct costs, and both together. -/
def CostBreakdown.balances (c : CostBreakdown) (currency : String) : Balances := fun pool =>
  if pool = "DIRECT_LABOR" then some c.directLabor
  else if pool = "DIRECT_COST" then some ⟨b.ctx.total (c.others.map (·.amount)), currency⟩
  else if pool = "TOTAL_DIRECT" then some (c.totalDirect b)
  else none

def IndirectRates.cascadeRates (rates : IndirectRates) : Rates := fun rateType =>
  if rateType = "fringe" then some rates.fringe
  else if rateType = "overhead" then some rates.overhead
  else if rateType = "g&a" then some rates.ga
  else none

/-- The names and the claimed rates of the pools of the submission. -/
def IndirectRates.claimed (rates : IndirectRates) : List (String × ℚ) :=
  [("FRINGE", rates.fringe), ("OVERHEAD", rates.overhead), ("G&A", rates.ga),
    ("MATERIAL_HANDLING", rates.materialHandling)]

section Totals

variable (c : CostBreakdown) (rates : IndirectRates) (currency : String)

/-- The total that an invoice bills for indirect costs. -/
def billedTotal : Option ℚ :=
  (calculateIndirectCosts b c rates currency).toOption.map (·.total b)

/-- The total that the cascade allocates. -/
def allocatedTotal : Option ℚ :=
  (executeCascade b.ctx buildDcaaCascade (c.balances b currency) rates.cascadeRates
    currency).toOption.map fun r => (r.1.map (·.amountAllocated.amount)).sum

/-- The total that the submission reports. -/
def reportedTotal (cc : ContractCostInput) (pools : List IndirectPoolInput) : Option ℚ :=
  (compileScheduleH b [cc] pools currency).toOption.map (·.totalIndirectApplied.amount)

/-- The three totals are there, and no two are further apart than a cent for each of the four
rates. -/
def TotalsAgree (cc : ContractCostInput) (pools : List IndirectPoolInput) : Prop :=
  ∃ billed ∈ billedTotal b c rates currency, ∃ reported ∈ reportedTotal b currency cc pools,
    ∃ allocated ∈ allocatedTotal b c rates currency,
      |billed - reported| ≤ 4 / 100 ∧ |billed - allocated| ≤ 4 / 100 ∧
        |reported - allocated| ≤ 4 / 100

/-! ### What the rates make of the costs -/

/-- A base times its rate, to the cent. -/
def cents (base rate : ℚ) : ℚ := quantize 2 (b.ctx.round (base * rate))

def CostBreakdown.labor : ℚ := c.directLabor.amount

def CostBreakdown.direct : ℚ := c.directLabor.amount + (c.others.map (·.amount)).sum

def CostBreakdown.material : ℚ := (c.directMaterial.map (·.amount)).getD 0

def fringeOf : ℚ := cents b c.labor rates.fringe

/-- Overhead on labor with its fringe. -/
def overheadOf : ℚ := cents b (c.labor + fringeOf b c rates) rates.overhead

/-- Administrative costs on all costs before them. -/
def gaOf : ℚ := cents b (c.direct + fringeOf b c rates + overheadOf b c rates) rates.ga

def handlingOf : ℚ := cents b c.material rates.materialHandling

/-- The overhead on the fringe, and the administrative costs on fringe and overhead. -/
def cascadedOf : ℚ :=
  (overheadOf b c rates - cents b c.labor rates.overhead) +
    (gaOf b c rates - cents b c.direct rates.ga)

def fullCost : ℚ :=
  c.direct + fringeOf b c rates + overheadOf b c rates + gaOf b c rates + handlingOf b c rates

/-- The digits of the context suffice for the costs. -/
def DigitsSuffice : Prop :=
  ∃ places, 2 ≤ places ∧ (∀ m ∈ c.directLabor :: c.others, HasPlaces places m.amount) ∧
    fullCost b c rates * 10 ^ places < 10 ^ b.ctx.prec

end Totals

section Amounts

variable {b} {c : CostBreakdown} {rates : IndirectRates} {currency : String}

theorem cents_nonneg {base rate : ℚ} (hbase : 0 ≤ base) (hrate : 0 ≤ rate) :
    0 ≤ cents b base rate :=
  Decimal.quantize_nonneg (b.ctx.round_nonneg (mul_nonneg hbase hrate))

theorem cents_mono {base base' rate : ℚ} (hbase : 0 ≤ base) (hle : base ≤ base')
    (hrate : 0 ≤ rate) : cents b base rate ≤ cents b base' rate := by
  have hround := b.ctx.round_mono (mul_nonneg hbase hrate) (mul_le_mul_of_nonneg_right hle hrate)
  exact Decimal.quantize_mono (b.ctx.round_nonneg (mul_nonneg hbase hrate)) hround

theorem hasPlaces_cents (base rate : ℚ) : HasPlaces 2 (cents b base rate) :=
  Decimal.hasPlaces_quantize 2 _

theorem others_amount_nonneg (c : CostBreakdown) : ∀ x ∈ c.others.map (·.amount), 0 ≤ x := by
  intro x hx
  obtain ⟨m, hm, rfl⟩ := List.mem_map.mp hx
  have hmem : some m ∈ [c.directMaterial, c.subcontract, c.travel, c.odc] :=
    List.reduceOption_mem_iff.mp hm
  have := c.others_nonneg _ hmem
  simpa using this

variable (b c rates) in
/-- No amount is negative. -/
theorem amounts_nonneg : 0 ≤ c.labor ∧ c.labor ≤ c.direct ∧ 0 ≤ fringeOf b c rates ∧
    0 ≤ overheadOf b c rates ∧ 0 ≤ gaOf b c rates ∧ 0 ≤ handlingOf b c rates := by
  obtain ⟨hrf, hro, hrg, hrm⟩ := rates.nonneg
  have hlabor : 0 ≤ c.labor := c.directLabor_nonneg
  have hdirect : c.labor ≤ c.direct :=
    le_add_of_nonneg_right (List.sum_nonneg (others_amount_nonneg c))
  have hmaterial : 0 ≤ c.material := c.others_nonneg _ List.mem_cons_self
  have hf : 0 ≤ fringeOf b c rates := cents_nonneg hlabor hrf
  have ho : 0 ≤ overheadOf b c rates := cents_nonneg (by linarith) hro
  have hg : 0 ≤ gaOf b c rates := cents_nonneg (by linarith) hrg
  exact ⟨hlabor, hdirect, hf, ho, hg, cents_nonneg hmaterial hrm⟩

variable (b c rates) in
/-- The cascade never lowers a cost. -/
theorem cascadedOf_nonneg : cents b c.labor rates.overhead ≤ overheadOf b c rates ∧
    cents b c.direct rates.ga ≤ gaOf b c rates := by
  obtain ⟨-, hro, hrg, -⟩ := rates.nonneg
  obtain ⟨hlabor, hdirect, hf, ho, -, -⟩ := amounts_nonneg b c rates
  have hoverhead : cents b c.labor rates.overhead ≤ overheadOf b c rates :=
    cents_mono hlabor (by linarith) hro
  have hga : cents b c.direct rates.ga ≤ gaOf b c rates :=
    cents_mono (by linarith) (by linarith) hrg
  exact ⟨hoverhead, hga⟩

/-! ### Sums that are not rounded -/

/-- What is a part of the full cost fits the context. -/
theorem round_of_le_fullCost {places : ℕ} {x : ℚ}
    (hdigits : fullCost b c rates * 10 ^ places < 10 ^ b.ctx.prec) (hx : HasPlaces places x)
    (hnonneg : 0 ≤ x) (hle : x ≤ fullCost b c rates) : b.ctx.round x = x := by
  refine b.ctx.round_of_places hx (lt_of_le_of_lt ?_ hdigits)
  rw [abs_of_nonneg hnonneg]
  exact mul_le_mul_of_nonneg_right hle (by positivity)

/-- Numbers that are not negative add up without a rounding if their sum fits the context. -/
theorem foldl_exact {places : ℕ} {xs : List ℚ} {acc : ℚ}
    (hplaces : ∀ x ∈ acc :: xs, HasPlaces places x) (hnonneg : ∀ x ∈ acc :: xs, 0 ≤ x)
    (hlt : (acc + xs.sum) * 10 ^ places < 10 ^ b.ctx.prec) :
    xs.foldl (fun total x => b.ctx.round (total + x)) acc = acc + xs.sum := by
  rw [List.forall_mem_cons] at hplaces hnonneg
  refine b.ctx.foldl_add_eq xs acc hplaces.1 hplaces.2 ?_
  have habs : (xs.map fun x => |x|) = xs := by
    conv_rhs => rw [← List.map_id xs]
    exact List.map_congr_left fun x hx => abs_of_nonneg (hnonneg.2 x hx)
  rwa [habs, abs_of_nonneg hnonneg.1]

/-- The digits suffice for a rounding to the cent. -/
theorem quantizeTo_cents {base rate : ℚ} (hdigits : DigitsSuffice b c rates)
    (hnonneg : 0 ≤ cents b base rate) (hle : cents b base rate ≤ fullCost b c rates) :
    b.ctx.quantizeTo 2 (b.ctx.round (base * rate)) = .ok (cents b base rate) := by
  obtain ⟨places, hplaces, -, hlt⟩ := hdigits
  refine Decimal.Context.quantizeTo_eq_ok.mpr ⟨?_, rfl⟩
  refine lt_of_le_of_lt ?_ hlt
  have hpow : (10 : ℚ) ^ 2 ≤ 10 ^ places := pow_le_pow_right₀ (by norm_num) hplaces
  rw [show quantize 2 (b.ctx.round (base * rate)) = cents b base rate from rfl,
    abs_of_nonneg hnonneg]
  exact mul_le_mul hle hpow (by positivity) (hnonneg.trans hle)

/-- The sums of the three computations, without their roundings. -/
theorem sums_exact (hdigits : DigitsSuffice b c rates) :
    (c.totalDirect b).amount = c.direct ∧
      b.ctx.total (c.others.map (·.amount)) = (c.others.map (·.amount)).sum ∧
      b.ctx.round c.labor = c.labor ∧
      b.ctx.round (c.labor + fringeOf b c rates) = c.labor + fringeOf b c rates ∧
      b.ctx.round (c.direct + fringeOf b c rates) = c.direct + fringeOf b c rates ∧
      b.ctx.round (c.direct + fringeOf b c rates + overheadOf b c rates) =
        c.direct + fringeOf b c rates + overheadOf b c rates ∧
      ∀ o g, HasPlaces 2 o → HasPlaces 2 g → 0 ≤ o → 0 ≤ g → o ≤ overheadOf b c rates →
        g ≤ gaOf b c rates → b.ctx.round (fringeOf b c rates + o) = fringeOf b c rates + o ∧
          b.ctx.round (fringeOf b c rates + o + g) = fringeOf b c rates + o + g ∧
          b.ctx.round (fringeOf b c rates + o + g + handlingOf b c rates) =
            fringeOf b c rates + o + g + handlingOf b c rates := by
  obtain ⟨hlabor, hdirect, hf, ho, hg, hm⟩ := amounts_nonneg b c rates
  obtain ⟨places, hplaces, hcosts, hlt⟩ := hdigits
  have hothers := others_amount_nonneg c
  have hlaborPlaces : HasPlaces places c.labor := hcosts _ List.mem_cons_self
  have hothersPlaces : ∀ x ∈ c.others.map (·.amount), HasPlaces places x := by
    intro x hx
    obtain ⟨m, hmem, rfl⟩ := List.mem_map.mp hx
    exact hcosts m (List.mem_cons_of_mem _ hmem)
  have hdirectPlaces : HasPlaces places c.direct :=
    hlaborPlaces.add (HasPlaces.list_sum hothersPlaces)
  have hfp : HasPlaces places (fringeOf b c rates) := (hasPlaces_cents _ _).mono hplaces
  have hop : HasPlaces places (overheadOf b c rates) := (hasPlaces_cents _ _).mono hplaces
  have hmp : HasPlaces places (handlingOf b c rates) := (hasPlaces_cents _ _).mono hplaces
  have hfull : fullCost b c rates = c.direct + fringeOf b c rates + overheadOf b c rates +
      gaOf b c rates + handlingOf b c rates := rfl
  have hsum : c.direct = c.labor + (c.others.map (·.amount)).sum := rfl
  have hpart : ∀ x, x ≤ fullCost b c rates → x * 10 ^ places < 10 ^ b.ctx.prec := fun x hx =>
    lt_of_le_of_lt (mul_le_mul_of_nonneg_right hx (by positivity)) hlt
  refine ⟨?_, ?_, ?_, ?_, ?_, ?_, fun o g hop hgp ho hg hole hgle => ⟨?_, ?_, ?_⟩⟩
  · exact foldl_exact (List.forall_mem_cons.mpr ⟨hlaborPlaces, hothersPlaces⟩)
      (List.forall_mem_cons.mpr ⟨hlabor, hothers⟩) (hpart c.direct (by linarith))
  · have htotal := foldl_exact (List.forall_mem_cons.mpr ⟨.zero, hothersPlaces⟩)
      (List.forall_mem_cons.mpr ⟨le_rfl, hothers⟩) (hpart _ (by linarith))
    rwa [zero_add] at htotal
  · exact round_of_le_fullCost hlt hlaborPlaces hlabor (by linarith)
  · exact round_of_le_fullCost hlt (hlaborPlaces.add hfp) (by linarith) (by linarith)
  · exact round_of_le_fullCost hlt (hdirectPlaces.add hfp) (by linarith) (by linarith)
  · exact round_of_le_fullCost hlt ((hdirectPlaces.add hfp).add hop) (by linarith) (by linarith)
  · exact round_of_le_fullCost hlt (hfp.add (hop.mono hplaces)) (by linarith) (by linarith)
  · exact round_of_le_fullCost hlt ((hfp.add (hop.mono hplaces)).add (hgp.mono hplaces))
      (by linarith) (by linarith)
  · exact round_of_le_fullCost hlt
      (((hfp.add (hop.mono hplaces)).add (hgp.mono hplaces)).add hmp) (by linarith) (by linarith)

/-! ### The three computations -/

theorem applyRate_of_quantizeTo {base rate x : ℚ}
    (h : b.ctx.quantizeTo 2 (b.ctx.round (base * rate)) = .ok x) :
    applyRate b base rate currency = .ok ⟨x, currency⟩ := by
  unfold applyRate twoPlaces
  rw [h]
  rfl

/-- Every amount of the invoice fits the digits. -/
theorem quantizeTo_amounts (hdigits : DigitsSuffice b c rates) :
    b.ctx.quantizeTo 2 (b.ctx.round (c.labor * rates.fringe)) = .ok (fringeOf b c rates) ∧
      b.ctx.quantizeTo 2 (b.ctx.round ((c.labor + fringeOf b c rates) * rates.overhead)) =
        .ok (overheadOf b c rates) ∧
      b.ctx.quantizeTo 2 (b.ctx.round ((c.direct + fringeOf b c rates + overheadOf b c rates) *
        rates.ga)) = .ok (gaOf b c rates) ∧
      b.ctx.quantizeTo 2 (b.ctx.round (c.material * rates.materialHandling)) =
        .ok (handlingOf b c rates) := by
  obtain ⟨hlabor, hdirect, hf, ho, hg, hm⟩ := amounts_nonneg b c rates
  have hfull : fullCost b c rates = c.direct + fringeOf b c rates + overheadOf b c rates +
      gaOf b c rates + handlingOf b c rates := rfl
  refine ⟨?_, ?_, ?_, ?_⟩
  · exact quantizeTo_cents hdigits hf (show fringeOf b c rates ≤ _ by linarith)
  · exact quantizeTo_cents hdigits ho (show overheadOf b c rates ≤ _ by linarith)
  · exact quantizeTo_cents hdigits hg (show gaOf b c rates ≤ _ by linarith)
  · exact quantizeTo_cents hdigits hm (show handlingOf b c rates ≤ _ by linarith)

theorem calculateIndirectCosts_eq (hdigits : DigitsSuffice b c rates) :
    calculateIndirectCosts b c rates currency =
      .ok ⟨⟨fringeOf b c rates, currency⟩, ⟨overheadOf b c rates, currency⟩,
        ⟨gaOf b c rates, currency⟩, ⟨handlingOf b c rates, currency⟩⟩ := by
  obtain ⟨htotal, -, -, hloaded, hfringed, hall, -⟩ := sums_exact hdigits
  obtain ⟨hf, ho, hg, hm⟩ := quantizeTo_amounts hdigits
  unfold calculateIndirectCosts
  refine bind_eq_ok.mpr ⟨_, applyRate_of_quantizeTo hf, bind_eq_ok.mpr
    ⟨_, applyRate_of_quantizeTo ?_, bind_eq_ok.mpr ⟨_, applyRate_of_quantizeTo ?_,
      bind_eq_ok.mpr ⟨_, applyRate_of_quantizeTo hm, rfl⟩⟩⟩⟩
  · rw [← hloaded] at ho
    exact ho
  · rw [← hall, ← hfringed, ← htotal] at hg
    exact hg

theorem indirectTotal_eq (hdigits : DigitsSuffice b c rates) :
    IndirectCosts.total b ⟨⟨fringeOf b c rates, currency⟩, ⟨overheadOf b c rates, currency⟩,
        ⟨gaOf b c rates, currency⟩, ⟨handlingOf b c rates, currency⟩⟩ =
      fringeOf b c rates + overheadOf b c rates + gaOf b c rates + handlingOf b c rates := by
  obtain ⟨-, -, -, -, -, -, hsums⟩ := sums_exact hdigits
  obtain ⟨-, -, -, hon, hgn, -⟩ := amounts_nonneg b c rates
  have hadd := hsums (overheadOf b c rates) (gaOf b c rates) (hasPlaces_cents _ _)
    (hasPlaces_cents _ _) hon hgn le_rfl le_rfl
  unfold IndirectCosts.total
  dsimp only
  rw [hadd.1, hadd.2.1, hadd.2.2]

/-- The invoice. -/
theorem billedTotal_eq (hdigits : DigitsSuffice b c rates) : billedTotal b c rates currency =
    some (fringeOf b c rates + overheadOf b c rates + gaOf b c rates + handlingOf b c rates) := by
  unfold billedTotal
  rw [calculateIndirectCosts_eq hdigits]
  exact congrArg some (indirectTotal_eq hdigits)

/-- The three steps of the cascade, each on the base the step before has left. -/
theorem cascade_run {f o g loaded : ℚ}
    (hf : b.ctx.quantizeTo 2 (b.ctx.round (c.directLabor.amount * rates.fringe)) = .ok f)
    (hloaded : b.ctx.round (b.ctx.round (0 + c.directLabor.amount) + f) = loaded)
    (ho : b.ctx.quantizeTo 2 (b.ctx.round (loaded * rates.overhead)) = .ok o)
    (hg : b.ctx.quantizeTo 2 (b.ctx.round (b.ctx.round (b.ctx.round (loaded +
      b.ctx.total (c.others.map (·.amount))) + o) * rates.ga)) = .ok g) :
    allocatedTotal b c rates currency = some (f + o + g) := by
  have hlaborPool : (c.balances b currency "DIRECT_LABOR").getD ⟨0, currency⟩ = c.directLabor := by
    simp [CostBreakdown.balances]
  obtain ⟨fringePool, hfirst⟩ := executeStep_eq b.ctx fringeStep (c.balances b currency)
    ⟨0, currency⟩ hlaborPool (show (rates.cascadeRates "fringe").getD 0 = rates.fringe from rfl) hf
  rw [hloaded] at hfirst
  set balances₁ := Function.update (c.balances b currency) "FRINGE" (some fringePool) with h₁
  have hcostPool : (balances₁ "DIRECT_COST").getD ⟨0, currency⟩ =
      ⟨b.ctx.total (c.others.map (·.amount)), currency⟩ := by
    simp [h₁, CostBreakdown.balances]
  obtain ⟨overheadPool, hsecond⟩ := executeStep_eq b.ctx overheadStep balances₁
    ⟨loaded, currency⟩ hcostPool
    (show (rates.cascadeRates "overhead").getD 0 = rates.overhead from rfl) ho
  obtain ⟨gaPool, hthird⟩ := executeStep_eq b.ctx gaStep
    (Function.update balances₁ "OVERHEAD" (some overheadPool)) ⟨b.ctx.round (b.ctx.round (loaded +
      b.ctx.total (c.others.map (·.amount))) + o), currency⟩ rfl
    (show (rates.cascadeRates "g&a").getD 0 = rates.ga from rfl) hg
  have hrun : executeCascade b.ctx buildDcaaCascade (c.balances b currency) rates.cascadeRates
      currency = .ok (_, _) :=
    executeSteps_cons b.ctx hfirst (executeSteps_cons b.ctx hsecond
      (executeSteps_cons b.ctx hthird rfl))
  unfold allocatedTotal
  rw [hrun]
  simp only [Except.toOption, Option.map_some, List.map_cons, List.map_nil, List.sum_cons,
    List.sum_nil]
  congr 1
  ring

/-- The cascade: the same amounts, but for the material handling. -/
theorem allocatedTotal_eq (hdigits : DigitsSuffice b c rates) :
    allocatedTotal b c rates currency =
      some (fringeOf b c rates + overheadOf b c rates + gaOf b c rates) := by
  obtain ⟨-, hrest, hlabor, hloaded, hfringed, hall, -⟩ := sums_exact hdigits
  obtain ⟨hf, ho, hg, -⟩ := quantizeTo_amounts hdigits
  have hzero : b.ctx.round (b.ctx.round (0 + c.labor) + fringeOf b c rates) =
      c.labor + fringeOf b c rates := by
    rw [zero_add, hlabor, hloaded]
  have hbase : b.ctx.round (c.labor + fringeOf b c rates + b.ctx.total (c.others.map (·.amount))) =
      c.direct + fringeOf b c rates := by
    have hsum : c.labor + fringeOf b c rates + (c.others.map (·.amount)).sum =
        c.direct + fringeOf b c rates := by
      show c.directLabor.amount + _ + _ = c.directLabor.amount + _ + _
      ring
    rw [hrest, hsum, hfringed]
  rw [← hall, ← hbase] at hg
  exact cascade_run hf hzero ho hg

/-- The bases of the pools of a submission. -/
theorem poolAllocationBase_eq (cc : ContractCostInput) (currency : String) :
    (IncurredCost.poolAllocationBase b cc "FRINGE" currency).amount = cc.labor ∧
      (IncurredCost.poolAllocationBase b cc "OVERHEAD" currency).amount = cc.labor ∧
      (IncurredCost.poolAllocationBase b cc "G&A" currency).amount = (cc.totalDirect b).amount ∧
      (IncurredCost.poolAllocationBase b cc "MATERIAL_HANDLING" currency).amount =
        cc.material := by
  have hfringe : b.upper "FRINGE" = "FRINGE" := b.upper_eq_self _ (by simp)
  have hoverhead : b.upper "OVERHEAD" = "OVERHEAD" := b.upper_eq_self _ (by simp)
  have hga : b.upper "G&A" = "G&A" := b.upper_eq_self _ (by simp)
  have hhandling : b.upper "MATERIAL_HANDLING" = "MATERIAL_HANDLING" :=
    b.upper_eq_self _ (by simp)
  unfold IncurredCost.poolAllocationBase CostBreakdown.material CostBreakdown.labor
  refine ⟨?_, ?_, ?_, ?_⟩
  · simp [hfringe]
  · simp [hoverhead]
  · simp [hga]
  · cases cc.directMaterial <;> simp [hhandling]

/-- The line of a pool whose amount fits the digits. -/
theorem scheduleHLine_eq {cc : ContractCostInput} {pool : IndirectPoolInput} {base x : ℚ}
    (hbase : (IncurredCost.poolAllocationBase b cc pool.poolName currency).amount = base)
    (hx : b.ctx.quantizeTo 2 (b.ctx.round (base * pool.claimedRate)) = .ok x) :
    ∃ line, IncurredCost.scheduleHLine b currency cc pool = .ok line ∧
      line.appliedAmount.amount = x := by
  unfold IncurredCost.scheduleHLine IncurredCost.appliedAmount
  rw [hbase, hx]
  exact ⟨_, rfl, rfl⟩

/-- The submission: overhead on labor alone, and the administrative rate on the direct costs. -/
theorem reportedTotal_eq (hdigits : DigitsSuffice b c rates) {cc : ContractCostInput}
    {pools : List IndirectPoolInput} (hcc : cc.toCostBreakdown = c)
    (hpools : pools.map (fun p => (p.poolName, p.claimedRate)) = rates.claimed) :
    reportedTotal b currency cc pools =
      some (fringeOf b c rates + cents b c.labor rates.overhead + cents b c.direct rates.ga +
        handlingOf b c rates) := by
  subst hcc
  obtain ⟨htotal, -, -, -, -, -, hsums⟩ := sums_exact hdigits
  obtain ⟨hf, -, -, hm⟩ := quantizeTo_amounts hdigits
  obtain ⟨hlabor, hdirect, hfn, hon, hgn, hmn⟩ := amounts_nonneg b cc.toCostBreakdown rates
  obtain ⟨hole, hgle⟩ := cascadedOf_nonneg b cc.toCostBreakdown rates
  have hfull : fullCost b cc.toCostBreakdown rates = cc.direct +
      fringeOf b cc.toCostBreakdown rates + overheadOf b cc.toCostBreakdown rates +
      gaOf b cc.toCostBreakdown rates + handlingOf b cc.toCostBreakdown rates := rfl
  have honn : 0 ≤ cents b cc.labor rates.overhead := cents_nonneg hlabor rates.nonneg.2.1
  have hgnn : 0 ≤ cents b cc.direct rates.ga := cents_nonneg (by linarith) rates.nonneg.2.2.1
  have ho := quantizeTo_cents hdigits honn (by linarith)
  have hg := quantizeTo_cents hdigits hgnn (by linarith)
  unfold IndirectRates.claimed at hpools
  obtain ⟨p₁, _, rfl, h₁, hpools⟩ := List.map_eq_cons_iff.mp hpools
  obtain ⟨p₂, _, rfl, h₂, hpools⟩ := List.map_eq_cons_iff.mp hpools
  obtain ⟨p₃, _, rfl, h₃, hpools⟩ := List.map_eq_cons_iff.mp hpools
  obtain ⟨p₄, _, rfl, h₄, hpools⟩ := List.map_eq_cons_iff.mp hpools
  obtain rfl := List.map_eq_nil_iff.mp hpools
  simp only [Prod.mk.injEq] at h₁ h₂ h₃ h₄
  obtain ⟨bf, bo, bg, bm⟩ := poolAllocationBase_eq (b := b) cc currency
  rw [← h₁.1] at bf
  rw [← h₂.1] at bo
  rw [← h₃.1, htotal] at bg
  rw [← h₄.1] at bm
  rw [← h₁.2] at hf
  rw [← h₂.2] at ho
  rw [← h₃.2] at hg
  rw [← h₄.2] at hm
  obtain ⟨l₁, hl₁, ha₁⟩ := scheduleHLine_eq bf hf
  obtain ⟨l₂, hl₂, ha₂⟩ := scheduleHLine_eq bo ho
  obtain ⟨l₃, hl₃, ha₃⟩ := scheduleHLine_eq bg hg
  obtain ⟨l₄, hl₄, ha₄⟩ := scheduleHLine_eq bm hm
  rw [h₂.2] at ha₂
  rw [h₃.2] at ha₃
  have hrun : compileScheduleH b [cc] [p₁, p₂, p₃, p₄] currency =
      .ok ⟨[l₁, l₂, l₃, l₄], ⟨b.ctx.total ([l₁, l₂, l₃, l₄].map (·.appliedAmount.amount)),
        currency⟩⟩ := by
    unfold compileScheduleH
    refine bind_eq_ok.mpr ⟨[l₁, l₂, l₃, l₄], Traversals.mapM_eq_ok_iff.mpr ?_, rfl⟩
    exact .cons hl₁ (.cons hl₂ (.cons hl₃ (.cons hl₄ .nil)))
  have hfringe : b.ctx.round (0 + fringeOf b cc.toCostBreakdown rates) =
      fringeOf b cc.toCostBreakdown rates := by
    rw [zero_add]
    exact Decimal.Context.round_of_quantizeTo hf
  have hadd := hsums (cents b cc.labor rates.overhead) (cents b cc.direct rates.ga)
    (hasPlaces_cents _ _) (hasPlaces_cents _ _) honn hgnn hole hgle
  unfold reportedTotal
  rw [hrun]
  simp only [Decimal.Context.total, Except.toOption, Option.map_some, List.map_cons, List.map_nil, List.foldl_cons,
    List.foldl_nil, ha₁, ha₂, ha₃, ha₄]
  rw [hfringe, hadd.1, hadd.2.1, hadd.2.2]

end Amounts

/-! ### The comparison -/

/-- **By how much the totals differ**: the submission lacks what the invoice cascades, and the
cascade lacks the material handling. -/
theorem totals_eq {c : CostBreakdown} {rates : IndirectRates} (currency : String)
    (hdigits : DigitsSuffice b c rates) {cc : ContractCostInput} {pools : List IndirectPoolInput}
    (hcc : cc.toCostBreakdown = c)
    (hpools : pools.map (fun p => (p.poolName, p.claimedRate)) = rates.claimed) :
    ∃ billed, billedTotal b c rates currency = some billed ∧
      reportedTotal b currency cc pools = some (billed - cascadedOf b c rates) ∧
      allocatedTotal b c rates currency = some (billed - handlingOf b c rates) := by
  refine ⟨_, billedTotal_eq hdigits, ?_, ?_⟩
  · rw [reportedTotal_eq hdigits hcc hpools]
    unfold cascadedOf
    congr 1
    ring
  · rw [allocatedTotal_eq hdigits]
    congr 1
    ring

/-- **When the three totals agree** to a cent for each rate: nothing but cents comes from overhead
on the fringe and administrative costs on fringe and overhead, and from material handling. -/
theorem totals_agree_iff {c : CostBreakdown} {rates : IndirectRates} (currency : String)
    (hdigits : DigitsSuffice b c rates) {cc : ContractCostInput} {pools : List IndirectPoolInput}
    (hcc : cc.toCostBreakdown = c)
    (hpools : pools.map (fun p => (p.poolName, p.claimedRate)) = rates.claimed) :
    TotalsAgree b c rates currency cc pools ↔
      cascadedOf b c rates ≤ 4 / 100 ∧ handlingOf b c rates ≤ 4 / 100 := by
  obtain ⟨billed, hbilled, hreported, hallocated⟩ := totals_eq b currency hdigits hcc hpools
  obtain ⟨hole, hgle⟩ := cascadedOf_nonneg b c rates
  obtain ⟨-, -, -, -, -, hm⟩ := amounts_nonneg b c rates
  have hcascaded : 0 ≤ cascadedOf b c rates := by
    unfold cascadedOf
    linarith
  unfold TotalsAgree
  rw [hbilled, hreported, hallocated]
  simp only [Option.mem_some_iff, exists_eq_left']
  rw [show billed - (billed - cascadedOf b c rates) = cascadedOf b c rates by ring,
    show billed - (billed - handlingOf b c rates) = handlingOf b c rates by ring,
    show billed - cascadedOf b c rates - (billed - handlingOf b c rates) =
      handlingOf b c rates - cascadedOf b c rates by ring,
    abs_of_nonneg hcascaded, abs_of_nonneg hm, abs_le]
  refine ⟨fun h => ⟨h.1, h.2.1⟩, fun h => ⟨h.1, h.2, ?_, ?_⟩⟩
  · linarith
  · linarith

/-! ### A contract with labor and material -/

/-- Twenty-eight digits. -/
def sampleBuiltins : Builtins where
  ctx := Hashing.defaultContext
  str _ := ""
  upper s := s
  upper_eq_self _ _ := rfl

def sampleContract : ContractCostInput where
  directLabor := ⟨100, "USD"⟩
  directMaterial := some ⟨100, "USD"⟩
  directLabor_nonneg := by decide +kernel
  others_nonneg := by decide +kernel
  contractNumber := "C-1"
  contractType := "CPFF"

def sampleRates : IndirectRates where
  fringe := 3 / 10
  ga := 1 / 10
  materialHandling := 1 / 10
  nonneg := by decide +kernel

def fringeRates : IndirectRates where
  fringe := 3 / 10
  nonneg := by decide +kernel

/-- A pool without costs of its own. -/
def samplePool (poolName : String) (claimedRate : ℚ) (h : 0 ≤ claimedRate) : IndirectPoolInput where
  poolName := poolName
  poolCosts := ⟨0, "USD"⟩
  allocationBase := ⟨0, "USD"⟩
  claimedRate := claimedRate
  baseDescription := ""
  nonneg := ⟨h, le_rfl, le_rfl⟩

def samplePools : List IndirectPoolInput :=
  [samplePool "FRINGE" (3 / 10) (by norm_num), samplePool "OVERHEAD" 0 le_rfl,
    samplePool "G&A" (1 / 10) (by norm_num), samplePool "MATERIAL_HANDLING" (1 / 10) (by norm_num)]

/-- Sixty-three are billed, sixty reported and fifty-three allocated. -/
theorem totals_disagree :
    ¬ TotalsAgree sampleBuiltins sampleContract.toCostBreakdown sampleRates "USD" sampleContract
      samplePools := by
  have hbilled : billedTotal sampleBuiltins sampleContract.toCostBreakdown sampleRates "USD" =
      some 63 := by decide +kernel
  have hreported : reportedTotal sampleBuiltins "USD" sampleContract samplePools = some 60 := by
    decide +kernel
  unfold TotalsAgree
  rw [hbilled, hreported]
  rintro ⟨x, hx, y, hy, -, -, hxy, -⟩
  obtain rfl := Option.some.inj hx
  obtain rfl := Option.some.inj hy
  norm_num at hxy

/-- With a fringe rate alone the three totals are the fringe. -/
theorem totals_agree_fringe :
    TotalsAgree sampleBuiltins sampleContract.toCostBreakdown fringeRates "USD" sampleContract
      [samplePool "FRINGE" (3 / 10) (by norm_num), samplePool "OVERHEAD" 0 le_rfl,
        samplePool "G&A" 0 le_rfl, samplePool "MATERIAL_HANDLING" 0 le_rfl] := by
  have hdigits : DigitsSuffice sampleBuiltins sampleContract.toCostBreakdown fringeRates := by
    refine ⟨2, le_rfl, ?_, by decide +kernel⟩
    have hall : ∀ m ∈ sampleContract.directLabor :: sampleContract.others, m.amount = 100 := by
      decide +kernel
    intro m hm
    rw [hall m hm]
    exact ⟨10000, by norm_num⟩
  exact (totals_agree_iff sampleBuiltins "USD" hdigits rfl rfl).mpr
    ⟨by decide +kernel, by decide +kernel⟩

end FinanceAccounting.Billing
