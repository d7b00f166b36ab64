import FinanceAccounting.Engines.BillingLaws

/-! # Invoices that tie out

An invoice ties out when what is withheld and the net amount make up the gross amount, the lines
come to the net amount, and every amount is made of whole minor units.  The lines are put together
apart from the totals: material handling has no line, and neither has what a limit cuts off, a
negative fee, or what is withheld from hours and milestones.  All amounts are rounded to two places,
whatever the currency, and the currency of the costs is not looked at.  An invoice ties out exactly
when what has no line cancels out and the amounts are whole units (`ties_out_iff`). -/

namespace FinanceAccounting.Billing

open Decimal (HasPlaces quantize)
open Valuation (Money)
open Traversals (bind_eq_ok map_eq_ok)

variable (b : Builtins) (places : ℕ)

/-! ### What it means to tie out -/

/-- A whole number of the minor units of a currency. -/
def InUnits (currency : String) (m : Money) : Prop :=
  m.currency = currency ∧ HasPlaces places m.amount

def linesTotal (lines : List BillingLineItem) : ℚ := (lines.map (·.amount.amount)).sum

/-- All amounts of an invoice. -/
def BillingResult.amounts (r : BillingResult) : List Money :=
  [r.totalDirectCost, r.totalIndirectCost, r.totalCost, r.feeAmount, r.grossBilling,
    r.withholdingAmount, r.netBilling] ++ r.lineItems.map (·.amount)

structure TiesOut (currency : String) (r : BillingResult) : Prop where
  net : r.netBilling.amount = r.grossBilling.amount - r.withholdingAmount.amount
  lines : linesTotal r.lineItems = r.netBilling.amount
  units : ∀ m ∈ r.amounts, InUnits places currency m

/-! ### What a call comes to -/

/-- The context holds an amount of cents. -/
def HoldsCents (x : ℚ) : Prop := |x| * 10 ^ 2 < 10 ^ b.ctx.prec

/-- What the limits leave of an amount. -/
def capped (bi : BillingInput) (ceilingAmount : Option ℚ) (amount : ℚ) : ℚ :=
  (capAt b ceilingAmount bi.cumulativeBilled
    (capAt b bi.fundingLimit bi.cumulativeBilled amount).1).1

/-- What is withheld of an amount is in whole units, and the context holds it and the rest. -/
structure Withholds (amount pct : ℚ) : Prop where
  held : HoldsCents b (cents b amount pct)
  units : HasPlaces places (cents b amount pct)
  rest : b.ctx.round (amount - cents b amount pct) = amount - cents b amount pct

section Costs

variable (bi : BillingInput) (c : CostBreakdown) (rates : IndirectRates)

/-- Overhead and administrative costs, on bases that the context holds. -/
def overheadOn : ℚ := cents b (b.ctx.round (c.labor + fringeOf b c rates)) rates.overhead

def gaOn : ℚ :=
  cents b (b.ctx.round (b.ctx.round ((c.totalDirect b).amount + fringeOf b c rates) +
    overheadOn b c rates)) rates.ga

def indirectSum : ℚ :=
  b.ctx.round (b.ctx.round (b.ctx.round (fringeOf b c rates + overheadOn b c rates) +
    gaOn b c rates) + handlingOf b c rates)

def costSum : ℚ := b.ctx.round ((c.totalDirect b).amount + indirectSum b c rates)

/-- The fee on the costs before its ceiling. -/
def rawFeeOf : ℚ := cents b (costSum b c rates) bi.feeRate

def feeOf : ℚ := (capAt b bi.feeCeiling 0 (rawFeeOf b bi c rates)).1

/-- Everything that is billed, added up without a rounding. -/
def askedOf : ℚ :=
  c.direct + fringeOf b c rates + overheadOn b c rates + gaOn b c rates + handlingOf b c rates +
    feeOf b bi c rates

def grossOf : ℚ :=
  capped b bi bi.ceilingAmount (b.ctx.round (costSum b c rates + feeOf b bi c rates))

/-- Costs in whole units of the currency of the contract.  What is cut off and a negative fee make up
for what has no line: material handling, and a negative amount withheld. -/
structure CostsTie : Prop where
  labor : InUnits places bi.currency c.directLabor
  others : ∀ m ∈ c.others, 0 < m.amount → InUnits places bi.currency m
  held : ∀ x ∈ [fringeOf b c rates, overheadOn b c rates, gaOn b c rates, handlingOf b c rates,
    rawFeeOf b bi c rates], HoldsCents b x
  units : ∀ x ∈ [fringeOf b c rates, overheadOn b c rates, gaOn b c rates, feeOf b bi c rates,
    (c.totalDirect b).amount, indirectSum b c rates, costSum b c rates], HasPlaces places x
  withholds : Withholds b places (grossOf b bi c rates) bi.withholdingPct
  balanced : (askedOf b bi c rates - grossOf b bi c rates) + max (-feeOf b bi c rates) 0 =
    handlingOf b c rates + max (-cents b (grossOf b bi c rates) bi.withholdingPct) 0

end Costs

/-- Hours or milestones in whole units.  What is cut off and what is withheld, which have no line, cancel
out. -/
structure PartsTie (parts : List ℚ) (gross pct : ℚ) : Prop where
  units : ∀ x ∈ parts, HasPlaces places x
  total : HasPlaces places (b.ctx.total parts)
  withholds : Withholds b places gross pct
  balanced : (parts.sum - gross) + cents b gross pct = 0

/-- The parts of a call without a fee tie out under its limits. -/
def PartsMeet (bi : BillingInput) (ceilingAmount : Option ℚ) (parts : List ℚ) : Prop :=
  PartsTie b places parts (capped b bi ceilingAmount (b.ctx.total parts)) bi.withholdingPct

/-- The hours at their rates. -/
def hoursOf (entries : List LaborRateEntry) : List ℚ :=
  entries.map fun entry => cents b entry.hours entry.billingRate

/-- The materials that a call passes through. -/
def passthrough (bi : BillingInput) : Option Money :=
  bi.materialPassthrough.filter fun m => 0 < m.amount

/-- **The condition**, by the type of the contract. -/
def Meets (bi : BillingInput) : Prop :=
  match bi.contractType with
  | .cpff | .cpif | .cpaf =>
      ∃ c ∈ bi.costBreakdown, ∃ rates ∈ bi.indirectRates, CostsTie b places bi c rates
  | .tm => (∀ x ∈ hoursOf b bi.laborEntries, HoldsCents b x) ∧
      (∀ m ∈ passthrough bi, m.currency = bi.currency) ∧
      PartsMeet b places bi bi.ceilingAmount
        (hoursOf b bi.laborEntries ++ ((passthrough bi).map (·.amount)).toList)
  | .lh => (∀ x ∈ hoursOf b bi.laborEntries, HoldsCents b x) ∧
      PartsMeet b places bi bi.ceilingAmount (hoursOf b bi.laborEntries)
  | .ffp | .fpi => PartsMeet b places bi none ((completed bi.milestones).map (·.amount))

section Ties

variable {b places} {bi : BillingInput} {currency : String}

/-! ### Steps that go through -/

theorem twoPlaces_eq_ok {x y : ℚ} :
    twoPlaces b x = .ok y ↔ HoldsCents b (quantize 2 x) ∧ quantize 2 x = y := by
  have hmap : twoPlaces b x = .ok y ↔ b.ctx.quantizeTo 2 x = .ok y := by
    unfold twoPlaces
    cases b.ctx.quantizeTo 2 x <;> simp [Except.mapError]
  rw [hmap, Decimal.Context.quantizeTo_eq_ok]
  rfl

theorem applyRate_eq_ok {base rate : ℚ} {m : Money} :
    applyRate b base rate currency = .ok m ↔
      HoldsCents b (cents b base rate) ∧ m = ⟨cents b base rate, currency⟩ := by
  unfold applyRate cents
  simp only [map_eq_ok, twoPlaces_eq_ok]
  constructor
  · rintro ⟨_, ⟨hheld, rfl⟩, rfl⟩
    exact ⟨hheld, rfl⟩
  · rintro ⟨hheld, rfl⟩
    exact ⟨_, ⟨hheld, rfl⟩, rfl⟩

theorem calculateIndirectCosts_eq_ok {c : CostBreakdown} {rates : IndirectRates}
    {i : IndirectCosts} :
    calculateIndirectCosts b c rates currency = .ok i ↔
      (∀ x ∈ [fringeOf b c rates, overheadOn b c rates, gaOn b c rates, handlingOf b c rates],
        HoldsCents b x) ∧
      i = ⟨⟨fringeOf b c rates, currency⟩, ⟨overheadOn b c rates, currency⟩,
        ⟨gaOn b c rates, currency⟩, ⟨handlingOf b c rates, currency⟩⟩ := by
  unfold calculateIndirectCosts
  simp only [bind_eq_ok, applyRate_eq_ok, List.forall_mem_cons]
  constructor
  · rintro ⟨_, ⟨hf, rfl⟩, _, ⟨ho, rfl⟩, _, ⟨hg, rfl⟩, _, ⟨hm, rfl⟩, h⟩
    exact ⟨⟨hf, ho, hg, hm, fun x hx => nomatch hx⟩, (Except.ok.inj h).symm⟩
  · rintro ⟨⟨hf, ho, hg, hm, -⟩, rfl⟩
    exact ⟨_, ⟨hf, rfl⟩, _, ⟨ho, rfl⟩, _, ⟨hg, rfl⟩, _, ⟨hm, rfl⟩, rfl⟩

theorem calculateFee_eq_ok {total rate used : ℚ} {limit : Option ℚ} {m : Money × Bool} :
    calculateFee b total rate limit used currency = .ok m ↔
      HoldsCents b (cents b total rate) ∧
        m = (⟨(capAt b limit used (cents b total rate)).1, currency⟩,
          (capAt b limit used (cents b total rate)).2) := by
  unfold calculateFee cents
  simp only [map_eq_ok, twoPlaces_eq_ok]
  constructor
  · rintro ⟨_, ⟨hheld, rfl⟩, rfl⟩
    exact ⟨hheld, rfl⟩
  · rintro ⟨hheld, rfl⟩
    exact ⟨_, ⟨hheld, rfl⟩, rfl⟩

theorem applyWithholding_eq_ok {amount pct : ℚ} {m : Money × Money} :
    applyWithholding b amount pct currency = .ok m ↔
      HoldsCents b (cents b amount pct) ∧ m = (⟨cents b amount pct, currency⟩,
        ⟨b.ctx.round (amount - cents b amount pct), currency⟩) := by
  unfold applyWithholding cents
  simp only [map_eq_ok, twoPlaces_eq_ok]
  constructor
  · rintro ⟨_, ⟨hheld, rfl⟩, rfl⟩
    exact ⟨hheld, rfl⟩
  · rintro ⟨hheld, rfl⟩
    exact ⟨_, ⟨hheld, rfl⟩, rfl⟩

/-! ### Lines -/

@[simp] theorem linesTotal_append (lines lines' : List BillingLineItem) :
    linesTotal (lines ++ lines') = linesTotal lines + linesTotal lines' := by
  unfold linesTotal
  rw [List.map_append, List.sum_append]

/-- A line that there is only for a positive amount. -/
theorem linesTotal_ite {x y : ℚ} {l : BillingLineItem} (hl : l.amount.amount = y) :
    linesTotal (if 0 < x then [l] else []) = if 0 < x then y else 0 := by
  unfold linesTotal
  split_ifs <;> simp [hl]

theorem forall_mem_ite {p : BillingLineItem → Prop} {x : ℚ} {l : BillingLineItem} :
    (∀ l' ∈ if 0 < x then [l] else [], p l') ↔ (0 < x → p l) := by
  split_ifs with hpos <;> simp [hpos]

theorem linesTotal_costLine {t : BillingLineType} {d : String} {m : Option Money}
    (h : 0 ≤ (m.map (·.amount)).getD 0) :
    linesTotal (costLine t d m) = (m.map (·.amount)).getD 0 := by
  cases m with
  | none => rfl
  | some m =>
      rw [costLine, linesTotal_ite rfl]
      split_ifs with hpos
      · rfl
      · exact le_antisymm h (not_lt.mp hpos)

theorem forall_costLine {p : Money → Prop} {t : BillingLineType} {d : String} {m : Option Money} :
    (∀ l ∈ costLine t d m, p l.amount) ↔ ∀ x ∈ m, 0 < x.amount → p x := by
  cases m with
  | none => simp [costLine]
  | some m =>
      rw [costLine, forall_mem_ite]
      simp

theorem linesTotal_indirectLine {t : BillingLineType} {d : String} {m base : Money} {rate : ℚ} :
    linesTotal (indirectLine t d m rate base) = max m.amount 0 := by
  rw [indirectLine, linesTotal_ite rfl]
  split_ifs with hpos
  · exact (max_eq_left hpos.le).symm
  · exact (max_eq_right (not_lt.mp hpos)).symm

/-- An amount that is not negative is in whole units if its line is. -/
theorem forall_indirectLine {t : BillingLineType} {d : String} {x rate : ℚ} {base : Money}
    (h : 0 ≤ x) :
    (∀ l ∈ indirectLine t d ⟨x, currency⟩ rate base, InUnits places currency l.amount) ↔
      HasPlaces places x := by
  rw [indirectLine, forall_mem_ite]
  rcases h.eq_or_lt with rfl | hpos
  · exact iff_of_true (fun hpos => absurd hpos (lt_irrefl _)) .zero
  · exact ⟨fun hunits => (hunits hpos).2, fun hunits _ => ⟨rfl, hunits⟩⟩

/-- The other costs, absent ones as nothing. -/
theorem others_sum (c : CostBreakdown) : (c.others.map (·.amount)).sum =
    (c.directMaterial.map (·.amount)).getD 0 + (c.subcontract.map (·.amount)).getD 0 +
      (c.travel.map (·.amount)).getD 0 + (c.odc.map (·.amount)).getD 0 := by
  have hsum : ∀ ms : List (Option Money), (ms.reduceOption.map (·.amount)).sum =
      (ms.map fun m => (m.map (·.amount)).getD 0).sum := by
    intro ms
    induction ms with
    | nil => rfl
    | cons m ms ih => cases m <;> simp [ih]
  unfold CostBreakdown.others
  rw [hsum]
  simp [add_assoc]

theorem forall_others {p : Money → Prop} {c : CostBreakdown} :
    (∀ m ∈ c.others, p m) ↔ (∀ m ∈ c.directMaterial, p m) ∧ (∀ m ∈ c.subcontract, p m) ∧
      (∀ m ∈ c.travel, p m) ∧ ∀ m ∈ c.odc, p m := by
  unfold CostBreakdown.others
  simp only [List.reduceOption_mem_iff, List.mem_cons, List.not_mem_nil, or_false, Option.mem_def,
    eq_comm (a := some _), or_imp, forall_and]

/-- No amount is negative, on the bases that the context holds. -/
theorem on_nonneg (c : CostBreakdown) (rates : IndirectRates) :
    0 ≤ overheadOn b c rates ∧ 0 ≤ gaOn b c rates := by
  obtain ⟨-, hro, hrg, -⟩ := rates.nonneg
  obtain ⟨hlabor, -, hf, -⟩ := amounts_nonneg b c rates
  have ho : 0 ≤ overheadOn b c rates := cents_nonneg (b.ctx.round_nonneg (by linarith)) hro
  have hdirect : 0 ≤ (c.totalDirect b).amount :=
    List.foldlRecOn _ _ c.directLabor_nonneg fun total htotal x hx =>
      b.ctx.round_nonneg (add_nonneg htotal (others_amount_nonneg c x hx))
  exact ⟨ho, cents_nonneg (b.ctx.round_nonneg (add_nonneg (b.ctx.round_nonneg
    (add_nonneg hdirect hf)) ho)) hrg⟩

theorem forall_amounts {p : Money → Prop} {r : BillingResult} :
    (∀ m ∈ r.amounts, p m) ↔ p r.totalDirectCost ∧ p r.totalIndirectCost ∧ p r.totalCost ∧
      p r.feeAmount ∧ p r.grossBilling ∧ p r.withholdingAmount ∧ p r.netBilling ∧
        ∀ l ∈ r.lineItems, p l.amount := by
  simp only [BillingResult.amounts, List.cons_append, List.nil_append, List.forall_mem_cons,
    List.forall_mem_map]

/-- The amounts of an invoice are whole units when the sum of its lines is exactly the net amount and
the others are. -/
theorem hasPlaces_gross {lines : List BillingLineItem} {gross withheld : ℚ}
    (htotal : linesTotal lines = gross - withheld) (hwithheld : HasPlaces places withheld)
    (hlines : ∀ l ∈ lines, InUnits places currency l.amount) : HasPlaces places gross := by
  have hnet : HasPlaces places (gross - withheld) := by
    rw [← htotal]
    refine HasPlaces.list_sum fun x hx => ?_
    obtain ⟨l, hl, rfl⟩ := List.mem_map.mp hx
    exact (hlines l hl).2
  have hgross := hnet.add hwithheld
  rwa [sub_add_cancel] at hgross

/-! ### Costs and their fee -/

section Costs

variable {c : CostBreakdown} {rates : IndirectRates} {w : ℚ}

/-- The lines of the costs, the fee and what is withheld. -/
def invoiceLines (b : Builtins) (bi : BillingInput) (c : CostBreakdown) (rates : IndirectRates)
    (w : ℚ) : List BillingLineItem :=
  costLines b c rates ⟨⟨fringeOf b c rates, bi.currency⟩, ⟨overheadOn b c rates, bi.currency⟩,
      ⟨gaOn b c rates, bi.currency⟩, ⟨handlingOf b c rates, bi.currency⟩⟩ bi.currency ++
    indirectLine .fee ("Fee (" ++ bi.contractType.value ++ ")") ⟨feeOf b bi c rates, bi.currency⟩
      bi.feeRate ⟨costSum b c rates, bi.currency⟩ ++
    if 0 < w then
      [{ lineType := .withholding
         description := "Withholding (" ++ b.str (b.ctx.round (bi.withholdingPct * 100)) ++ "%)"
         amount := ⟨-w, bi.currency⟩
         rate := some bi.withholdingPct }]
    else []

theorem linesTotal_invoice :
    linesTotal (invoiceLines b bi c rates w) =
      c.direct + fringeOf b c rates + overheadOn b c rates + gaOn b c rates +
        max (feeOf b bi c rates) 0 - max w 0 := by
  obtain ⟨-, -, hf, -⟩ := amounts_nonneg b c rates
  obtain ⟨ho, hg⟩ := on_nonneg (b := b) c rates
  have hothers := c.others_nonneg
  simp only [List.forall_mem_cons] at hothers
  obtain ⟨hmaterial, hsubcontract, htravel, hodc, -⟩ := hothers
  have hwithheld : (if 0 < w then -w else 0) = -max w 0 := by
    split_ifs with hpos
    · rw [max_eq_left hpos.le]
    · rw [max_eq_right (not_lt.mp hpos), neg_zero]
  unfold invoiceLines costLines CostBreakdown.direct
  simp only [linesTotal_append, linesTotal_costLine hmaterial, linesTotal_costLine hsubcontract,
    linesTotal_costLine htravel, linesTotal_costLine hodc, linesTotal_indirectLine,
    linesTotal_ite rfl, hwithheld, others_sum, max_eq_left hf,
    max_eq_left ho, max_eq_left hg]
  simp only [linesTotal, List.map_cons, List.map_nil, List.sum_cons, List.sum_nil]
  ring

theorem units_invoice (hfee : HasPlaces places (feeOf b bi c rates)) (hw : HasPlaces places w) :
    (∀ l ∈ invoiceLines b bi c rates w, InUnits places bi.currency l.amount) ↔
      InUnits places bi.currency c.directLabor ∧
        (∀ m ∈ c.others, 0 < m.amount → InUnits places bi.currency m) ∧
        HasPlaces places (fringeOf b c rates) ∧ HasPlaces places (overheadOn b c rates) ∧
        HasPlaces places (gaOn b c rates) := by
  obtain ⟨-, -, hf, -⟩ := amounts_nonneg b c rates
  obtain ⟨ho, hg⟩ := on_nonneg (b := b) c rates
  have hfeeLine : ∀ l ∈ indirectLine .fee ("Fee (" ++ bi.contractType.value ++ ")")
      ⟨feeOf b bi c rates, bi.currency⟩ bi.feeRate ⟨costSum b c rates, bi.currency⟩,
      InUnits places bi.currency l.amount := by
    rw [indirectLine, forall_mem_ite]
    exact fun _ => ⟨rfl, hfee⟩
  unfold invoiceLines costLines
  simp only [List.forall_mem_append, List.forall_mem_singleton, forall_costLine,
    forall_indirectLine hf, forall_indirectLine ho, forall_indirectLine hg, forall_others,
    forall_mem_ite]
  constructor
  · rintro ⟨⟨⟨⟨⟨⟨⟨⟨⟨hlabor, h₁⟩, h₂⟩, h₃⟩, h₄⟩, hfringe⟩, hoverhead⟩, hga⟩, -⟩, -⟩
    exact ⟨hlabor, ⟨h₁, h₂, h₃, h₄⟩, hfringe, hoverhead, hga⟩
  · rintro ⟨hlabor, ⟨h₁, h₂, h₃, h₄⟩, hfringe, hoverhead, hga⟩
    exact ⟨⟨⟨⟨⟨⟨⟨⟨⟨hlabor, h₁⟩, h₂⟩, h₃⟩, h₄⟩, hfringe⟩, hoverhead⟩, hga⟩, hfeeLine⟩,
      fun _ => ⟨rfl, hw.neg⟩⟩

/-- The equation of the lines, by what has no line. -/
theorem balanced_iff {gross : ℚ} :
    c.direct + fringeOf b c rates + overheadOn b c rates + gaOn b c rates +
          max (feeOf b bi c rates) 0 - max w 0 = gross - w ↔
      (askedOf b bi c rates - gross) + max (-feeOf b bi c rates) 0 =
        handlingOf b c rates + max (-w) 0 := by
  have hparts : ∀ x : ℚ, max x 0 = x + max (-x) 0 := by
    intro x
    rcases le_total x 0 with hx | hx
    · rw [max_eq_right hx, max_eq_left (neg_nonneg.mpr hx), add_neg_cancel]
    · rw [max_eq_left hx, max_eq_right (neg_nonpos.mpr hx), add_zero]
  rw [hparts (feeOf b bi c rates), hparts w, askedOf]
  constructor
  · intro h
    linarith
  · intro h
    linarith

/-- **A cost plus contract.** -/
theorem costPlus_ties_iff (hcosts : bi.costBreakdown = some c)
    (hrates : bi.indirectRates = some rates) :
    (∃ r, calculateCostPlusBilling b bi = .ok r ∧ TiesOut places bi.currency r) ↔
      CostsTie b places bi c rates := by
  unfold calculateCostPlusBilling applyFundingLimit
  simp only [hcosts, hrates, bind_eq_ok, calculateIndirectCosts_eq_ok, calculateFee_eq_ok,
    applyWithholding_eq_ok]
  constructor
  · rintro ⟨_, ⟨_, ⟨hheld, rfl⟩, _, ⟨hraw, rfl⟩, _, ⟨hw, rfl⟩, h⟩, hnet, hlines, hunits⟩
    obtain rfl := Except.ok.inj h
    obtain ⟨hdirect, hindirect, hcost, hfee, -, hwithheld, -, hlineUnits⟩ :=
      forall_amounts.mp hunits
    obtain ⟨hlabor, hothers, hf, ho, hg⟩ :=
      (units_invoice hfee.2 hwithheld.2).mp hlineUnits
    have hsum := linesTotal_invoice.symm.trans hlines
    refine ⟨hlabor, hothers, ?_, ?_, ⟨hw, hwithheld.2, hnet⟩, balanced_iff.mp (hsum.trans hnet)⟩
    · simp only [List.forall_mem_cons] at hheld ⊢
      exact ⟨hheld.1, hheld.2.1, hheld.2.2.1, hheld.2.2.2.1, hraw, fun x hx => nomatch hx⟩
    · simp only [List.forall_mem_cons]
      exact ⟨hf, ho, hg, hfee.2, hdirect.2, hindirect.2, hcost.2, fun x hx => nomatch hx⟩
  · rintro ⟨hlabor, hothers, hheld, hunits, hwithholds, hbalanced⟩
    simp only [List.forall_mem_cons] at hheld hunits
    obtain ⟨hf, ho, hg, hm, hraw, -⟩ := hheld
    obtain ⟨hfu, hou, hgu, hfee, hdirect, hindirect, hcost, -⟩ := hunits
    have hlines := linesTotal_invoice.trans (balanced_iff.mpr hbalanced)
    refine ⟨_, ⟨_, ⟨?_, rfl⟩, _, ⟨hraw, rfl⟩, _, ⟨hwithholds.held, rfl⟩, rfl⟩, hwithholds.rest, ?_, ?_⟩
    · simp only [List.forall_mem_cons]
      exact ⟨hf, ho, hg, hm, fun x hx => nomatch hx⟩
    · exact hlines.trans hwithholds.rest.symm
    · have hlineUnits := (units_invoice hfee hwithholds.units).mpr ⟨hlabor, hothers, hfu, hou, hgu⟩
      have hgross := hasPlaces_gross hlines hwithholds.units hlineUnits
      have hnet := hgross.sub hwithholds.units
      rw [← hwithholds.rest] at hnet
      exact forall_amounts.mpr ⟨⟨hlabor.1, hdirect⟩, ⟨rfl, hindirect⟩, ⟨rfl, hcost⟩, ⟨rfl, hfee⟩,
        ⟨rfl, hgross⟩, ⟨rfl, hwithholds.units⟩, ⟨rfl, hnet⟩, hlineUnits⟩

end Costs

/-! ### Hours and milestones -/

theorem forall_units_iff {lines : List BillingLineItem} {parts : List ℚ}
    (h : lines.map (·.amount) = parts.map (⟨·, currency⟩)) :
    linesTotal lines = parts.sum ∧
      ((∀ l ∈ lines, InUnits places currency l.amount) ↔ ∀ x ∈ parts, HasPlaces places x) := by
  constructor
  · have hamounts := congrArg (List.map Money.amount) h
    rw [List.map_map, List.map_map] at hamounts
    rw [linesTotal]
    exact congrArg List.sum (hamounts.trans (List.map_id parts))
  · rw [← List.forall_mem_map (f := BillingLineItem.amount) (P := InUnits places currency), h,
      List.forall_mem_map]
    exact forall₂_congr fun x _ => and_iff_right rfl

/-- **A contract without a fee.** -/
theorem billTotal_ties_iff {lines : List BillingLineItem} {ceilingAmount : Option ℚ}
    {parts : List ℚ} {p : Prop} (htotal : linesTotal lines = parts.sum)
    (hlineUnits : (∀ l ∈ lines, InUnits places bi.currency l.amount) ↔
      p ∧ ∀ x ∈ parts, HasPlaces places x) :
    (∃ r, billTotal b bi lines (b.ctx.total parts) ceilingAmount = .ok r ∧
        TiesOut places bi.currency r) ↔
      p ∧ PartsMeet b places bi ceilingAmount parts := by
  have hbalanced : ∀ gross w : ℚ, parts.sum = gross - w ↔ (parts.sum - gross) + w = 0 := by
    intro gross w
    constructor
    · intro h
      linarith
    · intro h
      linarith
  unfold billTotal applyFundingLimit
  simp only [bind_eq_ok, applyWithholding_eq_ok]
  constructor
  · rintro ⟨_, ⟨_, ⟨hw, rfl⟩, h⟩, hnet, hlines, hunits⟩
    obtain rfl := Except.ok.inj h
    obtain ⟨htotalUnits, -, -, -, -, hwithheld, -, hall⟩ := forall_amounts.mp hunits
    obtain ⟨hp, hparts⟩ := hlineUnits.mp hall
    exact ⟨hp, hparts, htotalUnits.2, ⟨hw, hwithheld.2, hnet⟩,
      (hbalanced _ _).mp (htotal.symm.trans (hlines.trans hnet))⟩
  · rintro ⟨hp, hparts, htotalUnits, hwithholds, hsum⟩
    have hlines := htotal.trans ((hbalanced _ _).mpr hsum)
    have hall := hlineUnits.mpr ⟨hp, hparts⟩
    have hgross := hasPlaces_gross hlines hwithholds.units hall
    have hnet := hgross.sub hwithholds.units
    rw [← hwithholds.rest] at hnet
    exact ⟨_, ⟨_, ⟨hwithholds.held, rfl⟩, rfl⟩, hwithholds.rest,
      hlines.trans hwithholds.rest.symm, forall_amounts.mpr ⟨⟨rfl, htotalUnits⟩, ⟨rfl, .zero⟩,
        ⟨rfl, htotalUnits⟩, ⟨rfl, .zero⟩, ⟨rfl, hgross⟩, ⟨rfl, hwithholds.units⟩, ⟨rfl, hnet⟩, hall⟩⟩

def laborLine (b : Builtins) (currency : String) (entry : LaborRateEntry) : BillingLineItem where
  lineType := .directLabor
  description := "Labor: " ++ entry.laborCategory
  amount := ⟨cents b entry.hours entry.billingRate, currency⟩
  rate := some entry.billingRate
  quantity := some entry.hours

theorem laborLines_eq_ok {entries : List LaborRateEntry} {total : ℚ}
    {made : List BillingLineItem × ℚ} :
    laborLines b currency total entries = .ok made ↔
      (∀ x ∈ hoursOf b entries, HoldsCents b x) ∧ made = (entries.map (laborLine b currency),
        (hoursOf b entries).foldl (fun acc x => b.ctx.round (acc + x)) total) := by
  induction entries generalizing total made with
  | nil =>
      refine ⟨fun h => ⟨(fun x hx => nomatch hx), (Except.ok.inj h).symm⟩, ?_⟩
      rintro ⟨-, rfl⟩
      rfl
  | cons entry entries ih =>
      unfold laborLines LaborRateEntry.amount
      simp only [bind_eq_ok, twoPlaces_eq_ok, ih, hoursOf, List.map_cons, List.forall_mem_cons]
      constructor
      · rintro ⟨_, ⟨hheld, rfl⟩, _, ⟨hall, rfl⟩, h⟩
        exact ⟨⟨hheld, hall⟩, (Except.ok.inj h).symm⟩
      · rintro ⟨⟨hheld, hall⟩, rfl⟩
        exact ⟨_, ⟨hheld, rfl⟩, _, ⟨hall, rfl⟩, rfl⟩

/-- An invoice over the lines of the hours. -/
theorem exists_labor_iff {entries : List LaborRateEntry} {p : BillingResult → Prop}
    {f : List BillingLineItem × ℚ → Except BillingError BillingResult} :
    (∃ r, (laborLines b currency 0 entries >>= f) = .ok r ∧ p r) ↔
      (∀ x ∈ hoursOf b entries, HoldsCents b x) ∧
        ∃ r, f (entries.map (laborLine b currency), b.ctx.total (hoursOf b entries)) = .ok r ∧
          p r := by
  simp only [bind_eq_ok, laborLines_eq_ok]
  constructor
  · rintro ⟨r, ⟨_, ⟨hheld, rfl⟩, hr⟩, hp⟩
    exact ⟨hheld, r, hr, hp⟩
  · rintro ⟨hheld, r, hr, hp⟩
    exact ⟨r, ⟨_, ⟨hheld, rfl⟩, hr⟩, hp⟩

theorem laborLines_units (entries : List LaborRateEntry) :
    linesTotal (entries.map (laborLine b currency)) = (hoursOf b entries).sum ∧
      ((∀ l ∈ entries.map (laborLine b currency), InUnits places currency l.amount) ↔
        ∀ x ∈ hoursOf b entries, HasPlaces places x) := by
  refine forall_units_iff ?_
  rw [hoursOf, List.map_map, List.map_map]
  rfl

/-- A rounded sum is rounded. -/
theorem round_total (xs : List ℚ) : b.ctx.round (b.ctx.total xs) = b.ctx.total xs :=
  List.foldlRecOn (motive := fun x => b.ctx.round x = x) xs _ b.ctx.round_zero
    fun _ _ _ _ => b.ctx.round_round _

/-- Hours and materials. -/
theorem tm_ties_iff :
    (∃ r, calculateTmBilling b bi = .ok r ∧ TiesOut places bi.currency r) ↔
      (∀ x ∈ hoursOf b bi.laborEntries, HoldsCents b x) ∧
        (∀ m ∈ passthrough bi, m.currency = bi.currency) ∧ PartsMeet b places bi bi.ceilingAmount
          (hoursOf b bi.laborEntries ++ ((passthrough bi).map (·.amount)).toList) := by
  obtain ⟨htotal, hunits⟩ := @laborLines_units b places bi.currency bi.laborEntries
  have hsum : b.ctx.round (b.ctx.total (hoursOf b bi.laborEntries) +
      ((passthrough bi).map (·.amount)).getD 0) = b.ctx.total
        (hoursOf b bi.laborEntries ++ ((passthrough bi).map (·.amount)).toList) := by
    rw [Decimal.Context.total, Decimal.Context.total, List.foldl_append]
    cases passthrough bi with
    | none =>
        rw [Option.map_none, Option.getD_none, add_zero]
        exact round_total _
    | some m => rfl
  have hpositive : ∀ m ∈ passthrough bi, 0 < m.amount := by
    intro m hm
    exact of_decide_eq_true (Option.filter_eq_some_iff.mp hm).2
  unfold calculateTmBilling
  rw [exists_labor_iff]
  refine and_congr_right fun _ => ?_
  show (∃ r, billTotal b bi (bi.laborEntries.map (laborLine b bi.currency) ++
      costLine .directMaterial "Materials at Cost" (passthrough bi)) (b.ctx.round (_ +
        ((passthrough bi).map (·.amount)).getD 0)) bi.ceilingAmount = .ok r ∧ _) ↔ _
  rw [hsum]
  refine billTotal_ties_iff ?_ ?_
  · have hnonneg : 0 ≤ ((passthrough bi).map (·.amount)).getD 0 := by
      cases hm : passthrough bi with
      | none => exact le_rfl
      | some m => exact (hpositive m hm).le
    rw [linesTotal_append, linesTotal_costLine hnonneg, htotal, List.sum_append]
    cases passthrough bi <;> simp
  · rw [List.forall_mem_append, hunits, forall_costLine, List.forall_mem_append]
    cases hm : passthrough bi with
    | none => simp
    | some m =>
        have hpos := hpositive m hm
        simp only [Option.mem_some_iff, forall_eq', hpos, forall_const, InUnits, Option.map_some,
          Option.toList_some, List.forall_mem_singleton]
        exact and_left_comm

/-- Hours. -/
theorem lh_ties_iff :
    (∃ r, calculateLhBilling b bi = .ok r ∧ TiesOut places bi.currency r) ↔
      (∀ x ∈ hoursOf b bi.laborEntries, HoldsCents b x) ∧
        PartsMeet b places bi bi.ceilingAmount (hoursOf b bi.laborEntries) := by
  obtain ⟨htotal, hunits⟩ := @laborLines_units b places bi.currency bi.laborEntries
  unfold calculateLhBilling
  rw [exists_labor_iff]
  refine and_congr_right fun _ => ?_
  exact (billTotal_ties_iff htotal (hunits.trans (and_iff_right trivial).symm)).trans
    (and_iff_right trivial)

/-- Milestones. -/
theorem ffp_ties_iff :
    (∃ r, calculateFfpBilling b bi = .ok r ∧ TiesOut places bi.currency r) ↔
      PartsMeet b places bi none ((completed bi.milestones).map (·.amount)) := by
  obtain ⟨htotal, hunits⟩ := @forall_units_iff places bi.currency
    ((completed bi.milestones).map fun m =>
      { lineType := .milestone
        description := "Milestone: " ++ m.description
        amount := ⟨m.amount, bi.currency⟩ }) ((completed bi.milestones).map (·.amount)) (by
          rw [List.map_map, List.map_map]
          rfl)
  exact (billTotal_ties_iff htotal (hunits.trans (and_iff_right trivial).symm)).trans
    (and_iff_right trivial)

/-- **An invoice ties out** exactly when what has no line cancels out, and the amounts are whole units
that the context holds. -/
theorem ties_out_iff (bi : BillingInput) :
    (∃ r, calculateBilling b bi = .ok r ∧ TiesOut places bi.currency r) ↔ Meets b places bi := by
  unfold calculateBilling Meets
  cases bi.contractType
  case cpff | cpif | cpaf =>
    cases hcosts : bi.costBreakdown with
    | none => simp [calculateCostPlusBilling, hcosts]
    | some c =>
        cases hrates : bi.indirectRates with
        | none => simp [calculateCostPlusBilling, hcosts, hrates]
        | some rates =>
            simp only [Option.mem_some_iff, exists_eq_left']
            exact costPlus_ties_iff hcosts hrates
  case tm => exact tm_ties_iff
  case lh => exact lh_ties_iff
  case ffp => exact ffp_ties_iff
  case fpi =>
    exact @ffp_ties_iff b places {
      contractType := .fpi
      currency := bi.currency
      milestones := bi.milestones
      withholdingPct := bi.withholdingPct
      cumulativeBilled := bi.cumulativeBilled
      fundingLimit := bi.fundingLimit
      ceilingAmount := bi.ceilingAmount }

end Ties

/-- Ten hours at a hundred, of which fifteen per cent are withheld. -/
def withheldCall : BillingInput where
  contractType := .lh
  currency := "USD"
  laborEntries := [{
    laborCategory := "Engineer"
    hours := 10
    billingRate := 100
    nonneg := by norm_num }]
  withholdingPct := 15 / 100

/-- A hundred of labor under a contract that is funded with sixty. -/
def cutCall : BillingInput := { laborCall with fundingLimit := some 60 }

/-- What is withheld from hours has no line, and neither has what the funding limit cuts off. -/
theorem lines_exceed_net :
    (¬ ∃ r, calculateBilling sampleBuiltins withheldCall = .ok r ∧ TiesOut 2 withheldCall.currency r) ∧
      ¬ ∃ r, calculateBilling sampleBuiltins cutCall = .ok r ∧ TiesOut 2 cutCall.currency r := by
  constructor
  · have hwithheld : (calculateBilling sampleBuiltins withheldCall).toOption.map
        (fun r => (linesTotal r.lineItems, r.netBilling.amount)) = some (1000, 850) := by
      decide +kernel
    rintro ⟨r, hr, hties⟩
    simp only [hr, Except.toOption, Option.map_some, hties.lines, Option.some.injEq,
      Prod.mk.injEq] at hwithheld
    norm_num [hwithheld.1] at hwithheld
  · have hcut : (calculateBilling sampleBuiltins cutCall).toOption.map
        (fun r => (linesTotal r.lineItems, r.netBilling.amount)) = some (105, 60) := by
      decide +kernel
    rintro ⟨r, hr, hties⟩
    simp only [hr, Except.toOption, Option.map_some, hties.lines, Option.some.injEq,
      Prod.mk.injEq] at hcut
    norm_num [hcut.1] at hcut

end FinanceAccounting.Billing
