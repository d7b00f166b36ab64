import FinanceAccounting.Library.Traversals
import FinanceAccounting.Engines.Variance
import Mathlib.Tactic.FieldSimp
import Mathlib.Tactic.GCongr
import Mathlib.Tactic.Linarith

/-! # How exactly variances are allocated

The share of a target is rounded to hundredths whatever the currency, and the last target gets what is
left, so where the digits fit the shares make up the variance (`allocateVariance_eq_ok`).  The rounded
share is within half a hundredth of the proportional one, up to what the context rounds
(`cents_near`).  For a currency with two decimal places that is within a unit; with more places it is
only where the proportional share is that close to a hundredth, and with fewer places the rounded share
is a multiple of the unit only where the proportional one rounds to it (`allocateVariance_exact_iff`). -/

namespace FinanceAccounting.Variance

open Traversals (bind_eq_ok)
open Valuation (Money sumOf)

def totalWeight (targets : List VarianceTarget) : ℚ := (targets.map (·.weight)).sum

/-- The share of a weight in hundredths, as it is computed. -/
def cents (ctx : Decimal.Context) (amount total weight : ℚ) : ℚ :=
  Decimal.quantizeEven 2 (ctx.round (amount * ctx.round (weight / total)))

/-- What the loop returns when nothing is rounded but the shares. -/
def exactLoop (ctx : Decimal.Context) (variance : Money) (total : ℚ) :
    ℚ → List VarianceTarget → List VarianceAllocation
  | _, [] => []
  | allocatedSoFar, [target] =>
      [⟨target.targetId, target.targetType, ⟨variance.amount - allocatedSoFar, variance.currency⟩,
        ctx.round (target.weight / total)⟩]
  | allocatedSoFar, target :: next :: rest =>
      ⟨target.targetId, target.targetType,
          ⟨cents ctx variance.amount total target.weight, variance.currency⟩,
          ctx.round (target.weight / total)⟩ ::
        exactLoop ctx variance total
          (allocatedSoFar + cents ctx variance.amount total target.weight) (next :: rest)

/-- **The digits fit**: the variance and the weights have these places, and there is room for the
shares next to the weights. -/
structure VarianceFits (ctx : Decimal.Context) (amount : ℚ) (targets : List VarianceTarget)
    (places weightPlaces : ℕ) : Prop where
  two_le : 2 ≤ places
  amountPlaces : Decimal.HasPlaces places amount
  weightDigits : ∀ t ∈ targets, Decimal.HasPlaces weightPlaces t.weight
  room : 2000 * (|amount| + targets.length) * 10 ^ places *
    (totalWeight targets * 10 ^ weightPlaces) < 10 ^ ctx.prec

/-! ### Shares -/

section Shares

variable {total weight : ℚ}

/-- The share is computed up to the digits of the context. -/
theorem computed_near (ctx : Decimal.Context) (amount : ℚ) (hweight : 0 ≤ weight) (hle : weight ≤ total) :
    |ctx.round (amount * ctx.round (weight / total)) - amount * weight / total| * 10 ^ ctx.prec ≤
      10 * |amount| := by
  have hratio : 0 ≤ weight / total := div_nonneg hweight (hweight.trans hle)
  have hone : weight / total ≤ 1 := div_le_one_of_le₀ hle (hweight.trans hle)
  have hround : 0 ≤ ctx.round (weight / total) ∧ ctx.round (weight / total) ≤ 1 := by
    have hmono := ctx.round_mono hratio hone
    rw [Decimal.round_one] at hmono
    exact ⟨ctx.round_nonneg hratio, hmono⟩
  set digits : ℚ := 10 ^ ctx.prec with hdigits
  have hpos : 0 < digits := by positivity
  set ratio := ctx.round (weight / total) with hratioDef
  have hratioError : |ratio - weight / total| * digits ≤ 5 := by
    have h := ctx.abs_round_sub_le (weight / total)
    rw [abs_of_nonneg hratio] at h
    linarith
  have hproduct : |ctx.round (amount * ratio) - amount * ratio| * digits ≤ 5 * |amount| := by
    have h := ctx.abs_round_sub_le (amount * ratio)
    rw [abs_mul, abs_of_nonneg hround.1] at h
    have hsmall := mul_le_of_le_one_right (abs_nonneg amount) hround.2
    linarith
  have hscaled : |amount * ratio - amount * weight / total| * digits ≤ 5 * |amount| := by
    rw [mul_div_assoc, ← mul_sub, abs_mul, mul_assoc, mul_comm 5]
    exact mul_le_mul_of_nonneg_left hratioError (abs_nonneg amount)
  calc |ctx.round (amount * ratio) - amount * weight / total| * digits
      ≤ (|ctx.round (amount * ratio) - amount * ratio| +
          |amount * ratio - amount * weight / total|) * digits := by
        gcongr
        exact abs_sub_le _ _ _
    _ ≤ 10 * |amount| := by
        rw [add_mul]
        linarith

/-- A rounded share is within half a hundredth, and what the context rounds, of the proportional one. -/
theorem cents_near (ctx : Decimal.Context) (amount : ℚ) (hweight : 0 ≤ weight) (hle : weight ≤ total) :
    |cents ctx amount total weight - amount * weight / total| * (100 * 10 ^ ctx.prec) ≤
      10 ^ ctx.prec / 2 + 1000 * |amount| := by
  have hcomputed := computed_near ctx amount hweight hle
  have hquantize := Decimal.abs_quantizeEven_sub_le 2
    (ctx.round (amount * ctx.round (weight / total)))
  set digits : ℚ := 10 ^ ctx.prec with hdigits
  have hpos : 0 < digits := by positivity
  unfold cents
  set computed := ctx.round (amount * ctx.round (weight / total)) with hcomputedDef
  have htriangle := abs_sub_le (Decimal.quantizeEven 2 computed) computed (amount * weight / total)
  calc |Decimal.quantizeEven 2 computed - amount * weight / total| * (100 * digits)
      ≤ (|Decimal.quantizeEven 2 computed - computed| + |computed - amount * weight / total|) *
          (100 * digits) := by gcongr
    _ = |Decimal.quantizeEven 2 computed - computed| * 100 * digits +
          100 * (|computed - amount * weight / total| * digits) := by ring
    _ ≤ 1 / 2 / 10 ^ 2 * 100 * digits + 100 * (10 * |amount|) := by gcongr
    _ = digits / 2 + 1000 * |amount| := by ring

/-- A number that is close to a separated one is on the same side of a distance. -/
theorem near_of_separated {x s y r gap : ℚ} (hgap : 0 < gap) (herror : |x - s| * gap < 1)
    (hseparated : 1 ≤ |(|s - y| - r)| * gap) :
    (|x - y| ≤ r → |s - y| < r) ∧ (|s - y| < r → |x - y| < r) := by
  constructor
  · intro hx
    by_contra hfar
    rw [abs_of_nonneg (sub_nonneg.mpr (not_lt.mp hfar))] at hseparated
    have htriangle : |s - y| ≤ |x - s| + |x - y| := by
      rw [abs_sub_comm x s]
      exact abs_sub_le _ _ _
    have hle := mul_le_mul_of_nonneg_right (show |s - y| - r ≤ |x - s| by linarith) hgap.le
    linarith
  · intro hs
    rw [abs_of_neg (sub_neg.mpr hs)] at hseparated
    have hlt := lt_of_mul_lt_mul_right (herror.trans_le hseparated) hgap.le
    linarith [abs_sub_le x s y]

end Shares

/-! ### The loop -/

section Loop

variable {ctx : Decimal.Context} {variance : Money} {total allocatedSoFar : ℚ} {places q : ℕ}
variable {targets : List VarianceTarget} {target : VarianceTarget}

theorem abs_cents_le (ctx : Decimal.Context) {amount weight : ℚ} (hweight : 0 ≤ weight) (hle : weight ≤ total)
    (hsmall : 2000 * |amount| ≤ 10 ^ ctx.prec) :
    |cents ctx amount total weight| ≤ |amount| * (weight / total) + 1 := by
  have hnear := cents_near ctx amount hweight hle
  have hpos : (0 : ℚ) < 10 ^ ctx.prec := by positivity
  have herror : |cents ctx amount total weight - amount * weight / total| ≤ 1 := by
    refine le_of_mul_le_mul_right (hnear.trans ?_) (by positivity : (0 : ℚ) < 100 * 10 ^ ctx.prec)
    linarith
  have htriangle := abs_sub_abs_le_abs_sub (cents ctx amount total weight) (amount * weight / total)
  rw [mul_div_assoc amount, abs_mul amount, abs_of_nonneg (div_nonneg hweight (hweight.trans hle))]
    at htriangle
  rw [mul_div_assoc] at herror
  linarith

/-- The room that the shares of some targets need. -/
def reserve (amount total : ℚ) (targets : List VarianceTarget) : ℚ :=
  (targets.map fun t => |amount| * (t.weight / total) + 1).sum

theorem reserve_nonneg (htotal : 0 ≤ total) (hweights : ∀ t ∈ targets, 0 ≤ t.weight) (amount : ℚ) :
    0 ≤ reserve amount total targets := by
  refine List.sum_nonneg fun x hx => ?_
  obtain ⟨t, ht, rfl⟩ := List.mem_map.mp hx
  have hratio := div_nonneg (hweights t ht) htotal
  positivity

theorem hasPlaces_cents (h : 2 ≤ places) (amount weight : ℚ) :
    Decimal.HasPlaces places (cents ctx amount total weight) :=
  (Decimal.hasPlaces_quantizeEven 2 _).mono h

/-- **The loop rounds nothing but the shares** when there is room for them. -/
theorem allocateLoop_eq (hplaces : 2 ≤ places) (hamount : Decimal.HasPlaces places variance.amount)
    (hsoFar : Decimal.HasPlaces places allocatedSoFar)
    (hweights : ∀ t ∈ targets, 0 ≤ t.weight ∧ t.weight ≤ total)
    (hsmall : 2000 * |variance.amount| ≤ 10 ^ ctx.prec)
    (hroom : (|allocatedSoFar| + |variance.amount| + reserve variance.amount total targets) *
      10 ^ places < 10 ^ ctx.prec) :
    allocateLoop ctx variance total allocatedSoFar targets =
      .ok (exactLoop ctx variance total allocatedSoFar targets) := by
  induction targets generalizing allocatedSoFar with
  | nil => rfl
  | cons target rest ih =>
      have hpow : (0 : ℚ) < 10 ^ places := by positivity
      obtain ⟨hweight, hle⟩ := hweights target List.mem_cons_self
      have hrest : ∀ t ∈ rest, 0 ≤ t.weight ∧ t.weight ≤ total := fun t ht =>
        hweights t (List.mem_cons_of_mem target ht)
      have htail := reserve_nonneg (hweight.trans hle) (fun t ht => (hrest t ht).1) variance.amount
      have hsplit : reserve variance.amount total (target :: rest) =
          |variance.amount| * (target.weight / total) + 1 + reserve variance.amount total rest :=
        List.sum_cons
      have hratio := div_nonneg hweight (hweight.trans hle)
      have hshareRoom : 0 ≤ |variance.amount| * (target.weight / total) :=
        mul_nonneg (abs_nonneg _) hratio
      have hamountNonneg := abs_nonneg variance.amount
      have hsoFarNonneg := abs_nonneg allocatedSoFar
      rw [hsplit] at hroom
      cases rest with
      | nil =>
          have hround : ctx.round (variance.amount - allocatedSoFar) =
              variance.amount - allocatedSoFar := by
            refine ctx.round_of_places (hamount.sub hsoFar) (lt_of_le_of_lt ?_ hroom)
            refine mul_le_mul_of_nonneg_right ((abs_sub _ _).trans ?_) hpow.le
            linarith
          unfold allocateLoop exactLoop
          rw [hround]
      | cons next rest =>
          have hcents := abs_cents_le ctx hweight hle hsmall
          have hcentsPlaces : Decimal.HasPlaces places
              (cents ctx variance.amount total target.weight) := hasPlaces_cents hplaces _ _
          have hsum := abs_add_le allocatedSoFar (cents ctx variance.amount total target.weight)
          have hround : ctx.round (allocatedSoFar + cents ctx variance.amount total target.weight) =
              allocatedSoFar + cents ctx variance.amount total target.weight := by
            refine ctx.round_of_places (hsoFar.add hcentsPlaces) (lt_of_le_of_lt ?_ hroom)
            refine mul_le_mul_of_nonneg_right ?_ hpow.le
            linarith
          have hfits : |cents ctx variance.amount total target.weight| * 10 ^ 2 < 10 ^ ctx.prec := by
            refine lt_of_le_of_lt ?_ hroom
            refine mul_le_mul ?_ (pow_le_pow_right₀ (by norm_num) hplaces) (by positivity) ?_
            · linarith
            · linarith
          have hrun := ih (hsoFar.add hcentsPlaces) hrest (lt_of_le_of_lt
            (mul_le_mul_of_nonneg_right (by linarith) hpow.le) hroom)
          have hquantize : quantizeCents ctx
              (ctx.round (variance.amount * ctx.round (target.weight / total))) =
                .ok (cents ctx variance.amount total target.weight) := if_pos hfits
          unfold allocateLoop exactLoop
          refine bind_eq_ok.mpr ⟨_, hquantize, ?_⟩
          rw [hround]
          exact bind_eq_ok.mpr ⟨_, hrun, rfl⟩

/-! ### What the shares are -/

/-- The shares make up the variance. -/
theorem sum_exactLoop (hne : targets ≠ []) :
    ((exactLoop ctx variance total allocatedSoFar targets).map (·.allocatedVariance.amount)).sum =
      variance.amount - allocatedSoFar := by
  induction targets generalizing allocatedSoFar with
  | nil => exact absurd rfl hne
  | cons target rest ih =>
      cases rest with
      | nil => exact add_zero _
      | cons next rest =>
          unfold exactLoop
          rw [List.map_cons, List.sum_cons, ih (List.cons_ne_nil _ _)]
          ring

/-- All but the last are the rounded ones. -/
theorem dropLast_exactLoop :
    (exactLoop ctx variance total allocatedSoFar targets).dropLast.map (·.allocatedVariance.amount) =
      targets.dropLast.map fun t => cents ctx variance.amount total t.weight := by
  induction targets generalizing allocatedSoFar with
  | nil => rfl
  | cons target rest ih =>
      cases rest with
      | nil => rfl
      | cons next rest =>
          have hne : exactLoop ctx variance total
              (allocatedSoFar + cents ctx variance.amount total target.weight) (next :: rest) ≠ [] := by
            cases rest with
            | nil => exact List.cons_ne_nil _ _
            | cons _ _ => exact List.cons_ne_nil _ _
          unfold exactLoop
          rw [List.dropLast_cons_of_ne_nil hne, List.map_cons, ih, List.dropLast_cons_cons, List.map_cons]

theorem targets_exactLoop :
    (exactLoop ctx variance total allocatedSoFar targets).map (fun a => (a.targetId, a.targetType)) =
      targets.map fun t => (t.targetId, t.targetType) := by
  induction targets generalizing allocatedSoFar with
  | nil => rfl
  | cons target rest ih =>
      cases rest with
      | nil => rfl
      | cons next rest =>
          unfold exactLoop
          rw [List.map_cons, ih]
          rfl

theorem currency_exactLoop :
    ∀ a ∈ exactLoop ctx variance total allocatedSoFar targets,
      a.allocatedVariance.currency = variance.currency := by
  induction targets generalizing allocatedSoFar with
  | nil => exact fun a ha => absurd ha List.not_mem_nil
  | cons target rest ih =>
      cases rest with
      | nil =>
          intro a ha
          obtain rfl := List.mem_singleton.mp ha
          rfl
      | cons next rest =>
          intro a ha
          rcases List.mem_cons.mp ha with rfl | ha
          · rfl
          · exact ih a ha

/-- The last one is a multiple of a unit when the variance and the others are. -/
theorem hasPlaces_exactLoop (hamount : Decimal.HasPlaces q variance.amount)
    (hsoFar : Decimal.HasPlaces q allocatedSoFar)
    (hcents : ∀ t ∈ targets.dropLast, Decimal.HasPlaces q (cents ctx variance.amount total t.weight)) :
    ∀ a ∈ exactLoop ctx variance total allocatedSoFar targets,
      Decimal.HasPlaces q a.allocatedVariance.amount := by
  induction targets generalizing allocatedSoFar with
  | nil => exact fun a ha => absurd ha List.not_mem_nil
  | cons target rest ih =>
      cases rest with
      | nil =>
          intro a ha
          obtain rfl := List.mem_singleton.mp ha
          exact hamount.sub hsoFar
      | cons next rest =>
          rw [List.dropLast_cons_cons] at hcents
          have hfirst := hcents target List.mem_cons_self
          intro a ha
          rcases List.mem_cons.mp ha with rfl | ha
          · exact hfirst
          · exact ih (hsoFar.add hfirst) (fun t ht => hcents t (List.mem_cons_of_mem target ht)) a ha

end Loop

/-! ### Allocations -/

section Allocations

variable {ctx : Decimal.Context} {variance : Money} {targets : List VarianceTarget}
variable {places weightPlaces p : ℕ} {target : VarianceTarget}

theorem reserve_eq (amount total : ℚ) (targets : List VarianceTarget) :
    reserve amount total targets = |amount| * (totalWeight targets / total) + targets.length := by
  unfold reserve totalWeight
  induction targets with
  | nil => simp
  | cons target rest ih =>
      rw [List.map_cons, List.sum_cons, ih, List.map_cons, List.sum_cons, List.length_cons]
      push_cast
      ring

theorem le_totalWeight (hweights : ∀ t ∈ targets, 0 ≤ t.weight) (h : target ∈ targets) :
    target.weight ≤ totalWeight targets := by
  refine List.single_le_sum (fun x hx => ?_) _ (List.mem_map_of_mem h)
  obtain ⟨t, ht, rfl⟩ := List.mem_map.mp hx
  exact hweights t ht

theorem hasPlaces_totalWeight (h : VarianceFits ctx variance.amount targets places weightPlaces) :
    Decimal.HasPlaces weightPlaces (totalWeight targets) := by
  refine Decimal.HasPlaces.list_sum fun x hx => ?_
  obtain ⟨t, ht, rfl⟩ := List.mem_map.mp hx
  exact h.weightDigits t ht

/-- There is room for the variance, next to a positive weight. -/
theorem room_of_fits (h : VarianceFits ctx variance.amount targets places weightPlaces)
    (hpos : 0 < totalWeight targets) :
    2000 * (|variance.amount| + targets.length) * 10 ^ places < 10 ^ ctx.prec := by
  have hone := (hasPlaces_totalWeight h).one_le hpos
  refine lt_of_le_of_lt (le_mul_of_one_le_right ?_ hone) h.room
  positivity

theorem small_of_fits (h : VarianceFits ctx variance.amount targets places weightPlaces)
    (hpos : 0 < totalWeight targets) : 200000 * |variance.amount| ≤ 10 ^ ctx.prec := by
  refine le_trans ?_ (room_of_fits h hpos).le
  have hlength : (0 : ℚ) ≤ targets.length := Nat.cast_nonneg _
  calc 200000 * |variance.amount| = 2000 * |variance.amount| * 10 ^ 2 := by ring
    _ ≤ 2000 * (|variance.amount| + targets.length) * 10 ^ places := by
        refine mul_le_mul ?_ (pow_le_pow_right₀ (by norm_num) h.two_le) (by positivity) (by positivity)
        linarith

theorem sumOf_weights (h : VarianceFits ctx variance.amount targets places weightPlaces)
    (hweights : ∀ t ∈ targets, 0 ≤ t.weight) (hne : targets ≠ []) :
    sumOf ctx (targets.map (·.weight)) = totalWeight targets := by
  have hdigits : ∀ x ∈ targets.map (·.weight), Decimal.HasPlaces weightPlaces x := by
    intro x hx
    obtain ⟨t, ht, rfl⟩ := List.mem_map.mp hx
    exact h.weightDigits t ht
  have hnonneg : ∀ x ∈ targets.map (·.weight), 0 ≤ x := by
    intro x hx
    obtain ⟨t, ht, rfl⟩ := List.mem_map.mp hx
    exact hweights t ht
  refine ctx.total_eq_sum_of_nonneg hdigits hnonneg ?_
  have htotal : 0 ≤ totalWeight targets := List.sum_nonneg hnonneg
  have hlength : (1 : ℚ) ≤ targets.length := by
    exact_mod_cast List.length_pos_iff.mpr hne
  have hpow : (1 : ℚ) ≤ 10 ^ places := one_le_pow₀ (by norm_num)
  refine lt_of_le_of_lt (le_mul_of_one_le_left (by positivity) ?_) h.room
  have hfactor : (1 : ℚ) ≤ 2000 * (|variance.amount| + targets.length) := by
    linarith [abs_nonneg variance.amount]
  exact one_le_mul_of_one_le_of_one_le hfactor hpow

/-- **An allocation** of weights that are not all zero rounds nothing but the shares. -/
theorem allocateVariance_eq_ok (h : VarianceFits ctx variance.amount targets places weightPlaces)
    (hweights : ∀ t ∈ targets, 0 ≤ t.weight) (hpos : 0 < totalWeight targets) :
    allocateVariance ctx variance targets =
      .ok (exactLoop ctx variance (totalWeight targets) 0 targets) := by
  have hne : targets ≠ [] := by
    rintro rfl
    exact lt_irrefl 0 hpos
  have hroom := room_of_fits h hpos
  have hsmall : 2000 * |variance.amount| ≤ 200000 * |variance.amount| := by
    linarith [abs_nonneg variance.amount]
  unfold allocateVariance
  rw [if_neg (by rwa [List.isEmpty_iff]), sumOf_weights h hweights hne]
  show (if totalWeight targets = 0 then _ else _) = _
  rw [if_neg hpos.ne']
  refine allocateLoop_eq h.two_le h.amountPlaces .zero
    (fun t ht => ⟨hweights t ht, le_totalWeight hweights ht⟩) (hsmall.trans (small_of_fits h hpos))
    (lt_of_le_of_lt (mul_le_mul_of_nonneg_right ?_ (by positivity)) hroom)
  rw [reserve_eq, div_self hpos.ne', mul_one, abs_zero]
  have hlength : (0 : ℚ) ≤ targets.length := Nat.cast_nonneg _
  linarith [abs_nonneg variance.amount]

/-- **The variance is allocated exactly**: the amounts make it up, are multiples of the unit when it
is, and all but the last are within a unit of the proportional shares. -/
structure ExactAllocation (places : ℕ) (variance : Money) (targets : List VarianceTarget)
    (allocations : List VarianceAllocation) : Prop where
  targets_eq : allocations.map (fun a => (a.targetId, a.targetType)) =
    targets.map fun t => (t.targetId, t.targetType)
  currencies : ∀ a ∈ allocations, a.allocatedVariance.currency = variance.currency
  sum_eq : (allocations.map (·.allocatedVariance.amount)).sum = variance.amount
  units : Decimal.HasPlaces places variance.amount →
    ∀ a ∈ allocations, Decimal.HasPlaces places a.allocatedVariance.amount
  shares : List.Forall₂ (fun (t : VarianceTarget) (x : ℚ) =>
      |x - variance.amount * t.weight / totalWeight targets| * 10 ^ places ≤ 1)
    targets.dropLast (allocations.dropLast.map (·.allocatedVariance.amount))

/-- An allocation is exact when the rounded shares are multiples of the unit and within a unit. -/
theorem exact_iff_cents (h : VarianceFits ctx variance.amount targets places weightPlaces)
    (hweights : ∀ t ∈ targets, 0 ≤ t.weight) (hpos : 0 < totalWeight targets) :
    (∃ allocations, allocateVariance ctx variance targets = .ok allocations ∧
        ExactAllocation p variance targets allocations) ↔
      (Decimal.HasPlaces p variance.amount → ∀ t ∈ targets.dropLast, Decimal.HasPlaces p
        (cents ctx variance.amount (totalWeight targets) t.weight)) ∧
      ∀ t ∈ targets.dropLast, |cents ctx variance.amount (totalWeight targets) t.weight -
        variance.amount * t.weight / totalWeight targets| * 10 ^ p ≤ 1 := by
  have hne : targets ≠ [] := by
    rintro rfl
    exact lt_irrefl 0 hpos
  rw [allocateVariance_eq_ok h hweights hpos]
  constructor
  · rintro ⟨allocations, hrun, -, -, -, hunits, hshares⟩
    obtain rfl := Except.ok.inj hrun
    rw [dropLast_exactLoop, List.forall₂_map_right_iff, List.forall₂_same] at hshares
    refine ⟨fun hplaces t ht => ?_, hshares⟩
    have hmem : cents ctx variance.amount (totalWeight targets) t.weight ∈
        (exactLoop ctx variance (totalWeight targets) 0 targets).dropLast.map
          (·.allocatedVariance.amount) := by
      rw [dropLast_exactLoop]
      exact List.mem_map_of_mem (f := fun t : VarianceTarget =>
        cents ctx variance.amount (totalWeight targets) t.weight) ht
    obtain ⟨a, ha, heq⟩ := List.mem_map.mp hmem
    rw [← heq]
    exact hunits hplaces a (List.dropLast_subset _ ha)
  · rintro ⟨hunits, hshares⟩
    refine ⟨_, rfl, targets_exactLoop, currency_exactLoop, ?_, fun hplaces => ?_, ?_⟩
    · rw [sum_exactLoop hne, sub_zero]
    · exact hasPlaces_exactLoop hplaces .zero (hunits hplaces)
    · rw [dropLast_exactLoop, List.forall₂_map_right_iff, List.forall₂_same]
      exact hshares

/-- A rounded share is within a hundredth of the proportional one. -/
theorem cents_within (h : VarianceFits ctx variance.amount targets places weightPlaces)
    (hweights : ∀ t ∈ targets, 0 ≤ t.weight) (hpos : 0 < totalWeight targets) (ht : target ∈ targets) :
    |cents ctx variance.amount (totalWeight targets) target.weight -
      variance.amount * target.weight / totalWeight targets| * 100 ≤ 1 := by
  have hnear := cents_near ctx variance.amount (hweights target ht) (le_totalWeight hweights ht)
  have hsmall := small_of_fits h hpos
  have hdigits : (0 : ℚ) < 10 ^ ctx.prec := by positivity
  refine le_of_mul_le_mul_right ?_ hdigits
  linarith [abs_nonneg variance.amount]

/-- **More places than two**: a rounded share is within a unit where the proportional one is within a
unit of a hundredth. -/
theorem within_iff (h : VarianceFits ctx variance.amount targets places weightPlaces)
    (hweights : ∀ t ∈ targets, 0 ≤ t.weight) (hpos : 0 < totalWeight targets) (ht : target ∈ targets)
    (hp : 2 < p) :
    |cents ctx variance.amount (totalWeight targets) target.weight -
        variance.amount * target.weight / totalWeight targets| * 10 ^ p ≤ 1 ↔
      ∃ m : ℤ, |variance.amount * target.weight / totalWeight targets - m / 100| * 10 ^ p ≤ 1 := by
  set share := variance.amount * target.weight / totalWeight targets with hshare
  constructor
  · intro hle
    have hcents : Decimal.HasPlaces 2
        (cents ctx variance.amount (totalWeight targets) target.weight) :=
      hasPlaces_cents le_rfl variance.amount target.weight
    obtain ⟨m, hm⟩ := hcents
    refine ⟨m, ?_⟩
    rw [hm, abs_sub_comm] at hle
    norm_num at hle ⊢
    exact hle
  · rintro ⟨m, hm⟩
    have hhundredth : Decimal.HasPlaces 2 ((m : ℚ) / 100) := ⟨m, by norm_num⟩
    have hcomputed := computed_near ctx variance.amount (hweights target ht) (le_totalWeight hweights ht)
    have hsmall := small_of_fits h hpos
    have hdigits : (0 : ℚ) < 10 ^ ctx.prec := by positivity
    set computed := ctx.round (variance.amount * ctx.round (target.weight / totalWeight targets))
      with hcomputedDef
    have hpow : (1000 : ℚ) ≤ 10 ^ p := by
      calc (1000 : ℚ) = 10 ^ 3 := by norm_num
        _ ≤ 10 ^ p := pow_le_pow_right₀ (by norm_num) hp
    have hclose : |share - m / 100| * 1000 ≤ 1 :=
      (mul_le_mul_of_nonneg_left hpow (abs_nonneg _)).trans hm
    have herror : |computed - share| * 20000 ≤ 1 := by
      refine le_of_mul_le_mul_right ?_ hdigits
      linarith
    have hcents : cents ctx variance.amount (totalWeight targets) target.weight = m / 100 := by
      refine Decimal.quantizeEven_of_near hhundredth ?_
      have htriangle := abs_sub_le computed share (m / 100)
      norm_num
      linarith
    rw [hcents, abs_sub_comm]
    exact hm

/-- A share that is not half a hundredth from a multiple of the unit is some way from that. -/
theorem separated (hamount : Decimal.HasPlaces p variance.amount)
    (h : VarianceFits ctx variance.amount targets places weightPlaces)
    (hpos : 0 < totalWeight targets) (ht : target ∈ targets) (m : ℤ)
    (hne : |variance.amount * target.weight / totalWeight targets - m / 10 ^ p| ≠ 1 / 200) :
    1 ≤ |(|variance.amount * target.weight / totalWeight targets - m / 10 ^ p| - 1 / 200)| *
      (200 * 10 ^ p * (totalWeight targets * 10 ^ weightPlaces)) := by
  obtain ⟨v, hv⟩ := hamount
  obtain ⟨w, hw⟩ := h.weightDigits target ht
  obtain ⟨b, hb⟩ := hasPlaces_totalWeight h
  have hpow : (0 : ℚ) < 10 ^ p := by positivity
  have hweightPow : (0 : ℚ) < 10 ^ weightPlaces := by positivity
  have hbpos : (0 : ℚ) < b := by
    rw [hb] at hpos
    exact (div_pos_iff_of_pos_right hweightPow).mp hpos
  -- the difference is a fraction of whole numbers
  have hshare : variance.amount * target.weight / totalWeight targets - m / 10 ^ p =
      ((v * w - m * b : ℤ) : ℚ) / (10 ^ p * b) := by
    rw [hv, hw, hb]
    push_cast
    field_simp
  have hdenominator : (0 : ℚ) < 10 ^ p * b := by positivity
  have htotal : totalWeight targets * 10 ^ weightPlaces = b := by
    rw [hb, div_mul_cancel₀ _ hweightPow.ne']
  have hdiff : |((v * w - m * b : ℤ) : ℚ) / (10 ^ p * b)| - 1 / 200 =
      ((200 * |v * w - m * b| - 10 ^ p * b : ℤ) : ℚ) / (200 * 10 ^ p * b) := by
    rw [abs_div, abs_of_pos hdenominator]
    push_cast
    field_simp
  rw [hshare] at hne ⊢
  rw [hdiff, htotal, abs_div, abs_of_pos (by positivity : (0 : ℚ) < 200 * 10 ^ p * b),
    div_mul_cancel₀ _ (by positivity)]
  have hnonzero : 200 * |v * w - m * b| - 10 ^ p * b ≠ 0 := by
    intro hzero
    rw [hzero, Int.cast_zero, zero_div] at hdiff
    exact hne (sub_eq_zero.mp hdiff)
  exact_mod_cast Int.one_le_abs hnonzero

/-- **Fewer places than two**: a rounded share is a multiple of the unit where the proportional one is
less than half a hundredth from one. -/
theorem units_iff (hamount : Decimal.HasPlaces p variance.amount)
    (h : VarianceFits ctx variance.amount targets places weightPlaces)
    (hweights : ∀ t ∈ targets, 0 ≤ t.weight) (hpos : 0 < totalWeight targets) (ht : target ∈ targets)
    (hp : p < 2) (hties : ∀ m : ℤ,
      |variance.amount * target.weight / totalWeight targets - m / 10 ^ p| ≠ 1 / 200) :
    Decimal.HasPlaces p (cents ctx variance.amount (totalWeight targets) target.weight) ↔
      ∃ m : ℤ, |variance.amount * target.weight / totalWeight targets - m / 10 ^ p| < 1 / 200 := by
  have hseparated := fun m => separated hamount h hpos ht m (hties m)
  have hcomputed := computed_near ctx variance.amount (hweights target ht) (le_totalWeight hweights ht)
  have hquantize := Decimal.abs_quantizeEven_sub_le 2
    (ctx.round (variance.amount * ctx.round (target.weight / totalWeight targets)))
  have hdigits : (0 : ℚ) < 10 ^ ctx.prec := by positivity
  set share := variance.amount * target.weight / totalWeight targets with hshare
  set gap := 200 * 10 ^ p * (totalWeight targets * 10 ^ weightPlaces) with hgap
  have hgapPos : 0 < gap := by positivity
  -- the context rounds less than the way to half a hundredth
  have hgapRoom : 10 * |variance.amount| * gap < 10 ^ ctx.prec := by
    refine lt_of_le_of_lt ?_ h.room
    have hlength : (0 : ℚ) ≤ targets.length := Nat.cast_nonneg _
    calc 10 * |variance.amount| * gap =
          2000 * |variance.amount| * 10 ^ p * (totalWeight targets * 10 ^ weightPlaces) := by
            rw [hgap]
            ring
      _ ≤ 2000 * (|variance.amount| + targets.length) * 10 ^ places *
            (totalWeight targets * 10 ^ weightPlaces) := by
          have hle : p ≤ places := hp.le.trans h.two_le
          gcongr
          · linarith
          · norm_num
  unfold cents
  set computed := ctx.round (variance.amount * ctx.round (target.weight / totalWeight targets))
    with hcomputedDef
  have herror : |computed - share| * gap < 1 := by
    refine lt_of_mul_lt_mul_right ?_ hdigits.le
    calc |computed - share| * gap * 10 ^ ctx.prec = |computed - share| * 10 ^ ctx.prec * gap := by ring
      _ ≤ 10 * |variance.amount| * gap := by gcongr
      _ < 1 * 10 ^ ctx.prec := by linarith
  constructor
  · rintro ⟨m, hm⟩
    refine ⟨m, (near_of_separated hgapPos herror (hseparated m)).1 ?_⟩
    rw [hm, abs_sub_comm] at hquantize
    norm_num at hquantize
    exact hquantize
  · rintro ⟨m, hm⟩
    have hunit : Decimal.HasPlaces p ((m : ℚ) / 10 ^ p) := ⟨m, rfl⟩
    have hnear := (near_of_separated hgapPos herror (hseparated m)).2 hm
    have hcents : Decimal.quantizeEven 2 computed = m / 10 ^ p := by
      refine Decimal.quantizeEven_of_near (hunit.mono hp.le) ?_
      norm_num
      linarith
    rw [hcents]
    exact hunit

end Allocations

/-- **Variances are allocated exactly** in currencies with two decimal places.  With more places they are
where every proportional share but the last is within a unit of a hundredth; with fewer, where the
variance is no multiple of the unit or each of them is less than half a hundredth from one (and none is
just half a hundredth from one).  Weights that are all zero have no shares. -/
theorem allocateVariance_exact_iff (ctx : Decimal.Context) (variance : Money)
    (targets : List VarianceTarget) (p places weightPlaces : ℕ)
    (hweights : ∀ t ∈ targets, 0 ≤ t.weight) (hpos : 0 < totalWeight targets)
    (h : VarianceFits ctx variance.amount targets places weightPlaces) :
    (p = 2 → ∃ allocations, allocateVariance ctx variance targets = .ok allocations ∧
      ExactAllocation p variance targets allocations) ∧
    (2 < p → ((∃ allocations, allocateVariance ctx variance targets = .ok allocations ∧
        ExactAllocation p variance targets allocations) ↔
      ∀ t ∈ targets.dropLast, ∃ m : ℤ,
        |variance.amount * t.weight / totalWeight targets - m / 100| * 10 ^ p ≤ 1)) ∧
    (p < 2 → Decimal.HasPlaces p variance.amount →
      (∀ t ∈ targets.dropLast, ∀ m : ℤ,
        |variance.amount * t.weight / totalWeight targets - m / 10 ^ p| ≠ 1 / 200) →
      ((∃ allocations, allocateVariance ctx variance targets = .ok allocations ∧
          ExactAllocation p variance targets allocations) ↔
        ∀ t ∈ targets.dropLast, ∃ m : ℤ,
          |variance.amount * t.weight / totalWeight targets - m / 10 ^ p| < 1 / 200)) ∧
    (p < 2 → ¬Decimal.HasPlaces p variance.amount →
      ∃ allocations, allocateVariance ctx variance targets = .ok allocations ∧
        ExactAllocation p variance targets allocations) := by
  have hmem : ∀ t ∈ targets.dropLast, t ∈ targets := fun t ht => List.dropLast_subset _ ht
  have hfewer : p < 2 → ∀ t ∈ targets.dropLast,
      |cents ctx variance.amount (totalWeight targets) t.weight -
        variance.amount * t.weight / totalWeight targets| * 10 ^ p ≤ 1 := by
    intro hp t ht
    refine le_trans ?_ (cents_within h hweights hpos (hmem t ht))
    refine mul_le_mul_of_nonneg_left ?_ (abs_nonneg _)
    calc (10 : ℚ) ^ p ≤ 10 ^ 2 := pow_le_pow_right₀ (by norm_num) hp.le
      _ = 100 := by norm_num
  rw [exact_iff_cents h hweights hpos]
  refine ⟨?_, fun hp => ⟨?_, fun hclose => ⟨?_, ?_⟩⟩,
    fun hp hamount hties => ⟨?_, fun hunits => ⟨?_, hfewer hp⟩⟩,
    fun hp hamount => ⟨fun h => absurd h hamount, hfewer hp⟩⟩
  · rintro rfl
    refine ⟨fun _ t _ => hasPlaces_cents le_rfl _ _, fun t ht => ?_⟩
    have hwithin := cents_within h hweights hpos (hmem t ht)
    norm_num
    exact hwithin
  · exact fun hexact t ht => (within_iff h hweights hpos (hmem t ht) hp).mp (hexact.2 t ht)
  · exact fun _ t _ => hasPlaces_cents hp.le _ _
  · exact fun t ht => (within_iff h hweights hpos (hmem t ht) hp).mpr (hclose t ht)
  · exact fun hexact t ht =>
      (units_iff hamount h hweights hpos (hmem t ht) hp (hties t ht)).mp (hexact.1 hamount t ht)
  · exact fun _ t ht => (units_iff hamount h hweights hpos (hmem t ht) hp (hties t ht)).mpr (hunits t ht)

/-- Three targets of one weight. -/
def thirds : List VarianceTarget := [⟨"A", "item", 1⟩, ⟨"B", "item", 1⟩, ⟨"C", "item", 1⟩]

/-- Thirds of a hundred dollars. -/
theorem allocateVariance_thirds :
    ∃ allocations, allocateVariance Hashing.defaultContext ⟨100, "USD"⟩ thirds = .ok allocations ∧
      ExactAllocation 2 ⟨100, "USD"⟩ thirds allocations := by
  have hweights : ∀ t ∈ thirds, 0 ≤ t.weight := by decide +kernel
  have hplaces : ∀ t ∈ thirds, Decimal.HasPlaces 0 t.weight := by
    intro t ht
    refine ⟨1, ?_⟩
    rw [show t.weight = 1 from (show ∀ t ∈ thirds, t.weight = 1 by decide +kernel) t ht]
    norm_num
  exact (allocateVariance_exact_iff Hashing.defaultContext ⟨100, "USD"⟩ thirds 2 2 0 hweights
    (by decide +kernel) ⟨le_rfl, ⟨10000, by norm_num⟩, hplaces, by decide +kernel⟩).1 rfl

/-- Thirds of a hundred yen are no whole yen, and thirds of a dinar are off by more than a fils. -/
theorem not_exact_thirds :
    (¬∃ allocations, allocateVariance Hashing.defaultContext ⟨100, "JPY"⟩ thirds = .ok allocations ∧
      ExactAllocation 0 ⟨100, "JPY"⟩ thirds allocations) ∧
    ¬∃ allocations, allocateVariance Hashing.defaultContext ⟨1, "KWD"⟩ thirds = .ok allocations ∧
      ExactAllocation 3 ⟨1, "KWD"⟩ thirds allocations := by
  constructor
  · rintro ⟨allocations, hrun, hexact⟩
    have hamounts : (allocateVariance Hashing.defaultContext ⟨100, "JPY"⟩ thirds).toOption.map
        (·.map (·.allocatedVariance.amount)) = some [3333 / 100, 3333 / 100, 1667 / 50] := by
      decide +kernel
    rw [hrun] at hamounts
    have hlist : allocations.map (·.allocatedVariance.amount) = [3333 / 100, 3333 / 100, 1667 / 50] :=
      Option.some.inj hamounts
    have hmem : (3333 / 100 : ℚ) ∈ allocations.map (·.allocatedVariance.amount) := by
      rw [hlist]
      exact List.mem_cons_self
    obtain ⟨a, ha, heq⟩ := List.mem_map.mp hmem
    obtain ⟨k, hk⟩ := hexact.units ⟨100, by norm_num⟩ a ha
    rw [heq, pow_zero, div_one, div_eq_iff (by norm_num)] at hk
    have hwhole : (3333 : ℤ) = k * 100 := by exact_mod_cast hk
    omega
  · rintro ⟨allocations, hrun, hexact⟩
    have hamounts : (allocateVariance Hashing.defaultContext ⟨1, "KWD"⟩ thirds).toOption.map
        (·.dropLast.map (·.allocatedVariance.amount)) = some [33 / 100, 33 / 100] := by
      decide +kernel
    rw [hrun] at hamounts
    have hshares := hexact.shares
    rw [show allocations.dropLast.map (·.allocatedVariance.amount) = [33 / 100, 33 / 100] from
      Option.some.inj hamounts] at hshares
    cases hshares with
    | cons hfirst _ =>
        revert hfirst
        decide +kernel

end FinanceAccounting.Variance
