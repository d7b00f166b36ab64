import FinanceAccounting.Engines.Allocation
import FinanceAccounting.Library.Traversals

/-! # Allocation by ratio

`_allocate_by_ratio` rounds the share of every target but one, the rounding target, which gets what
the targets before it have left.  So the lines make up the amount when no target comes after it that
has a share, and no line is negative when the shares before it are not more than the amount
(`allocateByRatio_exact_iff`). -/

namespace FinanceAccounting.AllocationEngine

open Traversals (bind_eq_ok ite_eq_ok)
open Valuation (Money sumOf)

section Definitions

variable (a : Arithmetic) (amount : Money) (ratio : AllocationTarget → ℚ)

/-- The proportional share of a target, rounded to the places of the currency. -/
def share (target : AllocationTarget) : ℚ :=
  Decimal.quantize (a.decimalPlaces amount.currency) (a.ctx.round (amount.amount * ratio target))

/-- The digits of the share fit. -/
def ShareFits (target : AllocationTarget) : Prop :=
  |share a amount ratio target| * 10 ^ a.decimalPlaces amount.currency < 10 ^ a.ctx.prec

def shares (targets : List AllocationTarget) : List ℚ := targets.map (share a amount ratio)

variable (targets : List AllocationTarget) (method : AllocationMethod) (index : ℕ)

/-- **The allocation is exact**: the lines make up the amount, none is negative, and every target but
the rounding target gets its share. -/
def AllocatesExactly : Prop :=
  ∃ result, allocateByRatioTo a amount ratio targets method (some index) = .ok result ∧
    (result.lines.map (·.allocated.amount)).sum = amount.amount ∧
    result.unallocated.amount = 0 ∧
    (∀ line ∈ result.lines, 0 ≤ line.allocated.amount) ∧
    result.lines.map (·.targetId) = targets.map (·.targetId) ∧
    ∀ i target, i ≠ index → targets[i]? = some target →
      (result.lines[i]?).map (·.allocated.amount) = some (share a amount ratio target)

/-- What the shares of the others leave. -/
def rest : ℚ :=
  amount.amount - (shares a amount ratio (targets.take index)).sum -
    (shares a amount ratio (targets.drop (index + 1))).sum

/-- What the targets before the rounding target leave is what all others leave, as the context
computes it, and it is not negative. -/
structure LeavesRest : Prop where
  fits : ∀ target ∈ targets, ShareFits a amount ratio target
  rest_nonneg : 0 ≤ rest a amount ratio targets index
  rest_eq : a.ctx.round (amount.amount -
      sumOf a.ctx (shares a amount ratio (targets.take index))) =
    rest a amount ratio targets index
  total_eq : sumOf a.ctx (shares a amount ratio (targets.take index) ++
      rest a amount ratio targets index :: shares a amount ratio (targets.drop (index + 1))) =
    amount.amount

/-- The amount has the places of its currency, and no more digits than the context. -/
def AmountFits : Prop :=
  Decimal.HasPlaces (a.decimalPlaces amount.currency) amount.amount ∧
    amount.amount * 10 ^ a.decimalPlaces amount.currency < 10 ^ a.ctx.prec

end Definitions

/-! ### The lines -/

section Lines

variable {a : Arithmetic} {amount : Money} {ratio : AllocationTarget → ℚ}
variable {method : AllocationMethod} {targets before after : List AllocationTarget}
variable {target : AllocationTarget} {lines : List AllocationLine} {i index : ℕ} {allocatedSoFar : ℚ}

theorem quantizeHalfUp_eq_ok {currency : String} {x y : ℚ} :
    quantizeHalfUp a currency x = .ok y ↔
      |Decimal.quantize (a.decimalPlaces currency) x| * 10 ^ a.decimalPlaces currency <
          10 ^ a.ctx.prec ∧
        y = Decimal.quantize (a.decimalPlaces currency) x := by
  exact ite_eq_ok

/-- The line of a target without a cap. -/
def uncappedLine (currency : String) (target : AllocationTarget) (allocated : ℚ) : AllocationLine :=
  ⟨target.targetId, target.targetType, ⟨allocated, currency⟩, ⟨0, currency⟩, true⟩

theorem ratioLine_of_none {currency : String} {allocated : ℚ} (h : target.eligibleAmount = none) :
    ratioLine a currency target allocated = .ok (uncappedLine currency target allocated) := by
  unfold ratioLine
  rw [h]
  rfl

/-- The lines of targets that get their shares. -/
def shareLines (a : Arithmetic) (amount : Money) (ratio : AllocationTarget → ℚ)
    (targets : List AllocationTarget) : List AllocationLine :=
  targets.map fun target => uncappedLine amount.currency target (share a amount ratio target)

/-- A target other than the rounding target gets its share. -/
theorem ratioLines_cons (hcap : target.eligibleAmount = none) (hne : i ≠ index) :
    ratioLines a amount ratio index i allocatedSoFar (target :: targets) = .ok lines ↔
      ShareFits a amount ratio target ∧ ∃ rest,
        ratioLines a amount ratio index (i + 1)
            (a.ctx.round (allocatedSoFar + share a amount ratio target)) targets = .ok rest ∧
          lines = uncappedLine amount.currency target (share a amount ratio target) :: rest := by
  conv_lhs => rw [ratioLines, if_neg hne, bind_eq_ok]
  constructor
  · rintro ⟨allocated, hallocated, h⟩
    obtain ⟨hfits, rfl⟩ := quantizeHalfUp_eq_ok.mp hallocated
    rw [ratioLine_of_none hcap] at h
    obtain ⟨line, hline, h⟩ := bind_eq_ok.mp h
    obtain ⟨rest, hrest, h⟩ := bind_eq_ok.mp h
    obtain rfl := Except.ok.inj hline
    exact ⟨hfits, rest, hrest, (Except.ok.inj h).symm⟩
  · rintro ⟨hfits, rest, hrest, rfl⟩
    refine ⟨_, quantizeHalfUp_eq_ok.mpr ⟨hfits, rfl⟩, ?_⟩
    rw [ratioLine_of_none hcap]
    exact bind_eq_ok.mpr ⟨_, rfl, bind_eq_ok.mpr ⟨rest, hrest, rfl⟩⟩

/-- After the rounding target every target gets its share. -/
theorem ratioLines_after (hcaps : ∀ t ∈ targets, t.eligibleAmount = none) (hlt : index < i) :
    ratioLines a amount ratio index i allocatedSoFar targets = .ok lines ↔
      (∀ t ∈ targets, ShareFits a amount ratio t) ∧ lines = shareLines a amount ratio targets := by
  induction targets generalizing i allocatedSoFar lines with
  | nil =>
      constructor
      · intro h
        exact ⟨fun t ht => absurd ht List.not_mem_nil, (Except.ok.inj h).symm⟩
      · rintro ⟨-, rfl⟩
        rfl
  | cons t ts ih =>
      have hts : ∀ t' ∈ ts, t'.eligibleAmount = none := fun t' h => hcaps t' (List.mem_cons_of_mem t h)
      rw [ratioLines_cons (hcaps t List.mem_cons_self) (by omega), List.forall_mem_cons, and_assoc]
      refine and_congr_right fun _ => ?_
      simp only [ih hts (show index < i + 1 by omega), and_assoc, exists_and_left, exists_eq_left]
      rfl

/-- **The rounding target gets what those before it leave**, and the others get their shares. -/
theorem ratioLines_at (hcaps : ∀ t ∈ before ++ target :: after, t.eligibleAmount = none)
    (hindex : index = i + before.length) :
    ratioLines a amount ratio index i allocatedSoFar (before ++ target :: after) = .ok lines ↔
      (∀ t ∈ before ++ after, ShareFits a amount ratio t) ∧
        lines = shareLines a amount ratio before ++
          uncappedLine amount.currency target (a.ctx.round (amount.amount -
            (shares a amount ratio before).foldl (fun total x => a.ctx.round (total + x))
              allocatedSoFar)) :: shareLines a amount ratio after := by
  induction before generalizing i allocatedSoFar lines with
  | nil =>
      have htarget := hcaps target List.mem_cons_self
      have hafter : ∀ t ∈ after, t.eligibleAmount = none :=
        fun t h => hcaps t (List.mem_cons_of_mem target h)
      rw [List.nil_append]
      unfold ratioLines
      rw [if_pos (by simpa using hindex.symm), ratioLine_of_none htarget]
      have hlt : index < i + 1 := by
        rw [hindex, List.length_nil]
        omega
      constructor
      · intro h
        obtain ⟨line, hline, h⟩ := bind_eq_ok.mp h
        obtain ⟨rest, hrest, h⟩ := bind_eq_ok.mp h
        obtain ⟨hall, rfl⟩ := (ratioLines_after hafter hlt).mp hrest
        obtain rfl := Except.ok.inj hline
        obtain rfl := Except.ok.inj h
        exact ⟨hall, rfl⟩
      · rintro ⟨hall, rfl⟩
        refine bind_eq_ok.mpr ⟨_, rfl, bind_eq_ok.mpr ⟨_, ?_, rfl⟩⟩
        exact (ratioLines_after hafter hlt).mpr ⟨hall, rfl⟩
  | cons t ts ih =>
      have hts : ∀ t' ∈ ts ++ target :: after, t'.eligibleAmount = none :=
        fun t' h => hcaps t' (List.mem_cons_of_mem t h)
      have hnext : index = i + 1 + ts.length := by
        rw [hindex, List.length_cons]
        omega
      rw [List.cons_append, ratioLines_cons (hcaps t List.mem_cons_self) (by
        rw [List.length_cons] at hindex
        omega), List.cons_append, List.forall_mem_cons, and_assoc]
      refine and_congr_right fun _ => ?_
      simp only [ih hts hnext, and_assoc, exists_and_left, exists_eq_left]
      rfl

end Lines

/-! ### The result -/

section Results

variable {a : Arithmetic} {amount : Money} {ratio : AllocationTarget → ℚ}
variable {method : AllocationMethod} {before after : List AllocationTarget}
variable {target : AllocationTarget} {result : AllocationResult}

/-- What the rounding target gets after the targets before it. -/
def leftFor (a : Arithmetic) (amount : Money) (ratio : AllocationTarget → ℚ)
    (before : List AllocationTarget) : ℚ :=
  a.ctx.round (amount.amount - sumOf a.ctx (shares a amount ratio before))

/-- The amounts of the lines. -/
def amounts (a : Arithmetic) (amount : Money) (ratio : AllocationTarget → ℚ)
    (before after : List AllocationTarget) : List ℚ :=
  shares a amount ratio before ++ leftFor a amount ratio before :: shares a amount ratio after

def resultLines (a : Arithmetic) (amount : Money) (ratio : AllocationTarget → ℚ)
    (before : List AllocationTarget) (target : AllocationTarget) (after : List AllocationTarget) :
    List AllocationLine :=
  shareLines a amount ratio before ++
    uncappedLine amount.currency target (leftFor a amount ratio before) ::
      shareLines a amount ratio after

theorem amounts_shareLines (targets : List AllocationTarget) :
    (shareLines a amount ratio targets).map (·.allocated.amount) = shares a amount ratio targets := by
  unfold shareLines shares
  rw [List.map_map]
  rfl

theorem amounts_resultLines :
    (resultLines a amount ratio before target after).map (·.allocated.amount) =
      amounts a amount ratio before after := by
  unfold resultLines amounts
  rw [List.map_append, List.map_cons, amounts_shareLines, amounts_shareLines]
  rfl

theorem naive_eq_ok {targets : List AllocationTarget} {naive : List ℚ} :
    (targets.mapM fun target =>
      quantizeHalfUp a amount.currency (a.ctx.round (amount.amount * ratio target))) = .ok naive ↔
      (∀ t ∈ targets, ShareFits a amount ratio t) ∧ naive = shares a amount ratio targets := by
  rw [Traversals.mapM_eq_ok_iff]
  induction targets generalizing naive with
  | nil =>
      rw [List.forall₂_nil_left_iff]
      constructor
      · rintro rfl
        exact ⟨fun t ht => absurd ht List.not_mem_nil, rfl⟩
      · exact fun h => h.2
  | cons t ts ih =>
      rw [List.forall₂_cons_left_iff]
      constructor
      · rintro ⟨x, xs, hx, hxs, rfl⟩
        obtain ⟨hfits, rfl⟩ := quantizeHalfUp_eq_ok.mp hx
        obtain ⟨hall, rfl⟩ := ih.mp hxs
        refine ⟨fun t' ht' => ?_, rfl⟩
        rcases List.mem_cons.mp ht' with rfl | ht'
        · exact hfits
        · exact hall t' ht'
      · rintro ⟨hall, rfl⟩
        refine ⟨_, _, quantizeHalfUp_eq_ok.mpr ⟨hall t List.mem_cons_self, rfl⟩, ?_, rfl⟩
        exact ih.mpr ⟨fun t' ht' => hall t' (List.mem_cons_of_mem t ht'), rfl⟩

/-- **The allocation returns** when the digits of all shares fit and the totals agree. -/
theorem allocateByRatioTo_eq_ok (hcaps : ∀ t ∈ before ++ target :: after, t.eligibleAmount = none) :
    allocateByRatioTo a amount ratio (before ++ target :: after) method (some before.length) =
        .ok result ↔
      (∀ t ∈ before ++ target :: after, ShareFits a amount ratio t) ∧
        a.ctx.round (sumOf a.ctx (amounts a amount ratio before after) +
          a.ctx.round (amount.amount - sumOf a.ctx (amounts a amount ratio before after))) =
            amount.amount ∧
        result =
          { sourceAmount := amount
            method := method
            lines := resultLines a amount ratio before target after
            totalAllocated := ⟨sumOf a.ctx (amounts a amount ratio before after), amount.currency⟩
            unallocated := ⟨a.ctx.round (amount.amount -
              sumOf a.ctx (amounts a amount ratio before after)), amount.currency⟩
            roundingAdjustment := ⟨a.ctx.round (amount.amount -
              sumOf a.ctx (shares a amount ratio (before ++ target :: after))), amount.currency⟩ } := by
  have hlines : ∀ {lines}, ratioLines a amount ratio before.length 0 0 (before ++ target :: after) =
      .ok lines ↔ (∀ t ∈ before ++ after, ShareFits a amount ratio t) ∧
        lines = resultLines a amount ratio before target after :=
    ratioLines_at hcaps (Nat.zero_add _).symm
  have hsub : ∀ x : ℚ, subMoney a amount ⟨x, amount.currency⟩ =
      .ok ⟨a.ctx.round (amount.amount - x), amount.currency⟩ := fun x => if_pos rfl
  unfold allocateByRatioTo
  rw [Option.getD_some]
  constructor
  · intro h
    obtain ⟨lines, hrun, h⟩ := bind_eq_ok.mp h
    obtain ⟨-, rfl⟩ := hlines.mp hrun
    rw [amounts_resultLines] at h
    obtain ⟨unallocated, hunallocated, h⟩ := bind_eq_ok.mp h
    obtain rfl := Except.ok.inj ((hsub _).symm.trans hunallocated)
    split at h
    · rename_i hagree
      obtain ⟨naive, hnaive, h⟩ := bind_eq_ok.mp h
      obtain ⟨hall, rfl⟩ := naive_eq_ok.mp hnaive
      exact ⟨hall, hagree, (Except.ok.inj h).symm⟩
    · cases h
  · rintro ⟨hall, hagree, rfl⟩
    have hothers : ∀ t ∈ before ++ after, ShareFits a amount ratio t := by
      intro t ht
      rcases List.mem_append.mp ht with hbefore | hafter
      · exact hall t (List.mem_append_left _ hbefore)
      · exact hall t (List.mem_append_right _ (List.mem_cons_of_mem target hafter))
    refine bind_eq_ok.mpr ⟨_, hlines.mpr ⟨hothers, rfl⟩, ?_⟩
    rw [amounts_resultLines]
    refine bind_eq_ok.mpr ⟨_, hsub _, ?_⟩
    rw [if_pos hagree]
    exact bind_eq_ok.mpr ⟨_, naive_eq_ok.mpr ⟨hall, rfl⟩, rfl⟩

/-- Every target but the rounding target gets its share. -/
theorem resultLines_share {i : ℕ} {t : AllocationTarget} (hi : i ≠ before.length)
    (ht : (before ++ target :: after)[i]? = some t) :
    ((resultLines a amount ratio before target after)[i]?).map (·.allocated.amount) =
      some (share a amount ratio t) := by
  unfold resultLines shareLines
  rcases lt_or_gt_of_ne hi with hlt | hgt
  · rw [List.getElem?_append_left hlt] at ht
    rw [List.getElem?_append_left (by rwa [List.length_map]), List.getElem?_map, ht]
    rfl
  · rw [List.getElem?_append_right hgt.le] at ht
    rw [List.getElem?_append_right (by rw [List.length_map]; exact hgt.le), List.length_map]
    obtain ⟨k, hk⟩ : ∃ k, i - before.length = k + 1 := ⟨i - before.length - 1, by omega⟩
    rw [hk, List.getElem?_cons_succ] at ht ⊢
    rw [List.getElem?_map, ht]
    rfl

theorem ids_resultLines :
    (resultLines a amount ratio before target after).map (·.targetId) =
      (before ++ target :: after).map (·.targetId) := by
  unfold resultLines shareLines
  rw [List.map_append, List.map_cons, List.map_map, List.map_map, List.map_append, List.map_cons]
  rfl

end Results

/-! ### The theorem -/

section Exact

variable {a : Arithmetic} {amount : Money} {ratio : AllocationTarget → ℚ}
variable {method : AllocationMethod} {targets before after : List AllocationTarget}
variable {target : AllocationTarget} {index : ℕ}

theorem share_nonneg (hamount : 0 ≤ amount.amount) (hratio : 0 ≤ ratio target) :
    0 ≤ share a amount ratio target :=
  Decimal.quantize_nonneg (a.ctx.round_nonneg (mul_nonneg hamount hratio))

theorem shares_nonneg (hamount : 0 ≤ amount.amount) (hratio : ∀ t ∈ targets, 0 ≤ ratio t) :
    ∀ x ∈ shares a amount ratio targets, 0 ≤ x := by
  intro x hx
  obtain ⟨t, ht, rfl⟩ := List.mem_map.mp hx
  exact share_nonneg hamount (hratio t ht)

/-- A sum of decimals is not rounded again. -/
theorem round_sumOf (ctx : Decimal.Context) (xs : List ℚ) : ctx.round (sumOf ctx xs) = sumOf ctx xs := by
  rcases List.eq_nil_or_concat xs with rfl | ⟨ys, y, rfl⟩
  · exact ctx.round_zero
  · rw [List.concat_eq_append, Valuation.sumOf_append, ctx.round_round]

/-- The amount is left of the shares of the others, when the lines make up the amount. -/
theorem sum_amounts :
    (amounts a amount ratio before after).sum =
      (shares a amount ratio before).sum + leftFor a amount ratio before +
        (shares a amount ratio after).sum := by
  unfold amounts
  rw [List.sum_append, List.sum_cons, add_assoc]

theorem allocatesExactly_iff_leavesRest
    (hcaps : ∀ t ∈ before ++ target :: after, t.eligibleAmount = none)
    (hamount : 0 ≤ amount.amount) (hratio : ∀ t ∈ before ++ target :: after, 0 ≤ ratio t) :
    AllocatesExactly a amount ratio (before ++ target :: after) method before.length ↔
      LeavesRest a amount ratio (before ++ target :: after) before.length := by
  have htake : (before ++ target :: after).take before.length = before := List.take_left
  have hdrop : (before ++ target :: after).drop (before.length + 1) = after := by
    rw [← List.drop_drop, List.drop_left, List.drop_one, List.tail_cons]
  have hrest : rest a amount ratio (before ++ target :: after) before.length =
      amount.amount - (shares a amount ratio before).sum - (shares a amount ratio after).sum := by
    unfold rest
    rw [htake, hdrop]
  constructor
  · rintro ⟨result, hrun, hsum, hunallocated, hnonneg, -, -⟩
    obtain ⟨hfits, hagree, rfl⟩ := (allocateByRatioTo_eq_ok hcaps).mp hrun
    dsimp only at hsum hunallocated hnonneg
    rw [amounts_resultLines, sum_amounts] at hsum
    have htotal := sub_eq_zero.mp (a.ctx.round_eq_zero.mp hunallocated)
    have hleft : leftFor a amount ratio before =
        rest a amount ratio (before ++ target :: after) before.length := by
      rw [hrest]
      linarith
    refine ⟨hfits, ?_, ?_, ?_⟩
    · rw [← hleft]
      exact hnonneg (uncappedLine amount.currency target (leftFor a amount ratio before))
        (List.mem_append_right _ List.mem_cons_self)
    · rw [htake, ← hleft]
      rfl
    · rw [htake, hdrop, ← hleft]
      exact htotal.symm
  · rintro ⟨hfits, hnonneg, hleft, htotal⟩
    rw [htake] at hleft
    rw [htake, hdrop, ← hleft] at htotal
    have htotal' : sumOf a.ctx (amounts a amount ratio before after) = amount.amount := htotal
    have hround : a.ctx.round amount.amount = amount.amount := by
      rw [← htotal', round_sumOf]
    refine ⟨_, (allocateByRatioTo_eq_ok hcaps).mpr ⟨hfits, ?_, rfl⟩, ?_, ?_, ?_, ?_, ?_⟩
    · rw [htotal', sub_self, a.ctx.round_zero, add_zero, hround]
    · dsimp only
      rw [amounts_resultLines, sum_amounts]
      have hleft' : leftFor a amount ratio before = _ := hleft
      rw [hleft', hrest]
      ring
    · dsimp only
      rw [htotal', sub_self, a.ctx.round_zero]
    · intro line hline
      have hmem : line.allocated.amount ∈ amounts a amount ratio before after := by
        rw [← @amounts_resultLines a amount ratio before after target]
        exact List.mem_map_of_mem hline
      rcases List.mem_append.mp hmem with hbefore | hafter
      · exact shares_nonneg hamount (fun t ht => hratio t (List.mem_append_left _ ht)) _ hbefore
      · rcases List.mem_cons.mp hafter with heq | hafter
        · rw [heq]
          have hleft' : leftFor a amount ratio before = _ := hleft
          rw [hleft']
          exact hnonneg
        · exact shares_nonneg hamount (fun t ht => hratio t
            (List.mem_append_right _ (List.mem_cons_of_mem target ht))) _ hafter
    · exact ids_resultLines
    · exact fun i t hi ht => resultLines_share hi ht

/-- No ratio is more than one when they add up to it. -/
theorem ratio_le_one (hratio : ∀ t ∈ targets, 0 ≤ ratio t) (hsum : (targets.map ratio).sum = 1)
    {t : AllocationTarget} (ht : t ∈ targets) : ratio t ≤ 1 := by
  rw [← hsum]
  refine List.single_le_sum (fun x hx => ?_) (ratio t) (List.mem_map_of_mem ht)
  obtain ⟨t', ht', rfl⟩ := List.mem_map.mp hx
  exact hratio t' ht'

/-- A share is not more than an amount that fits. -/
theorem share_le (hfits : AmountFits a amount) (hamount : 0 ≤ amount.amount)
    {t : AllocationTarget} (hratio : 0 ≤ ratio t) (hle : ratio t ≤ 1) :
    share a amount ratio t ≤ amount.amount := by
  obtain ⟨hplaces, hdigits⟩ := hfits
  have hround : a.ctx.round amount.amount = amount.amount := by
    refine a.ctx.round_of_places hplaces ?_
    rwa [abs_of_nonneg hamount]
  have hproduct : a.ctx.round (amount.amount * ratio t) ≤ amount.amount := by
    have hmono := a.ctx.round_mono (mul_nonneg hamount hratio) (mul_le_of_le_one_right hamount hle)
    rwa [hround] at hmono
  obtain ⟨k, hk⟩ := hplaces
  obtain ⟨m, rfl⟩ : ∃ m : ℕ, k = m := by
    refine Int.eq_ofNat_of_zero_le ?_
    have hpow : (0 : ℚ) < 10 ^ a.decimalPlaces amount.currency := by positivity
    rw [hk] at hamount
    have hcast : (0 : ℚ) ≤ k := by
      have hmul := mul_nonneg hamount hpow.le
      rwa [div_mul_cancel₀ _ hpow.ne'] at hmul
    exact_mod_cast hcast
  rw [Int.cast_natCast] at hk
  have hbound : a.ctx.round (amount.amount * ratio t) ≤ m / 10 ^ a.decimalPlaces amount.currency := by
    rwa [← hk]
  calc share a amount ratio t ≤ m / 10 ^ a.decimalPlaces amount.currency :=
        Decimal.quantize_le hbound
    _ = amount.amount := hk.symm

/-- Numbers of few places that do not exceed an amount that fits are added up as they are. -/
theorem sumOf_eq_of_le (hfits : AmountFits a amount) {xs : List ℚ}
    (hplaces : ∀ x ∈ xs, Decimal.HasPlaces (a.decimalPlaces amount.currency) x)
    (hnonneg : ∀ x ∈ xs, 0 ≤ x) (hle : xs.sum ≤ amount.amount) : sumOf a.ctx xs = xs.sum := by
  refine a.ctx.total_eq_sum_of_nonneg hplaces hnonneg (lt_of_le_of_lt ?_ hfits.2)
  exact mul_le_mul_of_nonneg_right hle (by positivity)

theorem hasPlaces_shares : ∀ x ∈ shares a amount ratio targets,
    Decimal.HasPlaces (a.decimalPlaces amount.currency) x := by
  intro x hx
  obtain ⟨t, -, rfl⟩ := List.mem_map.mp hx
  exact Decimal.hasPlaces_quantize _ _

/-- Numbers that are not negative add up to zero when each is zero. -/
theorem sum_shares_eq_zero (hamount : 0 ≤ amount.amount) (hratio : ∀ t ∈ targets, 0 ≤ ratio t) :
    (shares a amount ratio targets).sum = 0 ↔ ∀ t ∈ targets, share a amount ratio t = 0 := by
  constructor
  · intro hzero t ht
    have hle := List.single_le_sum (shares_nonneg hamount hratio) (share a amount ratio t)
      (List.mem_map_of_mem ht)
    rw [hzero] at hle
    exact le_antisymm hle (share_nonneg hamount (hratio t ht))
  · intro hall
    refine List.sum_eq_zero fun x hx => ?_
    obtain ⟨t, ht, rfl⟩ := List.mem_map.mp hx
    exact hall t ht

/-- **Where the digits fit**, the shares before the rounding target must not exceed the amount, and
those after it must be zero. -/
theorem leavesRest_iff (hfits : AmountFits a amount) (hamount : 0 ≤ amount.amount)
    (hratio : ∀ t ∈ targets, 0 ≤ ratio t) (hsum : (targets.map ratio).sum = 1) :
    LeavesRest a amount ratio targets index ↔
      (shares a amount ratio (targets.take index)).sum ≤ amount.amount ∧
        ∀ t ∈ targets.drop (index + 1), share a amount ratio t = 0 := by
  have hbefore : ∀ t ∈ targets.take index, 0 ≤ ratio t := fun t ht => hratio t (List.mem_of_mem_take ht)
  have hafter : ∀ t ∈ targets.drop (index + 1), 0 ≤ ratio t :=
    fun t ht => hratio t (List.mem_of_mem_drop ht)
  have hsumAfter : 0 ≤ (shares a amount ratio (targets.drop (index + 1))).sum :=
    List.sum_nonneg (shares_nonneg hamount hafter)
  have hsumBefore : 0 ≤ (shares a amount ratio (targets.take index)).sum :=
    List.sum_nonneg (shares_nonneg hamount hbefore)
  -- what the shares before leave is computed as it is
  have hleft : (shares a amount ratio (targets.take index)).sum ≤ amount.amount →
      a.ctx.round (amount.amount - sumOf a.ctx (shares a amount ratio (targets.take index))) =
        amount.amount - (shares a amount ratio (targets.take index)).sum := by
    intro hle
    rw [sumOf_eq_of_le hfits hasPlaces_shares (shares_nonneg hamount hbefore) hle]
    refine a.ctx.round_of_places (hfits.1.sub (.list_sum hasPlaces_shares)) ?_
    rw [abs_of_nonneg (sub_nonneg.mpr hle)]
    refine lt_of_le_of_lt ?_ hfits.2
    exact mul_le_mul_of_nonneg_right (by linarith) (by positivity)
  constructor
  · rintro ⟨-, hnonneg, hrest, -⟩
    unfold rest at hnonneg hrest
    have hle : (shares a amount ratio (targets.take index)).sum ≤ amount.amount := by linarith
    rw [hleft hle] at hrest
    exact ⟨hle, (sum_shares_eq_zero hamount hafter).mp (by linarith)⟩
  · rintro ⟨hle, hzero⟩
    have hnone := (sum_shares_eq_zero hamount hafter).mpr hzero
    have hrest : rest a amount ratio targets index =
        amount.amount - (shares a amount ratio (targets.take index)).sum := by
      unfold rest
      rw [hnone, sub_zero]
    refine ⟨fun t ht => ?_, ?_, ?_, ?_⟩
    · have hshare : 0 ≤ share a amount ratio t := share_nonneg hamount (hratio t ht)
      unfold ShareFits
      rw [abs_of_nonneg hshare]
      refine lt_of_le_of_lt ?_ hfits.2
      exact mul_le_mul_of_nonneg_right
        (share_le hfits hamount (hratio t ht) (ratio_le_one hratio hsum ht)) (by positivity)
    · rw [hrest]
      exact sub_nonneg.mpr hle
    · rw [hrest]
      exact hleft hle
    · rw [hrest]
      have hall : (shares a amount ratio (targets.take index) ++
          (amount.amount - (shares a amount ratio (targets.take index)).sum) ::
            shares a amount ratio (targets.drop (index + 1))).sum = amount.amount := by
        rw [List.sum_append, List.sum_cons, hnone]
        ring
      rw [sumOf_eq_of_le hfits ?_ ?_ hall.le, hall]
      · intro x hx
        rcases List.mem_append.mp hx with hx | hx
        · exact hasPlaces_shares x hx
        · rcases List.mem_cons.mp hx with rfl | hx
          · exact hfits.1.sub (.list_sum hasPlaces_shares)
          · exact hasPlaces_shares x hx
      · intro x hx
        rcases List.mem_append.mp hx with hx | hx
        · exact shares_nonneg hamount hbefore x hx
        · rcases List.mem_cons.mp hx with rfl | hx
          · exact sub_nonneg.mpr hle
          · exact shares_nonneg hamount hafter x hx

end Exact

/-- **An allocation by ratio is exact** when what the targets before the rounding target leave is what
all others leave; where the digits fit, when no target after the rounding target has a share and the
shares before it do not exceed the amount. -/
theorem allocateByRatio_exact_iff (a : Arithmetic) (amount : Money)
    (ratio : AllocationTarget → ℚ) (targets : List AllocationTarget) (method : AllocationMethod)
    (index : ℕ) (hamount : 0 ≤ amount.amount)
    (hcaps : ∀ target ∈ targets, target.eligibleAmount = none)
    (hratio : ∀ target ∈ targets, 0 ≤ ratio target) (hsum : (targets.map ratio).sum = 1)
    (hindex : index < targets.length) :
    (AllocatesExactly a amount ratio targets method index ↔
      LeavesRest a amount ratio targets index) ∧
    (AmountFits a amount →
      (AllocatesExactly a amount ratio targets method index ↔
        (shares a amount ratio (targets.take index)).sum ≤ amount.amount ∧
          ∀ target ∈ targets.drop (index + 1), share a amount ratio target = 0)) := by
  have hiff : AllocatesExactly a amount ratio targets method index ↔
      LeavesRest a amount ratio targets index := by
    obtain ⟨before, target, after, rfl, rfl⟩ : ∃ before target after,
        targets = before ++ target :: after ∧ index = before.length := by
      refine ⟨targets.take index, targets[index], targets.drop (index + 1), ?_, ?_⟩
      · rw [List.getElem_cons_drop, List.take_append_drop]
      · rw [List.length_take, Nat.min_eq_left hindex.le]
    exact allocatesExactly_iff_leavesRest hcaps hamount hratio
  exact ⟨hiff, fun hfits => hiff.trans (leavesRest_iff hfits hamount hratio hsum)⟩

/-- A target with a part of the weight. -/
def sampleTarget (targetId : String) (weight : ℚ) : AllocationTarget where
  targetId := targetId
  weight := weight

/-- A hundred in halves, the second one rounded. -/
theorem allocateByRatio_exact_halves :
    (AllocatesExactly dollars ⟨100, "USD"⟩ (·.weight)
        [sampleTarget "A" (1 / 2), sampleTarget "B" (1 / 2)] .weighted 1 ↔
      LeavesRest dollars ⟨100, "USD"⟩ (·.weight)
        [sampleTarget "A" (1 / 2), sampleTarget "B" (1 / 2)] 1) :=
  (allocateByRatio_exact_iff dollars ⟨100, "USD"⟩ (·.weight)
    [sampleTarget "A" (1 / 2), sampleTarget "B" (1 / 2)] .weighted 1 (by decide +kernel)
    (by simp [sampleTarget]) (by simp [sampleTarget]) (by decide +kernel) (by decide)).1

/-- **With the first of two halves as the rounding target, a hundred and fifty are allocated**: the
first gets all that nobody before it got.  And of five cents in tenths, the last target gets minus
four, since a half cent is rounded up nine times. -/
theorem halves_not_exact :
    ¬AllocatesExactly dollars ⟨100, "USD"⟩ (·.weight)
        [sampleTarget "A" (1 / 2), sampleTarget "B" (1 / 2)] .weighted 0 ∧
      ¬AllocatesExactly dollars ⟨5 / 100, "USD"⟩ (·.weight)
        (List.replicate 10 (sampleTarget "A" (1 / 10))) .weighted 9 := by
  constructor
  · rintro ⟨result, hrun, -, hunallocated, -⟩
    have hvalue : (allocateByRatioTo dollars ⟨100, "USD"⟩ (·.weight)
        [sampleTarget "A" (1 / 2), sampleTarget "B" (1 / 2)] .weighted (some 0)).toOption.map
          (·.unallocated.amount) = some (-50) := by decide +kernel
    obtain ⟨result', hrun', hresult⟩ := Traversals.exists_of_map_toOption hvalue
    rw [hrun] at hrun'
    rw [← Except.ok.inj hrun', hunallocated] at hresult
    norm_num at hresult
  · rintro ⟨result, hrun, -, -, hnonneg, -⟩
    have hvalue : (allocateByRatioTo dollars ⟨5 / 100, "USD"⟩ (·.weight)
        (List.replicate 10 (sampleTarget "A" (1 / 10))) .weighted (some 9)).toOption.map
          (fun r => r.lines.any fun line => line.allocated.amount < 0) = some true := by
      decide +kernel
    obtain ⟨result', hrun', hresult⟩ := Traversals.exists_of_map_toOption hvalue
    rw [hrun] at hrun'
    rw [← Except.ok.inj hrun'] at hresult
    obtain ⟨line, hline, hneg⟩ := List.any_eq_true.mp hresult
    exact absurd (hnonneg line hline) (not_le.mpr (of_decide_eq_true hneg))

end FinanceAccounting.AllocationEngine
