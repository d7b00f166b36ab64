import FinanceAccounting.Library.RoundingErrors
import FinanceAccounting.Engines.RatioAllocation

/-! # Allocation by ratio with caps

`_allocate_by_ratio` gives no target more than its eligible amount, and what is cut off goes to no
other target.  The shares are rounded and the last target gets the rest, so before they are cut the
lines make up the amount and each is near its part (`abs_share_sub_le`, `abs_rest_sub_lt`); after that
they make it up if and only if none is cut (`sum_capped_eq_iff`). -/

namespace FinanceAccounting.AllocationEngine

open Decimal (HasPlaces)
open Traversals (bind_eq_ok)
open Valuation (Money sumOf)

/-! ### Lines with caps -/

/-- What a target gets of its line. -/
def capped (target : AllocationTarget) (x : ℚ) : ℚ :=
  match target.eligibleAmount with
  | none => x
  | some eligible => min eligible.amount x

/-- The eligible amount, if there is one, is in the currency. -/
def InCurrency (currency : String) (target : AllocationTarget) : Prop :=
  ∀ eligible ∈ target.eligibleAmount, eligible.currency = currency

theorem capped_le (target : AllocationTarget) (x : ℚ) : capped target x ≤ x := by
  unfold capped
  split
  · exact le_rfl
  · exact min_le_right _ _

section Lines

variable {a : Arithmetic} {amount : Money} {ratio : AllocationTarget → ℚ}
variable {method : AllocationMethod} {before : List AllocationTarget} {target : AllocationTarget}

theorem exists_ratioLine {currency : String} (h : InCurrency currency target) (x : ℚ) :
    ∃ line, ratioLine a currency target x = .ok line ∧ line.targetId = target.targetId ∧
      line.allocated.amount = capped target x := by
  unfold ratioLine capped
  cases heligible : target.eligibleAmount with
  | none => exact ⟨_, rfl, rfl, rfl⟩
  | some eligible =>
      have hcurrency : eligible.currency = currency := h eligible heligible
      have hsub : subMoney a eligible ⟨x, currency⟩ =
          .ok ⟨a.ctx.round (eligible.amount - x), eligible.currency⟩ := if_pos hcurrency
      dsimp only
      rw [hsub]
      show ∃ line, (if a.ctx.round (eligible.amount - x) < 0 then _ else _ : Except _ _) = _ ∧ _
      split
      · rename_i hneg
        have hlt : eligible.amount < x := by
          by_contra hle
          exact absurd hneg (not_lt.mpr (a.ctx.round_nonneg (sub_nonneg.mpr (not_lt.mp hle))))
        exact ⟨_, rfl, rfl, (min_eq_left hlt.le).symm⟩
      · rename_i hnonneg
        have hle : x ≤ eligible.amount := by
          by_contra hlt
          have hnonpos := a.ctx.round_nonpos (sub_nonpos.mpr (not_le.mp hlt).le)
          have hzero := a.ctx.round_eq_zero.mp (le_antisymm hnonpos (not_lt.mp hnonneg))
          linarith
        exact ⟨_, rfl, rfl, (min_eq_right hle).symm⟩

/-- **The lines** are the shares and the rest, cut at what is eligible. -/
theorem exists_ratioLines {index i : ℕ} {allocatedSoFar : ℚ}
    (hcurrency : ∀ t ∈ before ++ [target], InCurrency amount.currency t)
    (hfits : ∀ t ∈ before, ShareFits a amount ratio t) (hindex : index = i + before.length) :
    ∃ lines, ratioLines a amount ratio index i allocatedSoFar (before ++ [target]) = .ok lines ∧
      lines.map (·.targetId) = (before ++ [target]).map (·.targetId) ∧
      lines.map (·.allocated.amount) = List.zipWith capped (before ++ [target])
        (shares a amount ratio before ++ [a.ctx.round (amount.amount -
          (shares a amount ratio before).foldl (fun total x => a.ctx.round (total + x))
            allocatedSoFar)]) := by
  induction before generalizing i allocatedSoFar with
  | nil =>
      obtain ⟨line, hline, hid, hamount⟩ := exists_ratioLine (a := a)
        (hcurrency target List.mem_cons_self) (a.ctx.round (amount.amount - allocatedSoFar))
      refine ⟨[line], ?_, ?_, ?_⟩
      · rw [List.nil_append, ratioLines, if_pos (by simpa using hindex.symm), hline]
        rfl
      · simp [hid]
      · simp [hamount, shares]
  | cons t before ih =>
      have ht : ShareFits a amount ratio t := hfits t List.mem_cons_self
      obtain ⟨line, hline, hid, hamount⟩ := exists_ratioLine (a := a)
        (hcurrency t List.mem_cons_self) (share a amount ratio t)
      obtain ⟨lines, hlines, hids, hamounts⟩ := @ih (i + 1)
        (a.ctx.round (allocatedSoFar + share a amount ratio t))
        (fun t' h => hcurrency t' (List.mem_cons_of_mem t h))
        (fun t' h => hfits t' (List.mem_cons_of_mem t h))
        (by rw [hindex, List.length_cons]; omega)
      refine ⟨line :: lines, ?_, ?_, ?_⟩
      · rw [List.cons_append, ratioLines, if_neg (by rw [hindex, List.length_cons]; omega)]
        refine bind_eq_ok.mpr ⟨_, quantizeHalfUp_eq_ok.mpr ⟨ht, rfl⟩, ?_⟩
        exact bind_eq_ok.mpr ⟨_, hline, bind_eq_ok.mpr ⟨_, hlines, rfl⟩⟩
      · simp [hid, hids]
      · simp only [List.map_cons, List.cons_append, hamount, hamounts, shares, List.zipWith_cons_cons,
          List.foldl_cons]

/-- **Amounts that are cut** make up less than before. -/
theorem sum_capped_eq_iff {targets : List AllocationTarget} {xs : List ℚ}
    (h : targets.length = xs.length) :
    (List.zipWith capped targets xs).sum = xs.sum ↔
      List.Forall₂ (fun t x => capped t x = x) targets xs := by
  have hle : ∀ {ts : List AllocationTarget} {ys : List ℚ}, ts.length = ys.length →
      (List.zipWith capped ts ys).sum ≤ ys.sum := by
    intro ts
    induction ts with
    | nil =>
        intro ys hlength
        obtain rfl := List.length_eq_zero_iff.mp hlength.symm
        exact le_rfl
    | cons t ts ih =>
        intro ys hlength
        obtain ⟨y, ys, rfl⟩ := List.exists_cons_of_length_eq_add_one hlength.symm
        rw [List.zipWith_cons_cons, List.sum_cons, List.sum_cons]
        exact add_le_add (capped_le t y) (ih (Nat.succ_inj.mp hlength))
  induction targets generalizing xs with
  | nil =>
      obtain rfl := List.length_eq_zero_iff.mp h.symm
      simp
  | cons t targets ih =>
      obtain ⟨x, xs, rfl⟩ := List.exists_cons_of_length_eq_add_one h.symm
      have hlength : targets.length = xs.length := Nat.succ_inj.mp h
      have hhead := capped_le t x
      have htail := hle hlength
      have hrest := ih hlength
      rw [List.zipWith_cons_cons, List.sum_cons, List.sum_cons, List.forall₂_cons]
      constructor
      · intro hsum
        exact ⟨by linarith, hrest.mp (by linarith)⟩
      · rintro ⟨hx, hxs⟩
        rw [hx, hrest.mpr hxs]

theorem zipWith_capped {targets : List AllocationTarget} {xs : List ℚ}
    (h : List.Forall₂ (fun t x => capped t x = x) targets xs) :
    List.zipWith capped targets xs = xs := by
  induction h with
  | nil => rfl
  | cons hx _ ih => rw [List.zipWith_cons_cons, hx, ih]

end Lines

/-! ### Parts of the amount -/

/-- The amount has a number of places that are not fewer than those of the currency, and the digits of
the context suffice for it and a unit for each target, with some to spare. -/
structure LeavesDigits (a : Arithmetic) (amount : Money) (n : ℕ) (places : ℕ) : Prop where
  nonneg : 0 ≤ amount.amount
  currency_le : a.decimalPlaces amount.currency ≤ places
  hasPlaces : HasPlaces places amount.amount
  digits : 20 * (amount.amount + n) * 10 ^ places ≤ 10 ^ a.ctx.prec

section Parts

variable {a : Arithmetic} {amount : Money} {ratio part : AllocationTarget → ℚ}
variable {method : AllocationMethod} {before : List AllocationTarget} {target : AllocationTarget}
variable {places n : ℕ}

/-- **A share is near its part of the amount** when the ratio is the part, rounded. -/
theorem abs_share_sub_le (h : LeavesDigits a amount n places) {t : AllocationTarget}
    (hratio : ratio t = a.ctx.round (part t)) (hpart : 0 ≤ part t) :
    |share a amount ratio t - amount.amount * part t| * 10 ^ a.decimalPlaces amount.currency ≤
      1 / 2 + part t := by
  set u : ℚ := 10 ^ a.decimalPlaces amount.currency with hu
  set w : ℚ := 10 ^ a.ctx.prec with hw
  have hupos : 0 < u := by positivity
  have hwpos : 0 < w := by positivity
  have hdigits : 20 * amount.amount * u ≤ w := by
    have hpow : u ≤ 10 ^ places := pow_le_pow_right₀ (by norm_num) h.currency_le
    have hn : (0 : ℚ) ≤ n := n.cast_nonneg
    have hprod := mul_le_mul_of_nonneg_left hpow h.nonneg
    have hdig := h.digits
    nlinarith [mul_nonneg hn (show (0 : ℚ) ≤ 10 ^ places by positivity)]
  have hten : 10 ≤ w := by
    have hprec : (10 : ℚ) ^ 1 ≤ 10 ^ a.ctx.prec :=
      pow_le_pow_right₀ (by norm_num) a.ctx.prec_pos
    linarith
  -- the ratio is rounded, then the product, then the share to places
  set y := amount.amount * ratio t with hy
  have hround : |ratio t - part t| * (2 * w) ≤ part t * 10 := by
    have hround := a.ctx.abs_round_sub_le (part t)
    rwa [← hratio, abs_of_nonneg hpart] at hround
  have hround' : |a.ctx.round y - y| * (2 * w) ≤ |y| * 10 := a.ctx.abs_round_sub_le y
  have hquant : |share a amount ratio t - a.ctx.round y| * u ≤ 1 / 2 := by
    have hquant := Decimal.abs_quantize_sub_le (a.decimalPlaces amount.currency) (a.ctx.round y)
    rwa [le_div_iff₀ hupos] at hquant
  have hproduct : |y - amount.amount * part t| = amount.amount * |ratio t - part t| := by
    rw [hy, ← mul_sub, abs_mul, abs_of_nonneg h.nonneg]
  have hsmall : |ratio t - part t| ≤ part t / 2 := by
    have hmul := mul_le_mul_of_nonneg_left hten (abs_nonneg (ratio t - part t))
    linarith
  have hysize : |y| ≤ amount.amount * (part t + |ratio t - part t|) := by
    have hadd := abs_add_le (y - amount.amount * part t) (amount.amount * part t)
    rw [sub_add_cancel, hproduct, abs_of_nonneg (mul_nonneg h.nonneg hpart)] at hadd
    linarith
  have hboth : (|a.ctx.round y - y| + amount.amount * |ratio t - part t|) * (2 * w) ≤
      25 * amount.amount * part t := by
    have h₁ := mul_le_mul_of_nonneg_left hround h.nonneg
    have h₂ := mul_le_mul_of_nonneg_left hsmall h.nonneg
    linarith
  have hunits : (|a.ctx.round y - y| + amount.amount * |ratio t - part t|) * u ≤ part t := by
    have h₁ := mul_le_mul_of_nonneg_right hboth hupos.le
    have h₂ := mul_le_mul_of_nonneg_right hdigits hpart
    have h₃ : (|a.ctx.round y - y| + amount.amount * |ratio t - part t|) * u * (2 * w) ≤
        part t * (2 * w) := by
      have hw' := mul_nonneg hpart hwpos.le
      linarith
    exact le_of_mul_le_mul_right h₃ (by linarith)
  calc |share a amount ratio t - amount.amount * part t| * u
      ≤ (|share a amount ratio t - a.ctx.round y| + (|a.ctx.round y - y| +
          |y - amount.amount * part t|)) * u := by
        refine mul_le_mul_of_nonneg_right ?_ hupos.le
        have h₁ := abs_sub_le (share a amount ratio t) (a.ctx.round y) (amount.amount * part t)
        have h₂ := abs_sub_le (a.ctx.round y) y (amount.amount * part t)
        linarith
    _ = |share a amount ratio t - a.ctx.round y| * u +
          (|a.ctx.round y - y| + amount.amount * |ratio t - part t|) * u := by
        rw [hproduct]
        ring
    _ ≤ 1 / 2 + part t := add_le_add hquant hunits

/-- The shares of some targets are near what their parts make up. -/
theorem abs_sum_shares_sub_le (h : LeavesDigits a amount n places) {targets : List AllocationTarget}
    (hratio : ∀ t, ratio t = a.ctx.round (part t)) (hpart : ∀ t ∈ targets, 0 ≤ part t) :
    |(shares a amount ratio targets).sum - amount.amount * (targets.map part).sum| *
        10 ^ a.decimalPlaces amount.currency ≤ targets.length / 2 + (targets.map part).sum := by
  induction targets with
  | nil => simp [shares]
  | cons t targets ih =>
      have hhead := abs_share_sub_le h (hratio t) (hpart t List.mem_cons_self)
      have htail := ih fun t' ht' => hpart t' (List.mem_cons_of_mem t ht')
      unfold shares at htail ⊢
      rw [List.map_cons, List.sum_cons, List.map_cons, List.sum_cons, List.length_cons]
      have habs := abs_add_le (share a amount ratio t - amount.amount * part t)
        ((targets.map (share a amount ratio)).sum - amount.amount * (targets.map part).sum)
      have hmul := mul_le_mul_of_nonneg_right habs
        (show (0 : ℚ) ≤ 10 ^ a.decimalPlaces amount.currency by positivity)
      rw [show share a amount ratio t + (targets.map (share a amount ratio)).sum -
          amount.amount * (part t + (targets.map part).sum) =
        share a amount ratio t - amount.amount * part t +
          ((targets.map (share a amount ratio)).sum - amount.amount * (targets.map part).sum) by ring]
      push_cast
      linarith

section Rest

variable (h : LeavesDigits a amount (before.length + 1) places)
variable (hratio : ∀ t, ratio t = a.ctx.round (part t))
variable (hpart : ∀ t ∈ before ++ [target], 0 ≤ part t)
variable (hsum : ((before ++ [target]).map part).sum = 1)

include hpart hsum in
theorem part_before : 0 ≤ (before.map part).sum ∧ (before.map part).sum = 1 - part target ∧
    part target ≤ 1 := by
  have hnonneg : 0 ≤ (before.map part).sum := List.sum_nonneg fun x hx => by
    obtain ⟨t, ht, rfl⟩ := List.mem_map.mp hx
    exact hpart t (List.mem_append_left _ ht)
  rw [List.map_append, List.sum_append, List.map_singleton, List.sum_singleton] at hsum
  exact ⟨hnonneg, by linarith, by linarith⟩

include h hratio hpart in
theorem shares_before_nonneg : ∀ x ∈ shares a amount ratio before, 0 ≤ x :=
  shares_nonneg h.nonneg fun t ht => by
    rw [hratio]
    exact a.ctx.round_nonneg (hpart t (List.mem_append_left _ ht))

include h in
theorem digits_lt {x : ℚ} (hx : x ≤ 4 * (amount.amount + (before.length + 1))) :
    x * 10 ^ places < 10 ^ a.ctx.prec := by
  have hdigits := h.digits
  push_cast at hdigits
  have hpow : (0 : ℚ) < 10 ^ places := by positivity
  have hlength : (0 : ℚ) ≤ before.length := Nat.cast_nonneg _
  have hpos := mul_pos (show (0 : ℚ) < amount.amount + (before.length + 1) by linarith [h.nonneg]) hpow
  have hmul := mul_le_mul_of_nonneg_right hx hpow.le
  linarith

include h in
theorem hasPlaces_shares_before : ∀ x ∈ shares a amount ratio before, HasPlaces places x :=
  fun x hx => (hasPlaces_shares x hx).mono h.currency_le

include h hratio hpart hsum

/-- The shares before the last target are not more than the amount and a unit for each. -/
theorem sum_shares_le : (shares a amount ratio before).sum ≤ amount.amount + (before.length + 1) := by
  obtain ⟨hnonneg, hbefore, -⟩ := part_before hpart hsum
  have hnear := @abs_sum_shares_sub_le _ _ _ _ _ _ h before hratio fun t ht =>
    hpart t (List.mem_append_left _ ht)
  have hunit : (1 : ℚ) ≤ 10 ^ a.decimalPlaces amount.currency := one_le_pow₀ (by norm_num)
  have hmul := mul_le_mul_of_nonneg_left hunit (abs_nonneg
    ((shares a amount ratio before).sum - amount.amount * (before.map part).sum))
  have hle := le_abs_self ((shares a amount ratio before).sum - amount.amount * (before.map part).sum)
  have htarget := hpart target (List.mem_append_right _ List.mem_cons_self)
  have hproduct := mul_le_of_le_one_right h.nonneg (show (before.map part).sum ≤ 1 by linarith)
  have hlength : (0 : ℚ) ≤ before.length := Nat.cast_nonneg _
  linarith

/-- The digits of all shares fit. -/
theorem shareFits_of_leavesDigits : ∀ t ∈ before ++ [target], ShareFits a amount ratio t := by
  intro t ht
  have hone : part t ≤ 1 := by
    rw [← hsum]
    refine List.single_le_sum (fun x hx => ?_) (part t) (List.mem_map_of_mem ht)
    obtain ⟨t', ht', rfl⟩ := List.mem_map.mp hx
    exact hpart t' ht'
  have hnear := abs_share_sub_le h (hratio t) (hpart t ht)
  have habs := abs_add_le (share a amount ratio t - amount.amount * part t) (amount.amount * part t)
  rw [sub_add_cancel, abs_of_nonneg (mul_nonneg h.nonneg (hpart t ht))] at habs
  have hproduct := mul_le_of_le_one_right h.nonneg hone
  have hunit : (1 : ℚ) ≤ 10 ^ a.decimalPlaces amount.currency := one_le_pow₀ (by norm_num)
  have hpow : (10 : ℚ) ^ a.decimalPlaces amount.currency ≤ 10 ^ places :=
    pow_le_pow_right₀ (by norm_num) h.currency_le
  have hlength : (0 : ℚ) ≤ before.length := Nat.cast_nonneg _
  have hmul := mul_le_mul_of_nonneg_left hunit
    (abs_nonneg (share a amount ratio t - amount.amount * part t))
  refine lt_of_le_of_lt (mul_le_mul_of_nonneg_left hpow (abs_nonneg _))
    (digits_lt h ?_)
  linarith [h.nonneg]

/-- **What the last target is left** is not rounded. -/
theorem leftFor_eq : leftFor a amount ratio before =
    amount.amount - (shares a amount ratio before).sum := by
  have hle := sum_shares_le h hratio hpart hsum
  have hnonneg := List.sum_nonneg (shares_before_nonneg h hratio hpart)
  have hlength : (0 : ℚ) ≤ before.length := Nat.cast_nonneg _
  have hshares := @hasPlaces_shares_before _ _ ratio _ _ h
  have hsumOf : sumOf a.ctx (shares a amount ratio before) = (shares a amount ratio before).sum :=
    a.ctx.total_eq_sum_of_nonneg hshares (shares_before_nonneg h hratio hpart)
      (digits_lt h (by linarith [h.nonneg]))
  unfold leftFor
  rw [hsumOf]
  refine a.ctx.round_of_places (h.hasPlaces.sub (.list_sum hshares)) (digits_lt h ?_)
  exact abs_le.mpr ⟨by linarith [h.nonneg], by linarith [h.nonneg]⟩

/-- The shares and the rest make up the amount, and adding them up rounds nothing. -/
theorem sumOf_amounts : sumOf a.ctx (amounts a amount ratio before []) = amount.amount := by
  have hle := sum_shares_le h hratio hpart hsum
  have hnonneg := shares_before_nonneg h hratio hpart
  have hsumNonneg := List.sum_nonneg hnonneg
  have hlength : (0 : ℚ) ≤ before.length := Nat.cast_nonneg _
  have hshares := @hasPlaces_shares_before _ _ ratio _ _ h
  have hlist : amounts a amount ratio before [] =
      shares a amount ratio before ++ [amount.amount - (shares a amount ratio before).sum] := by
    unfold amounts
    rw [leftFor_eq h hratio hpart hsum]
    rfl
  have habs : (shares a amount ratio before).map (fun x => |x|) = shares a amount ratio before := by
    rw [List.map_congr_left fun x hx => abs_of_nonneg (hnonneg x hx), List.map_id']
  have hrest : |amount.amount - (shares a amount ratio before).sum| ≤
      amount.amount + (before.length + 1) := abs_le.mpr ⟨by linarith [h.nonneg], by linarith⟩
  rw [hlist]
  refine (@Decimal.Context.total_eq_sum places _ a.ctx (fun x hx => ?_) ?_).trans ?_
  · rcases List.mem_append.mp hx with hx | hx
    · exact hshares x hx
    · rw [List.mem_singleton.mp hx]
      exact h.hasPlaces.sub (.list_sum hshares)
  · rw [List.map_append, List.sum_append, habs, List.map_singleton, List.sum_singleton]
    exact digits_lt h (by linarith [h.nonneg])
  · rw [List.sum_append, List.sum_singleton]
    ring

end Rest

/-! ### The allocation -/

/-- The line of every target is its share, or what is left for the last one, where none is cut. -/
def NoneCut (a : Arithmetic) (amount : Money) (ratio : AllocationTarget → ℚ)
    (before : List AllocationTarget) (target : AllocationTarget) : Prop :=
  List.Forall₂ (fun t x => capped t x = x) (before ++ [target])
    (shares a amount ratio before ++ [amount.amount - (shares a amount ratio before).sum])

theorem noneCut_iff : NoneCut a amount ratio before target ↔
    (∀ t ∈ before, capped t (share a amount ratio t) = share a amount ratio t) ∧
      capped target (amount.amount - (shares a amount ratio before).sum) =
        amount.amount - (shares a amount ratio before).sum := by
  unfold NoneCut
  generalize amount.amount - (shares a amount ratio before).sum = rest
  induction before with
  | nil => simp [shares]
  | cons t before ih =>
      unfold shares at ih ⊢
      rw [List.map_cons, List.cons_append, List.cons_append, List.forall₂_cons, List.forall_mem_cons,
        and_assoc]
      exact and_congr_right fun _ => ih

section Allocation

variable (hcurrency : ∀ t ∈ before ++ [target], InCurrency amount.currency t)
variable (h : LeavesDigits a amount (before.length + 1) places)
variable (hratio : ∀ t, ratio t = a.ctx.round (part t))
variable (hpart : ∀ t ∈ before ++ [target], 0 ≤ part t)
variable (hsum : ((before ++ [target]).map part).sum = 1)

include hcurrency h hratio hpart hsum

/-- The lines, with the rest as it is. -/
theorem exists_lines : ∃ lines,
    ratioLines a amount ratio ((before ++ [target]).length - 1) 0 0 (before ++ [target]) = .ok lines ∧
      lines.map (·.targetId) = (before ++ [target]).map (·.targetId) ∧
      lines.map (·.allocated.amount) = List.zipWith capped (before ++ [target])
        (shares a amount ratio before ++ [amount.amount - (shares a amount ratio before).sum]) := by
  have hfits := shareFits_of_leavesDigits h hratio hpart hsum
  obtain ⟨lines, hlines, hids, hamounts⟩ := @exists_ratioLines a _ ratio _ _
    ((before ++ [target]).length - 1) 0 0 hcurrency (fun t ht => hfits t (List.mem_append_left _ ht)) (by simp)
  refine ⟨lines, hlines, hids, hamounts.trans ?_⟩
  rw [← leftFor_eq h hratio hpart hsum]
  rfl

/-- The lines of an allocation that returns. -/
theorem lines_of_allocateByRatio {result : AllocationResult}
    (hok : allocateByRatio a amount (before ++ [target]) method ratio = .ok result) :
    result.lines.map (·.targetId) = (before ++ [target]).map (·.targetId) ∧
      result.lines.map (·.allocated.amount) = List.zipWith capped (before ++ [target])
        (shares a amount ratio before ++ [amount.amount - (shares a amount ratio before).sum]) := by
  obtain ⟨lines, hlines, hspec⟩ := exists_lines hcurrency h hratio hpart hsum
  obtain ⟨lines', hrun, hok⟩ := bind_eq_ok.mp hok
  obtain rfl := Except.ok.inj (hlines.symm.trans hrun)
  obtain ⟨unallocated, -, hok⟩ := bind_eq_ok.mp hok
  split at hok
  · obtain ⟨naive, -, hok⟩ := bind_eq_ok.mp hok
    obtain rfl := Except.ok.inj hok
    exact hspec
  · cases hok

/-- **An allocation makes up the amount** when no line is cut. -/
theorem allocateByRatio_sum_iff :
    (∃ result, allocateByRatio a amount (before ++ [target]) method ratio = .ok result ∧
      (result.lines.map (·.allocated.amount)).sum = amount.amount) ↔
    NoneCut a amount ratio before target := by
  have hlength : (before ++ [target]).length =
      (shares a amount ratio before ++ [amount.amount - (shares a amount ratio before).sum]).length := by
    simp [shares]
  have htotal : (shares a amount ratio before ++
      [amount.amount - (shares a amount ratio before).sum]).sum = amount.amount := by
    rw [List.sum_append, List.sum_singleton]
    ring
  constructor
  · rintro ⟨result, hok, hresult⟩
    have hamounts := (lines_of_allocateByRatio hcurrency h hratio hpart hsum hok).2
    exact (sum_capped_eq_iff hlength).mp ((congrArg List.sum hamounts).symm.trans
      (hresult.trans htotal.symm))
  · intro hnone
    obtain ⟨lines, hlines, -, hamounts⟩ := exists_lines hcurrency h hratio hpart hsum
    rw [zipWith_capped hnone] at hamounts
    have hsumOf : sumOf a.ctx (lines.map (·.allocated.amount)) = amount.amount := by
      rw [hamounts, ← leftFor_eq h hratio hpart hsum]
      exact sumOf_amounts h hratio hpart hsum
    have hround : a.ctx.round amount.amount = amount.amount := by
      rw [← hsumOf, round_sumOf]
    have hsub : subMoney a amount ⟨amount.amount, amount.currency⟩ = .ok ⟨0, amount.currency⟩ := by
      refine (if_pos rfl).trans ?_
      rw [sub_self, a.ctx.round_zero]
    have hok : allocateByRatio a amount (before ++ [target]) method ratio = .ok {
        sourceAmount := amount
        method := method
        lines := lines
        totalAllocated := ⟨amount.amount, amount.currency⟩
        unallocated := ⟨0, amount.currency⟩
        roundingAdjustment := ⟨a.ctx.round (amount.amount -
          sumOf a.ctx (shares a amount ratio (before ++ [target]))), amount.currency⟩ } := by
      unfold allocateByRatio allocateByRatioTo
      refine bind_eq_ok.mpr ⟨lines, hlines, ?_⟩
      dsimp only
      rw [hsumOf]
      refine bind_eq_ok.mpr ⟨_, hsub, ?_⟩
      rw [if_pos (by rw [add_zero, hround])]
      exact bind_eq_ok.mpr ⟨_, naive_eq_ok.mpr
        ⟨shareFits_of_leavesDigits h hratio hpart hsum, rfl⟩, rfl⟩
    refine ⟨_, hok, ?_⟩
    dsimp only
    rw [hamounts, htotal]

omit hcurrency in
/-- **Every line is near its part**, by less than a unit for each target. -/
theorem lines_near : List.Forall₂ (fun t x => |x - amount.amount * part t| *
    10 ^ a.decimalPlaces amount.currency < before.length + 1) (before ++ [target])
      (shares a amount ratio before ++ [amount.amount - (shares a amount ratio before).sum]) := by
  obtain ⟨hnonneg, hbefore, hone⟩ := part_before hpart hsum
  have htarget := hpart target (List.mem_append_right _ List.mem_cons_self)
  refine List.rel_append ?_ (List.Forall₂.cons ?_ .nil)
  · unfold shares
    rw [List.forall₂_map_right_iff, List.forall₂_same]
    intro t ht
    have hnear := abs_share_sub_le h (hratio t) (hpart t (List.mem_append_left _ ht))
    have hpartOne : part t ≤ 1 := by
      have hle := List.single_le_sum (fun x hx => ?_) (part t) (List.mem_map_of_mem (f := part) ht)
      · linarith
      · obtain ⟨t', ht', rfl⟩ := List.mem_map.mp hx
        exact hpart t' (List.mem_append_left _ ht')
    have hcount : (1 : ℚ) ≤ before.length := by
      exact_mod_cast List.length_pos_of_mem ht
    linarith
  · have hnear := @abs_sum_shares_sub_le _ _ _ _ _ _ h before hratio fun t ht =>
      hpart t (List.mem_append_left _ ht)
    have hrest : amount.amount - (shares a amount ratio before).sum - amount.amount * part target =
        -((shares a amount ratio before).sum - amount.amount * (before.map part).sum) := by
      rw [hbefore]
      ring
    rw [hrest, abs_neg]
    rcases Nat.eq_zero_or_pos before.length with hzero | hpos
    · rw [List.length_eq_zero_iff] at hzero
      subst hzero
      simp [shares]
    · have hcount : (1 : ℚ) ≤ before.length := by exact_mod_cast hpos
      linarith

end Allocation

end Parts

end FinanceAccounting.AllocationEngine
