import Mathlib.Algebra.BigOperators.Ring.List
import FinanceAccounting.Engines.CappedAllocation
import FinanceAccounting.Modules.Service

/-! # Allocating the transaction price

`RevenueRecognitionService.allocate_transaction_price` splits the price of a contract over its
obligations in proportion to their standalone selling prices, or equally when these are zero.  It hands
the selling prices to the allocation engine as eligible amounts, which cap the lines: a price above the
sum of the selling prices is not fully allocated.  `price_allocated_iff` has the exact condition. -/

namespace FinanceAccounting.Revenue

open AllocationEngine
open Modules
open ModulePosting (ModulePostingStatus)
open Traversals (bind_eq_ok)
open UnitOfWork (Session Result)
open Valuation (Money sumOf)

structure PerformanceObligation where
  id : UUID
  standaloneSellingPrice : ℚ

structure SSPAllocation where
  id : UUID
  contractId : UUID
  obligationId : UUID
  standaloneSellingPrice : ℚ
  allocatedAmount : ℚ
  allocationPercentage : ℚ

section Definitions

variable (a : Arithmetic) (newId : ℕ → UUID) (contractId : UUID) (totalPrice : ℚ)
variable (obligations : List PerformanceObligation) (actorId : UUID) (currency : String)

def totalSsp : ℚ := sumOf a.ctx (obligations.map (·.standaloneSellingPrice))

/-- The target of an obligation, with or without its selling price. -/
def obligationTarget (eligible : Bool) (o : PerformanceObligation) : AllocationTarget where
  targetId := o.id.str
  targetType := "obligation"
  eligibleAmount := if eligible then some ⟨o.standaloneSellingPrice, currency⟩ else none

/-- The allocations of the lines; `newId` are the new ids. -/
def allocationsOf (percentage : PerformanceObligation → ℚ) (lines : List AllocationLine) :
    List SSPAllocation :=
  (lines.zip obligations).mapIdx fun i (line, o) =>
    { id := newId i
      contractId := contractId
      obligationId := o.id
      standaloneSellingPrice := o.standaloneSellingPrice
      allocatedAmount := line.allocated.amount
      allocationPercentage := percentage o }

/-- What the engine makes of the price. -/
def sspAllocations : Except AllocationError (List SSPAllocation) :=
  let totalSsp := totalSsp a obligations
  if 0 < totalSsp then do
    let result ← allocate a ⟨totalPrice, currency⟩
      (obligations.map (obligationTarget currency true)) .prorata
    return allocationsOf newId contractId obligations
      (fun o => a.ctx.round (o.standaloneSellingPrice / totalSsp)) result.lines
  else do
    let result ← allocate a ⟨totalPrice, currency⟩
      (obligations.map (obligationTarget currency false)) .equal
    return allocationsOf newId contractId obligations
      (fun _ => a.ctx.round (1 / obligations.length)) result.lines

def priceTransition : TransitionCall :=
  draftPost "revenue_allocate_price" "revenue_contract" contractId actorId (some totalPrice) currency

def priceAllocatedEvent : Event where
  eventType := "revenue.price_allocation"
  payload := payloadOf [
    ("contract_id", .text contractId.str),
    ("total_price", .number totalPrice),
    ("obligation_count", .number obligations.length)]
  amount := totalPrice
  currency := currency

/-- The assertion, the guard and the engine come before the rollback is set up. -/
def allocateTransactionPrice {σ : Type*} (env : Env σ SSPAllocation) (s : Session σ) :
    Result ServiceError σ (List SSPAllocation × ModulePostingStatus) :=
  if obligations.isEmpty then (.error .raised, s)
  else
    (env.runWorkflowGuard (priceTransition contractId totalPrice actorId currency) s).andThen
      fun failure s =>
        match failure with
        | some status => (.ok ([], status), s)
        | none =>
            match sspAllocations a newId contractId totalPrice obligations currency with
            | .error _ => (.error .raised, s)
            | .ok allocations =>
                rollingBack <|
                  (env.postEvent 0 (priceAllocatedEvent contractId totalPrice obligations currency)
                    s).andThen fun status s =>
                      let s := if succeeded status then
                          s.flush (allocations.foldl (fun t r => env.add r t) s.current)
                        else s
                      (env.commitOrRollback status s).andThen fun _ s =>
                        (.ok (allocations, status), s)

/-! ### Full allocation -/

/-- The part of an obligation in the price. -/
def obligationPart (o : PerformanceObligation) : ℚ :=
  if (obligations.map (·.standaloneSellingPrice)).sum = 0 then 1 / obligations.length
  else o.standaloneSellingPrice / (obligations.map (·.standaloneSellingPrice)).sum

/-- **The price is fully allocated**: an allocation for every obligation, in order, which make up the
price, each near its part. -/
structure FullyAllocated (allocations : List SSPAllocation) : Prop where
  inOrder : allocations.map (·.obligationId) = obligations.map (·.id)
  sum : (allocations.map (·.allocatedAmount)).sum = totalPrice
  near : List.Forall₂ (fun o allocation =>
    |allocation.allocatedAmount - totalPrice * obligationPart obligations o| *
      10 ^ a.decimalPlaces currency < obligations.length) obligations allocations

/-- The part of an obligation, rounded to the places of the currency. -/
def roundedPart (o : PerformanceObligation) : ℚ :=
  Decimal.quantize (a.decimalPlaces currency)
    (a.ctx.round (totalPrice * a.ctx.round (o.standaloneSellingPrice / totalSsp a obligations)))

/-- No obligation but the last one has a rounded part above its selling price, and what they leave is
not above the selling price of the last one. -/
structure WithinSsp : Prop where
  parts : ∀ o ∈ obligations.dropLast,
    roundedPart a totalPrice obligations currency o ≤ o.standaloneSellingPrice
  rest : ∀ last ∈ obligations.getLast?, totalPrice -
    (obligations.dropLast.map (roundedPart a totalPrice obligations currency)).sum ≤
      last.standaloneSellingPrice

end Definitions

section Laws

variable {a : Arithmetic} {newId : ℕ → UUID} {contractId : UUID} {totalPrice : ℚ}
variable {obligations : List PerformanceObligation} {currency : String} {places : ℕ}

/-- What is read off the allocations is read off the lines and the obligations. -/
theorem map_allocationsOf {β : Type} (percentage : PerformanceObligation → ℚ)
    (lines : List AllocationLine) (g : SSPAllocation → β) (h : AllocationLine × PerformanceObligation → β)
    (hg : ∀ i line o, g {
      id := newId i
      contractId := contractId
      obligationId := o.id
      standaloneSellingPrice := o.standaloneSellingPrice
      allocatedAmount := line.allocated.amount
      allocationPercentage := percentage o } = h (line, o)) :
    (allocationsOf newId contractId obligations percentage lines).map g =
      (lines.zip obligations).map h := by
  unfold allocationsOf
  refine List.ext_getElem? fun i => ?_
  rw [List.getElem?_map, List.getElem?_mapIdx, List.getElem?_map, Option.map_map]
  refine congrArg (fun k => Option.map k _) (funext fun entry => ?_)
  exact hg i entry.1 entry.2

section Read

variable {percentage : PerformanceObligation → ℚ} {lines : List AllocationLine}
variable (hlength : lines.length = obligations.length)
include hlength

theorem ids_allocationsOf :
    (allocationsOf newId contractId obligations percentage lines).map (·.obligationId) =
      obligations.map (·.id) := by
  have hids := congrArg (List.map PerformanceObligation.id)
    (@List.map_snd_zip _ _ lines obligations hlength.ge)
  rw [List.map_map] at hids
  exact (map_allocationsOf percentage lines _ _ fun _ _ _ => rfl).trans hids

theorem amounts_allocationsOf :
    (allocationsOf newId contractId obligations percentage lines).map (·.allocatedAmount) =
      lines.map (·.allocated.amount) := by
  have hamounts := congrArg (List.map fun line : AllocationLine => line.allocated.amount)
    (@List.map_fst_zip _ _ lines obligations hlength.le)
  rw [List.map_map] at hamounts
  exact (map_allocationsOf percentage lines _ _ fun _ _ _ => rfl).trans hamounts

end Read

/-- **What the engine returns** for targets whose ratios are rounded parts. -/
theorem fullyAllocated_iff {method : AllocationMethod} {ratio part : AllocationTarget → ℚ}
    {toTarget : PerformanceObligation → AllocationTarget} {before : List PerformanceObligation}
    {last : PerformanceObligation} {percentage : PerformanceObligation → ℚ}
    (hcurrency : ∀ o, InCurrency currency (toTarget o))
    (hdigits : LeavesDigits a ⟨totalPrice, currency⟩ (before.length + 1) places)
    (hratio : ∀ t, ratio t = a.ctx.round (part t)) (hpart : ∀ o ∈ before ++ [last], 0 ≤ part (toTarget o))
    (hparts : ∀ o, part (toTarget o) = obligationPart (before ++ [last]) o)
    (hsum : ((before ++ [last]).map fun o => part (toTarget o)).sum = 1) :
    (∃ result, allocateByRatio a ⟨totalPrice, currency⟩ ((before ++ [last]).map toTarget) method ratio =
        .ok result ∧ FullyAllocated a totalPrice (before ++ [last]) currency
          (allocationsOf newId contractId (before ++ [last]) percentage result.lines)) ↔
      NoneCut a ⟨totalPrice, currency⟩ ratio (before.map toTarget) (toTarget last) := by
  have htargets : (before ++ [last]).map toTarget = before.map toTarget ++ [toTarget last] := by
    rw [List.map_append, List.map_singleton]
  have hcurrency' : ∀ t ∈ before.map toTarget ++ [toTarget last], InCurrency currency t := by
    intro t ht
    rw [← htargets] at ht
    obtain ⟨o, -, rfl⟩ := List.mem_map.mp ht
    exact hcurrency o
  have hdigits' : LeavesDigits a ⟨totalPrice, currency⟩ ((before.map toTarget).length + 1) places := by
    rwa [List.length_map]
  have hpart' : ∀ t ∈ before.map toTarget ++ [toTarget last], 0 ≤ part t := by
    intro t ht
    rw [← htargets] at ht
    obtain ⟨o, ho, rfl⟩ := List.mem_map.mp ht
    exact hpart o ho
  have hsum' : ((before.map toTarget ++ [toTarget last]).map part).sum = 1 := by
    rwa [← htargets, List.map_map]
  have hlines : ∀ {result}, allocateByRatio a ⟨totalPrice, currency⟩
      (before.map toTarget ++ [toTarget last]) method ratio = .ok result → _ := fun {result} hok =>
    @lines_of_allocateByRatio _ _ _ _ _ _ _ _ hcurrency' hdigits' hratio hpart' hsum' result hok
  have hlength : ∀ {result}, allocateByRatio a ⟨totalPrice, currency⟩
      (before.map toTarget ++ [toTarget last]) method ratio = .ok result →
        result.lines.length = (before ++ [last]).length := by
    intro result hok
    have hids := congrArg List.length (hlines hok).1
    rwa [List.length_map, List.length_map, ← htargets, List.length_map] at hids
  rw [htargets]
  constructor
  · rintro ⟨result, hok, hfull⟩
    refine (allocateByRatio_sum_iff hcurrency' hdigits' hratio hpart' hsum').mp ⟨result, hok, ?_⟩
    rw [← amounts_allocationsOf (hlength hok)]
    exact hfull.sum
  · intro hnone
    obtain ⟨result, hok, hsumLines⟩ :=
      (@allocateByRatio_sum_iff _ _ _ _ method _ _ _ hcurrency' hdigits' hratio hpart' hsum').mpr hnone
    have hamounts := @amounts_allocationsOf newId contractId _ percentage _ (hlength hok)
    refine ⟨result, hok, ids_allocationsOf (hlength hok), ?_, ?_⟩
    · rw [hamounts]
      exact hsumLines
    · have hnear := lines_near hdigits' hratio hpart' hsum'
      rw [← zipWith_capped hnone, ← (hlines hok).2, ← hamounts, ← htargets, List.forall₂_map_left_iff,
        List.forall₂_map_right_iff] at hnear
      refine hnear.imp fun o allocation h => ?_
      rw [hparts] at h
      rw [List.length_append, List.length_singleton]
      rw [List.length_map] at h
      exact_mod_cast h

theorem eligibleAmounts_obligations (os : List PerformanceObligation) :
    eligibleAmounts ⟨totalPrice, currency⟩ (os.map (obligationTarget currency true)) =
      .ok (os.map (·.standaloneSellingPrice)) := by
  induction os with
  | nil => rfl
  | cons o os ih =>
      rw [List.map_cons, eligibleAmounts, ih]
      exact if_pos rfl

/-- With selling prices the engine allocates in their proportion. -/
theorem sspAllocations_prorata {allocations : List SSPAllocation} (hne : obligations ≠ [])
    (hpos : 0 < totalSsp a obligations) :
    sspAllocations a newId contractId totalPrice obligations currency = .ok allocations ↔
      ∃ result, allocateByRatio a ⟨totalPrice, currency⟩
          (obligations.map (obligationTarget currency true)) .prorata (fun t => a.ctx.round
            ((t.eligibleAmount.getD ⟨0, currency⟩).amount / totalSsp a obligations)) = .ok result ∧
        allocationsOf newId contractId obligations
          (fun o => a.ctx.round (o.standaloneSellingPrice / totalSsp a obligations)) result.lines =
            allocations := by
  have hallocate : allocate a ⟨totalPrice, currency⟩
      (obligations.map (obligationTarget currency true)) .prorata =
        allocateByRatio a ⟨totalPrice, currency⟩ (obligations.map (obligationTarget currency true))
          .prorata fun t => a.ctx.round
            ((t.eligibleAmount.getD ⟨0, currency⟩).amount / totalSsp a obligations) := by
    unfold allocate
    rw [if_neg (by simpa using hne)]
    show allocateProrata _ _ _ = _
    unfold allocateProrata
    rw [eligibleAmounts_obligations]
    show (if totalSsp a obligations = 0 then _ else _) = _
    rw [if_neg hpos.ne']
    rfl
  unfold sspAllocations
  dsimp only
  rw [if_pos hpos, hallocate, bind_eq_ok]
  simp only [pure, Except.pure, Except.ok.injEq]

/-- No share is cut where the parts are within the selling prices. -/
theorem noneCut_obligations_iff {before : List PerformanceObligation} {last : PerformanceObligation} :
    NoneCut a ⟨totalPrice, currency⟩ (fun t => a.ctx.round
        ((t.eligibleAmount.getD ⟨0, currency⟩).amount / totalSsp a (before ++ [last])))
        (before.map (obligationTarget currency true)) (obligationTarget currency true last) ↔
      WithinSsp a totalPrice (before ++ [last]) currency := by
  have hcapped : ∀ (o : PerformanceObligation) (x : ℚ),
      capped (obligationTarget currency true o) x = x ↔ x ≤ o.standaloneSellingPrice :=
    fun o x => min_eq_right_iff
  have hshare : ∀ o, share a ⟨totalPrice, currency⟩ (fun t => a.ctx.round
      ((t.eligibleAmount.getD ⟨0, currency⟩).amount / totalSsp a (before ++ [last])))
      (obligationTarget currency true o) =
        roundedPart a totalPrice (before ++ [last]) currency o := fun o => rfl
  rw [noneCut_iff, List.forall_mem_map, shares, List.map_map, Function.comp_def, hcapped]
  simp only [hcapped, hshare]
  constructor
  · rintro ⟨hparts, hrest⟩
    refine ⟨?_, ?_⟩
    · rwa [List.dropLast_concat]
    · rw [List.dropLast_concat, List.getLast?_concat]
      intro o ho
      obtain rfl := Option.some.inj ho
      exact hrest
  · rintro ⟨hparts, hrest⟩
    rw [List.dropLast_concat] at hparts hrest
    exact ⟨hparts, hrest last List.getLast?_concat⟩

/-- **What the engine returns is a full allocation** when there are no selling prices or the parts are
within them. -/
theorem sspAllocations_iff (hne : obligations ≠ [])
    (hnonneg : ∀ o ∈ obligations, 0 ≤ o.standaloneSellingPrice)
    (hssp : totalSsp a obligations = (obligations.map (·.standaloneSellingPrice)).sum)
    (hdigits : LeavesDigits a ⟨totalPrice, currency⟩ obligations.length places) :
    (∃ allocations, sspAllocations a newId contractId totalPrice obligations currency =
        .ok allocations ∧ FullyAllocated a totalPrice obligations currency allocations) ↔
      (obligations.map (·.standaloneSellingPrice)).sum = 0 ∨
        WithinSsp a totalPrice obligations currency := by
  obtain ⟨before, last, rfl⟩ := (List.eq_nil_or_concat obligations).resolve_left hne
  rw [List.concat_eq_append] at *
  have hlength : (before ++ [last]).length = before.length + 1 := by simp
  have hsize : (0 : ℚ) < (before ++ [last]).length := by
    rw [hlength]
    positivity
  rw [hlength] at hdigits
  have htotalNonneg : 0 ≤ totalSsp a (before ++ [last]) := by
    rw [hssp]
    refine List.sum_nonneg fun x hx => ?_
    obtain ⟨o, ho, rfl⟩ := List.mem_map.mp hx
    exact hnonneg o ho
  rw [← hssp]
  rcases htotalNonneg.eq_or_lt with hzero | hpos
  · -- the engine allocates equally, and without caps
    set ratio : AllocationTarget → ℚ := fun _ => a.ctx.round
      (1 / ((before ++ [last]).map (obligationTarget currency false)).length)
    have hnone : NoneCut a ⟨totalPrice, currency⟩ ratio
        (before.map (obligationTarget currency false)) (obligationTarget currency false last) := by
      refine noneCut_iff.mpr ⟨fun t ht => ?_, rfl⟩
      obtain ⟨o, -, rfl⟩ := List.mem_map.mp ht
      rfl
    obtain ⟨result, hok, hfull⟩ := (@fullyAllocated_iff a newId contractId totalPrice _ _ .equal ratio
      (fun _ => 1 / ((before ++ [last]).map (obligationTarget currency false)).length)
      (obligationTarget currency false) before last
      (fun _ => a.ctx.round (1 / (before ++ [last]).length))
      (fun o e he => by cases he) hdigits (fun _ => rfl) (fun _ _ => by positivity)
      (fun o => by rw [obligationPart, ← hssp, if_pos hzero.symm, List.length_map])
      (by
        rw [List.map_const', List.sum_replicate, nsmul_eq_mul, List.length_map]
        exact mul_one_div_cancel hsize.ne')).mpr hnone
    refine iff_of_true ⟨_, ?_, hfull⟩ (Or.inl hzero.symm)
    unfold sspAllocations
    dsimp only
    rw [← hzero, if_neg (lt_irrefl 0)]
    refine bind_eq_ok.mpr ⟨result, ?_, rfl⟩
    unfold allocate
    rw [if_neg (by simp)]
    exact hok
  · -- the selling prices are proportions and caps
    rw [or_iff_right hpos.ne', ← noneCut_obligations_iff, ← @fullyAllocated_iff a newId contractId
      totalPrice _ _ .prorata _
      (fun t => (t.eligibleAmount.getD ⟨0, currency⟩).amount / totalSsp a (before ++ [last]))
      (obligationTarget currency true) before last
      (fun o => a.ctx.round (o.standaloneSellingPrice / totalSsp a (before ++ [last])))
      (fun o e he => by obtain rfl := Option.some.inj he; rfl) hdigits (fun _ => rfl)
      (fun o ho => div_nonneg (hnonneg o ho) hpos.le)
      (fun o => by rw [obligationPart, ← hssp, if_neg hpos.ne']; rfl)
      (by
        show ((before ++ [last]).map fun o =>
          o.standaloneSellingPrice / totalSsp a (before ++ [last])).sum = 1
        simp only [div_eq_mul_inv]
        rw [List.sum_map_mul_right, ← hssp, mul_inv_cancel₀ hpos.ne'])]
    constructor
    · rintro ⟨allocations, hok, hfull⟩
      obtain ⟨result, hresult, rfl⟩ := (sspAllocations_prorata hne hpos).mp hok
      exact ⟨result, hresult, hfull⟩
    · rintro ⟨result, hresult, hfull⟩
      exact ⟨_, (sspAllocations_prorata hne hpos).mpr ⟨result, hresult, rfl⟩, hfull⟩

/-- **When the price is fully allocated**: for a call that passes the guard, whose posting returns and
whose rows the tables accept, if and only if there are no selling prices or the parts are within
them. -/
theorem price_allocated_iff {σ : Type*} {env : Env σ SSPAllocation} {actorId : UUID}
    {status : ModulePostingStatus} {s s₁ s₂ : Session σ} (hne : obligations ≠ [])
    (hnonneg : ∀ o ∈ obligations, 0 ≤ o.standaloneSellingPrice)
    (hssp : totalSsp a obligations = (obligations.map (·.standaloneSellingPrice)).sum)
    (hdigits : LeavesDigits a ⟨totalPrice, currency⟩ obligations.length places)
    (hguard : env.runWorkflowGuard (priceTransition contractId totalPrice actorId currency) s =
      (.ok none, s₁))
    (hpost : env.postEvent 0 (priceAllocatedEvent contractId totalPrice obligations currency) s₁ =
      (.ok status, s₂))
    (hflush : ∀ t, (env.flush t).isSome) :
    (∃ allocations s', allocateTransactionPrice a newId contractId totalPrice obligations actorId
        currency env s = (.ok (allocations, status), s') ∧
          FullyAllocated a totalPrice obligations currency allocations) ↔
      (obligations.map (·.standaloneSellingPrice)).sum = 0 ∨
        WithinSsp a totalPrice obligations currency := by
  rw [← @sspAllocations_iff _ newId contractId _ _ _ _ hne hnonneg hssp hdigits]
  have hcommit : ∀ s : Session σ, ∃ s', env.commitOrRollback status s = (.ok (), s') := by
    intro s
    unfold Env.commitOrRollback Env.commit
    split
    · obtain ⟨t, ht⟩ := Option.isSome_iff_exists.mp (hflush s.current)
      rw [ht]
      exact ⟨_, rfl⟩
    · exact ⟨_, rfl⟩
  unfold allocateTransactionPrice
  rw [if_neg (by rwa [List.isEmpty_iff]), hguard, Result.ok_andThen]
  dsimp only
  cases hallocations : sspAllocations a newId contractId totalPrice obligations currency with
  | error e =>
      constructor
      · rintro ⟨allocations, s', h, -⟩
        cases h
      · rintro ⟨allocations, h, -⟩
        cases h
  | ok allocations =>
      dsimp only
      rw [hpost, Result.ok_andThen]
      obtain ⟨s', hs'⟩ := hcommit (if succeeded status then
        s₂.flush (allocations.foldl (fun t r => env.add r t) s₂.current) else s₂)
      rw [hs', Result.ok_andThen, rollingBack_ok]
      constructor
      · rintro ⟨allocations', s'', h, hfull⟩
        obtain rfl := (Prod.mk.inj (Except.ok.inj (Prod.mk.inj h).1)).1
        exact ⟨_, rfl, hfull⟩
      · rintro ⟨allocations', h, hfull⟩
        obtain rfl := Except.ok.inj h
        exact ⟨_, _, rfl, hfull⟩

end Laws

/-! ### Prices above and below the selling prices -/

/-- A service whose guard passes, on tables of which only the size matters. -/
def acceptingEnv : Env ℕ SSPAllocation where
  executeTransition _ s := (.ok { success := true }, s)
  postEvent _ _ s := (.ok .posted, s)
  add _ t := t + 1
  flush := some
  rows := id
  committed_executeTransition _ _ := rfl
  committed_postEvent _ _ _ := rfl
  rows_executeTransition _ _ _ _ h := by rw [(Prod.mk.inj h).2]
  rows_postEvent _ _ _ _ _ h := by rw [(Prod.mk.inj h).2]
  rows_add _ _ := rfl

/-- Obligations with these selling prices. -/
def sampleObligations (prices : List ℚ) : List PerformanceObligation :=
  prices.map (PerformanceObligation.mk ⟨1⟩)

/-- A call with these obligations. -/
def sampleAllocation (totalPrice : ℚ) (prices : List ℚ) :
    Result ServiceError ℕ (List SSPAllocation × ModulePostingStatus) :=
  allocateTransactionPrice dollars (fun n => ⟨n⟩) ⟨2⟩ totalPrice (sampleObligations prices) ⟨3⟩ "USD"
    acceptingEnv (Session.start 0)

theorem price_allocated_discount : ∃ allocations s',
    sampleAllocation 90 [60, 40] = (.ok (allocations, .posted), s') ∧
      FullyAllocated dollars 90 (sampleObligations [60, 40]) "USD" allocations :=
  (@price_allocated_iff _ _ _ _ _ _ 2 _ _ _ _ _ _ _ (by decide) (by decide +kernel) (by decide +kernel)
    ⟨by decide +kernel, by decide, ⟨9000, by decide +kernel⟩, by decide +kernel⟩ rfl rfl
      fun _ => rfl).mpr (.inr ⟨by decide +kernel, by decide +kernel⟩)

/-- **Amounts that are lost**: of a premium, what is above the selling prices; of a discount on ten
obligations, what rounding leaves to the last one above its selling price. -/
theorem price_not_allocated :
    (¬∃ allocations s', sampleAllocation 150 [60, 40] = (.ok (allocations, .posted), s') ∧
      FullyAllocated dollars 150 (sampleObligations [60, 40]) "USD" allocations) ∧
    ¬∃ allocations s', sampleAllocation (9994 / 100) (List.replicate 10 10) =
        (.ok (allocations, .posted), s') ∧
      FullyAllocated dollars (9994 / 100) (sampleObligations (List.replicate 10 10)) "USD"
        allocations := by
  have hvalue : (sampleAllocation 150 [60, 40]).1.toOption.map (fun r =>
      (r.1.map (·.allocatedAmount)).sum) = some 100 := by decide +kernel
  have hvalue' : (sampleAllocation (9994 / 100) (List.replicate 10 10)).1.toOption.map (fun r =>
      (r.1.map (·.allocatedAmount)).sum) = some (9991 / 100) := by decide +kernel
  constructor
  · rintro ⟨allocations, s', hrun, hfull⟩
    rw [hrun] at hvalue
    have hsum := hfull.sum.symm.trans (Option.some.inj hvalue)
    norm_num at hsum
  · rintro ⟨allocations, s', hrun, hfull⟩
    rw [hrun] at hvalue'
    have hsum := hfull.sum.symm.trans (Option.some.inj hvalue')
    norm_num at hsum

end FinanceAccounting.Revenue
