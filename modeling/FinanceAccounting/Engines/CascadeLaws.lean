import FinanceAccounting.Engines.AllocationCascade
import FinanceAccounting.Library.Traversals
import Mathlib.Data.List.Dedup

/-! # What a cascade of indirect costs conserves

Every pool ends with its balance and what the steps put in it.  A step applies its rate to the balance
of its pool or to the running total of the steps before it: what their pools had when they were drawn
on, and what they allocated.  So an allocated amount is in the running total twice when its pool is
drawn on later, and every dollar once when the pools drawn on are distinct and have not been fed
before (`executeCascade_conserves`).  Amounts are rounded to two places in any currency. -/

namespace FinanceAccounting.AllocationCascade

open Traversals (bind_eq_ok)
open Valuation (Money)

section Definitions

variable (ctx : Decimal.Context) (balances : Balances) (rates : Rates) (currency : String)

/-- The amount in a pool. -/
def poolAmount (pool : String) : ℚ := ((balances pool).getD ⟨0, currency⟩).amount

/-- The amounts that the steps put in a pool. -/
def into (pool : String) (results : List AllocationStepResult) : List ℚ :=
  (results.filter fun result => result.step.poolTo = pool).map (·.amountAllocated.amount)

/-- What the steps add to the running total. -/
def counted (results : List AllocationStepResult) : List ℚ :=
  results.flatMap fun result => [result.sourceBalance.amount, result.amountAllocated.amount]

/-- Numbers added up by the context. -/
def running (x : ℚ) (xs : List ℚ) : ℚ := xs.foldl (fun total x => ctx.round (total + x)) x

/-- The base of a step after other steps, as the context computes it. -/
def runningBase (before : List AllocationStepResult) (step : AllocationStep) : ℚ :=
  match step.base with
  | .poolBalance => running ctx (poolAmount balances currency step.poolFrom) (into step.poolFrom before)
  | .cumulative => running ctx 0 (counted before)

/-- The sum of what the base is made up of. -/
def summedBase (before : List AllocationStepResult) (step : AllocationStep) : ℚ :=
  match step.base with
  | .poolBalance => poolAmount balances currency step.poolFrom + (into step.poolFrom before).sum
  | .cumulative => (counted before).sum

/-- Every dollar once: what each of the pools had at first, and what was allocated. -/
def onceBase (before : List AllocationStepResult) (step : AllocationStep) : ℚ :=
  match step.base with
  | .poolBalance => poolAmount balances currency step.poolFrom + (into step.poolFrom before).sum
  | .cumulative =>
      ((before.map (·.step.poolFrom)).dedup.map (poolAmount balances currency)).sum +
        (before.map (·.amountAllocated.amount)).sum

/-- The rate of a step applied to a base, rounded. -/
def amountOf (places : ℕ) (base : ℚ) (step : AllocationStep) : ℚ :=
  Decimal.quantize places (ctx.round (base * (rates step.rateType).getD 0))

/-- Every step's amount is its rate applied to this base, rounded to these places. -/
def Allocates (places : ℕ) (base : List AllocationStepResult → AllocationStep → ℚ)
    (results : List AllocationStepResult) : Prop :=
  ∀ before result after, results = before ++ result :: after →
    result.amountAllocated = ⟨amountOf ctx rates places (base before result.step) result.step, currency⟩

/-- **The cascade conserves pools**: every pool has its balance and what the steps put in it. -/
structure Conserves (places : ℕ) (base : List AllocationStepResult → AllocationStep → ℚ)
    (results : List AllocationStepResult) (final : Balances) : Prop where
  pools : ∀ pool, poolAmount final currency pool =
    poolAmount balances currency pool + (into pool results).sum
  allocates : Allocates ctx rates currency places base results

/-- What a cascade does, as the context computes it. -/
structure Runs (results : List AllocationStepResult) (final : Balances) : Prop where
  pools : ∀ pool, poolAmount final currency pool =
    running ctx (poolAmount balances currency pool) (into pool results)
  allocates : Allocates ctx rates currency 2 (runningBase ctx balances currency) results
  sources : ∀ before result after, results = before ++ result :: after →
    result.sourceBalance.amount =
      running ctx (poolAmount balances currency result.step.poolFrom)
        (into result.step.poolFrom before)

/-- The balances have these places, and what is added up has no more digits than the context. -/
structure SumsFit (results : List AllocationStepResult) (places : ℕ) : Prop where
  two_le : 2 ≤ places
  written : ∀ pool, Decimal.HasPlaces places (poolAmount balances currency pool)
  pools : ∀ pool, (|poolAmount balances currency pool| + ((into pool results).map fun x => |x|).sum) *
    10 ^ places < 10 ^ ctx.prec
  total : ((counted results).map fun x => |x|).sum * 10 ^ places < 10 ^ ctx.prec

/-- The digits of the amount of a step fit. -/
def AmountFits (before : List AllocationStepResult) (step : AllocationStep) : Prop :=
  |amountOf ctx rates 2 (runningBase ctx balances currency before step) step| * 10 ^ 2 < 10 ^ ctx.prec

instance (before : List AllocationStepResult) (step : AllocationStep) :
    Decidable (AmountFits ctx balances rates currency before step) :=
  inferInstanceAs (Decidable (_ < _))

end Definitions

/-- No pool is drawn on twice, or after a step that put something in it. -/
def DrawnOnce (steps : List AllocationStep) : Prop :=
  steps.Pairwise fun earlier later =>
    earlier.poolFrom ≠ later.poolFrom ∧ earlier.poolTo ≠ later.poolFrom

instance (steps : List AllocationStep) : Decidable (DrawnOnce steps) :=
  inferInstanceAs (Decidable (List.Pairwise _ _))

/-! ### One step -/

section Steps

variable {ctx : Decimal.Context} {balances now now' final : Balances} {rates : Rates}
variable {currency pool : String} {step : AllocationStep} {steps : List AllocationStep}
variable {cumulative : Money} {result : AllocationStepResult}
variable {before results : List AllocationStepResult}

/-- The balances and the running total after the steps so far. -/
structure Reached (ctx : Decimal.Context) (balances : Balances) (currency : String)
    (before : List AllocationStepResult) (now : Balances) (cumulative : Money) : Prop where
  pools : ∀ pool, poolAmount now currency pool =
    running ctx (poolAmount balances currency pool) (into pool before)
  cumulative : cumulative.amount = running ctx 0 (counted before)

theorem reached_nil (ctx : Decimal.Context) (balances : Balances) (currency : String) :
    Reached ctx balances currency [] balances ⟨0, currency⟩ := ⟨fun _ => rfl, rfl⟩

theorem running_append (x : ℚ) (xs ys : List ℚ) :
    running ctx x (xs ++ ys) = running ctx (running ctx x xs) ys := List.foldl_append

theorem into_append (pool : String) (xs ys : List AllocationStepResult) :
    into pool (xs ++ ys) = into pool xs ++ into pool ys := by
  unfold into
  rw [List.filter_append, List.map_append]

theorem counted_append (xs ys : List AllocationStepResult) :
    counted (xs ++ ys) = counted xs ++ counted ys := List.flatMap_append

/-- The base of the code is the running base. -/
theorem baseAmount_eq (h : Reached ctx balances currency before now cumulative) :
    (step.baseAmount ((now step.poolFrom).getD ⟨0, currency⟩) cumulative).amount =
      runningBase ctx balances currency before step := by
  unfold AllocationStep.baseAmount runningBase
  cases step.base with
  | poolBalance => exact h.pools step.poolFrom
  | cumulative => exact h.cumulative

/-- The balances after something is put in a pool. -/
theorem poolAmount_update (pool : String) (amount : ℚ) (before : List AllocationStepResult)
    (hresult : result.step = step) (hallocated : result.amountAllocated.amount = amount)
    (h : Reached ctx balances currency before now cumulative) :
    poolAmount (Function.update now step.poolTo
        (some ⟨ctx.round (poolAmount now currency step.poolTo + amount), currency⟩)) currency pool =
      running ctx (poolAmount balances currency pool) (into pool (before ++ [result])) := by
  rw [into_append, running_append, ← h.pools]
  unfold poolAmount into
  by_cases hpool : step.poolTo = pool
  · subst hpool
    rw [Function.update_self, List.filter_cons_of_pos (by simp [hresult])]
    show _ = ctx.round (_ + result.amountAllocated.amount)
    rw [hallocated]
    rfl
  · rw [Function.update_of_ne (Ne.symm hpool), List.filter_cons_of_neg (by simpa [hresult] using hpool)]
    rfl

/-- **One step**: it returns when its amount fits, and what it does. -/
theorem executeStep_cases (rates : Rates) (step : AllocationStep)
    (h : Reached ctx balances currency before now cumulative) :
    (¬AmountFits ctx balances rates currency before step ∧
      executeStep ctx rates currency step now cumulative = .error .invalidOperation) ∨
    ∃ result now', executeStep ctx rates currency step now cumulative = .ok (result, now') ∧
      result.step = step ∧
      result.sourceBalance.amount =
        running ctx (poolAmount balances currency step.poolFrom) (into step.poolFrom before) ∧
      result.amountAllocated =
        ⟨amountOf ctx rates 2 (runningBase ctx balances currency before step) step, currency⟩ ∧
      Reached ctx balances currency (before ++ [result]) now' result.cumulativeBase := by
  set source := (now step.poolFrom).getD ⟨0, currency⟩ with hsource
  set amount := amountOf ctx rates 2 (runningBase ctx balances currency before step) step with hamount
  have hproduct : ctx.quantizeTo 2 (ctx.round
      ((step.baseAmount source cumulative).amount * (rates step.rateType).getD 0)) =
      if AmountFits ctx balances rates currency before step then Except.ok amount
      else .error .invalidOperation := by
    rw [baseAmount_eq h]
    rfl
  have hrun : executeStep ctx rates currency step now cumulative =
      ctx.quantizeTo 2 (ctx.round
        ((step.baseAmount source cumulative).amount * (rates step.rateType).getD 0)) >>=
      fun allocated => .ok
        (⟨step, source, (rates step.rateType).getD 0, ⟨allocated, currency⟩,
          ⟨ctx.round (ctx.round (cumulative.amount + source.amount) + allocated), currency⟩⟩,
        Function.update now step.poolTo
          (some ⟨ctx.round (poolAmount now currency step.poolTo + allocated), currency⟩)) := rfl
  rw [hrun, hproduct]
  by_cases hfits : AmountFits ctx balances rates currency before step
  · rw [if_pos hfits]
    refine Or.inr ⟨_, _, rfl, rfl, h.pools step.poolFrom, rfl, fun pool => ?_, ?_⟩
    · exact poolAmount_update pool amount before rfl rfl h
    · rw [counted_append, running_append, ← h.cumulative]
      rfl
  · rw [if_neg hfits]
    exact Or.inl ⟨hfits, rfl⟩

/-- **A run**: what it has done, or the first step whose amount does not fit. -/
theorem executeSteps_cases (rates : Rates) (steps : List AllocationStep)
    (h : Reached ctx balances currency before now cumulative) :
    (∃ done step rest results, steps = done ++ step :: rest ∧
      executeSteps ctx rates currency done now cumulative = .ok results ∧
      ¬AmountFits ctx balances rates currency (before ++ results.1) step ∧
      executeSteps ctx rates currency steps now cumulative = .error .invalidOperation) ∨
    ∃ results final cumulative',
      executeSteps ctx rates currency steps now cumulative = .ok (results, final) ∧
      results.map (·.step) = steps ∧
      Reached ctx balances currency (before ++ results) final cumulative' ∧
      ∀ earlier result later, results = earlier ++ result :: later →
        result.sourceBalance.amount = running ctx (poolAmount balances currency result.step.poolFrom)
            (into result.step.poolFrom (before ++ earlier)) ∧
          result.amountAllocated = ⟨amountOf ctx rates 2
            (runningBase ctx balances currency (before ++ earlier) result.step) result.step,
              currency⟩ := by
  induction steps generalizing before now cumulative with
  | nil =>
      refine Or.inr ⟨[], now, cumulative, rfl, rfl, by rwa [List.append_nil], ?_⟩
      intro earlier result later hsplit
      exact absurd (congrArg List.length hsplit) (by simp)
  | cons step steps ih =>
      rcases executeStep_cases rates step h with
        ⟨hfits, hrun⟩ | ⟨result, now', hrun, hstep, hsource, hallocated, hreached⟩
      · refine Or.inl ⟨[], step, steps, _, rfl, rfl, ?_, ?_⟩
        · rwa [List.append_nil]
        · unfold executeSteps
          rw [hrun]
          rfl
      · rcases ih hreached with
          ⟨done, next, rest, results, hsteps, hdone, hfits, herror⟩ |
          ⟨results, final, cumulative', hok, hmap, hfinal, hall⟩
        · refine Or.inl ⟨step :: done, next, rest, (result :: results.1, results.2), ?_, ?_, ?_, ?_⟩
          · rw [hsteps, List.cons_append]
          · exact executeSteps_cons ctx hrun hdone
          · rwa [List.append_assoc] at hfits
          · unfold executeSteps
            rw [hrun]
            dsimp only [bind, Except.bind]
            rw [herror]
        · refine Or.inr ⟨result :: results, final, cumulative', executeSteps_cons ctx hrun hok, ?_, ?_, ?_⟩
          · rw [List.map_cons, hstep, hmap]
          · rwa [List.append_assoc] at hfinal
          · intro earlier other later hsplit
            cases earlier with
            | nil =>
                obtain ⟨rfl, -⟩ := List.cons.inj hsplit
                rw [List.append_nil, hstep]
                exact ⟨hsource, hallocated⟩
            | cons first earlier =>
                obtain ⟨rfl, htail⟩ := List.cons.inj hsplit
                have hlaw := hall earlier other later htail
                rwa [List.append_assoc] at hlaw

/-- What a cascade that returns has done. -/
theorem runs_of_executeCascade
    (h : executeCascade ctx steps balances rates currency = .ok (results, final)) :
    results.map (·.step) = steps ∧ Runs ctx balances rates currency results final := by
  rcases executeSteps_cases rates steps (reached_nil ctx balances currency) with
    ⟨_, _, _, _, _, _, _, herror⟩ | ⟨results', final', cumulative', hok, hmap, hfinal, hall⟩
  · exact absurd (h.symm.trans herror) (fun h => nomatch h)
  · obtain ⟨rfl, rfl⟩ := Prod.mk.inj (Except.ok.inj (h.symm.trans hok))
    exact ⟨hmap, hfinal.pools, fun earlier result later hsplit => (hall earlier result later hsplit).2,
      fun earlier result later hsplit => (hall earlier result later hsplit).1⟩

/-- **A cascade returns** unless the amount of a step does not fit. -/
theorem overflow_of_executeCascade (e : Decimal.Signal) :
    executeCascade ctx steps balances rates currency = .error e →
      ∃ done step rest results, steps = done ++ step :: rest ∧
        executeCascade ctx done balances rates currency = .ok results ∧
        ¬AmountFits ctx balances rates currency results.1 step := by
  intro h
  rcases executeSteps_cases rates steps (reached_nil ctx balances currency) with
    ⟨done, step, rest, results, hsteps, hdone, hfits, -⟩ | ⟨_, _, _, hok, -, -, -⟩
  · exact ⟨done, step, rest, results, hsteps, hdone, hfits⟩
  · exact absurd (h.symm.trans hok) (fun h => nomatch h)

end Steps

/-! ### Sums without rounding -/

section Sums

variable {ctx : Decimal.Context} {balances final : Balances} {rates : Rates} {currency : String}
variable {before after results : List AllocationStepResult} {result : AllocationStepResult}
variable {step : AllocationStep} {places : ℕ}

theorem abs_sum_append (xs ys : List ℚ) :
    ((xs ++ ys).map fun x => |x|).sum = (xs.map fun x => |x|).sum + (ys.map fun x => |x|).sum := by
  rw [List.map_append, List.sum_append]

theorem abs_sum_nonneg (xs : List ℚ) : 0 ≤ (xs.map fun x => |x|).sum := by
  refine List.sum_nonneg fun x hx => ?_
  obtain ⟨y, -, rfl⟩ := List.mem_map.mp hx
  exact abs_nonneg y

theorem exists_split (h : result ∈ results) : ∃ before after, results = before ++ result :: after :=
  List.append_of_mem h

theorem hasPlaces_allocated (h : Runs ctx balances rates currency results final)
    (hmem : result ∈ results) : Decimal.HasPlaces 2 result.amountAllocated.amount := by
  obtain ⟨before, after, hsplit⟩ := exists_split hmem
  rw [h.allocates before result after hsplit]
  exact Decimal.hasPlaces_quantize _ _

theorem hasPlaces_into (h : Runs ctx balances rates currency results final)
    (hsub : ∀ r ∈ before, r ∈ results) (htwo : 2 ≤ places) (pool : String) :
    ∀ x ∈ into pool before, Decimal.HasPlaces places x := by
  intro x hx
  obtain ⟨r, hr, rfl⟩ := List.mem_map.mp hx
  exact (hasPlaces_allocated h (hsub r (List.mem_of_mem_filter hr))).mono htwo

theorem mem_of_mem_before (hsplit : results = before ++ after) : ∀ r ∈ before, r ∈ results := by
  intro r hr
  rw [hsplit]
  exact List.mem_append_left after hr

/-- What is in a pool at any time is not rounded. -/
theorem running_pool (h : Runs ctx balances rates currency results final)
    (hfit : SumsFit ctx balances currency results places) (hsplit : results = before ++ after)
    (pool : String) :
    running ctx (poolAmount balances currency pool) (into pool before) =
      poolAmount balances currency pool + (into pool before).sum := by
  refine ctx.foldl_add_eq _ _ (hfit.written pool)
    (hasPlaces_into h (mem_of_mem_before hsplit) hfit.two_le pool) (lt_of_le_of_lt ?_ (hfit.pools pool))
  refine mul_le_mul_of_nonneg_right ?_ (by positivity)
  rw [hsplit, into_append, abs_sum_append]
  have hnonneg := abs_sum_nonneg (into pool after)
  linarith

/-- What a step draws on, as a sum. -/
theorem source_eq (h : Runs ctx balances rates currency results final)
    (hfit : SumsFit ctx balances currency results places)
    (hsplit : results = before ++ result :: after) :
    result.sourceBalance.amount = poolAmount balances currency result.step.poolFrom +
      (into result.step.poolFrom before).sum := by
  rw [h.sources before result after hsplit, running_pool h hfit hsplit]

theorem hasPlaces_counted (h : Runs ctx balances rates currency results final)
    (hfit : SumsFit ctx balances currency results places) :
    ∀ x ∈ counted results, Decimal.HasPlaces places x := by
  intro x hx
  obtain ⟨r, hr, hx⟩ := List.mem_flatMap.mp hx
  rcases List.mem_cons.mp hx with rfl | hx
  · obtain ⟨before, after, hsplit⟩ := exists_split hr
    rw [source_eq h hfit hsplit]
    exact (hfit.written _).add (.list_sum
      (hasPlaces_into h (mem_of_mem_before hsplit) hfit.two_le _))
  · rw [List.mem_singleton.mp hx]
    exact (hasPlaces_allocated h hr).mono hfit.two_le

/-- The running total is not rounded. -/
theorem running_counted (h : Runs ctx balances rates currency results final)
    (hfit : SumsFit ctx balances currency results places) (hsplit : results = before ++ after) :
    running ctx 0 (counted before) = (counted before).sum := by
  have hplaces : ∀ x ∈ counted before, Decimal.HasPlaces places x := fun x hx => by
    refine hasPlaces_counted h hfit x ?_
    rw [hsplit, counted_append]
    exact List.mem_append_left _ hx
  refine ctx.total_eq_sum hplaces (lt_of_le_of_lt ?_ hfit.total)
  refine mul_le_mul_of_nonneg_right ?_ (by positivity)
  rw [hsplit, counted_append, abs_sum_append]
  exact le_add_of_nonneg_right (abs_sum_nonneg _)

/-- **Where the sums fit, a base is the sum of what it is made up of.** -/
theorem runningBase_eq_summedBase (h : Runs ctx balances rates currency results final)
    (hfit : SumsFit ctx balances currency results places) (hsplit : results = before ++ after)
    (step : AllocationStep) :
    runningBase ctx balances currency before step = summedBase balances currency before step := by
  unfold runningBase summedBase
  cases step.base with
  | poolBalance => exact running_pool h hfit hsplit step.poolFrom
  | cumulative => exact running_counted h hfit hsplit

theorem sum_counted (results : List AllocationStepResult) :
    (counted results).sum = (results.map (·.sourceBalance.amount)).sum +
      (results.map (·.amountAllocated.amount)).sum := by
  induction results with
  | nil => exact (add_zero 0).symm
  | cons r rs ih =>
      have hcons : counted (r :: rs) =
          r.sourceBalance.amount :: r.amountAllocated.amount :: counted rs := rfl
      rw [hcons, List.sum_cons, List.sum_cons, ih, List.map_cons, List.map_cons, List.sum_cons,
        List.sum_cons]
      ring

/-- Nothing was put in a pool that is drawn on. -/
theorem into_eq_nil (hdrawn : DrawnOnce (results.map (·.step)))
    (hsplit : results = before ++ result :: after) : into result.step.poolFrom before = [] := by
  unfold DrawnOnce at hdrawn
  rw [List.pairwise_map, hsplit] at hdrawn
  unfold into
  rw [List.map_eq_nil_iff, List.filter_eq_nil_iff]
  intro r hr
  have hlaw := (List.pairwise_append.mp hdrawn).2.2 r hr result List.mem_cons_self
  simpa using hlaw.2

/-- **Every dollar is counted once** where the pools drawn on are distinct and were not fed before. -/
theorem summedBase_eq_onceBase (h : Runs ctx balances rates currency results final)
    (hfit : SumsFit ctx balances currency results places)
    (hdrawn : DrawnOnce (results.map (·.step))) (hsplit : results = before ++ after)
    (step : AllocationStep) :
    summedBase balances currency before step = onceBase balances currency before step := by
  unfold summedBase onceBase
  cases step.base with
  | poolBalance => rfl
  | cumulative =>
      show (counted before).sum = _
      have hnodup : (before.map (·.step.poolFrom)).Nodup := by
        unfold DrawnOnce at hdrawn
        rw [List.pairwise_map, hsplit] at hdrawn
        rw [List.Nodup, List.pairwise_map]
        exact (List.pairwise_append.mp hdrawn).1.imp fun hlaw => hlaw.1
      rw [sum_counted, List.Nodup.dedup hnodup, List.map_map]
      congr 2
      refine List.map_congr_left fun r hr => ?_
      obtain ⟨first, last, hr⟩ := exists_split hr
      have hwhole : results = first ++ r :: (last ++ after) := by
        rw [hsplit, hr, List.append_assoc, List.cons_append]
      rw [source_eq h hfit hwhole, into_eq_nil hdrawn hwhole, List.sum_nil, add_zero]
      rfl

end Sums

/-- **A cascade conserves pools**: it returns unless the amount of a step does not fit, with the
balances and the running totals that the context computes.  Where the sums fit, every pool has its
balance and what was put in it, and every amount is the rate of what the base is made up of; where no
pool is drawn on twice or after it was fed, of every dollar once. -/
theorem executeCascade_conserves (ctx : Decimal.Context) (steps : List AllocationStep)
    (balances : Balances) (rates : Rates) (currency : String) :
    (∀ results final, executeCascade ctx steps balances rates currency = .ok (results, final) →
      results.map (·.step) = steps ∧ Runs ctx balances rates currency results final ∧
      ∀ places, SumsFit ctx balances currency results places →
        Conserves ctx balances rates currency 2 (summedBase balances currency) results final ∧
        (DrawnOnce steps →
          Conserves ctx balances rates currency 2 (onceBase balances currency) results final)) ∧
    (∀ e, executeCascade ctx steps balances rates currency = .error e →
      ∃ done step rest results, steps = done ++ step :: rest ∧
        executeCascade ctx done balances rates currency = .ok results ∧
        ¬AmountFits ctx balances rates currency results.1 step) ∧
    DrawnOnce buildDcaaCascade := by
  refine ⟨fun results final hrun => ?_, overflow_of_executeCascade, by decide⟩
  obtain ⟨hsteps, hruns⟩ := runs_of_executeCascade hrun
  refine ⟨hsteps, hruns, fun places hfit => ?_⟩
  have hpools : ∀ pool, poolAmount final currency pool =
      poolAmount balances currency pool + (into pool results).sum := fun pool => by
    rw [hruns.pools pool]
    exact running_pool hruns hfit (List.append_nil results).symm pool
  refine ⟨⟨hpools, ?_⟩, fun hdrawn => ⟨hpools, ?_⟩⟩
  · intro before result after hsplit
    rw [hruns.allocates before result after hsplit, runningBase_eq_summedBase hruns hfit hsplit]
  · rw [← hsteps] at hdrawn
    intro before result after hsplit
    rw [hruns.allocates before result after hsplit, runningBase_eq_summedBase hruns hfit hsplit,
      summedBase_eq_onceBase hruns hfit hdrawn hsplit]

/-- A step that applies a rate to the pool it draws on, or to the running total. -/
def sampleStep (poolFrom poolTo : String) (base : AllocationBase) : AllocationStep where
  poolFrom := poolFrom
  poolTo := poolTo
  rateType := "rate"
  base := base

/-- The result of such a step in a cascade at a tenth. -/
def sampleResult (step : AllocationStep) (currency : String) (source allocated cumulative : ℚ) :
    AllocationStepResult where
  step := step
  sourceBalance := ⟨source, currency⟩
  rateApplied := 1 / 10
  amountAllocated := ⟨allocated, currency⟩
  cumulativeBase := ⟨cumulative, currency⟩

/-- One pool has a balance. -/
def sampleBalances (amount : ℚ) (currency : String) : Balances :=
  Function.update (fun _ => none) "A" (some ⟨amount, currency⟩)

/-- **An allocated amount is counted twice** when its pool is drawn on: of 100, 10 and 1 the running
total is 121.  And half a yen is allocated. -/
theorem cascade_counts_twice :
    (∃ results final, executeCascade Hashing.defaultContext
        [sampleStep "A" "B" .poolBalance, sampleStep "B" "C" .poolBalance,
          sampleStep "D" "E" .cumulative]
        (sampleBalances 100 "USD") (fun _ => some (1 / 10)) "USD" = .ok (results, final) ∧
      ¬Conserves Hashing.defaultContext (sampleBalances 100 "USD") (fun _ => some (1 / 10)) "USD" 2
        (onceBase (sampleBalances 100 "USD") "USD") results final) ∧
    (∃ results final, executeCascade Hashing.defaultContext [sampleStep "A" "B" .poolBalance]
        (sampleBalances 5 "JPY") (fun _ => some (1 / 10)) "JPY" = .ok (results, final) ∧
      ¬Conserves Hashing.defaultContext (sampleBalances 5 "JPY") (fun _ => some (1 / 10)) "JPY" 0
        (onceBase (sampleBalances 5 "JPY") "JPY") results final) := by
  constructor
  · have hvalue : (executeCascade Hashing.defaultContext
        [sampleStep "A" "B" .poolBalance, sampleStep "B" "C" .poolBalance,
          sampleStep "D" "E" .cumulative]
        (sampleBalances 100 "USD") (fun _ => some (1 / 10)) "USD").toOption.map (·.1) =
        some [sampleResult (sampleStep "A" "B" .poolBalance) "USD" 100 10 110,
          sampleResult (sampleStep "B" "C" .poolBalance) "USD" 10 1 121,
          sampleResult (sampleStep "D" "E" .cumulative) "USD" 0 (121 / 10) (1331 / 10)] := by
      decide +kernel
    obtain ⟨⟨results, final⟩, hrun, rfl⟩ := Traversals.exists_of_map_toOption hvalue
    refine ⟨_, final, hrun, fun hconserves => ?_⟩
    have hlast := hconserves.allocates [_, _] _ [] rfl
    exact absurd hlast (by decide +kernel)
  · have hvalue : (executeCascade Hashing.defaultContext [sampleStep "A" "B" .poolBalance]
        (sampleBalances 5 "JPY") (fun _ => some (1 / 10)) "JPY").toOption.map (·.1) =
        some [sampleResult (sampleStep "A" "B" .poolBalance) "JPY" 5 (1 / 2) (11 / 2)] := by
      decide +kernel
    obtain ⟨⟨results, final⟩, hrun, rfl⟩ := Traversals.exists_of_map_toOption hvalue
    refine ⟨_, final, hrun, fun hconserves => ?_⟩
    have honly := hconserves.allocates [] _ [] rfl
    exact absurd honly (by decide +kernel)

end FinanceAccounting.AllocationCascade
