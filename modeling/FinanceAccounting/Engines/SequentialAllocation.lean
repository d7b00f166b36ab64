import FinanceAccounting.Engines.Allocation
import FinanceAccounting.Library.Traversals

/-! # Allocation in order

The FIFO, LIFO and specific methods sort the targets and give each what is eligible for it until
nothing is left.  Nothing is lost as long as the differences are not rounded, and no target gets
anything before the targets that precede it are full.  The currencies of the eligible amounts are not
compared with that of the source, and a negative eligible amount is allocated as it is
(`allocateSequential_lawful_iff`). -/

namespace FinanceAccounting.AllocationEngine

open Valuation (Money)

/-- The methods that serve one target after the other. -/
inductive SequentialMethod where
  | fifo
  | lifo
  | specific
deriving DecidableEq, Repr

def SequentialMethod.toMethod : SequentialMethod → AllocationMethod
  | .fifo => .fifo
  | .lifo => .lifo
  | .specific => .specific

/-- The order in which a method serves the targets. -/
def SequentialMethod.order : SequentialMethod → List AllocationTarget → List AllocationTarget
  | .fifo, targets => fifoOrder targets
  | .lifo, targets => lifoOrder targets
  | .specific, targets => Ranking.ascending (·.priority) targets

section Definitions

variable (a : Arithmetic) (amount : Money) (targets : List AllocationTarget)

/-- Every eligible amount is in the currency of the source. -/
def SameCurrency : Prop :=
  ∀ target ∈ targets, ∀ eligible, target.eligibleAmount = some eligible →
    eligible.currency = amount.currency

def NoneNegative : Prop :=
  ∀ target ∈ targets, ∀ eligible, target.eligibleAmount = some eligible → 0 ≤ eligible.amount

/-- The line of a target: allocated and remaining make up what is eligible, and the allocated amount
lies between zero and that. -/
structure LineLaw (target : AllocationTarget) (line : AllocationLine) : Prop where
  targetId : line.targetId = target.targetId
  currencies : line.allocated.currency = amount.currency ∧ line.remaining.currency = amount.currency
  nonneg : 0 ≤ line.allocated.amount
  eligible : ∀ eligible, target.eligibleAmount = some eligible →
    line.allocated.amount + line.remaining.amount = eligible.amount ∧
      line.allocated.amount ≤ eligible.amount

/-- Nothing remains to be allocated to the target of the line. -/
def Full (line : AllocationLine) : Prop :=
  line.remaining.amount = 0 ∧ line.isFullyAllocated = true

/-- **The result is conserving and greedy** for the targets in their order. -/
structure Greedy (result : AllocationResult) : Prop where
  conserved : (result.lines.map (·.allocated.amount)).sum + result.unallocated.amount = amount.amount
  lines : List.Forall₂ (LineLaw amount) targets result.lines
  greedy : result.lines.Pairwise fun earlier later => later.allocated.amount ≠ 0 → Full earlier

/-- Other currencies make the call raise; otherwise it returns a conserving, greedy result. -/
def Lawful (method : SequentialMethod) : Prop :=
  (¬SameCurrency amount targets → ∃ e, allocate a amount targets method.toMethod = .error e) ∧
    (SameCurrency amount targets → ∃ result,
      allocate a amount targets method.toMethod = .ok result ∧
        Greedy amount (method.order targets) result)

/-- What a target is given of an amount. -/
def granted (left : ℚ) (target : AllocationTarget) : ℚ :=
  min left ((target.eligibleAmount.map (·.amount)).getD left)

/-- What the rounding of the successive differences adds to the amount. -/
def roundingGain : ℚ → List AllocationTarget → ℚ
  | _, [] => 0
  | left, target :: targets =>
      if left ≤ 0 then 0
      else
        a.ctx.round (left - granted left target) - (left - granted left target) +
          roundingGain (a.ctx.round (left - granted left target)) targets

/-- What an eligible amount exceeds the rest of the source by is computed without rounding. -/
def RemaindersExact : ℚ → List AllocationTarget → Prop
  | _, [] => True
  | left, target :: targets =>
      left ≤ 0 ∨
        (∀ eligible, target.eligibleAmount = some eligible →
          a.ctx.round (eligible.amount - granted left target) =
            eligible.amount - granted left target) ∧
          RemaindersExact (a.ctx.round (left - granted left target)) targets

/-- The successive differences lose nothing. -/
def DifferencesExact : Prop :=
  roundingGain a amount.amount targets = 0 ∧ RemaindersExact a amount.amount targets

/-- The source and the eligible amounts have these places, and no more digits than the context. -/
structure DigitsFit (places : ℕ) : Prop where
  amount : Decimal.HasPlaces places amount.amount ∧ |amount.amount| * 10 ^ places < 10 ^ a.ctx.prec
  eligible : ∀ target ∈ targets, ∀ eligible, target.eligibleAmount = some eligible →
    Decimal.HasPlaces places eligible.amount ∧ |eligible.amount| * 10 ^ places < 10 ^ a.ctx.prec

end Definitions

/-! ### The loop -/

section Loop

variable {a : Arithmetic} {amount : Money} {targets : List AllocationTarget}
variable {target : AllocationTarget} {line : AllocationLine} {currency : String} {left : ℚ}

/-- The line of a target that is served. -/
def servedLine (a : Arithmetic) (currency : String) (left : ℚ) (target : AllocationTarget) :
    AllocationLine :=
  let remaining := a.ctx.round
    ((target.eligibleAmount.map (·.amount)).getD left - granted left target)
  ⟨target.targetId, target.targetType, ⟨granted left target, currency⟩, ⟨remaining, currency⟩,
    remaining = 0⟩

/-- The line of a target that comes too late. -/
def unservedLine (currency : String) (target : AllocationTarget) : AllocationLine :=
  ⟨target.targetId, target.targetType, ⟨0, currency⟩, target.eligibleAmount.getD ⟨0, currency⟩, false⟩

theorem sequentialLines_of_nonpos (h : left ≤ 0) :
    sequentialLines a currency left targets = (targets.map (unservedLine currency), left) := by
  induction targets with
  | nil => rfl
  | cons target targets ih =>
      unfold sequentialLines
      rw [if_pos h, ih]
      rfl

theorem sequentialLines_cons (h : 0 < left) :
    sequentialLines a currency left (target :: targets) =
      (servedLine a currency left target ::
          (sequentialLines a currency (a.ctx.round (left - granted left target)) targets).1,
        (sequentialLines a currency (a.ctx.round (left - granted left target)) targets).2) := by
  rw [sequentialLines, if_neg (not_le.mpr h)]
  rfl

/-- **Conservation**: the lines and the rest make up the amount and what the rounding adds. -/
theorem sum_sequentialLines :
    ((sequentialLines a currency left targets).1.map (·.allocated.amount)).sum +
        (sequentialLines a currency left targets).2 =
      left + roundingGain a left targets := by
  induction targets generalizing left with
  | nil =>
      show (0 : ℚ) + left = left + 0
      rw [zero_add, add_zero]
  | cons target targets ih =>
      rcases le_or_gt left 0 with hnonpos | hpos
      · rw [sequentialLines_of_nonpos hnonpos, roundingGain, if_pos hnonpos, List.map_map]
        have hzero : (((target :: targets).map
            ((fun line : AllocationLine => line.allocated.amount) ∘ unservedLine currency)).sum) = 0 := by
          refine List.sum_eq_zero fun x hx => ?_
          obtain ⟨t, -, rfl⟩ := List.mem_map.mp hx
          rfl
        rw [hzero, zero_add, add_zero]
      · rw [sequentialLines_cons hpos, roundingGain, if_neg (not_le.mpr hpos), List.map_cons,
          List.sum_cons, add_assoc, ih]
        show granted left target + _ = _
        ring

/-- A line with an allocation was served. -/
theorem pos_of_allocated (hline : line ∈ (sequentialLines a currency left targets).1)
    (hne : line.allocated.amount ≠ 0) : 0 < left := by
  by_contra hnot
  rw [sequentialLines_of_nonpos (not_lt.mp hnot)] at hline
  obtain ⟨t, -, rfl⟩ := List.mem_map.mp hline
  exact hne rfl

/-- A target that leaves something is full. -/
theorem full_servedLine (h : 0 < a.ctx.round (left - granted left target)) :
    Full (servedLine a currency left target) := by
  have hlt : granted left target < left := by
    by_contra hnot
    have hle : left - granted left target ≤ 0 := sub_nonpos.mpr (not_lt.mp hnot)
    have hneg := a.ctx.round_nonneg (neg_nonneg.mpr hle)
    rw [a.ctx.round_neg] at hneg
    linarith
  have heq : granted left target = (target.eligibleAmount.map (·.amount)).getD left := by
    unfold granted at hlt ⊢
    rcases min_lt_iff.mp hlt with hself | hother
    · exact absurd hself (lt_irrefl left)
    · exact min_eq_right hother.le
  have hzero : a.ctx.round
      ((target.eligibleAmount.map (·.amount)).getD left - granted left target) = 0 := by
    rw [heq, sub_self, a.ctx.round_zero]
  exact ⟨hzero, decide_eq_true hzero⟩

/-- **A target gets something only if every earlier target is full.** -/
theorem pairwise_sequentialLines :
    (sequentialLines a currency left targets).1.Pairwise fun earlier later =>
      later.allocated.amount ≠ 0 → Full earlier := by
  induction targets generalizing left with
  | nil => exact List.Pairwise.nil
  | cons target targets ih =>
      rcases le_or_gt left 0 with hnonpos | hpos
      · rw [sequentialLines_of_nonpos hnonpos, List.pairwise_map]
        exact List.pairwise_of_forall fun _ _ h => absurd rfl h
      · rw [sequentialLines_cons hpos]
        refine List.Pairwise.cons (fun later hlater hne => ?_) ih
        exact full_servedLine (pos_of_allocated hlater hne)

theorem le_of_granted {eligible : Money} (h : target.eligibleAmount = some eligible) :
    granted left target ≤ eligible.amount := by
  unfold granted
  rw [h]
  exact min_le_right _ _

/-- The line of a target that is served is lawful when the eligible amount is not negative and what
remains of it is exact. -/
theorem lineLaw_servedLine (h : 0 < left) :
    LineLaw amount target (servedLine a amount.currency left target) ↔
      ∀ eligible, target.eligibleAmount = some eligible → 0 ≤ eligible.amount ∧
        a.ctx.round (eligible.amount - granted left target) =
          eligible.amount - granted left target := by
  constructor
  · rintro ⟨-, -, hnonneg, hlaw⟩ eligible heligible
    obtain ⟨hsum, hle⟩ := hlaw eligible heligible
    refine ⟨hnonneg.trans hle, ?_⟩
    unfold servedLine at hsum
    rw [heligible] at hsum
    exact eq_sub_of_add_eq' hsum
  · intro hlaw
    refine ⟨rfl, ⟨rfl, rfl⟩, ?_, fun eligible heligible => ?_⟩
    · show 0 ≤ granted left target
      unfold granted
      refine le_min h.le ?_
      cases heligible : target.eligibleAmount with
      | none => exact h.le
      | some eligible => exact (hlaw eligible heligible).1
    · refine ⟨?_, le_of_granted heligible⟩
      unfold servedLine
      rw [heligible]
      show granted left target + a.ctx.round (eligible.amount - granted left target) = _
      rw [(hlaw eligible heligible).2, add_sub_cancel]

theorem lineLaw_unservedLine (hcurrency : SameCurrency amount [target]) :
    LineLaw amount target (unservedLine amount.currency target) ↔
      ∀ eligible, target.eligibleAmount = some eligible → 0 ≤ eligible.amount := by
  constructor
  · rintro ⟨-, -, -, hlaw⟩ eligible heligible
    exact (hlaw eligible heligible).2
  · intro hnonneg
    refine ⟨rfl, ⟨rfl, ?_⟩, le_rfl, fun eligible heligible => ⟨?_, hnonneg eligible heligible⟩⟩
    · unfold unservedLine
      cases heligible : target.eligibleAmount with
      | none => rfl
      | some eligible => exact hcurrency target List.mem_cons_self eligible heligible
    · unfold unservedLine
      rw [heligible]
      exact zero_add _

/-- **All lines are lawful** when no eligible amount is negative and what remains is exact. -/
theorem lineLaws_iff (hcurrency : SameCurrency amount targets) :
    List.Forall₂ (LineLaw amount) targets (sequentialLines a amount.currency left targets).1 ↔
      NoneNegative targets ∧ RemaindersExact a left targets := by
  induction targets generalizing left with
  | nil =>
      constructor
      · exact fun _ => ⟨fun target h => absurd h List.not_mem_nil, trivial⟩
      · exact fun _ => List.Forall₂.nil
  | cons target targets ih =>
      have hhead : SameCurrency amount [target] := by
        intro t ht
        rw [List.mem_singleton.mp ht]
        exact hcurrency target List.mem_cons_self
      have htail : SameCurrency amount targets :=
        fun t ht => hcurrency t (List.mem_cons_of_mem target ht)
      have hnegative : NoneNegative (target :: targets) ↔
          (∀ eligible, target.eligibleAmount = some eligible → 0 ≤ eligible.amount) ∧
            NoneNegative targets := List.forall_mem_cons
      rcases le_or_gt left 0 with hnonpos | hpos
      · have hexact : ∀ ts, RemaindersExact a left ts := fun ts => by
          cases ts with
          | nil => trivial
          | cons t ts => exact Or.inl hnonpos
        have hlines : (sequentialLines a amount.currency left (target :: targets)).1 =
            unservedLine amount.currency target ::
              (sequentialLines a amount.currency left targets).1 := by
          rw [sequentialLines_of_nonpos hnonpos, sequentialLines_of_nonpos hnonpos]
          rfl
        rw [hlines, List.forall₂_cons, lineLaw_unservedLine hhead, ih htail, hnegative]
        constructor
        · rintro ⟨hfirst, hrest, -⟩
          exact ⟨⟨hfirst, hrest⟩, hexact _⟩
        · rintro ⟨⟨hfirst, hrest⟩, -⟩
          exact ⟨hfirst, hrest, hexact _⟩
      · rw [sequentialLines_cons hpos, List.forall₂_cons, lineLaw_servedLine hpos, ih htail, hnegative]
        constructor
        · rintro ⟨hfirst, hrest, hexact⟩
          refine ⟨⟨fun e he => (hfirst e he).1, hrest⟩, Or.inr ⟨fun e he => (hfirst e he).2, hexact⟩⟩
        · rintro ⟨⟨hfirst, hrest⟩, hexact⟩
          obtain ⟨hremaining, hexact⟩ := hexact.resolve_left (not_le.mpr hpos)
          exact ⟨fun e he => ⟨hfirst e he, hremaining e he⟩, hrest, hexact⟩

end Loop

/-! ### The result -/

section Results

variable {a : Arithmetic} {amount : Money} {targets : List AllocationTarget}
variable {target : AllocationTarget} {method : SequentialMethod} {left : ℚ} {places : ℕ}

/-- Without targets, the loop allocates nothing either. -/
theorem allocate_sequential (a : Arithmetic) (amount : Money) (targets : List AllocationTarget)
    (method : SequentialMethod) :
    allocate a amount targets method.toMethod =
      .ok (allocateSequential a amount (method.order targets) method.toMethod) := by
  cases targets with
  | nil =>
      have hnothing : ∀ m, allocateSequential a amount [] m = allocateNothing amount m [] := by
        intro m
        show AllocationResult.mk _ _ _ _ _ _ = AllocationResult.mk _ _ _ _ _ _
        rw [sub_self, a.ctx.round_zero]
      cases method <;> exact congrArg Except.ok (hnothing _).symm
  | cons target targets => cases method <;> rfl

theorem mem_order : target ∈ method.order targets ↔ target ∈ targets := by
  cases method with
  | fifo => exact Ranking.mem_ascending
  | lifo => exact Ranking.mem_descending
  | specific => exact Ranking.mem_ascending

/-- The result is lawful when no eligible amount is negative and the differences are exact. -/
theorem greedy_iff (hcurrency : SameCurrency amount targets) {m : AllocationMethod} :
    Greedy amount targets (allocateSequential a amount targets m) ↔
      NoneNegative targets ∧ DifferencesExact a amount targets := by
  have hsum : ((allocateSequential a amount targets m).lines.map (·.allocated.amount)).sum +
      (allocateSequential a amount targets m).unallocated.amount =
        amount.amount + roundingGain a amount.amount targets := sum_sequentialLines
  constructor
  · rintro ⟨hconserved, hlines, -⟩
    obtain ⟨hnegative, hexact⟩ := (lineLaws_iff hcurrency).mp hlines
    rw [hsum] at hconserved
    exact ⟨hnegative, add_eq_left.mp hconserved, hexact⟩
  · rintro ⟨hnegative, hgain, hexact⟩
    refine ⟨?_, (lineLaws_iff hcurrency).mpr ⟨hnegative, hexact⟩, pairwise_sequentialLines⟩
    rw [hsum, hgain, add_zero]

theorem lawful_iff :
    Lawful a amount targets method ↔
      SameCurrency amount targets ∧ NoneNegative targets ∧
        DifferencesExact a amount (method.order targets) := by
  have hsame : SameCurrency amount (method.order targets) ↔ SameCurrency amount targets :=
    forall_congr' fun _ => by rw [mem_order]
  have hnegative : NoneNegative (method.order targets) ↔ NoneNegative targets :=
    forall_congr' fun _ => by rw [mem_order]
  unfold Lawful
  rw [allocate_sequential]
  constructor
  · rintro ⟨hraises, hreturns⟩
    have hcurrency : SameCurrency amount targets := by
      by_contra hother
      obtain ⟨e, he⟩ := hraises hother
      cases he
    obtain ⟨result, hresult, hgreedy⟩ := hreturns hcurrency
    obtain rfl := Except.ok.inj hresult
    rw [greedy_iff (hsame.mpr hcurrency), hnegative] at hgreedy
    exact ⟨hcurrency, hgreedy⟩
  · rintro ⟨hcurrency, hlawful⟩
    refine ⟨fun hother => absurd hcurrency hother, fun _ => ⟨_, rfl, ?_⟩⟩
    rw [greedy_iff (hsame.mpr hcurrency), hnegative]
    exact hlawful

/-- A number of these places between zero and one that fits is not rounded. -/
theorem round_of_le {x y : ℚ} (hplaces : Decimal.HasPlaces places x) (hnonneg : 0 ≤ x) (hle : x ≤ y)
    (hfits : |y| * 10 ^ places < 10 ^ a.ctx.prec) : a.ctx.round x = x := by
  refine a.ctx.round_of_places hplaces (lt_of_le_of_lt ?_ hfits)
  rw [abs_of_nonneg hnonneg]
  exact mul_le_mul_of_nonneg_right (hle.trans (le_abs_self y)) (by positivity)

/-- **Where the digits fit, the differences are exact.** -/
theorem differencesExact_of_digits (currency : String) (hnegative : NoneNegative targets)
    (hfits : DigitsFit a ⟨left, currency⟩ targets places) :
    roundingGain a left targets = 0 ∧ RemaindersExact a left targets := by
  induction targets generalizing left with
  | nil => exact ⟨rfl, trivial⟩
  | cons target targets ih =>
      rcases le_or_gt left 0 with hnonpos | hpos
      · exact ⟨if_pos hnonpos, Or.inl hnonpos⟩
      · have hgranted : Decimal.HasPlaces places (granted left target) ∧
            0 ≤ granted left target ∧ granted left target ≤ left := by
          refine ⟨?_, ?_, min_le_left _ _⟩
          · unfold granted
            rcases min_choice left ((target.eligibleAmount.map (·.amount)).getD left) with h | h
            · rw [h]
              exact hfits.amount.1
            · rw [h]
              cases heligible : target.eligibleAmount with
              | none => exact hfits.amount.1
              | some eligible =>
                  exact (hfits.eligible target List.mem_cons_self eligible heligible).1
          · unfold granted
            refine le_min hpos.le ?_
            cases heligible : target.eligibleAmount with
            | none => exact hpos.le
            | some eligible => exact hnegative target List.mem_cons_self eligible heligible
        obtain ⟨hplaces, hnonneg, hle⟩ := hgranted
        have hleft : a.ctx.round (left - granted left target) = left - granted left target :=
          round_of_le (hfits.amount.1.sub hplaces) (sub_nonneg.mpr hle) (sub_le_self left hnonneg)
            hfits.amount.2
        have hnext : DigitsFit a ⟨left - granted left target, currency⟩ targets places := by
          refine ⟨⟨hfits.amount.1.sub hplaces, lt_of_le_of_lt ?_ hfits.amount.2⟩,
            fun t ht => hfits.eligible t (List.mem_cons_of_mem target ht)⟩
          rw [abs_of_nonneg (sub_nonneg.mpr hle), abs_of_pos hpos]
          exact mul_le_mul_of_nonneg_right (sub_le_self left hnonneg) (by positivity)
        obtain ⟨hgain, hexact⟩ := ih (fun t ht => hnegative t (List.mem_cons_of_mem target ht)) hnext
        refine ⟨?_, Or.inr ⟨fun eligible heligible => ?_, ?_⟩⟩
        · rw [roundingGain, if_neg (not_le.mpr hpos), hleft, hgain, sub_self, add_zero]
        · obtain ⟨heplaces, hefits⟩ := hfits.eligible target List.mem_cons_self eligible heligible
          exact round_of_le (heplaces.sub hplaces) (sub_nonneg.mpr (le_of_granted heligible))
            (sub_le_self _ hnonneg) hefits
        · rw [hleft]
          exact hexact

end Results

/-- **Allocation in order is lawful** when all eligible amounts are in the currency of the source,
none is negative and the differences are exact, as they are where the digits fit. -/
theorem allocateSequential_lawful_iff (a : Arithmetic) (amount : Money)
    (targets : List AllocationTarget) (method : SequentialMethod) :
    (Lawful a amount targets method ↔
      SameCurrency amount targets ∧ NoneNegative targets ∧
        DifferencesExact a amount (method.order targets)) ∧
    ∀ places, DigitsFit a amount targets places →
      (Lawful a amount targets method ↔ SameCurrency amount targets ∧ NoneNegative targets) := by
  refine ⟨lawful_iff, fun places hfits => lawful_iff.trans ⟨fun h => ⟨h.1, h.2.1⟩, fun h => ?_⟩⟩
  refine ⟨h.1, h.2, differencesExact_of_digits amount.currency ?_ ⟨hfits.amount, ?_⟩⟩
  · exact fun t ht => h.2 t (mem_order.mp ht)
  · exact fun t ht => hfits.eligible t (mem_order.mp ht)

/-- A target with an eligible amount. -/
def eligibleTarget (targetId : String) (eligible : Money) : AllocationTarget where
  targetId := targetId
  eligibleAmount := some eligible

/-- **A hundred dollars pay fifty euros**, as the currencies are not compared, and a negative eligible
amount is allocated as it is. -/
theorem other_currency_not_lawful :
    ¬Lawful dollars ⟨100, "USD"⟩ [eligibleTarget "A" ⟨50, "EUR"⟩]
        .fifo ∧
      ¬Lawful dollars ⟨100, "USD"⟩ [eligibleTarget "A" ⟨-50, "USD"⟩]
        .fifo := by
  constructor
  · intro h
    exact absurd ((lawful_iff.mp h).1 _ List.mem_cons_self ⟨50, "EUR"⟩ rfl) (by decide)
  · intro h
    exact absurd ((lawful_iff.mp h).2.1 _ List.mem_cons_self ⟨-50, "USD"⟩ rfl) (by norm_num)

end FinanceAccounting.AllocationEngine
