import Mathlib.Tactic.FieldSimp
import Mathlib.Tactic.LinearCombination
import FinanceAccounting.Kernel.Valuation

/-! # Conservation of inventory value

What consumptions have charged to a lot is to be conserved: the quantities do not exceed the
quantity of the lot, the costs and the remaining cost make up its cost, and a consumption that
returns has lowered the available quantity of its item by what was requested.

The remaining quantity is derived from the recorded costs, so this is so only where the costs say
how much was taken.  `conserved_of_exact` proves it for the runs whose calls are `Exact`: a lot that
is drawn on has a unit cost that is not zero and makes up its cost, it is not linked to the
consuming artifact yet, and no amount on the way is rounded.  Without that, a lot of cost zero is
never used up. -/

namespace FinanceAccounting.Valuation

open LinkGraph (ArtifactRef ArtifactType LinkType EconomicLink LinkTable LinkError)
open TransitionSystem (run Along Throughout)
open UnitOfWork (Session Result)

/-! ### The laws -/

/-- The consumptions charged to a lot. -/
def chargesOf (store : Store) (lotId : UUID) : List CostLayerConsumption :=
  store.charges.filter fun c => c.lotId = lotId

def consumedQuantity (store : Store) (lotId : UUID) : ℚ :=
  ((chargesOf store lotId).map (·.quantityConsumed.value)).sum

def chargedCost (store : Store) (lotId : UUID) : ℚ :=
  ((chargesOf store lotId).map (·.costConsumed.amount)).sum

/-- The remaining cost of a lot, as it is derived from the links. -/
def remainingCost (ctx : Decimal.Context) (store : Store) (m : CostLotModel) : ℚ :=
  (getUnconsumedValue ctx store.rows m.id ⟨m.originalCost, m.currency⟩).remainingAmount.amount

/-- No lot gives more than it has, and its cost is split into charges and the rest. -/
structure Conserved (ctx : Decimal.Context) (store : Store) : Prop where
  quantity : ∀ m ∈ store.lots, consumedQuantity store m.id ≤ m.originalQuantity
  cost : ∀ m ∈ store.lots, chargedCost store m.id + remainingCost ctx store m = m.originalCost

/-- The item and the quantity that a call consumes. -/
def Call.issues : Call → Option (String × ℚ)
  | .consumeFifo _ args | .consumeLifo _ args | .consumeSpecific _ args _
  | .consumeAtStandard _ args => some (args.itemId, args.quantity.value)
  | .createLot _ _ | .setStandardCost _ _ | .commit | .rollback => none

/-- What is available of an item falls by a quantity. -/
def Reduced (ctx : Decimal.Context) (store store' : Store) (itemId : String) (quantity : ℚ) : Prop :=
  ∃ available, availableQuantity ctx store itemId = .ok available ∧
    availableQuantity ctx store' itemId = .ok (available - quantity)

/-- A consumption that returns lowers what is available of its item by what it consumes. -/
def ReducesAvailable (ctx : Decimal.Context) (st : State) (call : Call) : Prop :=
  ∀ itemId quantity, call.issues = some (itemId, quantity) → (perform ctx st call).1 = .ok () →
    Reduced ctx st.db.current (perform ctx st call).2.db.current itemId quantity

/-! ### The condition -/

/-- What the recorded consumptions of a lot cost together. -/
def recordedCost (rows : List LinkRow) (lotId : UUID) : ℚ := (costsConsumed rows lotId).sum

/-- A quantity is taken from a lot without loss: the lot has a unit cost that makes up its cost, it
is not linked to the consuming artifact, and none of the amounts is rounded. -/
structure DrawsExactly (ctx : Decimal.Context) (rows : List LinkRow) (lot : CostLot)
    (consumingRef : ArtifactRef) (taken : ℚ) : Prop where
  priced : taken ≠ 0 → (lot.unitCost ctx).amount ≠ 0
  unitExact : taken ≠ 0 →
    (lot.unitCost ctx).amount * lot.originalQuantity.value = lot.originalCost.amount
  unlinked : taken ≠ 0 → ∀ r ∈ consumptionsOf rows lot.lotId, r.link.childRef ≠ consumingRef
  unrounded :
    let unit := (lot.unitCost ctx).amount
    let recorded := recordedCost rows lot.lotId
    let left := lot.originalCost.amount - recorded
    ∀ x ∈ [taken * unit, recorded + taken * unit, left - taken * unit, left / unit,
      (left - taken * unit) / unit], ctx.round x = x

/-- A quantity is taken from the layers of an item without loss. -/
structure IssuesExactly (ctx : Decimal.Context) (rows : List LinkRow) (args : Consume)
    (costMethod : CostMethod) (layers : List CostLayer) : Prop where
  covered : args.quantity.value ≤ (layers.map CostLayer.quantity).sum
  needs : ∀ pre, pre <+: sortLayers costMethod layers → pre ≠ [] →
    (pre.map CostLayer.quantity).sum ≤ args.quantity.value →
      ctx.round (args.quantity.value - (pre.map CostLayer.quantity).sum) =
        args.quantity.value - (pre.map CostLayer.quantity).sum
  draws : ∀ d ∈ Allocation.greedy id CostLayer.quantity args.quantity.value
    (sortLayers costMethod layers), DrawsExactly ctx rows d.1.lot args.consumingRef d.2

/-- A call of `_consume_with_method` that draws, draws without loss. -/
def IssueExact (ctx : Decimal.Context) (store : Store) (args : Consume) (costMethod : CostMethod) :
    Prop :=
  ∀ layers, getAvailableLayers ctx store args.itemId args.locationId = .ok layers →
    args.quantity.value ≤ totalAvailable ctx layers →
      IssuesExactly ctx store.rows args costMethod layers

/-- The condition on a call, in the state in which it is made. -/
def Exact (ctx : Decimal.Context) (st : State) : Call → Prop
  | .createLot _ args =>
      ∀ cost, numericColumn args.totalCost.amount = .ok cost → ctx.round cost = cost
  | .consumeFifo _ args => IssueExact ctx st.db.current args .fifo
  | .consumeLifo _ args => IssueExact ctx st.db.current args .lifo
  | .consumeAtStandard _ args =>
      (getStandardCost st.standardCosts args.itemId).isSome →
        IssueExact ctx st.db.current args .standard
  | .consumeSpecific _ args lotId =>
      ∀ layers, getAvailableLayers ctx st.db.current args.itemId none = .ok layers →
        ∀ layer ∈ layers, layer.lot.lotId = lotId → args.quantity.value ≤ layer.quantity →
          DrawsExactly ctx st.db.current.rows layer.lot args.consumingRef args.quantity.value
  | .setStandardCost _ _ | .commit | .rollback => True

/-! ### The invariant -/

/-- A lot whose recorded costs say how much was taken from it. -/
structure LotInv (ctx : Decimal.Context) (store : Store) (id : UUID) (quantity cost : ℚ) :
    Prop where
  recorded : recordedCost store.rows id = chargedCost store id
  unrounded : sumOf ctx (costsConsumed store.rows id) = recordedCost store.rows id
  remaining : ctx.round (cost - recordedCost store.rows id) = cost - recordedCost store.rows id
  drawn : recordedCost store.rows id = 0 ∧ consumedQuantity store id = 0 ∨
    unitAmount ctx quantity cost ≠ 0 ∧ unitAmount ctx quantity cost * quantity = cost ∧
      recordedCost store.rows id = consumedQuantity store id * unitAmount ctx quantity cost
  le : consumedQuantity store id ≤ quantity

/-- Lots are told apart by their identifiers, and only lots are drawn on. -/
structure Inv (ctx : Decimal.Context) (store : Store) : Prop where
  ids : (store.lots.map CostLotModel.id).Nodup
  lot : ∀ m ∈ store.lots, LotInv ctx store m.id m.originalQuantity m.originalCost
  rows : ∀ r ∈ store.rows, r.link.linkType = .consumedBy →
    ∃ m ∈ store.lots, r.link.parentRef = lotRef m.id
  charges : ∀ c ∈ store.charges, ∃ m ∈ store.lots, c.lotId = m.id

/-- The invariant of a lot depends on its own links and charges only. -/
theorem LotInv.congr {ctx : Decimal.Context} {store store' : Store} {id : UUID} {quantity cost : ℚ}
    (h : LotInv ctx store id quantity cost)
    (hrows : consumptionsOf store'.rows id = consumptionsOf store.rows id)
    (hcharges : chargesOf store' id = chargesOf store id) : LotInv ctx store' id quantity cost := by
  have hcosts : costsConsumed store'.rows id = costsConsumed store.rows id := by
    unfold costsConsumed
    rw [hrows]
  have hrecorded : recordedCost store'.rows id = recordedCost store.rows id :=
    congrArg List.sum hcosts
  have hquantity : consumedQuantity store' id = consumedQuantity store id := by
    unfold consumedQuantity
    rw [hcharges]
  have hcharged : chargedCost store' id = chargedCost store id := by
    unfold chargedCost
    rw [hcharges]
  refine ⟨?_, ?_, ?_, ?_, ?_⟩
  · rw [hrecorded, hcharged, h.recorded]
  · rw [hcosts, hrecorded, h.unrounded]
  · rw [hrecorded, h.remaining]
  · rw [hrecorded, hquantity]
    exact h.drawn
  · rw [hquantity]
    exact h.le

theorem Inv.conserved {ctx : Decimal.Context} {store : Store} (h : Inv ctx store) :
    Conserved ctx store where
  quantity m hm := (h.lot m hm).le
  cost m hm := by
    have hlot := h.lot m hm
    unfold remainingCost getUnconsumedValue
    dsimp only
    rw [hlot.unrounded, hlot.remaining, hlot.recorded]
    ring

theorem lotRef_injective : Function.Injective lotRef := by
  intro a b h
  exact congrArg ArtifactRef.artifactId h

/-! ### One draw -/

section Draw

variable {ctx : Decimal.Context} {store store' : Store} {consumingRef : ArtifactRef}
  {consumption : CostLayerConsumption} {lotId : UUID}

/-- Other lots are not affected. -/
theorem Charged.other (h : Charged store consumingRef consumption store')
    (hne : lotId ≠ consumption.lotId) :
    consumptionsOf store'.rows lotId = consumptionsOf store.rows lotId ∧
      chargesOf store' lotId = chargesOf store lotId := by
  have hcharges : chargesOf { store with charges := store.charges ++ [consumption] } lotId =
      chargesOf store lotId := by
    unfold chargesOf
    rw [List.filter_append, List.filter_singleton, decide_eq_false (Ne.symm hne)]
    exact List.append_nil _
  cases h with
  | linked link hparent htype =>
      refine ⟨?_, hcharges⟩
      have hother : ¬lotRef consumption.lotId = lotRef lotId :=
        fun heq => hne (lotRef_injective heq).symm
      unfold consumptionsOf
      rw [List.filter_append, List.filter_singleton, hparent, decide_eq_false hother]
      exact List.append_nil _
  | duplicate r hmem hchild => exact ⟨rfl, hcharges⟩

/-- The charge is added, and its cost unless the lot was linked already. -/
theorem Charged.own (h : Charged store consumingRef consumption store') :
    chargesOf store' consumption.lotId = chargesOf store consumption.lotId ++ [consumption] ∧
      (costsConsumed store'.rows consumption.lotId =
          costsConsumed store.rows consumption.lotId ++ [consumption.costConsumed.amount] ∨
        costsConsumed store'.rows consumption.lotId =
            costsConsumed store.rows consumption.lotId ∧
          ∃ r ∈ consumptionsOf store.rows consumption.lotId, r.link.childRef = consumingRef) := by
  have hcharges : chargesOf { store with charges := store.charges ++ [consumption] }
      consumption.lotId = chargesOf store consumption.lotId ++ [consumption] := by
    unfold chargesOf
    rw [List.filter_append, List.filter_singleton, decide_eq_true rfl]
    rfl
  cases h with
  | linked link hparent htype =>
      refine ⟨hcharges, Or.inl ?_⟩
      unfold costsConsumed consumptionsOf
      rw [List.filter_append, List.filter_singleton, hparent, htype, decide_eq_true rfl,
        decide_eq_true rfl, List.filterMap_append]
      rfl
  | duplicate r hmem hchild => exact ⟨hcharges, Or.inr ⟨rfl, r, hmem, hchild⟩⟩

theorem consumedQuantity_of_charges
    (h : chargesOf store' lotId = chargesOf store lotId ++ [consumption]) :
    consumedQuantity store' lotId =
      consumedQuantity store lotId + consumption.quantityConsumed.value := by
  unfold consumedQuantity
  rw [h, List.map_append, List.sum_append, List.map_singleton, List.sum_singleton]

theorem chargedCost_of_charges
    (h : chargesOf store' lotId = chargesOf store lotId ++ [consumption]) :
    chargedCost store' lotId = chargedCost store lotId + consumption.costConsumed.amount := by
  unfold chargedCost
  rw [h, List.map_append, List.sum_append, List.map_singleton, List.sum_singleton]

theorem consumedQuantity_of_nil (h : chargesOf store lotId = []) :
    consumedQuantity store lotId = 0 := by
  unfold consumedQuantity
  rw [h]
  rfl

theorem chargedCost_of_nil (h : chargesOf store lotId = []) : chargedCost store lotId = 0 := by
  unfold chargedCost
  rw [h]
  rfl

variable {args : Consume} {layer : CostLayer} {taken : ℚ}

/-- The cost of an exact draw is its quantity at the unit cost. -/
theorem cost_of_exact
    (hexact : DrawsExactly ctx store.rows layer.lot args.consumingRef taken) :
    (consumptionOf ctx args (layer, taken)).costConsumed.amount =
      taken * (layer.lot.unitCost ctx).amount :=
  hexact.unrounded _ (by simp)

/-- **The recorded cost grows by the cost of the draw**, and its sum is not rounded. -/
theorem recordedCost_of_charged
    (hunrounded : sumOf ctx (costsConsumed store.rows layer.lot.lotId) =
      recordedCost store.rows layer.lot.lotId)
    (hexact : DrawsExactly ctx store.rows layer.lot args.consumingRef taken)
    (h : Charged store args.consumingRef (consumptionOf ctx args (layer, taken)) store') :
    recordedCost store'.rows layer.lot.lotId =
        recordedCost store.rows layer.lot.lotId + taken * (layer.lot.unitCost ctx).amount ∧
      sumOf ctx (costsConsumed store'.rows layer.lot.lotId) =
        recordedCost store'.rows layer.lot.lotId := by
  have hid : (consumptionOf ctx args (layer, taken)).lotId = layer.lot.lotId := rfl
  obtain ⟨-, happend | ⟨hsame, r, hr, hchild⟩⟩ := h.own
  · rw [hid, cost_of_exact hexact] at happend
    have hsum : recordedCost store'.rows layer.lot.lotId =
        recordedCost store.rows layer.lot.lotId + taken * (layer.lot.unitCost ctx).amount := by
      unfold recordedCost
      rw [happend, List.sum_append, List.sum_singleton]
    refine ⟨hsum, ?_⟩
    rw [happend, sumOf_append, hunrounded, hsum]
    exact hexact.unrounded _ (by simp)
  · rw [hid] at hsame hr
    have htaken : taken = 0 := by
      by_contra hne
      exact hexact.unlinked hne r hr hchild
    have hsum : recordedCost store'.rows layer.lot.lotId =
        recordedCost store.rows layer.lot.lotId := congrArg List.sum hsame
    refine ⟨?_, ?_⟩
    · rw [hsum, htaken, zero_mul, add_zero]
    · rw [hsame, hunrounded, hsum]

/-- What a layer has, when the sum of the recorded costs and the rest are not rounded. -/
theorem quantity_of_inv
    (hinv : LotInv ctx store layer.lot.lotId layer.lot.originalQuantity.value
      layer.lot.originalCost.amount) (hunit : (layer.lot.unitCost ctx).amount ≠ 0) :
    (layerOf ctx store.rows layer.lot).quantity =
      ctx.round ((layer.lot.originalCost.amount - recordedCost store.rows layer.lot.lotId) /
        (layer.lot.unitCost ctx).amount) := by
  unfold layerOf getUnconsumedValue CostLayer.quantity
  dsimp only
  rw [if_neg hunit, hinv.unrounded, hinv.remaining]

/-- **A draw keeps the invariant of its lot.** -/
theorem LotInv.charge
    (hinv : LotInv ctx store layer.lot.lotId layer.lot.originalQuantity.value
      layer.lot.originalCost.amount)
    (hexact : DrawsExactly ctx store.rows layer.lot args.consumingRef taken)
    (hle : taken ≤ (layerOf ctx store.rows layer.lot).quantity)
    (h : Charged store args.consumingRef (consumptionOf ctx args (layer, taken)) store') :
    LotInv ctx store' layer.lot.lotId layer.lot.originalQuantity.value
      layer.lot.originalCost.amount := by
  obtain ⟨hrecorded, hsum⟩ := recordedCost_of_charged hinv.unrounded hexact h
  have hid : (consumptionOf ctx args (layer, taken)).lotId = layer.lot.lotId := rfl
  have hcharges := h.own.1
  rw [hid] at hcharges
  have hquantity : consumedQuantity store' layer.lot.lotId =
      consumedQuantity store layer.lot.lotId + taken := consumedQuantity_of_charges hcharges
  have hcost := chargedCost_of_charges hcharges
  rw [cost_of_exact hexact] at hcost
  have hunit : (layer.lot.unitCost ctx).amount =
      unitAmount ctx layer.lot.originalQuantity.value layer.lot.originalCost.amount := rfl
  refine ⟨?_, hsum, ?_, ?_, ?_⟩
  · rw [hrecorded, hcost, hinv.recorded]
  · rw [hrecorded, ← sub_sub]
    exact hexact.unrounded _ (by simp)
  · rw [hrecorded, hquantity]
    by_cases htaken : taken = 0
    · rw [htaken, zero_mul, add_zero, add_zero]
      exact hinv.drawn
    · right
      have hpriced := hexact.priced htaken
      have hexactUnit := hexact.unitExact htaken
      rw [hunit] at hpriced hexactUnit ⊢
      refine ⟨hpriced, hexactUnit, ?_⟩
      rcases hinv.drawn with ⟨hzero, hnone⟩ | ⟨-, -, hprev⟩
      · rw [hzero, hnone, zero_add, zero_add]
      · rw [hprev]
        ring
  · rw [hquantity]
    by_cases htaken : taken = 0
    · rw [htaken, add_zero]
      exact hinv.le
    · have hpriced := hexact.priced htaken
      have hexactUnit := hexact.unitExact htaken
      have hleft : ctx.round ((layer.lot.originalCost.amount -
          recordedCost store.rows layer.lot.lotId) / (layer.lot.unitCost ctx).amount) =
            (layer.lot.originalCost.amount - recordedCost store.rows layer.lot.lotId) /
              (layer.lot.unitCost ctx).amount := hexact.unrounded _ (by simp)
      rw [quantity_of_inv hinv hpriced, hleft] at hle
      have hrest : (layer.lot.originalCost.amount - recordedCost store.rows layer.lot.lotId) /
          (layer.lot.unitCost ctx).amount =
            layer.lot.originalQuantity.value - consumedQuantity store layer.lot.lotId := by
        rw [div_eq_iff hpriced, ← hexactUnit]
        rcases hinv.drawn with ⟨hzero, hnone⟩ | ⟨-, -, hprev⟩
        · rw [hzero, hnone]
          ring
        · rw [hprev, ← hunit]
          ring
      rw [hrest] at hle
      linarith

/-- **A draw lowers what the layer has by what is taken.** -/
theorem quantity_after
    (hinv : LotInv ctx store layer.lot.lotId layer.lot.originalQuantity.value
      layer.lot.originalCost.amount)
    (hinv' : LotInv ctx store' layer.lot.lotId layer.lot.originalQuantity.value
      layer.lot.originalCost.amount)
    (hexact : DrawsExactly ctx store.rows layer.lot args.consumingRef taken)
    (h : Charged store args.consumingRef (consumptionOf ctx args (layer, taken)) store') :
    (layerOf ctx store'.rows layer.lot).quantity =
      (layerOf ctx store.rows layer.lot).quantity - taken := by
  obtain ⟨hrecorded, -⟩ := recordedCost_of_charged hinv.unrounded hexact h
  by_cases hunit : (layer.lot.unitCost ctx).amount = 0
  · have htaken : taken = 0 := by
      by_contra hne
      exact hexact.priced hne hunit
    rw [htaken, sub_zero]
    unfold layerOf CostLayer.quantity
    dsimp only
    rw [if_pos hunit, if_pos hunit]
  · rw [quantity_of_inv hinv hunit, quantity_of_inv hinv' hunit, hrecorded, ← sub_sub]
    have hbefore : ctx.round ((layer.lot.originalCost.amount -
        recordedCost store.rows layer.lot.lotId) / (layer.lot.unitCost ctx).amount) =
          (layer.lot.originalCost.amount - recordedCost store.rows layer.lot.lotId) /
            (layer.lot.unitCost ctx).amount := hexact.unrounded _ (by simp)
    have hafter : ctx.round ((layer.lot.originalCost.amount -
        recordedCost store.rows layer.lot.lotId - taken * (layer.lot.unitCost ctx).amount) /
          (layer.lot.unitCost ctx).amount) =
            (layer.lot.originalCost.amount - recordedCost store.rows layer.lot.lotId -
              taken * (layer.lot.unitCost ctx).amount) / (layer.lot.unitCost ctx).amount :=
      hexact.unrounded _ (by simp)
    rw [hbefore, hafter]
    field_simp

/-- A lot that is not drawn on keeps its layer. -/
theorem layerOf_of_other {lot : CostLot} (hne : lot.lotId ≠ consumption.lotId)
    (h : Charged store consumingRef consumption store') :
    layerOf ctx store'.rows lot = layerOf ctx store.rows lot := by
  unfold layerOf getUnconsumedValue costsConsumed
  rw [(h.other hne).1]

/-- **A draw keeps the invariant of the store.** -/
theorem Inv.charge (hinv : Inv ctx store) {m : CostLotModel} (hm : m ∈ store.lots)
    (hload : modelToDomain m = .ok layer.lot)
    (hexact : DrawsExactly ctx store.rows layer.lot args.consumingRef taken)
    (hle : taken ≤ (layerOf ctx store.rows layer.lot).quantity)
    (h : Charged store args.consumingRef (consumptionOf ctx args (layer, taken)) store') :
    Inv ctx store' := by
  obtain ⟨hmid, -, hmq, hmc⟩ := modelToDomain_eq_ok hload
  have hid : (consumptionOf ctx args (layer, taken)).lotId = m.id := hmid
  refine ⟨h.lots_eq ▸ hinv.ids, fun m' hm' => ?_, fun r hr htype => ?_, fun c hc => ?_⟩
  · rw [h.lots_eq] at hm'
    by_cases hsame : m'.id = m.id
    · obtain rfl := List.inj_on_of_nodup_map hinv.ids hm' hm hsame
      have hlot := hinv.lot m' hm'
      rw [← hmid, ← hmq, ← hmc] at hlot ⊢
      exact hlot.charge hexact hle h
    · have hne : m'.id ≠ (consumptionOf ctx args (layer, taken)).lotId := hid ▸ hsame
      obtain ⟨hrows, hcharges⟩ := h.other hne
      exact (hinv.lot m' hm').congr hrows hcharges
  · rw [h.lots_eq]
    cases h with
    | linked link hparent hltype =>
        rcases List.mem_append.mp hr with hr | hr
        · exact hinv.rows r hr htype
        · obtain rfl := List.mem_singleton.mp hr
          exact ⟨m, hm, hparent.trans (congrArg lotRef hid)⟩
    | duplicate r' hmem hchild => exact hinv.rows r hr htype
  · have hc' : c ∈ store.charges ++ [consumptionOf ctx args (layer, taken)] := by
      cases h with
      | linked link hparent hltype => exact hc
      | duplicate r' hmem hchild => exact hc
    rw [h.lots_eq]
    rcases List.mem_append.mp hc' with hc' | hc'
    · exact hinv.charges c hc'
    · obtain rfl := List.mem_singleton.mp hc'
      exact ⟨m, hm, hid⟩

end Draw

/-! ### What is available -/

/-- What a lot contributes to the available quantity. -/
def onHand (ctx : Decimal.Context) (rows : List LinkRow) (lot : CostLot) : ℚ :=
  if 0 < (layerOf ctx rows lot).quantity then (layerOf ctx rows lot).quantity else 0

theorem sum_available (ctx : Decimal.Context) (rows : List LinkRow) (lots : List CostLot) :
    (((lots.map (layerOf ctx rows)).filter CostLayer.isAvailable).map CostLayer.quantity).sum =
      (lots.map (onHand ctx rows)).sum := by
  induction lots with
  | nil => rfl
  | cons lot lots ih =>
      rw [List.map_cons, List.map_cons, List.sum_cons, ← ih]
      unfold onHand
      by_cases h : 0 < (layerOf ctx rows lot).quantity
      · have havailable : (layerOf ctx rows lot).isAvailable = true := decide_eq_true h
        rw [List.filter_cons_of_pos havailable, List.map_cons, List.sum_cons, if_pos h]
      · have havailable : ¬(layerOf ctx rows lot).isAvailable = true := fun ha => h (of_decide_eq_true ha)
        rw [List.filter_cons_of_neg havailable, if_neg h, zero_add]

theorem availableQuantity_of_loaded {ctx : Decimal.Context} {store : Store} {itemId : String}
    {lots : List CostLot} (h : loadLotsForItem store itemId = .ok lots) :
    availableQuantity ctx store itemId = .ok (lots.map (onHand ctx store.rows)).sum := by
  unfold availableQuantity getAvailableLayers
  rw [h, ← sum_available]
  have hall : lots.filter (atLocation none) = lots := List.filter_eq_self.mpr fun _ _ => rfl
  simp only [Except.map, hall]

/-- The available layers are layers of loaded lots, and none is empty. -/
theorem getAvailableLayers_eq_ok {ctx : Decimal.Context} {store : Store} {itemId : String}
    {locationId : Option String} {layers : List CostLayer}
    (h : getAvailableLayers ctx store itemId locationId = .ok layers) :
    ∃ lots, loadLotsForItem store itemId = .ok lots ∧
      (layers.map fun l => l.lot).Sublist lots ∧
      ∀ layer ∈ layers, layer = layerOf ctx store.rows layer.lot ∧ 0 < layer.quantity := by
  unfold getAvailableLayers at h
  cases hload : loadLotsForItem store itemId with
  | error e =>
      rw [hload] at h
      cases h
  | ok lots =>
      rw [hload] at h
      obtain rfl := Except.ok.inj h
      refine ⟨lots, rfl, ?_, fun layer hlayer => ?_⟩
      · have hlot : ((fun l : CostLayer => l.lot) ∘ layerOf ctx store.rows) = id := rfl
        have hsub : ((((lots.filter (atLocation locationId)).map (layerOf ctx store.rows)).filter
            CostLayer.isAvailable).map fun l => l.lot).Sublist
              (((lots.filter (atLocation locationId)).map (layerOf ctx store.rows)).map
                fun l => l.lot) := List.filter_sublist.map _
        rw [List.map_map, hlot, List.map_id] at hsub
        exact hsub.trans List.filter_sublist
      · obtain ⟨hmem, havailable⟩ := List.mem_filter.mp hlayer
        obtain ⟨lot, -, rfl⟩ := List.mem_map.mp hmem
        exact ⟨rfl, of_decide_eq_true havailable⟩

/-! ### Several draws -/

section Draws

variable {ctx : Decimal.Context} {args : Consume} {store store' : Store}
  {ds : List (CostLayer × ℚ)}

/-- What is known of a draw before any of the draws is made. -/
structure Ready (ctx : Decimal.Context) (store : Store) (consumingRef : ArtifactRef)
    (d : CostLayer × ℚ) : Prop where
  stored : ∃ m ∈ store.lots, modelToDomain m = .ok d.1.lot
  exact : DrawsExactly ctx store.rows d.1.lot consumingRef d.2
  pos : 0 < (layerOf ctx store.rows d.1.lot).quantity
  le : d.2 ≤ (layerOf ctx store.rows d.1.lot).quantity

/-- A draw on another lot leaves a draw ready. -/
theorem Ready.of_charged {consumingRef : ArtifactRef} {consumption : CostLayerConsumption}
    {d : CostLayer × ℚ} (h : Ready ctx store consumingRef d)
    (hcharged : Charged store consumingRef consumption store')
    (hne : d.1.lot.lotId ≠ consumption.lotId) : Ready ctx store' consumingRef d := by
  have hlayer : layerOf ctx store'.rows d.1.lot = layerOf ctx store.rows d.1.lot :=
    layerOf_of_other hne hcharged
  have hrows := (hcharged.other hne).1
  refine ⟨hcharged.lots_eq ▸ h.stored, ⟨h.exact.priced, h.exact.unitExact, ?_, ?_⟩, ?_, ?_⟩
  · rw [hrows]
    exact h.exact.unlinked
  · have hcosts : recordedCost store'.rows d.1.lot.lotId = recordedCost store.rows d.1.lot.lotId := by
      unfold recordedCost costsConsumed
      rw [hrows]
    rw [hcosts]
    exact h.exact.unrounded
  · rw [hlayer]
    exact h.pos
  · rw [hlayer]
    exact h.le

/-- **Run lemma of the loop**: draws on different lots keep the invariant and lower what is on hand
by what they take. -/
theorem Draws.spec (h : Draws ctx args store ds store') (hinv : Inv ctx store)
    (hnodup : (ds.map fun d => d.1.lot.lotId).Nodup)
    (hready : ∀ d ∈ ds, Ready ctx store args.consumingRef d) :
    Inv ctx store' ∧ ∀ lots : List CostLot, (lots.map CostLot.lotId).Nodup →
      (∀ d ∈ ds, d.1.lot ∈ lots) →
        (lots.map (onHand ctx store'.rows)).sum =
          (lots.map (onHand ctx store.rows)).sum - (ds.map Prod.snd).sum := by
  induction h with
  | nil store => exact ⟨hinv, fun lots _ _ => by simp⟩
  | @cons store store₁ store₂ d ds hd hds ih =>
      rw [List.map_cons, List.nodup_cons] at hnodup
      have hhead := hready d List.mem_cons_self
      obtain ⟨m, hm, hload⟩ := hhead.stored
      have hinv₁ : Inv ctx store₁ := hinv.charge hm hload hhead.exact hhead.le hd
      have hother : ∀ d' ∈ ds, d'.1.lot.lotId ≠ d.1.lot.lotId := fun d' hd' heq =>
        hnodup.1 (heq ▸ List.mem_map_of_mem hd')
      obtain ⟨hinv₂, hsum⟩ := ih hinv₁ hnodup.2 fun d' hd' =>
        (hready d' (List.mem_cons_of_mem _ hd')).of_charged hd (hother d' hd')
      refine ⟨hinv₂, fun lots hlots hmem => ?_⟩
      rw [hsum lots hlots fun d' hd' => hmem d' (List.mem_cons_of_mem _ hd'), List.map_cons,
        List.sum_cons]
      have hlot := hinv.lot m hm
      have hlot₁ := hinv₁.lot m (hd.lots_eq ▸ hm)
      obtain ⟨hmid, -, hmq, hmc⟩ := modelToDomain_eq_ok hload
      rw [← hmid, ← hmq, ← hmc] at hlot hlot₁
      have hafter := quantity_after hlot hlot₁ hhead.exact hd
      have hchange : onHand ctx store₁.rows d.1.lot = onHand ctx store.rows d.1.lot - d.2 := by
        unfold onHand
        rw [if_pos hhead.pos, hafter]
        have hle := hhead.le
        split
        · rfl
        · linarith
      have hstep := Allocation.sum_map_of_change hlots (hmem d List.mem_cons_self)
        (fun b hb => by
          show onHand ctx store₁.rows b = onHand ctx store.rows b
          unfold onHand
          rw [layerOf_of_other hb hd]) hchange
      rw [hstep]
      ring

end Draws

/-! ### Calls -/

/-- The invariant of a session. -/
structure Good (ctx : Decimal.Context) (s : Session Store) : Prop where
  both : s.Both (Inv ctx)
  nested : Nested s

section Calls

variable {ctx : Decimal.Context} {s : Session Store} {args : Consume}

theorem Good.rollback (h : Good ctx s) : Good ctx s.rollback :=
  ⟨h.both.rollback, List.Subset.refl _⟩

theorem Good.commit (h : Good ctx s) : Good ctx s.commit :=
  ⟨h.both.commit, List.Subset.refl _⟩

theorem Good.flush (h : Good ctx s) {store : Store} (hinv : Inv ctx store)
    (hrows : s.current.rows ⊆ store.rows) : Good ctx (s.flush store) :=
  ⟨h.both.flush hinv, List.Subset.trans h.nested hrows⟩

/-- **Draws on available layers** keep the invariant and lower what is available by what they
take. -/
theorem spec_of_layers {store store' : Store} {itemId : String} {locationId : Option String}
    {layers : List CostLayer} {ds : List (CostLayer × ℚ)} (hinv : Inv ctx store)
    (hlayers : getAvailableLayers ctx store itemId locationId = .ok layers)
    (hdraws : Draws ctx args store ds store')
    (hnodup : (ds.map fun d => d.1.lot.lotId).Nodup)
    (hfrom : ∀ d ∈ ds, d.1 ∈ layers ∧ d.2 ≤ d.1.quantity ∧
      DrawsExactly ctx store.rows d.1.lot args.consumingRef d.2) :
    Inv ctx store' ∧ Reduced ctx store store' itemId (ds.map Prod.snd).sum := by
  obtain ⟨lots, hload, hsub, hlayer⟩ := getAvailableLayers_eq_ok hlayers
  obtain ⟨hstored, hlots⟩ := loadLotsForItem_eq_ok hload hinv.ids
  have hlot : ∀ d ∈ ds, d.1.lot ∈ lots := fun d hd =>
    hsub.subset (List.mem_map_of_mem (hfrom d hd).1)
  obtain ⟨hinv', hsum⟩ := hdraws.spec hinv hnodup fun d hd => by
    obtain ⟨hmem, hle, hexact⟩ := hfrom d hd
    obtain ⟨heq, hpos⟩ := hlayer d.1 hmem
    obtain ⟨m, hm, -, hdomain⟩ := hstored d.1.lot (hlot d hd)
    exact ⟨⟨m, hm, hdomain⟩, hexact, heq ▸ hpos, heq ▸ hle⟩
  have hload' : loadLotsForItem store' itemId = .ok lots := by
    unfold loadLotsForItem
    rw [hdraws.lots_eq]
    exact hload
  refine ⟨hinv', _, availableQuantity_of_loaded hload, ?_⟩
  rw [availableQuantity_of_loaded hload', hsum lots hlots hlot]

theorem mem_sortLayers {costMethod : CostMethod} {layers : List CostLayer} {layer : CostLayer} :
    layer ∈ sortLayers costMethod layers ↔ layer ∈ layers := by
  unfold sortLayers
  split
  · exact Ranking.mem_descending
  · exact Ranking.mem_ascending

theorem perm_sortLayers (costMethod : CostMethod) (layers : List CostLayer) :
    (sortLayers costMethod layers).Perm layers := by
  unfold sortLayers
  split
  · exact Ranking.perm_descending _ _
  · exact Ranking.perm_ascending _ _

theorem spec_consumeWithMethod (env : Env) {costMethod : CostMethod} (hgood : Good ctx s)
    (hexact : IssueExact ctx s.current args costMethod)
    {r : Result ValuationError Store ConsumptionResult}
    (h : consumeWithMethod ctx env s args costMethod = r) :
    Good ctx r.2 ∧ ∀ result, r.1 = .ok result →
      Reduced ctx s.current r.2.current args.itemId args.quantity.value := by
  rcases consumeWithMethod_cases hgood.nested h with ⟨e, rfl | rfl⟩ |
    ⟨layers, hlayers, hcovered, ds, store', htaken, hdraws, hs, hok⟩
  · exact ⟨hgood, fun _ hr => by cases hr⟩
  · exact ⟨hgood.rollback, fun _ hr => by cases hr⟩
  · have hissue := hexact layers hlayers hcovered
    obtain ⟨lots, hload, hsub, hlayer⟩ := getAvailableLayers_eq_ok hlayers
    have hpos : ∀ layer ∈ sortLayers costMethod layers, 0 < layer.quantity := fun layer hmem =>
      (hlayer layer (mem_sortLayers.mp hmem)).2
    have hgreedy := Allocation.greedy_round hpos hissue.needs ctx.round_zero
    rw [hgreedy] at htaken
    have hmem : ∀ d ∈ ds, d.1 ∈ layers ∧ d.2 ≤ d.1.quantity ∧
        DrawsExactly ctx s.current.rows d.1.lot args.consumingRef d.2 := fun d hd =>
      ⟨mem_sortLayers.mp (Allocation.sublist_greedy.subset
          (List.mem_map_of_mem (htaken.subset hd))),
        (Allocation.le_of_greedy (htaken.subset hd)).2, hissue.draws d (htaken.subset hd)⟩
    have hnodup : (ds.map fun d => d.1.lot.lotId).Nodup := by
      have hlots := (loadLotsForItem_eq_ok hload hgood.both.current.ids).2
      have hids : (layers.map fun l => l.lot.lotId).Nodup := by
        have := (hsub.map CostLot.lotId).nodup hlots
        rwa [List.map_map] at this
      have hsorted : ((sortLayers costMethod layers).map fun l => l.lot.lotId).Nodup :=
        ((perm_sortLayers costMethod layers).map _).nodup_iff.mpr hids
      have hdrawn := (htaken.sublist.map Prod.fst).trans Allocation.sublist_greedy
      have := (hdrawn.map fun l => l.lot.lotId).nodup hsorted
      rwa [List.map_map] at this
    obtain ⟨hinv, hreduced⟩ := spec_of_layers hgood.both.current hlayers hdraws hnodup hmem
    refine ⟨hs ▸ hgood.flush hinv hdraws.rows_subset, fun result hr => ?_⟩
    obtain ⟨hne, hds⟩ := hok result hr
    rw [hgreedy] at hds
    have hneed : 0 ≤ args.quantity.value := by
      by_contra hneg
      exact hne (hds.trans (Allocation.greedy_of_nonpos (not_le.mp hneg).le))
    have hsum : args.quantity.value ≤ ((sortLayers costMethod layers).map CostLayer.quantity).sum := by
      rw [((perm_sortLayers costMethod layers).map CostLayer.quantity).sum_eq]
      exact hissue.covered
    rw [hds, Allocation.sum_greedy hpos hneed hsum] at hreduced
    rw [hs]
    exact hreduced

theorem spec_consumeSpecific (env : Env) {lotId : UUID} (hgood : Good ctx s)
    (hexact : ∀ layers, getAvailableLayers ctx s.current args.itemId none = .ok layers →
      ∀ layer ∈ layers, layer.lot.lotId = lotId → args.quantity.value ≤ layer.quantity →
        DrawsExactly ctx s.current.rows layer.lot args.consumingRef args.quantity.value)
    {r : Result ValuationError Store ConsumptionResult}
    (h : consumeSpecific ctx env s args lotId = r) :
    Good ctx r.2 ∧ ∀ result, r.1 = .ok result →
      Reduced ctx s.current r.2.current args.itemId args.quantity.value := by
  rcases consumeSpecific_cases hgood.nested h with ⟨e, rfl | rfl⟩ |
    ⟨layers, layer, hlayers, hmem, hid, hle, store', hdraws, hs⟩
  · exact ⟨hgood, fun _ hr => by cases hr⟩
  · exact ⟨hgood.rollback, fun _ hr => by cases hr⟩
  · obtain ⟨hinv, hreduced⟩ := spec_of_layers hgood.both.current hlayers hdraws
      (List.nodup_singleton _) fun d hd => by
        obtain rfl := List.mem_singleton.mp hd
        exact ⟨hmem, hle, hexact layers hlayers layer hmem hid hle⟩
    refine ⟨hs ▸ hgood.flush hinv hdraws.rows_subset, fun result hr => ?_⟩
    rw [hs]
    simpa using hreduced

theorem spec_consumeAtStandard (env : Env) {costs : StandardCosts} (hgood : Good ctx s)
    (hexact : (getStandardCost costs args.itemId).isSome → IssueExact ctx s.current args .standard)
    {r : Result ValuationError Store StandardCostResult}
    (h : consumeAtStandard ctx env costs s args = r) :
    Good ctx r.2 ∧ ∀ result, r.1 = .ok result →
      Reduced ctx s.current r.2.current args.itemId args.quantity.value := by
  unfold consumeAtStandard at h
  cases hcost : getStandardCost costs args.itemId with
  | none =>
      rw [hcost] at h
      subst h
      exact ⟨hgood, fun _ hr => by cases hr⟩
  | some cost =>
      rw [hcost] at h hexact
      dsimp only at h
      obtain ⟨hgood', hreduced⟩ := spec_consumeWithMethod env hgood (hexact rfl) rfl
      cases hrun : consumeWithMethod ctx env s args .standard with
      | mk result s' =>
          rw [hrun] at h hgood' hreduced
          cases result with
          | error e =>
              subst h
              exact ⟨hgood', fun _ hr => by cases hr⟩
          | ok consumption =>
              subst h
              exact ⟨hgood', fun _ _ => hreduced consumption rfl⟩

/-- A receipt is exact when the digits of its cost fit. -/
theorem exact_createLot {st : State} {env : Env} {args : CreateLot}
    (h : |Decimal.quantize 9 args.totalCost.amount| * 10 ^ 9 < 10 ^ ctx.prec) :
    Exact ctx st (.createLot env args) := by
  intro cost hcost
  unfold numericColumn at hcost
  split at hcost
  · obtain rfl := Except.ok.inj hcost
    exact ctx.round_quantize h
  · cases hcost

/-- A new lot keeps the invariant when its cost has no more digits than the context. -/
theorem Inv.create {store : Store} (hinv : Inv ctx store) {m : CostLotModel} {rows : List LinkRow}
    (hid : m.id ∉ store.lots.map CostLotModel.id) (hquantity : 0 ≤ m.originalQuantity)
    (hcost : ctx.round m.originalCost = m.originalCost)
    (hrows : ∀ row ∈ rows, row.link.linkType = .sourcedFrom) :
    Inv ctx { store with lots := store.lots ++ [m], rows := store.rows ++ rows } := by
  have hnew : ∀ lotId, consumptionsOf (store.rows ++ rows) lotId = consumptionsOf store.rows lotId :=
    fun lotId => by
      have hnone : rows.filter (fun r => r.link.parentRef = lotRef lotId &&
          r.link.linkType = .consumedBy) = [] := by
        refine List.filter_eq_nil_iff.mpr fun row hrow => ?_
        rw [hrows row hrow]
        simp
      unfold consumptionsOf
      rw [List.filter_append, hnone, List.append_nil]
  refine ⟨?_, fun m' hm' => ?_, fun r hr htype => ?_, fun c hc => ?_⟩
  · rw [List.map_append, List.nodup_append]
    refine ⟨hinv.ids, List.nodup_singleton _, fun a ha b hb => ?_⟩
    obtain rfl := List.mem_singleton.mp hb
    exact fun heq => hid (heq ▸ ha)
  · rcases List.mem_append.mp hm' with hm' | hm'
    · exact (hinv.lot m' hm').congr (hnew m'.id) rfl
    · obtain rfl := List.mem_singleton.mp hm'
      have hnone : consumptionsOf (store.rows ++ rows) m'.id = [] := by
        rw [hnew]
        refine List.filter_eq_nil_iff.mpr fun r hr hboth => ?_
        simp only [Bool.and_eq_true, decide_eq_true_eq] at hboth
        obtain ⟨m, hm, hparent⟩ := hinv.rows r hr hboth.2
        exact hid (lotRef_injective (hboth.1.symm.trans hparent) ▸ List.mem_map_of_mem hm)
      have hcharges : chargesOf store m'.id = [] := by
        refine List.filter_eq_nil_iff.mpr fun c hc heq => ?_
        obtain ⟨m, hm, hlot⟩ := hinv.charges c hc
        exact hid ((of_decide_eq_true heq) ▸ hlot ▸ List.mem_map_of_mem hm)
      have hcosts : costsConsumed (store.rows ++ rows) m'.id = [] := by
        unfold costsConsumed
        rw [hnone]
        rfl
      have hrecorded : recordedCost (store.rows ++ rows) m'.id = 0 := congrArg List.sum hcosts
      have hconsumed :
          consumedQuantity ⟨store.lots ++ [m'], store.rows ++ rows, store.charges⟩ m'.id = 0 :=
        consumedQuantity_of_nil hcharges
      refine ⟨?_, ?_, ?_, Or.inl ⟨hrecorded, hconsumed⟩, hconsumed.le.trans hquantity⟩
      · exact hrecorded.trans (chargedCost_of_nil hcharges).symm
      · exact (congrArg (sumOf ctx) hcosts).trans hrecorded.symm
      · rw [hrecorded, sub_zero]
        exact hcost
  · rcases List.mem_append.mp hr with hr | hr
    · obtain ⟨m', hm', hparent⟩ := hinv.rows r hr htype
      exact ⟨m', List.mem_append_left _ hm', hparent⟩
    · rw [hrows r hr] at htype
      cases htype
  · obtain ⟨m', hm', hlot⟩ := hinv.charges c hc
    exact ⟨m', List.mem_append_left _ hm', hlot⟩

theorem good_createLot {env : Env} {args : CreateLot} (hgood : Good ctx s)
    (hexact : ∀ cost, numericColumn args.totalCost.amount = .ok cost → ctx.round cost = cost)
    {r : Result ValuationError Store CostLot} (h : createLot env s args = r) : Good ctx r.2 := by
  rcases createLot_cases hgood.nested h with ⟨e, rfl | rfl⟩ |
    ⟨m, rows, hs, hid, hquantity, -, -, hcost, hrows⟩
  · exact hgood
  · exact hgood.rollback
  · rw [hs]
    exact hgood.flush (hgood.both.current.create hid hquantity (hexact _ hcost) hrows)
      (List.subset_append_left _ _)

end Calls

/-! ### Runs -/

section Runs

variable {ctx : Decimal.Context} {st : State} {call : Call}

theorem outcome_eq_ok {α : Type} {costs : StandardCosts} {r : Result ValuationError Store α}
    (h : (outcome costs r).1 = .ok ()) : ∃ a, r.1 = .ok a := by
  unfold outcome at h
  cases hr : r.1 with
  | error e =>
      rw [hr] at h
      cases h
  | ok a => exact ⟨a, rfl⟩

theorem spec_of_outcome {α : Type} {r : Result ValuationError Store α} {itemId : String}
    {quantity : ℚ} (hperform : perform ctx st call = outcome st.standardCosts r)
    (hissues : call.issues = some (itemId, quantity))
    (h : Good ctx r.2 ∧ ∀ result, r.1 = .ok result →
      Reduced ctx st.db.current r.2.current itemId quantity) :
    Good ctx (perform ctx st call).2.db ∧ ReducesAvailable ctx st call := by
  rw [ReducesAvailable, hperform]
  refine ⟨h.1, fun itemId' quantity' hissues' hok => ?_⟩
  obtain ⟨rfl, rfl⟩ := Prod.mk.inj (Option.some.inj (hissues.symm.trans hissues'))
  obtain ⟨result, hresult⟩ := outcome_eq_ok hok
  exact h.2 result hresult

/-- **Step lemma**: an exact call keeps the invariant, and an exact consumption that returns lowers
what is available by what it consumes. -/
theorem spec_perform (hgood : Good ctx st.db) (hexact : Exact ctx st call) :
    Good ctx (perform ctx st call).2.db ∧ ReducesAvailable ctx st call := by
  cases call with
  | createLot env args =>
      exact ⟨good_createLot hgood hexact rfl, fun _ _ hissues => by cases hissues⟩
  | consumeFifo env args =>
      exact spec_of_outcome rfl rfl (spec_consumeWithMethod env hgood hexact rfl)
  | consumeLifo env args =>
      exact spec_of_outcome rfl rfl (spec_consumeWithMethod env hgood hexact rfl)
  | consumeSpecific env args lotId =>
      exact spec_of_outcome rfl rfl (spec_consumeSpecific env hgood hexact rfl)
  | consumeAtStandard env args =>
      exact spec_of_outcome rfl rfl (spec_consumeAtStandard env hgood hexact rfl)
  | setStandardCost itemId cost => exact ⟨hgood, fun _ _ hissues => by cases hissues⟩
  | commit => exact ⟨hgood.commit, fun _ _ hissues => by cases hissues⟩
  | rollback => exact ⟨hgood.rollback, fun _ _ hissues => by cases hissues⟩

theorem good_start (ctx : Decimal.Context) {links : LinkTable}
    (hlinks : ∀ l ∈ links, l.linkType ≠ .consumedBy) : Good ctx (start links).db := by
  have hinv : Inv ctx (Store.initial links) := by
    refine ⟨List.nodup_nil, (fun m hm => by cases hm), fun r hr htype => ?_,
      fun c hc => by cases hc⟩
    obtain ⟨l, hl, rfl⟩ := List.mem_map.mp hr
    exact absurd htype (hlinks l hl)
  exact ⟨Session.Both.start hinv, List.Subset.refl _⟩

theorem good_of_run {links : LinkTable} (hlinks : ∀ l ∈ links, l.linkType ≠ .consumedBy)
    {calls : List Call} (hexact : Along (step ctx) (Exact ctx) (start links) calls) {st : State}
    (hrun : run (step ctx) (start links) calls = some st) : Good ctx st.db := by
  have hstep : ∀ st call st', Good ctx st.db → Exact ctx st call →
      step ctx st call = some st' → Good ctx st'.db := by
    intro st call st' hgood hcall h
    obtain rfl := Option.some.inj h
    exact (spec_perform hgood hcall).1
  exact Along.run_invariant hstep hexact (good_start ctx hlinks) hrun

/-- **Inventory value is conserved** in the runs whose calls are exact: in every state no lot gives
more than it has and its cost is split into charges and the rest, and every consumption that
returns lowers what is available by what it consumes. -/
theorem conserved_of_exact (ctx : Decimal.Context) (links : LinkTable) (calls : List Call)
    (hlinks : ∀ l ∈ links, l.linkType ≠ .consumedBy)
    (hexact : Along (step ctx) (Exact ctx) (start links) calls) :
    Throughout (step ctx) (fun st => st.db.Both (Conserved ctx)) (start links) calls ∧
      Along (step ctx) (ReducesAvailable ctx) (start links) calls := by
  constructor
  · intro pre post st heq hrun
    have hgood := good_of_run hlinks (Along.of_append (heq ▸ hexact)) hrun
    exact ⟨hgood.both.committed.conserved, hgood.both.current.conserved⟩
  · intro pre call post st heq hrun
    have hgood := good_of_run hlinks (Along.of_append (heq ▸ hexact)) hrun
    exact (spec_perform hgood (hexact pre call post st heq hrun)).2

end Runs

/-! ### One layer -/

/-- **One lot that has not been drawn on** covers a smaller quantity without loss, when its unit cost
makes up its cost and the amounts fit. -/
theorem issueExact_of_layer {ctx : Decimal.Context} {store : Store} {args : Consume}
    {costMethod : CostMethod} {id : UUID} {quantity cost available : ℚ}
    (hlayers : (getAvailableLayers ctx store args.itemId args.locationId).toOption.map (List.map
      fun l => (l.lot.lotId, l.lot.originalQuantity.value, l.lot.originalCost.amount, l.quantity)) =
        some [(id, quantity, cost, available)])
    (hunlinked : (consumptionsOf store.rows id).length = 0) (hpos : 0 < args.quantity.value)
    (hless : args.quantity.value < available) (hpriced : unitAmount ctx quantity cost ≠ 0)
    (hunit : unitAmount ctx quantity cost * quantity = cost)
    (hunrounded : ∀ x ∈ [args.quantity.value * unitAmount ctx quantity cost,
      cost - args.quantity.value * unitAmount ctx quantity cost,
      cost / unitAmount ctx quantity cost,
      (cost - args.quantity.value * unitAmount ctx quantity cost) / unitAmount ctx quantity cost],
        ctx.round x = x) :
    IssueExact ctx store args costMethod := by
  intro layers hfound _
  rw [hfound] at hlayers
  obtain ⟨layer, rfl, hlayer⟩ := List.map_eq_singleton_iff.mp (Option.some.inj hlayers)
  simp only [Prod.mk.injEq] at hlayer
  obtain ⟨rfl, rfl, rfl, rfl⟩ := hlayer
  have hsorted : sortLayers costMethod [layer] = [layer] :=
    List.perm_singleton.mp (perm_sortLayers costMethod [layer])
  have hcosts : costsConsumed store.rows layer.lot.lotId = [] := by
    unfold costsConsumed
    rw [List.length_eq_zero_iff.mp hunlinked, List.filterMap_nil]
  have hrecorded : recordedCost store.rows layer.lot.lotId = 0 := congrArg List.sum hcosts
  refine ⟨?_, fun pre hpre hne hsum => ?_, fun d hd => ?_⟩
  · rw [List.map_singleton, List.sum_singleton]
    exact hless.le
  · rw [hsorted] at hpre
    obtain rfl | ⟨rest, rfl, hrest⟩ := List.prefix_cons_iff.mp hpre
    · exact absurd rfl hne
    · obtain rfl := List.prefix_nil.mp hrest
      rw [List.map_singleton, List.sum_singleton] at hsum
      exact absurd hsum (not_le.mpr hless)
  · have hgreedy : Allocation.greedy id CostLayer.quantity args.quantity.value [layer] =
        [(layer, args.quantity.value)] := by
      unfold Allocation.greedy Allocation.greedy
      rw [if_neg (not_le.mpr hpos), min_eq_left hless.le, if_neg (not_le.mpr hpos)]
    rw [hsorted, hgreedy] at hd
    obtain rfl := List.mem_singleton.mp hd
    refine ⟨fun _ => hpriced, fun _ => hunit, fun _ r hr => ?_, ?_⟩
    · rw [List.length_eq_zero_iff.mp hunlinked] at hr
      cases hr
    · dsimp only
      rw [hrecorded, sub_zero, zero_add]
      intro x hx
      refine hunrounded x ?_
      simpa [CostLot.unitCost] using hx

/-! ### Sample runs -/

/-- Ten units of a cost, received in a lot. -/
def sampleReceipt (cost : ℚ) : Call :=
  .createLot ⟨1000, sampleTime, fun _ => ⟨0x51⟩⟩
    { lotId := ⟨0xa⟩
      sourceRef := ⟨.receipt, ⟨1⟩⟩
      itemId := "WIDGET"
      quantity := ⟨10, "EA"⟩
      totalCost := ⟨cost, "USD"⟩
      lotDate := sampleTime.date
      creatingEventId := ⟨0xe1⟩
      locationId := none
      costMethod := .fifo }

/-- The shipment of units, oldest lot first. -/
def sampleShipment (shipment : BitVec 128) (quantity : ℚ) : Call :=
  .consumeFifo ⟨1000, sampleTime, fun _ => ⟨shipment + 0x60⟩⟩
    { consumingRef := ⟨.shipment, ⟨shipment⟩⟩
      itemId := "WIDGET"
      quantity := ⟨quantity, "EA"⟩
      creatingEventId := ⟨0xe2⟩
      locationId := none }

/-- The state after the receipt of ten units for twenty. -/
def sampleStock : State := (perform Hashing.defaultContext (start []) (sampleReceipt 20)).2

theorem sampleReceipt_exact : Exact Hashing.defaultContext (start []) (sampleReceipt 20) := by
  have hvalue : Decimal.quantize 9 20 = 20 := by decide +kernel
  refine exact_createLot ?_
  show |Decimal.quantize 9 20| * 10 ^ 9 < 10 ^ 28
  rw [hvalue]
  norm_num

theorem sampleShipment_exact :
    Exact Hashing.defaultContext sampleStock (sampleShipment 2 4) := by
  refine @issueExact_of_layer _ _ _ _ ⟨0xa⟩ 10 20 10 ?_ ?_ ?_ ?_ ?_ ?_ ?_
  · decide +kernel
  · decide +kernel
  · decide +kernel
  · decide +kernel
  · decide +kernel
  · decide +kernel
  · decide +kernel

/-- Four units are shipped from ten that cost two each. -/
theorem conserved_of_sampleShipment :
    Throughout (step Hashing.defaultContext)
        (fun st => st.db.Both (Conserved Hashing.defaultContext)) (start [])
        [sampleReceipt 20, sampleShipment 2 4] ∧
      Along (step Hashing.defaultContext) (ReducesAvailable Hashing.defaultContext) (start [])
        [sampleReceipt 20, sampleShipment 2 4] := by
  refine conserved_of_exact _ _ _ (fun l hl => by cases hl) ?_
  refine TransitionSystem.along_cons.mpr ⟨sampleReceipt_exact, fun st hst => ?_⟩
  obtain rfl := Option.some.inj hst
  exact TransitionSystem.along_cons.mpr
    ⟨sampleShipment_exact, fun _ _ => TransitionSystem.along_nil⟩

/-- Some lot of the store has given more than it had. -/
def overdrawn (store : Store) : Bool :=
  store.lots.any fun m => m.originalQuantity < consumedQuantity store m.id

/-- Ten units that cost nothing are shipped twice. -/
theorem free_lot_overdrawn : ¬ ∀ (links : LinkTable) (calls : List Call),
    (∀ l ∈ links, l.linkType ≠ .consumedBy) →
      Throughout (step Hashing.defaultContext)
          (fun st => st.db.Both (Conserved Hashing.defaultContext)) (start links) calls ∧
        Along (step Hashing.defaultContext) (ReducesAvailable Hashing.defaultContext) (start links)
          calls := by
  intro h
  have hrun : (run (step Hashing.defaultContext) (start [])
      [sampleReceipt 0, sampleShipment 2 10, sampleShipment 3 10]).any
        (fun st => overdrawn st.db.current) = true := by decide +kernel
  obtain ⟨st, hst, hover⟩ := (Option.any_eq_true ..).mp hrun
  obtain ⟨m, hm, hlt⟩ := List.any_eq_true.mp hover
  have hlaw := (h [] _ fun _ hl => by cases hl).1 _ [] st (List.append_nil _).symm hst
  exact absurd (hlaw.current.quantity m hm) (not_le.mpr (of_decide_eq_true hlt))

end FinanceAccounting.Valuation
