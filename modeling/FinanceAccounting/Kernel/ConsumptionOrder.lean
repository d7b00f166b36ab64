import Mathlib.Data.List.Induction
import FinanceAccounting.Kernel.ValuationLaws
import FinanceAccounting.Library.Traversals

/-! # The order of consumption

`consume_fifo` and `consume_lifo` sort the available layers by the dates of their lots and draw on
them one after the other.  So a lot is drawn on only when the lots before it are used up by the same
call; and the draws make up the request where the decimal context rounds no remainder of it
(`consume_in_order`). -/

namespace FinanceAccounting.Valuation

open Allocation (greedy)
open LinkGraph (LinkTable)
open TransitionSystem (run)
open UnitOfWork (Session Result)

/-! ### The law -/

/-- The first lot is older. -/
def Older (a b : CostLayer) : Prop := a.lot.lotDate.key < b.lot.lotDate.key

/-- The first lot is newer. -/
def Newer (a b : CostLayer) : Prop := Older b a

/-- The call takes all that the layer has. -/
def UsesUp (r : ConsumptionResult) (layer : CostLayer) : Prop :=
  ∃ c ∈ r.layersConsumed, c.lotId = layer.lot.lotId ∧
    c.quantityConsumed.value = layer.quantity ∧ c.remainingInLot.value = 0

/-- Every draw is on an available layer, and the layers before it are used up. -/
def DrawsInOrder (before : CostLayer → CostLayer → Prop) (layers : List CostLayer)
    (r : ConsumptionResult) : Prop :=
  ∀ c ∈ r.layersConsumed, ∃ layer ∈ layers, c.lotId = layer.lot.lotId ∧
    0 < c.quantityConsumed.value ∧ c.quantityConsumed.value ≤ layer.quantity ∧
    ∀ earlier ∈ layers, before earlier layer → UsesUp r earlier

/-- The context rounds neither the totals of what is available nor what is left of the request after
whole layers. -/
structure Representable (ctx : Decimal.Context) (costMethod : CostMethod) (quantity : ℚ)
    (layers : List CostLayer) : Prop where
  totals : ∀ pre, pre <+: layers →
    ctx.round (pre.map CostLayer.quantity).sum = (pre.map CostLayer.quantity).sum
  needs : ∀ pre, pre <+: sortLayers costMethod layers → (pre.map CostLayer.quantity).sum ≤ quantity →
    ctx.round (quantity - (pre.map CostLayer.quantity).sum) =
      quantity - (pre.map CostLayer.quantity).sum

/-- The call raises for want of inventory. -/
def RaisesInsufficient (result : Result ValuationError Store ConsumptionResult) : Prop :=
  ∃ itemId requested available unit,
    result.1 = .error (.insufficientInventory itemId requested available unit)

/-- What a consumption of a quantity does with the layers it finds. -/
structure ConsumesInOrder (ctx : Decimal.Context) (costMethod : CostMethod)
    (before : CostLayer → CostLayer → Prop) (layers : List CostLayer) (s : Session Store)
    (quantity : ℚ) (result : Result ValuationError Store ConsumptionResult) : Prop where
  ordered : ∀ r, result.1 = .ok r → DrawsInOrder before layers r
  total : Representable ctx costMethod quantity layers → ∀ r, result.1 = .ok r →
    (r.layersConsumed.map (·.quantityConsumed.value)).sum = quantity
  insufficient : RaisesInsufficient result ↔ totalAvailable ctx layers < quantity
  unchanged : RaisesInsufficient result → result.2 = s

/-! ### The loop -/

section Loop

variable {ctx : Decimal.Context} {args : Consume} {env : Env} {s s' : Session Store}
variable {layers : List CostLayer} {costMethod : CostMethod}

/-- A loop that returns has drawn as greedy allocation does. -/
theorem consumeLayers_eq_ok {remainingQty : ℚ}
    {r : List CostLayerConsumption × List LinkGraph.EconomicLink}
    (h : consumeLayers ctx args env s remainingQty layers = (.ok r, s')) :
    r.1 = (greedy ctx.round CostLayer.quantity remainingQty layers).map (consumptionOf ctx args) := by
  induction layers generalizing env s remainingQty r with
  | nil =>
      obtain rfl := Except.ok.inj (Prod.mk.inj h).1
      rfl
  | cons layer layers ih =>
      unfold consumeLayers at h
      unfold greedy
      split at h
      · rename_i hneed
        obtain rfl := Except.ok.inj (Prod.mk.inj h).1
        rw [if_pos hneed]
        rfl
      · rename_i hneed
        rw [if_neg hneed]
        split at h
        · rename_i hempty
          rw [if_pos hempty]
          exact ih h
        · rename_i hempty
          rw [if_neg hempty]
          obtain ⟨link, s₁, -, hrest⟩ := Result.andThen_eq_ok.mp h
          obtain ⟨rest, s₂, hloop, hr⟩ := Result.andThen_eq_ok.mp hrest
          obtain ⟨hvalue, rfl⟩ := Prod.mk.inj hr
          obtain rfl := Except.ok.inj hvalue
          rw [List.map_cons, ← ih hloop]
          rfl

/-- The sum of the quantities, when no partial sum is rounded. -/
theorem sumOf_eq_sum (xs : List ℚ) (h : ∀ pre, pre <+: xs → ctx.round pre.sum = pre.sum) :
    sumOf ctx xs = xs.sum := by
  induction xs using List.reverseRecOn with
  | nil => rfl
  | append_singleton xs x ih =>
      have hxs := ih fun pre hpre => h pre (hpre.trans (List.prefix_append xs [x]))
      have hsum : (xs ++ [x]).sum = xs.sum + x := by rw [List.sum_append, List.sum_singleton]
      rw [sumOf_append, hxs, ← hsum]
      exact h (xs ++ [x]) List.prefix_rfl

theorem totalAvailable_eq_sum {quantity : ℚ}
    (h : Representable ctx costMethod quantity layers) :
    totalAvailable ctx layers = (layers.map CostLayer.quantity).sum := by
  refine sumOf_eq_sum _ fun pre hpre => ?_
  obtain ⟨n, rfl⟩ : ∃ n, pre = (layers.map CostLayer.quantity).take n :=
    ⟨pre.length, List.prefix_iff_eq_take.mp hpre⟩
  rw [← List.map_take]
  exact h.totals (layers.take n) (List.take_prefix n layers)

/-- **The draws make up the request** where the layers cover it. -/
theorem sum_draws {quantity : ℚ} (hpos : ∀ layer ∈ layers, 0 < layer.quantity)
    (hneed : 0 ≤ quantity) (h : Representable ctx costMethod quantity layers)
    (hcovered : quantity ≤ totalAvailable ctx layers) :
    ((greedy ctx.round CostLayer.quantity quantity (sortLayers costMethod layers)).map
      Prod.snd).sum = quantity := by
  have hpos' : ∀ layer ∈ sortLayers costMethod layers, 0 < layer.quantity :=
    fun layer hlayer => hpos layer (mem_sortLayers.mp hlayer)
  have hsum : ((sortLayers costMethod layers).map CostLayer.quantity).sum =
      (layers.map CostLayer.quantity).sum :=
    ((perm_sortLayers costMethod layers).map CostLayer.quantity).sum_eq
  rw [Allocation.greedy_round hpos' (fun pre hpre _ hle => h.needs pre hpre hle) ctx.round_zero]
  refine Allocation.sum_greedy hpos' hneed ?_
  rw [hsum, ← totalAvailable_eq_sum h]
  exact hcovered

/-- **Layers are drawn on in their order**, when the earlier ones come first. -/
theorem drawsInOrder_of_greedy {before : CostLayer → CostLayer → Prop} {quantity : ℚ}
    {r : ConsumptionResult} (hpos : ∀ layer ∈ layers, 0 < layer.quantity)
    (hsorted : (sortLayers costMethod layers).Pairwise fun a b => ¬before b a)
    (hirrefl : ∀ a, ¬before a a)
    (hr : r.layersConsumed =
      (greedy ctx.round CostLayer.quantity quantity (sortLayers costMethod layers)).map
        (consumptionOf ctx args)) :
    DrawsInOrder before layers r := by
  have hpos' : ∀ layer ∈ sortLayers costMethod layers, 0 < layer.quantity :=
    fun layer hlayer => hpos layer (mem_sortLayers.mp hlayer)
  intro c hc
  rw [hr] at hc
  obtain ⟨d, hd, rfl⟩ := List.mem_map.mp hc
  have hmem : d.1 ∈ sortLayers costMethod layers :=
    Allocation.sublist_greedy.subset (List.mem_map_of_mem hd)
  obtain ⟨hgives, hle⟩ := Allocation.le_of_greedy hd
  refine ⟨d.1, mem_sortLayers.mp hmem, rfl, hgives, hle, fun earlier hearlier hbefore => ?_⟩
  have hearlier' := (@mem_sortLayers costMethod layers earlier).mpr hearlier
  obtain ⟨whole, rest, hsplit, hgreedy⟩ := @Allocation.greedy_whole _ _ _ _ ctx.round
    CostLayer.quantity quantity (sortLayers costMethod layers) _ hpos' ctx.round_zero
  rw [hsplit, List.pairwise_append] at hsorted
  obtain ⟨-, hrest, hcross⟩ := hsorted
  -- what is drawn on is whole, or the first of the rest; so an earlier layer is whole
  have hwhole : earlier ∈ whole := by
    rw [hsplit, List.mem_append] at hearlier'
    refine hearlier'.resolve_right fun hin => ?_
    rcases hgreedy with hall | ⟨a, rest', part, rfl, hpart⟩
    · rw [hall] at hd
      obtain ⟨a, ha, rfl⟩ := List.mem_map.mp hd
      exact hcross a ha earlier hin hbefore
    · rw [hpart, List.mem_append] at hd
      rcases hd with hd | hd
      · obtain ⟨a', ha', rfl⟩ := List.mem_map.mp hd
        exact hcross a' ha' earlier hin hbefore
      · obtain rfl := List.mem_singleton.mp hd
        rcases List.mem_cons.mp hin with rfl | hin
        · exact hirrefl _ hbefore
        · exact (List.pairwise_cons.mp hrest).1 earlier hin hbefore
  have hdrawn : (earlier, earlier.quantity) ∈
      greedy ctx.round CostLayer.quantity quantity (sortLayers costMethod layers) := by
    have hmap : (earlier, earlier.quantity) ∈ whole.map fun a => (a, a.quantity) :=
      List.mem_map_of_mem hwhole
    rcases hgreedy with hall | ⟨a, rest', part, -, hpart⟩
    · rw [hall]
      exact hmap
    · rw [hpart]
      exact List.mem_append_left _ hmap
  refine ⟨consumptionOf ctx args (earlier, earlier.quantity), ?_, rfl, rfl, ?_⟩
  · rw [hr]
    exact List.mem_map_of_mem hdrawn
  · show ctx.round (earlier.quantity - earlier.quantity) = 0
    rw [sub_self, ctx.round_zero]

end Loop

/-! ### The theorem -/

section Consumption

variable {ctx : Decimal.Context} {args : Consume} {env : Env} {s : Session Store}
variable {layers : List CostLayer} {costMethod : CostMethod}

/-- The link service does not raise for want of inventory. -/
theorem not_raises_createConsumptionLink {lot : CostLot} {consumption : CostLayerConsumption}
    {itemId unit : String} {requested available : ℚ} {s' : Session Store} :
    createConsumptionLink env s lot args.consumingRef consumption args.creatingEventId ≠
      (.error (.insufficientInventory itemId requested available unit), s') := by
  intro h
  unfold createConsumptionLink at h
  split at h
  · cases h
  · rcases Result.andThen_eq_error.mp h with hlink | ⟨link, s₁, -, hrest⟩
    · unfold establishLink at hlink
      split at hlink
      · cases hlink
      · cases hlink
    · cases hrest

/-- Nor does the loop. -/
theorem not_raises_consumeLayers {remainingQty : ℚ} {itemId unit : String} {requested available : ℚ}
    {s' : Session Store} :
    consumeLayers ctx args env s remainingQty layers ≠
      (.error (.insufficientInventory itemId requested available unit), s') := by
  induction layers generalizing env s remainingQty s' with
  | nil =>
      intro h
      cases h
  | cons layer layers ih =>
      intro h
      unfold consumeLayers at h
      split at h
      · cases h
      · split at h
        · exact ih h
        · rcases Result.andThen_eq_error.mp h with hlink | ⟨link, s₁, -, hrest⟩
          · exact not_raises_createConsumptionLink hlink
          · rcases Result.andThen_eq_error.mp hrest with hloop | ⟨rest, s₂, -, hend⟩
            · exact ih hloop
            · cases hend

/-- **Inventory is wanting when the layers do not cover the request**; then nothing is done. -/
theorem raisesInsufficient_iff
    (hlayers : getAvailableLayers ctx s.current args.itemId args.locationId = .ok layers)
    (hpos : 0 < args.quantity.value) :
    (RaisesInsufficient (consumeWithMethod ctx env s args costMethod) ↔
      totalAvailable ctx layers < args.quantity.value) ∧
    (totalAvailable ctx layers < args.quantity.value →
      (consumeWithMethod ctx env s args costMethod).2 = s) := by
  unfold consumeWithMethod
  rw [hlayers]
  dsimp only
  split
  · rename_i hempty
    obtain rfl := List.isEmpty_iff.mp hempty
    exact ⟨iff_of_true ⟨_, _, _, _, rfl⟩ hpos, fun _ => rfl⟩
  · split
    · rename_i hlt
      exact ⟨iff_of_true ⟨_, _, _, _, rfl⟩ hlt, fun _ => rfl⟩
    · rename_i hge
      refine ⟨iff_of_false ?_ hge, fun hlt => absurd hlt hge⟩
      rintro ⟨itemId, requested, available, unit, h⟩
      rcases Result.andThen_eq_error.mp (Prod.ext h rfl) with hloop | ⟨r, s₁, -, hend⟩
      · exact not_raises_consumeLayers hloop
      · have hcreate := (Prod.mk.inj hend).1
        unfold ConsumptionResult.create at hcreate
        split at hcreate
        · cases hcreate
        · cases hcreate

/-- A consumption that returns has drawn on the layers as greedy allocation does. -/
theorem consumeWithMethod_eq_ok {r : ConsumptionResult}
    (hlayers : getAvailableLayers ctx s.current args.itemId args.locationId = .ok layers)
    (h : (consumeWithMethod ctx env s args costMethod).1 = .ok r) :
    args.quantity.value ≤ totalAvailable ctx layers ∧
      r.layersConsumed = (greedy ctx.round CostLayer.quantity args.quantity.value
        (sortLayers costMethod layers)).map (consumptionOf ctx args) := by
  unfold consumeWithMethod at h
  rw [hlayers] at h
  dsimp only at h
  split at h
  · cases h
  · split at h
    · cases h
    · rename_i hge
      refine ⟨not_lt.mp hge, ?_⟩
      obtain ⟨drawn, s₁, hloop, hend⟩ := Result.andThen_eq_ok.mp (Prod.ext h rfl)
      rw [← consumeLayers_eq_ok hloop]
      have hcreate := (Prod.mk.inj hend).1
      unfold ConsumptionResult.create at hcreate
      split at hcreate
      · cases hcreate
      · obtain rfl := Except.ok.inj hcreate
        rfl

/-- The sorted layers are in the order of the method. -/
theorem pairwise_sortLayers :
    (sortLayers .fifo layers).Pairwise (fun a b => ¬Older b a) ∧
      (sortLayers .lifo layers).Pairwise fun a b => ¬Newer b a := by
  constructor
  · refine (Ranking.pairwise_ascending (fun l : CostLayer => l.lot.lotDate.key) layers).imp ?_
    exact fun hle => not_lt.mpr hle
  · refine (Ranking.pairwise_descending (fun l : CostLayer => l.lot.lotDate.key) layers).imp ?_
    exact fun hle => not_lt.mpr hle

theorem consumesInOrder_of_sorted {before : CostLayer → CostLayer → Prop}
    (hlayers : getAvailableLayers ctx s.current args.itemId args.locationId = .ok layers)
    (hquantity : 0 < args.quantity.value)
    (hsorted : (sortLayers costMethod layers).Pairwise fun a b => ¬before b a)
    (hirrefl : ∀ a, ¬before a a) :
    ConsumesInOrder ctx costMethod before layers s args.quantity.value
      (consumeWithMethod ctx env s args costMethod) := by
  obtain ⟨hinsufficient, hunchanged⟩ := @raisesInsufficient_iff ctx args env s layers costMethod
    hlayers hquantity
  obtain ⟨-, -, -, hlayer⟩ := getAvailableLayers_eq_ok hlayers
  have hpos : ∀ layer ∈ layers, 0 < layer.quantity := fun layer hmem => (hlayer layer hmem).2
  refine ⟨fun r hr => ?_, fun hrepresentable r hr => ?_, hinsufficient,
    fun hraises => hunchanged (hinsufficient.mp hraises)⟩
  · obtain ⟨-, hdrawn⟩ := consumeWithMethod_eq_ok hlayers hr
    exact drawsInOrder_of_greedy hpos hsorted hirrefl hdrawn
  · obtain ⟨hcovered, hdrawn⟩ := consumeWithMethod_eq_ok hlayers hr
    have hquantities : (fun c : CostLayerConsumption => c.quantityConsumed.value) ∘
        consumptionOf ctx args = Prod.snd := rfl
    rw [hdrawn, List.map_map, hquantities]
    exact sum_draws hpos hquantity.le hrepresentable hcovered

end Consumption

/-- **FIFO draws on the oldest lots first, and LIFO on the newest**: a lot is drawn on only when the
call uses up all available lots before it; the draws make up the request where the context represents
its remainders; and the call raises for want of inventory exactly when the total available is below
the request, with nothing written. -/
theorem consume_in_order (ctx : Decimal.Context) (env : Env) (s : Session Store) (args : Consume)
    (layers : List CostLayer)
    (hlayers : getAvailableLayers ctx s.current args.itemId args.locationId = .ok layers)
    (hquantity : 0 < args.quantity.value) :
    ConsumesInOrder ctx .fifo Older layers s args.quantity.value (consumeFifo ctx env s args) ∧
      ConsumesInOrder ctx .lifo Newer layers s args.quantity.value (consumeLifo ctx env s args) := by
  constructor
  · exact consumesInOrder_of_sorted hlayers hquantity pairwise_sortLayers.1 fun a => lt_irrefl _
  · exact consumesInOrder_of_sorted hlayers hquantity pairwise_sortLayers.2 fun a => lt_irrefl _

/-- Four of ten units, oldest lot first. -/
theorem consume_in_order_shipment : ∃ layers,
    getAvailableLayers Hashing.defaultContext sampleStock.db.current "WIDGET" none = .ok layers ∧
      ConsumesInOrder Hashing.defaultContext .fifo Older layers sampleStock.db 4
        (consumeFifo Hashing.defaultContext ⟨1000, sampleTime, fun _ => ⟨0x62⟩⟩ sampleStock.db
          ⟨⟨.shipment, ⟨2⟩⟩, "WIDGET", ⟨4, "EA"⟩, ⟨0xe2⟩, none⟩) := by
  have hsome : (getAvailableLayers Hashing.defaultContext sampleStock.db.current "WIDGET"
      none).toOption.isSome = true := by decide +kernel
  cases hlayers : getAvailableLayers Hashing.defaultContext sampleStock.db.current "WIDGET" none with
  | error e =>
      rw [hlayers] at hsome
      cases hsome
  | ok layers =>
      have hfour : (0 : ℚ) < 4 := by norm_num
      refine ⟨layers, rfl, ?_⟩
      exact (consume_in_order Hashing.defaultContext ⟨1000, sampleTime, fun _ => ⟨0x62⟩⟩
        sampleStock.db ⟨⟨.shipment, ⟨2⟩⟩, "WIDGET", ⟨4, "EA"⟩, ⟨0xe2⟩, none⟩ layers hlayers hfour).1

/-- Units of a cost, received in a lot. -/
def sampleReceiptOf (lot : BitVec 128) (quantity cost : ℚ) : Call :=
  .createLot ⟨1000, sampleTime, fun _ => ⟨lot + 0x50⟩⟩
    { lotId := ⟨lot⟩
      sourceRef := ⟨.receipt, ⟨lot⟩⟩
      itemId := "WIDGET"
      quantity := ⟨quantity, "EA"⟩
      totalCost := ⟨cost, "USD"⟩
      lotDate := sampleTime.date
      creatingEventId := ⟨0xe1⟩
      locationId := none
      costMethod := .fifo }

/-- Three units of a cost of ten are shipped, three times 3.333… leaves 1E-27 of it, and ten more are
received. -/
def sampleLeftover : Session Store :=
  ((run (step Hashing.defaultContext) (start [])
    [sampleReceiptOf 0xa 3 10, sampleShipment 2 3, sampleReceiptOf 0xb 10 10]).getD (start [])).db

/-- **A request of ten draws more than ten**, since the context does not see the part that the first
lot gives; and a request of nothing raises where there are no lots. -/
theorem consumed_total_differs :
    (¬∀ (s : Session Store) (env : Env) (args : Consume) (r : ConsumptionResult),
      (consumeFifo Hashing.defaultContext env s args).1 = .ok r →
        (r.layersConsumed.map (·.quantityConsumed.value)).sum = args.quantity.value) ∧
    ¬∀ (s : Session Store) (env : Env) (args : Consume) (layers : List CostLayer),
      getAvailableLayers Hashing.defaultContext s.current args.itemId args.locationId = .ok layers →
        (RaisesInsufficient (consumeFifo Hashing.defaultContext env s args) ↔
          (layers.map CostLayer.quantity).sum < args.quantity.value) := by
  constructor
  · intro h
    have hmore : (consumeFifo Hashing.defaultContext
        ⟨1000, sampleTime, fun n => ⟨BitVec.ofNat 128 (n + 0x80)⟩⟩
        sampleLeftover ⟨⟨.shipment, ⟨3⟩⟩, "WIDGET", ⟨10, "EA"⟩, ⟨0xe2⟩, none⟩).1.toOption.map
          (fun r => (r.layersConsumed.map (·.quantityConsumed.value)).sum) =
            some (10 + 3 / 10 ^ 28) := by decide +kernel
    obtain ⟨r, hr, hsum⟩ := Traversals.exists_of_map_toOption hmore
    rw [h _ _ _ r hr] at hsum
    norm_num at hsum
  · intro h
    have hnone := h (Session.start (Store.initial [])) ⟨1000, sampleTime, fun _ => ⟨0x63⟩⟩
      ⟨⟨.shipment, ⟨3⟩⟩, "WIDGET", ⟨0, "EA"⟩, ⟨0xe2⟩, none⟩ [] rfl
    exact lt_irrefl 0 (hnone.mp ⟨_, _, _, _, rfl⟩)

end FinanceAccounting.Valuation
