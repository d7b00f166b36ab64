import FinanceAccounting.Library.Allocation
import FinanceAccounting.Library.Ranking
import FinanceAccounting.Library.Rounding
import FinanceAccounting.Kernel.LinkGraph

/-! # Inventory valuation

`ValuationLayer` over the `cost_lots` table and the economic links.  A lot stores its original
quantity and cost only.  What remains of it is derived: the `cost_consumed` amounts of its
CONSUMED_BY links are summed and subtracted from its cost, and the rest is divided by its
unit cost.  A consumption takes what it needs from the layers in the order of its method and
writes one link for every lot it draws on, or none if the lot is already linked to the
consuming artifact.

Amounts are rational numbers; every operation of the decimal arithmetic rounds to the context
(`Decimal.Context.round`), and a stored lot is rounded to the scale of its columns. -/

namespace FinanceAccounting.Valuation

open LinkGraph (ArtifactRef ArtifactType LinkType EconomicLink LinkTable LinkError)
open UnitOfWork (Session Result)

/-! ### Lots and layers -/

structure Quantity where
  value : ℚ
  unit : String
deriving DecidableEq, Repr

structure Money where
  amount : ℚ
  currency : String
deriving DecidableEq, Repr

inductive CostMethod where
  | fifo
  | lifo
  | standard
  | specific
  | weightedAvg
deriving DecidableEq, Repr

inductive ValuationError where
  | quantityNotPositive (got : Quantity)
  | costNegative (got : Money)
  | noConsumption
  | insufficientInventory (itemId : String) (requestedQuantity availableQuantity : ℚ)
      (unit : String)
  | lotNotFound (lotId : UUID) (itemId : String)
  | lotDepleted (lotId : UUID) (itemId : String)
  | standardCostNotFound (itemId : String)
  | invalidLink (message : String)
  | link (e : LinkError)
  | dataError
  | integrityError
deriving DecidableEq, Repr

/-- `ArtifactRef.cost_lot`. -/
def lotRef (lotId : UUID) : ArtifactRef := ⟨.costLot, lotId⟩

/-- A lot that passed `__post_init__`. -/
structure CostLot where
  lotId : UUID
  itemId : String
  locationId : Option String
  lotDate : Date
  originalQuantity : Quantity
  originalCost : Money
  costMethod : CostMethod
  sourceRef : ArtifactRef
  quantity_pos : 0 < originalQuantity.value
  cost_nonneg : 0 ≤ originalCost.amount

/-- The constructor with its checks. -/
def CostLot.create (lotId : UUID) (itemId : String) (quantity : Quantity) (totalCost : Money)
    (lotDate : Date) (sourceRef : ArtifactRef) (locationId : Option String)
    (costMethod : CostMethod) : Except ValuationError CostLot :=
  if hq : quantity.value ≤ 0 then .error (.quantityNotPositive quantity)
  else if hc : totalCost.amount < 0 then .error (.costNegative totalCost)
  else
    .ok
      { lotId, itemId, locationId, lotDate, costMethod, sourceRef
        originalQuantity := quantity
        originalCost := totalCost
        quantity_pos := not_le.mp hq
        cost_nonneg := not_lt.mp hc }

/-- The cost of one unit of a quantity of a total cost. -/
def unitAmount (ctx : Decimal.Context) (quantity cost : ℚ) : ℚ :=
  if quantity = 0 then 0 else ctx.round (cost / quantity)

def CostLot.unitCost (ctx : Decimal.Context) (lot : CostLot) : Money :=
  ⟨unitAmount ctx lot.originalQuantity.value lot.originalCost.amount, lot.originalCost.currency⟩

structure CostLayer where
  lot : CostLot
  remainingQuantity : Quantity
  remainingValue : Money
  consumptionCount : ℕ

def CostLayer.isAvailable (layer : CostLayer) : Bool := 0 < layer.remainingQuantity.value

structure CostLayerConsumption where
  lotId : UUID
  quantityConsumed : Quantity
  costConsumed : Money
  unitCost : Money
  remainingInLot : Quantity
deriving DecidableEq, Repr

def CostLayerConsumption.create (ctx : Decimal.Context) (layer : CostLayer)
    (quantityConsumed : Quantity) : CostLayerConsumption where
  lotId := layer.lot.lotId
  quantityConsumed := quantityConsumed
  costConsumed :=
    ⟨ctx.round (quantityConsumed.value * (layer.lot.unitCost ctx).amount),
      layer.lot.originalCost.currency⟩
  unitCost := layer.lot.unitCost ctx
  remainingInLot :=
    ⟨ctx.round (layer.remainingQuantity.value - quantityConsumed.value),
      layer.remainingQuantity.unit⟩

/-- `sum(...)` of decimals. -/
def sumOf (ctx : Decimal.Context) (xs : List ℚ) : ℚ :=
  xs.foldl (fun total x => ctx.round (total + x)) 0

theorem sumOf_append (ctx : Decimal.Context) (xs : List ℚ) (x : ℚ) :
    sumOf ctx (xs ++ [x]) = ctx.round (sumOf ctx xs + x) := by
  unfold sumOf
  rw [List.foldl_append]
  rfl

structure ConsumptionResult where
  consumingEventRef : ArtifactRef
  itemId : String
  costMethod : CostMethod
  layersConsumed : List CostLayerConsumption
  totalQuantity : Quantity
  totalCost : Money
  linksCreated : List EconomicLink

def ConsumptionResult.create (ctx : Decimal.Context) (consumingEventRef : ArtifactRef)
    (itemId : String) (costMethod : CostMethod) (consumptions : List CostLayerConsumption)
    (links : List EconomicLink) : Except ValuationError ConsumptionResult :=
  match consumptions with
  | [] => .error .noConsumption
  | first :: _ =>
      .ok
        { consumingEventRef, itemId, costMethod
          layersConsumed := consumptions
          totalQuantity :=
            ⟨sumOf ctx (consumptions.map (·.quantityConsumed.value)), first.quantityConsumed.unit⟩
          totalCost :=
            ⟨sumOf ctx (consumptions.map (·.costConsumed.amount)), first.costConsumed.currency⟩
          linksCreated := links }

structure StandardCostResult where
  consumption : ConsumptionResult
  standardCost : Money
  actualCost : Money
  variance : Money

/-! ### Tables -/

/-- Rows of `cost_lots`. -/
structure CostLotModel where
  id : UUID
  itemId : String
  locationId : Option String
  lotDate : Date
  originalQuantity : ℚ
  quantityUnit : String
  originalCost : ℚ
  currency : String
  costMethod : CostMethod
  sourceEventId : UUID
  sourceRef : ArtifactRef
  createdAt : Datetime

/-- A row of `economic_links`, with the amounts that the metadata of a consumption carry. -/
structure LinkRow where
  link : EconomicLink
  consumption : Option CostLayerConsumption

/-- The tables.  `charges` is the history of what consumptions have charged; no function of the
service reads it. -/
structure Store where
  lots : List CostLotModel
  rows : List LinkRow
  charges : List CostLayerConsumption

/-- A store without lots, whose links are given. -/
def Store.initial (links : LinkTable) : Store := ⟨[], links.map fun l => ⟨l, none⟩, []⟩

def Store.links (store : Store) : LinkTable := store.rows.map LinkRow.link

/-- The value that a `Numeric(38, 9)` column holds; larger numbers are refused. -/
def numericColumn (x : ℚ) : Except ValuationError ℚ :=
  if |Decimal.quantize 9 x| < 10 ^ 29 then .ok (Decimal.quantize 9 x) else .error .dataError

/-! ### Queries -/

def modelToDomain (model : CostLotModel) : Except ValuationError CostLot :=
  CostLot.create model.id model.itemId ⟨model.originalQuantity, model.quantityUnit⟩
    ⟨model.originalCost, model.currency⟩ model.lotDate model.sourceRef model.locationId
    model.costMethod

def loadLotById (store : Store) (lotId : UUID) : Except ValuationError (Option CostLot) :=
  match store.lots.find? fun m => m.id = lotId with
  | none => .ok none
  | some model => (modelToDomain model).map some

/-- Convert rows one after the other. -/
def toDomain : List CostLotModel → Except ValuationError (List CostLot)
  | [] => .ok []
  | model :: models =>
      match modelToDomain model with
      | .error e => .error e
      | .ok lot => (toDomain models).map fun lots => lot :: lots

def loadLotsForItem (store : Store) (itemId : String) : Except ValuationError (List CostLot) :=
  toDomain (Ranking.ascending (fun m => m.lotDate.key)
    (store.lots.filter fun m => m.itemId = itemId))

/-- The consumptions recorded for a lot. -/
def consumptionsOf (rows : List LinkRow) (lotId : UUID) : List LinkRow :=
  rows.filter fun r => r.link.parentRef = lotRef lotId && r.link.linkType = .consumedBy

/-- The `cost_consumed` amounts among them. -/
def costsConsumed (rows : List LinkRow) (lotId : UUID) : List ℚ :=
  (consumptionsOf rows lotId).filterMap fun r => r.consumption.map (·.costConsumed.amount)

structure UnconsumedValue where
  artifactRef : ArtifactRef
  originalAmount : Money
  consumedAmount : Money
  remainingAmount : Money
  childCount : ℕ

/-- `get_unconsumed_value` for the CONSUMED_BY links of a lot. -/
def getUnconsumedValue (ctx : Decimal.Context) (rows : List LinkRow) (lotId : UUID)
    (originalAmount : Money) : UnconsumedValue :=
  let consumedTotal := sumOf ctx (costsConsumed rows lotId)
  { artifactRef := lotRef lotId
    originalAmount := originalAmount
    consumedAmount := ⟨consumedTotal, originalAmount.currency⟩
    remainingAmount := ⟨ctx.round (originalAmount.amount - consumedTotal), originalAmount.currency⟩
    childCount := (consumptionsOf rows lotId).length }

/-- The layer of a lot, with what remains of it. -/
def layerOf (ctx : Decimal.Context) (rows : List LinkRow) (lot : CostLot) : CostLayer :=
  let unconsumed := getUnconsumedValue ctx rows lot.lotId lot.originalCost
  let remaining :=
    if (lot.unitCost ctx).amount = 0 then lot.originalQuantity.value
    else ctx.round (unconsumed.remainingAmount.amount / (lot.unitCost ctx).amount)
  { lot := lot
    remainingQuantity := ⟨remaining, lot.originalQuantity.unit⟩
    remainingValue := unconsumed.remainingAmount
    consumptionCount := unconsumed.childCount }

/-- `location_id and lot.location_id != location_id`, negated. -/
def atLocation (locationId : Option String) (lot : CostLot) : Bool :=
  match locationId with
  | none => true
  | some l => l = "" || lot.locationId = some l

def getAvailableLayers (ctx : Decimal.Context) (store : Store) (itemId : String)
    (locationId : Option String) : Except ValuationError (List CostLayer) :=
  (loadLotsForItem store itemId).map fun lots =>
    ((lots.filter (atLocation locationId)).map (layerOf ctx store.rows)).filter
      CostLayer.isAvailable

/-- What is available of an item: the quantities of its layers together. -/
def availableQuantity (ctx : Decimal.Context) (store : Store) (itemId : String) :
    Except ValuationError ℚ :=
  (getAvailableLayers ctx store itemId none).map fun layers =>
    (layers.map (·.remainingQuantity.value)).sum

/-! ### Links -/

/-- `establish_link` with `allow_duplicate`, on rows that carry their amounts. -/
def establishLink (recursionLimit : ℕ) (s : Session Store) (row : LinkRow) :
    Result ValuationError Store EconomicLink :=
  match LinkGraph.establishIn Store.links recursionLimit s row.link true
      { s.current with rows := s.current.rows ++ [row] } with
  | (.ok result, s) => (.ok result.link, s)
  | (.error e, s) => (.error (.link e), s)

/-- What a call takes from its surroundings: the interpreter's limit, the clock, and the
identifiers that `uuid4` returns. -/
structure Env where
  recursionLimit : ℕ
  now : Datetime
  uuid4 : ℕ → UUID

/-- The surroundings after one identifier has been drawn. -/
def Env.next (env : Env) : Env := { env with uuid4 := fun n => env.uuid4 (n + 1) }

/-! ### Creation of lots -/

structure CreateLot where
  lotId : UUID
  sourceRef : ArtifactRef
  itemId : String
  quantity : Quantity
  totalCost : Money
  lotDate : Date
  creatingEventId : UUID
  locationId : Option String
  costMethod : CostMethod

/-- The row of a lot, with its amounts as the columns hold them. -/
def storedLot (env : Env) (lot : CostLot) (creatingEventId : UUID) (quantity cost : ℚ) :
    CostLotModel where
  id := lot.lotId
  itemId := lot.itemId
  locationId := lot.locationId
  lotDate := lot.lotDate
  originalQuantity := quantity
  quantityUnit := lot.originalQuantity.unit
  originalCost := cost
  currency := lot.originalCost.currency
  costMethod := lot.costMethod
  sourceEventId := creatingEventId
  sourceRef := lot.sourceRef
  createdAt := env.now

/-- Add and flush the lot; a refused flush rolls the transaction back. -/
def storeLot (env : Env) (s : Session Store) (lot : CostLot) (creatingEventId : UUID) :
    Result ValuationError Store Unit :=
  match numericColumn lot.originalQuantity.value, numericColumn lot.originalCost.amount with
  | .ok quantity, .ok cost =>
      if s.current.lots.any fun m => m.id = lot.lotId then (.error .integrityError, s.rollback)
      else
        (.ok (), s.flush { s.current with
          lots := s.current.lots ++ [storedLot env lot creatingEventId quantity cost] })
  | .error e, _ => (.error e, s.rollback)
  | _, .error e => (.error e, s.rollback)

def createLot (env : Env) (s : Session Store) (args : CreateLot) :
    Result ValuationError Store CostLot :=
  match CostLot.create args.lotId args.itemId args.quantity args.totalCost args.lotDate
      args.sourceRef args.locationId args.costMethod with
  | .error e => (.error e, s)
  | .ok lot =>
      (storeLot env s lot args.creatingEventId).andThen fun _ s =>
        match EconomicLink.create (env.uuid4 0) .sourcedFrom args.sourceRef (lotRef lot.lotId)
            args.creatingEventId env.now none with
        | .error e => (.error (.invalidLink e), s)
        | .ok link =>
            (establishLink env.recursionLimit s ⟨link, none⟩).andThen fun _ s => (.ok lot, s)

/-! ### Consumption -/

structure Consume where
  consumingRef : ArtifactRef
  itemId : String
  quantity : Quantity
  creatingEventId : UUID
  locationId : Option String

/-- `_create_consumption_link`; the charge enters the history. -/
def createConsumptionLink (env : Env) (s : Session Store) (lot : CostLot)
    (consumingRef : ArtifactRef) (consumption : CostLayerConsumption) (creatingEventId : UUID) :
    Result ValuationError Store EconomicLink :=
  match EconomicLink.create (env.uuid4 0) .consumedBy (lotRef lot.lotId) consumingRef
      creatingEventId env.now none with
  | .error e => (.error (.invalidLink e), s)
  | .ok link =>
      (establishLink env.recursionLimit s ⟨link, some consumption⟩).andThen fun link s =>
        (.ok link, s.flush { s.current with charges := s.current.charges ++ [consumption] })

/-- The loop over the sorted layers. -/
def consumeLayers (ctx : Decimal.Context) (args : Consume) (env : Env) (s : Session Store)
    (remainingQty : ℚ) :
    List CostLayer → Result ValuationError Store (List CostLayerConsumption × List EconomicLink)
  | [] => (.ok ([], []), s)
  | layer :: layers =>
      if remainingQty ≤ 0 then (.ok ([], []), s)
      else if min remainingQty layer.remainingQuantity.value ≤ 0 then
        consumeLayers ctx args env s remainingQty layers
      else
        let qtyToConsume := min remainingQty layer.remainingQuantity.value
        let consumption :=
          CostLayerConsumption.create ctx layer ⟨qtyToConsume, args.quantity.unit⟩
        (createConsumptionLink env s layer.lot args.consumingRef consumption
          args.creatingEventId).andThen fun link s =>
            (consumeLayers ctx args env.next s (ctx.round (remainingQty - qtyToConsume))
              layers).andThen fun rest s => (.ok (consumption :: rest.1, link :: rest.2), s)

/-- Oldest layers first, or newest first. -/
def sortLayers (costMethod : CostMethod) (layers : List CostLayer) : List CostLayer :=
  if costMethod = .lifo then Ranking.descending (fun l => l.lot.lotDate.key) layers
  else Ranking.ascending (fun l => l.lot.lotDate.key) layers

def totalAvailable (ctx : Decimal.Context) (layers : List CostLayer) : ℚ :=
  sumOf ctx (layers.map (·.remainingQuantity.value))

def consumeWithMethod (ctx : Decimal.Context) (env : Env) (s : Session Store) (args : Consume)
    (costMethod : CostMethod) : Result ValuationError Store ConsumptionResult :=
  match getAvailableLayers ctx s.current args.itemId args.locationId with
  | .error e => (.error e, s)
  | .ok layers =>
      if layers.isEmpty then
        (.error (.insufficientInventory args.itemId args.quantity.value 0 args.quantity.unit), s)
      else if totalAvailable ctx layers < args.quantity.value then
        (.error (.insufficientInventory args.itemId args.quantity.value
          (totalAvailable ctx layers) args.quantity.unit), s)
      else
        (consumeLayers ctx args env s args.quantity.value
          (sortLayers costMethod layers)).andThen fun r s =>
            (ConsumptionResult.create ctx args.consumingRef args.itemId costMethod r.1 r.2, s)

def consumeFifo (ctx : Decimal.Context) (env : Env) (s : Session Store) (args : Consume) :
    Result ValuationError Store ConsumptionResult :=
  consumeWithMethod ctx env s args .fifo

def consumeLifo (ctx : Decimal.Context) (env : Env) (s : Session Store) (args : Consume) :
    Result ValuationError Store ConsumptionResult :=
  consumeWithMethod ctx env s args .lifo

def consumeSpecific (ctx : Decimal.Context) (env : Env) (s : Session Store) (args : Consume)
    (lotId : UUID) : Result ValuationError Store ConsumptionResult :=
  match loadLotById s.current lotId with
  | .error e => (.error e, s)
  | .ok none => (.error (.lotNotFound lotId args.itemId), s)
  | .ok (some lot) =>
      match getAvailableLayers ctx s.current args.itemId none with
      | .error e => (.error e, s)
      | .ok layers =>
          match layers.find? fun l => l.lot.lotId = lotId with
          | none => (.error (.lotDepleted lotId args.itemId), s)
          | some layer =>
              if layer.remainingQuantity.value < args.quantity.value then
                (.error (.insufficientInventory args.itemId args.quantity.value
                  layer.remainingQuantity.value args.quantity.unit), s)
              else
                let consumption := CostLayerConsumption.create ctx layer args.quantity
                (createConsumptionLink env s lot args.consumingRef consumption
                  args.creatingEventId).andThen fun link s =>
                    (ConsumptionResult.create ctx args.consumingRef args.itemId .specific
                      [consumption] [link], s)

/-- The standard costs that the service holds in memory. -/
abbrev StandardCosts := List (String × Money)

def getStandardCost (costs : StandardCosts) (itemId : String) : Option Money :=
  (costs.find? fun p => p.1 = itemId).map Prod.snd

def setStandardCost (costs : StandardCosts) (itemId : String) (cost : Money) : StandardCosts :=
  (itemId, cost) :: costs.filter fun p => p.1 ≠ itemId

def consumeAtStandard (ctx : Decimal.Context) (env : Env) (costs : StandardCosts)
    (s : Session Store) (args : Consume) : Result ValuationError Store StandardCostResult :=
  match getStandardCost costs args.itemId with
  | none => (.error (.standardCostNotFound args.itemId), s)
  | some standardCost =>
      (consumeWithMethod ctx env s args .standard).andThen fun consumption s =>
        let standardTotal := ctx.round (standardCost.amount * args.quantity.value)
        (.ok
          { consumption := consumption
            standardCost := ⟨standardTotal, standardCost.currency⟩
            actualCost := consumption.totalCost
            variance :=
              ⟨ctx.round (standardTotal - consumption.totalCost.amount), standardCost.currency⟩ },
          s)

/-! ### Runs -/

/-- The service with its session. -/
structure State where
  db : Session Store
  standardCosts : StandardCosts

inductive Call where
  | createLot (env : Env) (args : CreateLot)
  | consumeFifo (env : Env) (args : Consume)
  | consumeLifo (env : Env) (args : Consume)
  | consumeSpecific (env : Env) (args : Consume) (lotId : UUID)
  | consumeAtStandard (env : Env) (args : Consume)
  | setStandardCost (itemId : String) (cost : Money)
  | commit
  | rollback

/-- Whether the call returned, and the session it leaves. -/
def outcome {α : Type} (costs : StandardCosts) (r : Result ValuationError Store α) :
    Except ValuationError Unit × State :=
  (r.1.map fun _ => (), ⟨r.2, costs⟩)

/-- One call, whatever it returns or raises. -/
def perform (ctx : Decimal.Context) (st : State) : Call → Except ValuationError Unit × State
  | .createLot env args => outcome st.standardCosts (createLot env st.db args)
  | .consumeFifo env args => outcome st.standardCosts (consumeFifo ctx env st.db args)
  | .consumeLifo env args => outcome st.standardCosts (consumeLifo ctx env st.db args)
  | .consumeSpecific env args lotId =>
      outcome st.standardCosts (consumeSpecific ctx env st.db args lotId)
  | .consumeAtStandard env args =>
      outcome st.standardCosts (consumeAtStandard ctx env st.standardCosts st.db args)
  | .setStandardCost itemId cost =>
      (.ok (), ⟨st.db, setStandardCost st.standardCosts itemId cost⟩)
  | .commit => (.ok (), ⟨st.db.commit, st.standardCosts⟩)
  | .rollback => (.ok (), ⟨st.db.rollback, st.standardCosts⟩)

def step (ctx : Decimal.Context) (st : State) (call : Call) : Option State :=
  some (perform ctx st call).2

/-- A service over a database that holds no lots yet. -/
def start (links : LinkTable) : State := ⟨Session.start (Store.initial links), []⟩

/-! ### Loading -/

theorem modelToDomain_eq_ok {m : CostLotModel} {lot : CostLot} (h : modelToDomain m = .ok lot) :
    lot.lotId = m.id ∧ lot.itemId = m.itemId ∧ lot.originalQuantity.value = m.originalQuantity ∧
      lot.originalCost.amount = m.originalCost := by
  unfold modelToDomain CostLot.create at h
  split at h
  · cases h
  · split at h
    · cases h
    · obtain rfl := Except.ok.inj h
      exact ⟨rfl, rfl, rfl, rfl⟩

theorem loadLotById_eq_ok {store : Store} {lotId : UUID} {lot : CostLot}
    (h : loadLotById store lotId = .ok (some lot)) : lot.lotId = lotId := by
  unfold loadLotById at h
  cases hfind : store.lots.find? fun m => m.id = lotId with
  | none =>
      rw [hfind] at h
      cases h
  | some m =>
      rw [hfind] at h
      dsimp only at h
      have hid : m.id = lotId := by simpa using List.find?_some hfind
      cases hload : modelToDomain m with
      | error e =>
          rw [hload] at h
          cases h
      | ok lot' =>
          rw [hload] at h
          obtain rfl := Option.some.inj (Except.ok.inj h)
          exact (modelToDomain_eq_ok hload).1.trans hid

theorem toDomain_cons_eq_ok {m : CostLotModel} {ms : List CostLotModel} {lots : List CostLot}
    (h : toDomain (m :: ms) = .ok lots) :
    ∃ lot rest, modelToDomain m = .ok lot ∧ toDomain ms = .ok rest ∧ lots = lot :: rest := by
  unfold toDomain at h
  cases hm : modelToDomain m with
  | error e =>
      rw [hm] at h
      cases h
  | ok lot =>
      rw [hm] at h
      cases hrest : toDomain ms with
      | error e =>
          rw [hrest] at h
          cases h
      | ok rest =>
          rw [hrest] at h
          exact ⟨lot, rest, rfl, rfl, (Except.ok.inj h).symm⟩

theorem mem_of_toDomain : ∀ {ms : List CostLotModel} {lots : List CostLot} {lot : CostLot},
    toDomain ms = .ok lots → lot ∈ lots → ∃ m ∈ ms, modelToDomain m = .ok lot
  | [], lots, lot, h, hmem => by
      obtain rfl := Except.ok.inj h
      cases hmem
  | m :: ms, lots, lot, h, hmem => by
      obtain ⟨lot₀, rest, hm, hrest, rfl⟩ := toDomain_cons_eq_ok h
      rcases List.mem_cons.mp hmem with rfl | hmem
      · exact ⟨m, List.mem_cons_self, hm⟩
      · obtain ⟨m', hm', hload⟩ := mem_of_toDomain hrest hmem
        exact ⟨m', List.mem_cons_of_mem _ hm', hload⟩

theorem ids_of_toDomain : ∀ {ms : List CostLotModel} {lots : List CostLot},
    toDomain ms = .ok lots → lots.map CostLot.lotId = ms.map CostLotModel.id
  | [], lots, h => by
      obtain rfl := Except.ok.inj h
      rfl
  | m :: ms, lots, h => by
      obtain ⟨lot, rest, hm, hrest, rfl⟩ := toDomain_cons_eq_ok h
      rw [List.map_cons, List.map_cons, ids_of_toDomain hrest, (modelToDomain_eq_ok hm).1]

/-- The loaded lots are those of rows with the item, each of one row. -/
theorem loadLotsForItem_eq_ok {store : Store} {itemId : String} {lots : List CostLot}
    (h : loadLotsForItem store itemId = .ok lots) (hnodup : (store.lots.map CostLotModel.id).Nodup) :
    (∀ lot ∈ lots, ∃ m ∈ store.lots, m.itemId = itemId ∧ modelToDomain m = .ok lot) ∧
      (lots.map CostLot.lotId).Nodup := by
  unfold loadLotsForItem at h
  constructor
  · intro lot hlot
    obtain ⟨m, hm, hload⟩ := mem_of_toDomain h hlot
    obtain ⟨hstore, hitem⟩ := List.mem_filter.mp (Ranking.mem_ascending.mp hm)
    exact ⟨m, hstore, of_decide_eq_true hitem, hload⟩
  · rw [ids_of_toDomain h, ((Ranking.perm_ascending _ _).map CostLotModel.id).nodup_iff]
    exact (List.filter_sublist.map _).nodup hnodup

/-! ### Storing links -/

theorem create_eq_ok {linkId : UUID} {linkType : LinkType} {parentRef childRef : ArtifactRef}
    {creatingEventId : UUID} {createdAt : Datetime} {link : EconomicLink}
    (h : EconomicLink.create linkId linkType parentRef childRef creatingEventId createdAt none =
      .ok link) :
    link.linkType = linkType ∧ link.parentRef = parentRef ∧ link.childRef = childRef ∧
      link.metadata = none := by
  unfold EconomicLink.create at h
  split at h
  · cases h
  · split at h
    · obtain rfl := Except.ok.inj h
      exact ⟨rfl, rfl, rfl, rfl⟩
    · cases h

/-- What is committed is seen in the open transaction. -/
def Nested (s : Session Store) : Prop := s.committed.rows ⊆ s.current.rows

/-- The four ways in which a link is established or not. -/
theorem establishLink_cases {recursionLimit : ℕ} {s : Session Store} {row : LinkRow}
    (hnested : Nested s) {r : Result ValuationError Store EconomicLink}
    (h : establishLink recursionLimit s row = r) :
    (∃ existing, (∃ r ∈ s.current.rows, r.link.relationship = row.link.relationship) ∧
        r = (.ok existing, s)) ∨
      r = (.ok row.link, s.flush { s.current with rows := s.current.rows ++ [row] }) ∨
      ∃ e, r = (.error e, s) ∨ r = (.error e, s.rollback) := by
  subst h
  have hlinks : s.committed.links ⊆ s.current.links := List.map_subset _ hnested
  unfold establishLink
  rcases LinkGraph.establishIn_cases hlinks with ⟨existing, hmem, hrel, heq⟩ |
    ⟨-, -, -, -, heq⟩ | ⟨e, heq | heq⟩ <;> rw [heq]
  · obtain ⟨r, hr, rfl⟩ := List.mem_map.mp hmem
    exact Or.inl ⟨r.link, ⟨r, hr, hrel⟩, rfl⟩
  · exact Or.inr (Or.inl rfl)
  · exact Or.inr (Or.inr ⟨_, Or.inl rfl⟩)
  · exact Or.inr (Or.inr ⟨_, Or.inr rfl⟩)

/-! ### Drawing on lots -/

/-- The effect of charging a consumption to a lot: the charge, and its link unless the lot is
linked to the consuming artifact already. -/
inductive Charged (store : Store) (consumingRef : ArtifactRef)
    (consumption : CostLayerConsumption) : Store → Prop
  | linked (link : EconomicLink) (hparent : link.parentRef = lotRef consumption.lotId)
      (htype : link.linkType = .consumedBy) :
      Charged store consumingRef consumption
        { store with
          rows := store.rows ++ [⟨link, some consumption⟩]
          charges := store.charges ++ [consumption] }
  | duplicate (r : LinkRow) (hmem : r ∈ consumptionsOf store.rows consumption.lotId)
      (hchild : r.link.childRef = consumingRef) :
      Charged store consumingRef consumption
        { store with charges := store.charges ++ [consumption] }

theorem Charged.rows_subset {store store' : Store} {consumingRef : ArtifactRef}
    {consumption : CostLayerConsumption} (h : Charged store consumingRef consumption store') :
    store.rows ⊆ store'.rows := by
  cases h with
  | linked link _ _ => exact List.subset_append_left _ _
  | duplicate r _ _ => exact List.Subset.refl _

theorem Charged.lots_eq {store store' : Store} {consumingRef : ArtifactRef}
    {consumption : CostLayerConsumption} (h : Charged store consumingRef consumption store') :
    store'.lots = store.lots := by
  cases h with
  | linked link _ _ => rfl
  | duplicate r _ _ => rfl

theorem createConsumptionLink_cases (env : Env) {s : Session Store} {lot : CostLot}
    (consumingRef : ArtifactRef) {consumption : CostLayerConsumption} (creatingEventId : UUID)
    (hnested : Nested s) (hlot : consumption.lotId = lot.lotId) :
    (∃ link store', createConsumptionLink env s lot consumingRef consumption creatingEventId =
          (.ok link, s.flush store') ∧ Charged s.current consumingRef consumption store') ∨
      ∃ e,
        createConsumptionLink env s lot consumingRef consumption creatingEventId = (.error e, s) ∨
        createConsumptionLink env s lot consumingRef consumption creatingEventId =
          (.error e, s.rollback) := by
  unfold createConsumptionLink
  cases hcreate : EconomicLink.create (env.uuid4 0) .consumedBy (lotRef lot.lotId) consumingRef
      creatingEventId env.now none with
  | error e => exact Or.inr ⟨_, Or.inl rfl⟩
  | ok link =>
      obtain ⟨htype, hparent, hchild, -⟩ := create_eq_ok hcreate
      rw [← hlot] at hparent
      dsimp only
      rcases establishLink_cases hnested rfl with ⟨existing, ⟨r, hr, hrel⟩, heq⟩ | heq |
        ⟨e, heq | heq⟩ <;> rw [heq]
      · left
        unfold EconomicLink.relationship at hrel
        simp only [Prod.mk.injEq] at hrel
        refine ⟨existing, _, rfl, Charged.duplicate r ?_ (hrel.2.2.trans hchild)⟩
        refine List.mem_filter.mpr ⟨hr, ?_⟩
        rw [hrel.1, hrel.2.1, hparent, htype]
        simp
      · left
        exact ⟨link, _, rfl, Charged.linked link hparent htype⟩
      · exact Or.inr ⟨e, Or.inl rfl⟩
      · exact Or.inr ⟨e, Or.inr rfl⟩

/-- What is available in a layer. -/
abbrev CostLayer.quantity (layer : CostLayer) : ℚ := layer.remainingQuantity.value

/-- The consumption of a quantity from a layer. -/
def consumptionOf (ctx : Decimal.Context) (args : Consume) (d : CostLayer × ℚ) :
    CostLayerConsumption :=
  CostLayerConsumption.create ctx d.1 ⟨d.2, args.quantity.unit⟩

/-- The effects of quantities drawn from layers, one after the other. -/
inductive Draws (ctx : Decimal.Context) (args : Consume) :
    Store → List (CostLayer × ℚ) → Store → Prop
  | nil (store : Store) : Draws ctx args store [] store
  | cons {store store' store'' : Store} {d : CostLayer × ℚ} {ds : List (CostLayer × ℚ)}
      (hd : Charged store args.consumingRef (consumptionOf ctx args d) store')
      (hds : Draws ctx args store' ds store'') : Draws ctx args store (d :: ds) store''

theorem Draws.rows_subset {ctx : Decimal.Context} {args : Consume} {store store' : Store}
    {ds : List (CostLayer × ℚ)} (h : Draws ctx args store ds store') :
    store.rows ⊆ store'.rows := by
  induction h with
  | nil => exact List.Subset.refl _
  | cons hd _ ih => exact List.Subset.trans hd.rows_subset ih

theorem Draws.lots_eq {ctx : Decimal.Context} {args : Consume} {store store' : Store}
    {ds : List (CostLayer × ℚ)} (h : Draws ctx args store ds store') :
    store'.lots = store.lots := by
  induction h with
  | nil => rfl
  | cons hd _ ih => rw [ih, hd.lots_eq]

/-- **The loop draws as greedy allocation does**, up to where an exception ends it. -/
theorem consumeLayers_cases (ctx : Decimal.Context) (args : Consume) :
    ∀ (layers : List CostLayer) (env : Env) {s : Session Store} (remainingQty : ℚ), Nested s →
      ∃ ds store', ds <+: Allocation.greedy ctx.round CostLayer.quantity remainingQty layers ∧
        Draws ctx args s.current ds store' ∧
        ((∃ links, consumeLayers ctx args env s remainingQty layers =
              (.ok (ds.map (consumptionOf ctx args), links), s.flush store') ∧
            ds = Allocation.greedy ctx.round CostLayer.quantity remainingQty layers) ∨
          ∃ e, consumeLayers ctx args env s remainingQty layers = (.error e, s.flush store') ∨
            consumeLayers ctx args env s remainingQty layers = (.error e, s.rollback))
  | [], _, s, _, _ =>
      ⟨[], s.current, List.prefix_refl _, Draws.nil _, Or.inl ⟨[], rfl, rfl⟩⟩
  | layer :: layers, env, s, remainingQty, hnested => by
      unfold consumeLayers Allocation.greedy
      split
      · exact ⟨[], s.current, List.prefix_refl _, Draws.nil _, Or.inl ⟨[], rfl, rfl⟩⟩
      · split
        · exact consumeLayers_cases ctx args layers env remainingQty hnested
        · rename_i hpos
          dsimp only
          set taken := min remainingQty layer.remainingQuantity.value
          have hlot : (consumptionOf ctx args (layer, taken)).lotId = layer.lot.lotId := rfl
          rcases createConsumptionLink_cases env args.consumingRef args.creatingEventId hnested hlot
            with ⟨link, store₁, heq, hcharged⟩ | ⟨e, heq⟩
          · have hnested₁ : Nested (s.flush store₁) :=
              List.Subset.trans hnested hcharged.rows_subset
            obtain ⟨ds, store₂, hprefix, hdraws, hout⟩ :=
              consumeLayers_cases ctx args layers env.next (ctx.round (remainingQty - taken))
                hnested₁
            unfold consumptionOf at heq
            rw [heq, Result.ok_andThen]
            refine ⟨(layer, taken) :: ds, store₂, (List.cons_prefix_cons).mpr ⟨rfl, hprefix⟩,
              Draws.cons hcharged hdraws, ?_⟩
            rcases hout with ⟨links, hrun, hds⟩ | ⟨e, hrun | hrun⟩ <;> rw [hrun]
            · exact Or.inl ⟨link :: links, rfl, by rw [hds]⟩
            · exact Or.inr ⟨e, Or.inl rfl⟩
            · exact Or.inr ⟨e, Or.inr rfl⟩
          · unfold consumptionOf at heq
            refine ⟨[], s.current, List.nil_prefix, Draws.nil _, Or.inr ⟨e, ?_⟩⟩
            rcases heq with heq | heq <;> rw [heq]
            · exact Or.inl rfl
            · exact Or.inr rfl

/-- A consumption raises with nothing done, or draws on the layers it has found. -/
theorem consumeWithMethod_cases {ctx : Decimal.Context} {env : Env} {s : Session Store}
    {args : Consume} {costMethod : CostMethod} (hnested : Nested s)
    {r : Result ValuationError Store ConsumptionResult}
    (h : consumeWithMethod ctx env s args costMethod = r) :
    (∃ e, r = (.error e, s) ∨ r = (.error e, s.rollback)) ∨
      ∃ layers, getAvailableLayers ctx s.current args.itemId args.locationId = .ok layers ∧
        args.quantity.value ≤ totalAvailable ctx layers ∧
        ∃ ds store', ds <+: Allocation.greedy ctx.round CostLayer.quantity args.quantity.value
            (sortLayers costMethod layers) ∧
          Draws ctx args s.current ds store' ∧ r.2 = s.flush store' ∧
          ∀ result, r.1 = .ok result → ds ≠ [] ∧
            ds = Allocation.greedy ctx.round CostLayer.quantity args.quantity.value
              (sortLayers costMethod layers) := by
  subst h
  unfold consumeWithMethod
  cases hlayers : getAvailableLayers ctx s.current args.itemId args.locationId with
  | error e => exact Or.inl ⟨e, Or.inl rfl⟩
  | ok layers =>
      dsimp only
      split
      · exact Or.inl ⟨_, Or.inl rfl⟩
      · split
        · exact Or.inl ⟨_, Or.inl rfl⟩
        · rename_i hcovered
          obtain ⟨ds, store', hprefix, hdraws, hout⟩ :=
            consumeLayers_cases ctx args (sortLayers costMethod layers) env args.quantity.value
              hnested
          rcases hout with ⟨links, hrun, hds⟩ | ⟨e, hrun | hrun⟩ <;> rw [hrun]
          · refine Or.inr ⟨layers, rfl, not_lt.mp hcovered, ds, store', hprefix, hdraws, rfl,
              fun result hok => ⟨?_, hds⟩⟩
            rintro rfl
            cases hok
          · refine Or.inr ⟨layers, rfl, not_lt.mp hcovered, ds, store', hprefix, hdraws, rfl,
              fun result hok => ?_⟩
            cases hok
          · exact Or.inl ⟨e, Or.inr rfl⟩

/-- A consumption from one lot raises with nothing done, or draws on the layer of the lot. -/
theorem consumeSpecific_cases {ctx : Decimal.Context} {env : Env} {s : Session Store}
    {args : Consume} {lotId : UUID} (hnested : Nested s)
    {r : Result ValuationError Store ConsumptionResult}
    (h : consumeSpecific ctx env s args lotId = r) :
    (∃ e, r = (.error e, s) ∨ r = (.error e, s.rollback)) ∨
      ∃ layers layer, getAvailableLayers ctx s.current args.itemId none = .ok layers ∧
        layer ∈ layers ∧ layer.lot.lotId = lotId ∧ args.quantity.value ≤ layer.quantity ∧
        ∃ store', Draws ctx args s.current [(layer, args.quantity.value)] store' ∧
          r.2 = s.flush store' := by
  subst h
  unfold consumeSpecific
  cases hlot : loadLotById s.current lotId with
  | error e => exact Or.inl ⟨e, Or.inl rfl⟩
  | ok found =>
      cases found with
      | none => exact Or.inl ⟨_, Or.inl rfl⟩
      | some lot =>
          dsimp only
          cases hlayers : getAvailableLayers ctx s.current args.itemId none with
          | error e => exact Or.inl ⟨e, Or.inl rfl⟩
          | ok layers =>
              dsimp only
              cases hfind : layers.find? fun l => l.lot.lotId = lotId with
              | none => exact Or.inl ⟨_, Or.inl rfl⟩
              | some layer =>
                  have hid : layer.lot.lotId = lotId := by simpa using List.find?_some hfind
                  dsimp only
                  split
                  · exact Or.inl ⟨_, Or.inl rfl⟩
                  · rename_i hle
                    have hids : (consumptionOf ctx args (layer, args.quantity.value)).lotId =
                        lot.lotId := hid.trans (loadLotById_eq_ok hlot).symm
                    rcases createConsumptionLink_cases env args.consumingRef args.creatingEventId
                      hnested hids with ⟨link, store', heq, hcharged⟩ | ⟨e, heq⟩
                    · unfold consumptionOf at heq
                      rw [heq]
                      exact Or.inr ⟨layers, layer, rfl, List.mem_of_find?_eq_some hfind, hid,
                        not_lt.mp hle, store', Draws.cons hcharged (Draws.nil _), rfl⟩
                    · unfold consumptionOf at heq
                      left
                      refine ⟨e, ?_⟩
                      rcases heq with heq | heq <;> rw [heq]
                      · exact Or.inl rfl
                      · exact Or.inr rfl

/-! ### Creating lots -/

/-- A lot is stored with a link or without, or the call raises with nothing stored. -/
theorem createLot_cases {env : Env} {s : Session Store} {args : CreateLot} (hnested : Nested s)
    {r : Result ValuationError Store CostLot} (h : createLot env s args = r) :
    (∃ e, r = (.error e, s) ∨ r = (.error e, s.rollback)) ∨
      ∃ m rows, r.2 = s.flush { s.current with
            lots := s.current.lots ++ [m]
            rows := s.current.rows ++ rows } ∧
        m.id ∉ s.current.lots.map CostLotModel.id ∧ 0 ≤ m.originalQuantity ∧
        m.currency = args.totalCost.currency ∧ 0 ≤ args.totalCost.amount ∧
        numericColumn args.totalCost.amount = .ok m.originalCost ∧
        ∀ row ∈ rows, row.link.linkType = .sourcedFrom := by
  subst h
  unfold createLot
  cases hlot : CostLot.create args.lotId args.itemId args.quantity args.totalCost args.lotDate
      args.sourceRef args.locationId args.costMethod with
  | error e => exact Or.inl ⟨_, Or.inl rfl⟩
  | ok lot =>
      have hamounts : lot.originalQuantity = args.quantity ∧ lot.originalCost = args.totalCost := by
        unfold CostLot.create at hlot
        split at hlot
        · cases hlot
        · split at hlot
          · cases hlot
          · obtain rfl := Except.ok.inj hlot
            exact ⟨rfl, rfl⟩
      dsimp only
      unfold storeLot
      cases hq : numericColumn lot.originalQuantity.value with
      | error e => exact Or.inl ⟨_, Or.inr rfl⟩
      | ok quantity =>
          cases hc : numericColumn lot.originalCost.amount with
          | error e => exact Or.inl ⟨_, Or.inr rfl⟩
          | ok cost =>
              dsimp only
              split
              · exact Or.inl ⟨_, Or.inr rfl⟩
              · rename_i hfresh
                have hquantity : 0 ≤ quantity := by
                  unfold numericColumn at hq
                  split at hq
                  · obtain rfl := Except.ok.inj hq
                    exact Decimal.quantize_nonneg lot.quantity_pos.le
                  · cases hq
                have hid : lot.lotId ∉ s.current.lots.map CostLotModel.id := by
                  intro hmem
                  obtain ⟨m, hm, heq⟩ := List.mem_map.mp hmem
                  exact hfresh (List.any_eq_true.mpr ⟨m, hm, decide_eq_true heq⟩)
                have hnonneg : 0 ≤ args.totalCost.amount := hamounts.2 ▸ lot.cost_nonneg
                rw [hamounts.2] at hc
                rw [Result.ok_andThen]
                set m := storedLot env lot args.creatingEventId quantity cost
                have hcurrency : m.currency = args.totalCost.currency :=
                  congrArg Money.currency hamounts.2
                set s₁ := s.flush { s.current with lots := s.current.lots ++ [m] } with hs₁
                have hstored : ∃ m rows, s₁ = s.flush { s.current with
                      lots := s.current.lots ++ [m]
                      rows := s.current.rows ++ rows } ∧
                    m.id ∉ s.current.lots.map CostLotModel.id ∧ 0 ≤ m.originalQuantity ∧
                    m.currency = args.totalCost.currency ∧ 0 ≤ args.totalCost.amount ∧
                    numericColumn args.totalCost.amount = .ok m.originalCost ∧
                    ∀ row ∈ rows, row.link.linkType = .sourcedFrom :=
                  ⟨m, [], by rw [List.append_nil], hid, hquantity, hcurrency, hnonneg, hc,
                    fun row hrow => by cases hrow⟩
                cases hlink : EconomicLink.create (env.uuid4 0) .sourcedFrom args.sourceRef
                    (lotRef lot.lotId) args.creatingEventId env.now none with
                | error e => exact Or.inr hstored
                | ok link =>
                    dsimp only
                    have hnested₁ : Nested s₁ := hnested
                    rcases establishLink_cases hnested₁ rfl with ⟨existing, -, heq⟩ | heq |
                      ⟨e, heq | heq⟩ <;> rw [heq]
                    · exact Or.inr hstored
                    · refine Or.inr ⟨m, [⟨link, none⟩], rfl, hid, hquantity, hcurrency, hnonneg, hc, ?_⟩
                      intro row hrow
                      obtain rfl := List.mem_singleton.mp hrow
                      exact (create_eq_ok hlink).1
                    · exact Or.inr hstored
                    · exact Or.inl ⟨_, Or.inr rfl⟩

end FinanceAccounting.Valuation
