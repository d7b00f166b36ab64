import FinanceAccounting.Library.DecimalSums
import FinanceAccounting.Library.KeyedSums
import FinanceAccounting.Modules.Books
import FinanceAccounting.Modules.FixedAssets
import FinanceAccounting.Modules.PostedBalances

/-! # Disposals in the ledger

An asset that is sold, retired, written off or scrapped should leave the ledger: its cost is credited,
its depreciation debited, the proceeds go to cash, and the difference is a gain or a loss.  The policies
of a sale, a retirement and a scrap post fields of the payload and drop those that are zero
(`interpret_context`); the policy of a write-off posts an impairment instead.  `asset_derecognised_iff`
says when the asset leaves the ledger. -/

namespace FinanceAccounting.Modules

open Journal (LineSide)
open PolicyBridge (AccountingPolicy ModuleLineMapping createIntentLine findForEvent mappingLines)

/-! ### Policies that post fields of the payload -/

section Context

variable (amounts : String → ℚ) (currency : String)

/-- The amount that a mapping finds in the payload. -/
def fieldAmount (m : ModuleLineMapping) : ℚ := m.fromContext.elim 0 amounts

/-- The lines of the fields that are positive. -/
def fieldLines (mappings : List ModuleLineMapping) : List PolicyBridge.IntentLine :=
  mappings.flatMap fun m =>
    if 0 < fieldAmount amounts m then [⟨m.role, m.side, fieldAmount amounts m, currency⟩] else []

/-- What the mappings of a side post. -/
def sideTotal (side : LineSide) (mappings : List ModuleLineMapping) : ℚ :=
  ((mappings.filter (·.side = side)).map (fieldAmount amounts)).sum

/-- The mapping posts a field of the payload that is an amount of the ledger. -/
structure PostsField (e : Event) (m : ModuleLineMapping) : Prop where
  ledger : m.ledger = "GL"
  foreach : m.foreach = none
  field : ∃ field, m.fromContext = some field ∧ e.payload.value field = .number (amounts field)
  nonneg : 0 ≤ fieldAmount amounts m
  places : Decimal.HasPlaces 9 (fieldAmount amounts m)

variable {amounts currency} {mappings : List ModuleLineMapping} {e : Event}
variable {ctx : Decimal.Context}

/-- Fields that are zero add nothing to a sum over the lines. -/
theorem sum_fieldLines (f : String → LineSide → ℚ → ℚ) (hzero : ∀ r s, f r s 0 = 0)
    (hnonneg : ∀ m ∈ mappings, 0 ≤ fieldAmount amounts m) :
    ((fieldLines amounts currency mappings).map fun l => f l.accountRole l.side l.amount).sum =
      (mappings.map fun m => f m.role m.side (fieldAmount amounts m)).sum := by
  induction mappings with
  | nil => rfl
  | cons m mappings ih =>
    rw [List.forall_mem_cons] at hnonneg
    rw [fieldLines, List.flatMap_cons, List.map_append, List.sum_append, ← fieldLines, ih hnonneg.2,
      List.map_cons, List.sum_cons]
    congr 1
    split
    · simp
    · rename_i hpos
      rw [le_antisymm (not_lt.mp hpos) hnonneg.1, hzero]
      rfl

theorem mappingLines_field {m : ModuleLineMapping} (h : PostsField amounts e m) :
    mappingLines ctx m e.amount e.currency e.payload =
      .ok (if 0 < fieldAmount amounts m then [⟨m.role, m.side, fieldAmount amounts m, e.currency⟩]
        else []) := by
  obtain ⟨field, hfield, hvalue⟩ := h.field
  have hamount : fieldAmount amounts m = amounts field := by rw [fieldAmount, hfield]; rfl
  have hnonneg := h.nonneg
  rw [hamount] at hnonneg ⊢
  unfold mappingLines
  simp only [h.foreach, hfield, hvalue]
  split
  · rw [PolicyBridge.createIntentLine, if_neg (not_lt.mpr hnonneg)]
    rfl
  · rw [if_neg (not_lt.mpr hnonneg)]

theorem filter_fieldLines (side : LineSide) (mappings : List ModuleLineMapping) :
    (fieldLines amounts currency mappings).filter (·.side = side) =
      fieldLines amounts currency (mappings.filter (·.side = side)) := by
  induction mappings with
  | nil => rfl
  | cons m mappings ih =>
    rw [fieldLines, List.flatMap_cons, List.filter_append, ← fieldLines, ih, List.filter_cons]
    by_cases hpos : 0 < fieldAmount amounts m
    · by_cases hside : m.side = side
      · simp [fieldLines, hpos, hside]
      · simp [fieldLines, hpos, hside]
    · by_cases hside : m.side = side
      · simp [fieldLines, hpos, hside]
      · simp [fieldLines, hpos, hside]

theorem mem_fieldLines {l : PolicyBridge.IntentLine} (h : l ∈ fieldLines amounts currency mappings) :
    ∃ m ∈ mappings, 0 < fieldAmount amounts m ∧
      l = ⟨m.role, m.side, fieldAmount amounts m, currency⟩ := by
  obtain ⟨m, hm, hl⟩ := List.mem_flatMap.mp h
  split at hl
  · exact ⟨m, hm, ‹_›, List.mem_singleton.mp hl⟩
  · cases hl

theorem fieldLines_eq_nil : fieldLines amounts currency mappings = [] ↔
    ∀ m ∈ mappings, fieldAmount amounts m ≤ 0 := by
  unfold fieldLines
  rw [List.flatMap_eq_nil_iff]
  refine forall₂_congr fun m _ => ?_
  split
  · simp [*]
  · simpa using not_lt.mp ‹_›

/-- The total of a side is exact. -/
theorem total_fieldLines (side : LineSide) (h : ∀ m ∈ mappings, PostsField amounts e m)
    (hfits : sideTotal amounts side mappings * 10 ^ 9 < 10 ^ ctx.prec) :
    ctx.total (((fieldLines amounts currency mappings).filter (·.side = side)).map (·.amount)) =
      sideTotal amounts side mappings := by
  have hside : ∀ m ∈ mappings.filter (·.side = side), PostsField amounts e m := fun m hm =>
    h m (List.mem_of_mem_filter hm)
  rw [filter_fieldLines]
  have hsum := @sum_fieldLines amounts currency _ (fun _ _ x => x)
    (fun _ _ => rfl) fun m hm => (hside m hm).nonneg
  rw [@Decimal.Context.total_eq_sum_of_nonneg 9 _ ctx, hsum]
  · rfl
  · intro x hx
    obtain ⟨l, hl, rfl⟩ := List.mem_map.mp hx
    obtain ⟨m, hm, -, rfl⟩ := mem_fieldLines hl
    exact (hside m hm).places
  · intro x hx
    obtain ⟨l, hl, rfl⟩ := List.mem_map.mp hx
    obtain ⟨m, hm, hpos, rfl⟩ := mem_fieldLines hl
    exact hpos.le
  · rw [hsum]
    exact hfits

/-- **What such a policy posts**: the fields that are positive, when there are any and they balance. -/
theorem interpret_context {policies : List AccountingPolicy} {p : AccountingPolicy}
    (hfound : findForEvent policies e.eventType e.payload = some p)
    (hguards : p.guards = [])
    (heffects : ∃ debitRole creditRole, p.ledgerEffects = [⟨"GL", debitRole, creditRole⟩])
    (hne : p.lineMappings ≠ []) (h : ∀ m ∈ p.lineMappings, PostsField amounts e m)
    (hfits : ∀ side, sideTotal amounts side p.lineMappings * 10 ^ 9 < 10 ^ ctx.prec) :
    interpret ctx policies e =
      if fieldLines amounts e.currency p.lineMappings = [] then .answered .intentFailed
      else if sideTotal amounts .debit p.lineMappings = sideTotal amounts .credit p.lineMappings then
        .posted ((fieldLines amounts e.currency p.lineMappings).map (toLedgerLine "GL"))
      else .answered .postingFailed := by
  obtain ⟨debitRole, creditRole, heffects⟩ := heffects
  have hledger : p.lineMappings.filter (·.ledger = "GL") = p.lineMappings :=
    List.filter_eq_self.mpr fun m hm => decide_eq_true (h m hm).ledger
  have hlines : effectLines ctx p e ⟨"GL", debitRole, creditRole⟩ =
      .ok (fieldLines amounts e.currency p.lineMappings) := by
    obtain ⟨m, ms, hcons⟩ := List.exists_cons_of_ne_nil hne
    unfold effectLines
    rw [hledger, hcons]
    dsimp only [PolicyBridge.buildIntentLines]
    rw [← hcons, Traversals.mapM_of_forall fun m hm => mappingLines_field (h m hm), Except.map,
      ← List.flatMap_def]
    rfl
  have hintents : ledgerIntents ctx p e =
      .ok (if fieldLines amounts e.currency p.lineMappings = [] then []
        else [⟨"GL", fieldLines amounts e.currency p.lineMappings⟩]) := by
    unfold ledgerIntents
    rw [heffects, List.mapM_cons, hlines]
    split
    · simp [*, Except.map, bind, Except.bind, pure, Except.pure]
    · simp [*, Except.map, bind, Except.bind, pure, Except.pure]
  unfold interpret
  rw [hfound]
  dsimp only
  rw [PolicyBridge.AccountingPolicy.firedGuard, hguards, hintents]
  by_cases hempty : fieldLines amounts e.currency p.lineMappings = []
  · rw [if_pos hempty, if_pos hempty]
    rfl
  · rw [if_neg hempty, if_neg hempty]
    simp only [List.find?_nil, List.all_cons, List.all_nil, Bool.and_true, balanced,
      total_fieldLines _ h (hfits _), decide_eq_true_eq, List.flatMap_cons, List.flatMap_nil,
      List.append_nil]

/-- The balance of a role after such lines. -/
theorem balance_fieldLines (role : String) (h : ∀ m ∈ mappings, PostsField amounts e m) :
    balance "GL" role currency ((fieldLines amounts currency mappings).map (toLedgerLine "GL")) =
      (mappings.map fun m => if m.role = role then signedOn m.side (fieldAmount amounts m) else 0).sum := by
  have hbalance : ∀ ls : List PolicyBridge.IntentLine,
      balance "GL" role currency (ls.map (toLedgerLine "GL")) = (ls.map fun l =>
        if l.accountRole = role ∧ l.currency = currency then signedOn l.side (stored l.amount) else 0).sum := by
    intro ls
    induction ls with
    | nil => rfl
    | cons l ls ih =>
      rw [List.map_cons, balance_cons, ih, List.map_cons, List.sum_cons]
      congr 1
      simp only [toLedgerLine, true_and]
      rfl
  rw [hbalance, ← @sum_fieldLines _ currency _
    (fun r side x => if r = role then signedOn side x else 0) (fun r side => by cases side <;> simp [signedOn])
    fun m hm => (h m hm).nonneg]
  refine congrArg List.sum (List.map_congr_left fun l hl => ?_)
  obtain ⟨m, hm, -, rfl⟩ := mem_fieldLines hl
  rw [stored, Decimal.quantize_of_places (h m hm).places]
  simp

/-- Debits less credits of such lines. -/
theorem sum_signed_fieldLines (h : ∀ m ∈ mappings, PostsField amounts e m) :
    (((fieldLines amounts currency mappings).map (toLedgerLine "GL")).map (·.signed)).sum =
      sideTotal amounts .debit mappings - sideTotal amounts .credit mappings := by
  have hsigned : ((fieldLines amounts currency mappings).map (toLedgerLine "GL")).map (·.signed) =
      (fieldLines amounts currency mappings).map fun l => signedOn l.side l.amount := by
    rw [List.map_map]
    refine List.map_congr_left fun l hl => ?_
    obtain ⟨m, hm, -, rfl⟩ := mem_fieldLines hl
    show signedOn m.side (stored (fieldAmount amounts m)) = _
    rw [stored, Decimal.quantize_of_places (h m hm).places]
  rw [hsigned, sum_fieldLines (fun _ side x => signedOn side x) (fun _ side => by cases side <;> simp [signedOn])
    fun m hm => (h m hm).nonneg]
  clear h hsigned
  unfold sideTotal
  induction mappings with
  | nil => exact (sub_self 0).symm
  | cons m mappings ih =>
    rw [List.map_cons, List.sum_cons, ih, KeyedSums.sum_filter_cons, KeyedSums.sum_filter_cons]
    cases hside : m.side with
    | debit => simp [signedOn]; ring
    | credit => simp [signedOn]; ring

end Context

end FinanceAccounting.Modules

namespace FinanceAccounting.FixedAssets

open Journal (LineSide)
open ModulePosting (ModulePostingStatus)
open AllocationEngine (Arithmetic dollars)
open PolicyBridge (AccountingPolicy ModuleLineMapping findForEvent)
open Modules
open UnitOfWork (Session Result)

/-! ### Taking an asset off the books -/

inductive DisposalType where
  | sale
  | retirement
  | writeOff
deriving DecidableEq, Repr

/-- The text that `record_disposal` is called with. -/
def DisposalType.text : DisposalType → String
  | .sale => "SALE"
  | .retirement => "RETIREMENT"
  | .writeOff => "WRITE_OFF"

inductive Removal where
  | disposal (disposalType : DisposalType)
  | scrap
deriving DecidableEq, Repr

/-- The asset and what is said about its removal. -/
structure RemovedAsset where
  assetId : UUID
  originalCost : ℚ
  accumulatedDepreciation : ℚ
  proceeds : ℚ
  effectiveDate : Date
  actorId : UUID
  reasonCode : String
  currency : String

section Removal

variable (a : Arithmetic) {σ : Type*} (env : Env σ AssetRecord) (r : RemovedAsset)

/-- `record_disposal` with cost and depreciation, or `record_scrap`. -/
def Removal.run (s : Session σ) : Removal → Result ServiceError σ ModulePostingStatus
  | .disposal disposalType =>
      recordDisposal a env r.assetId r.proceeds r.effectiveDate r.actorId (some r.originalCost)
        (some r.accumulatedDepreciation) disposalType.text r.currency s
  | .scrap =>
      recordScrap a env r.assetId r.originalCost r.accumulatedDepreciation r.actorId r.reasonCode
        r.currency s

def Removal.transition : Removal → TransitionCall
  | .disposal _ => draftPost "assets_record_disposal" "asset" r.assetId r.actorId (some r.proceeds)
      r.currency
  | .scrap => draftPost "assets_record_scrap" "asset" r.assetId r.actorId
      (some (a.ctx.round (r.originalCost - r.accumulatedDepreciation))) r.currency

def Removal.event : Removal → Event
  | .disposal disposalType =>
      disposalEvent a.ctx r.assetId r.proceeds (some r.originalCost) (some r.accumulatedDepreciation)
        disposalType.text r.currency
  | .scrap =>
      scrapEvent a.ctx r.assetId r.originalCost r.accumulatedDepreciation r.reasonCode r.currency

/-- The rows that are added; a scrap adds none. -/
def Removal.rows : Removal → List AssetRecord
  | .disposal disposalType =>
      [.disposal (disposalRow a.ctx r.assetId r.proceeds r.effectiveDate (some r.originalCost)
        (some r.accumulatedDepreciation) disposalType.text)]
  | .scrap => []

theorem Removal.run_eq (k : Removal) (s : Session σ) :
    k.run a env r s = env.guardedPosting (k.transition a r) (k.event a r) (k.rows a r) s := by
  cases k with
  | disposal disposalType => rfl
  | scrap => rfl

/-- What the removal of an asset does to the accounts. -/
def RemovedAsset.derecognition : List (String × LineSide × ℚ) :=
  [("CASH", .debit, r.proceeds),
    ("ACCUMULATED_DEPRECIATION", .debit, r.accumulatedDepreciation),
    ("LOSS_ON_DISPOSAL", .debit, max 0 (r.originalCost - r.accumulatedDepreciation - r.proceeds)),
    ("FIXED_ASSET", .credit, r.originalCost),
    ("GAIN_ON_DISPOSAL", .credit, max 0 (r.proceeds - (r.originalCost - r.accumulatedDepreciation)))]

/-- The lines take the asset off the books, and balance. -/
structure Derecognised (lines : List LedgerLine) : Prop where
  balances : ∀ role, balance "GL" role r.currency lines =
    ((r.derecognition.filter (·.1 = role)).map fun entry => signedOn entry.2.1 entry.2.2).sum
  balanced : (lines.map (·.signed)).sum = 0

/-- Amounts of the ledger that the digits hold; a scrapped asset brings nothing. -/
structure RemovedAsset.Valid (k : Removal) : Prop where
  depreciation_nonneg : 0 ≤ r.accumulatedDepreciation
  depreciation_le : r.accumulatedDepreciation ≤ r.originalCost
  proceeds_nonneg : 0 ≤ r.proceeds
  scrap : k = .scrap → r.proceeds = 0
  cost_places : Decimal.HasPlaces 9 r.originalCost
  depreciation_places : Decimal.HasPlaces 9 r.accumulatedDepreciation
  proceeds_places : Decimal.HasPlaces 9 r.proceeds
  fits : (r.originalCost + r.proceeds) * 10 ^ 9 < 10 ^ a.ctx.prec

/-- The removals that are booked: no retirement at a gain and no write-off, and something to post. -/
def Removal.Booked : Removal → Prop
  | .disposal .sale => 0 < r.originalCost ∨ 0 < r.proceeds
  | .disposal .retirement =>
      0 < r.originalCost ∧ r.proceeds ≤ r.originalCost - r.accumulatedDepreciation
  | .disposal .writeOff => r.originalCost = 0 ∧ r.proceeds = 0
  | .scrap => 0 < r.originalCost

/-- The fields of the payload. -/
def RemovedAsset.field (field : String) : ℚ :=
  let book := r.originalCost - r.accumulatedDepreciation
  ([("proceeds", r.proceeds), ("original_cost", r.originalCost),
    ("accumulated_depreciation", r.accumulatedDepreciation), ("book_value", book),
    ("gain_amount", max 0 (r.proceeds - book)), ("loss_amount", max 0 (book - r.proceeds))].lookup
      field).getD 0

end Removal

section Laws

variable {a : Arithmetic} {r : RemovedAsset} {k : Removal}

/-- No amount is rounded. -/
theorem RemovedAsset.Valid.round_eq (h : r.Valid a k) {x : ℚ} (hplaces : Decimal.HasPlaces 9 x)
    (hle : |x| ≤ r.originalCost + r.proceeds) : a.ctx.round x = x :=
  a.ctx.round_of_places hplaces
    (lt_of_le_of_lt (mul_le_mul_of_nonneg_right hle (by positivity)) h.fits)

/-- The amounts of a removal are not negative, have the places of the ledger and are bounded. -/
theorem RemovedAsset.Valid.fields (h : r.Valid a k) :
    ∀ field ∈ ["proceeds", "original_cost", "accumulated_depreciation", "book_value", "gain_amount",
      "loss_amount"], 0 ≤ r.field field ∧ Decimal.HasPlaces 9 (r.field field) ∧
        r.field field ≤ r.originalCost + r.proceeds := by
  have hnonneg := h.depreciation_nonneg
  have hle := h.depreciation_le
  have hproceeds := h.proceeds_nonneg
  have hcost := hnonneg.trans hle
  have hbook := h.cost_places.sub h.depreciation_places
  have hmax : ∀ {x : ℚ}, Decimal.HasPlaces 9 x → Decimal.HasPlaces 9 (max 0 x) := by
    intro x hx
    rcases max_choice 0 x with heq | heq
    · rw [heq]
      exact .zero
    · rwa [heq]
  simp only [List.forall_mem_cons, List.not_mem_nil, false_imp_iff, implies_true, and_true]
  refine ⟨⟨hproceeds, h.proceeds_places, ?_⟩, ⟨hcost, h.cost_places, ?_⟩,
    ⟨hnonneg, h.depreciation_places, ?_⟩, ⟨sub_nonneg.mpr hle, hbook, ?_⟩,
    ⟨le_max_left _ _, hmax (h.proceeds_places.sub hbook), max_le ?_ ?_⟩,
    ⟨le_max_left _ _, hmax (hbook.sub h.proceeds_places), max_le ?_ ?_⟩⟩
  · exact le_add_of_nonneg_left hcost
  · exact le_add_of_nonneg_right hproceeds
  · exact hle.trans (le_add_of_nonneg_right hproceeds)
  · exact (sub_le_self _ hnonneg).trans (le_add_of_nonneg_right hproceeds)
  all_goals linarith

theorem RemovedAsset.Valid.book_eq (h : r.Valid a k) :
    a.ctx.round (r.originalCost - r.accumulatedDepreciation) =
      r.originalCost - r.accumulatedDepreciation := by
  have hnonneg := h.depreciation_nonneg
  have hproceeds := h.proceeds_nonneg
  refine h.round_eq (h.cost_places.sub h.depreciation_places) ?_
  rw [abs_of_nonneg (sub_nonneg.mpr h.depreciation_le)]
  linarith

theorem RemovedAsset.Valid.difference_eq (h : r.Valid a k) :
    a.ctx.round (r.proceeds - (r.originalCost - r.accumulatedDepreciation)) =
      r.proceeds - (r.originalCost - r.accumulatedDepreciation) := by
  have hnonneg := h.depreciation_nonneg
  have hle := h.depreciation_le
  have hproceeds := h.proceeds_nonneg
  refine h.round_eq (h.proceeds_places.sub (h.cost_places.sub h.depreciation_places)) ?_
  rw [abs_le]
  constructor <;> linarith

/-- The fields that are posted. -/
def Removal.fields : Removal → List String
  | .disposal _ =>
      ["proceeds", "accumulated_depreciation", "loss_amount", "original_cost", "gain_amount"]
  | .scrap => ["accumulated_depreciation", "book_value", "original_cost"]

/-- The payload of a removal has its amounts. -/
theorem Removal.value_event (h : r.Valid a k) :
    ∀ field ∈ k.fields, (k.event a r).payload.value field = .number (r.field field) := by
  have hdifference := h.difference_eq
  have hopposite : a.ctx.round (r.originalCost - r.accumulatedDepreciation - r.proceeds) =
      r.originalCost - r.accumulatedDepreciation - r.proceeds := by
    rw [← neg_sub, a.ctx.round_neg, hdifference]
  cases k with
  | disposal disposalType =>
    simp only [fields, List.forall_mem_cons, List.not_mem_nil, false_imp_iff, implies_true, and_true]
    refine ⟨rfl, rfl, ?_, rfl, ?_⟩
    · show PolicyBridge.PayloadValue.number (max 0 (a.ctx.round (a.ctx.round
        (r.originalCost - r.accumulatedDepreciation) - r.proceeds))) = _
      rw [h.book_eq, hopposite]
      rfl
    · show PolicyBridge.PayloadValue.number (max 0 (a.ctx.round (r.proceeds - a.ctx.round
        (r.originalCost - r.accumulatedDepreciation)))) = _
      rw [h.book_eq, hdifference]
      rfl
  | scrap =>
    simp only [fields, List.forall_mem_cons, List.not_mem_nil, false_imp_iff, implies_true, and_true]
    refine ⟨rfl, ?_, rfl⟩
    show PolicyBridge.PayloadValue.number (a.ctx.round (r.originalCost - r.accumulatedDepreciation)) = _
    rw [h.book_eq]
    rfl

/-- The policy of a removal. -/
def Removal.policy : Removal → AccountingPolicy
  | .disposal .sale => assetDisposalGain
  | .disposal .retirement => assetDisposalLoss
  | .disposal .writeOff => assetImpairment
  | .scrap => assetScrap

theorem Removal.findForEvent_event (k : Removal) :
    findForEvent allProfiles (k.event a r).eventType (k.event a r).payload = some k.policy := by
  obtain (_ | _ | _) | _ := k
  · rfl
  · rfl
  · rfl
  · rfl

/-- A mapping of a removal other than a write-off is for one of its fields. -/
theorem Removal.mapping_fields (hk : k ≠ .disposal .writeOff) :
    ∀ m ∈ k.policy.lineMappings, m.ledger = "GL" ∧ m.foreach = none ∧
      ∃ field ∈ k.fields, m.fromContext = some field ∧ fieldAmount r.field m = r.field field := by
  have hmapping : ∀ m ∈ k.policy.lineMappings, m.ledger = "GL" ∧ m.foreach = none ∧
      ∃ field ∈ k.fields, m.fromContext = some field := by
    obtain (_ | _ | _) | _ := k
    · decide
    · decide
    · exact absurd rfl hk
    · decide
  intro m hm
  obtain ⟨hledger, hforeach, field, hfield, hcontext⟩ := hmapping m hm
  refine ⟨hledger, hforeach, field, hfield, hcontext, ?_⟩
  rw [fieldAmount, hcontext]
  rfl

theorem RemovedAsset.Valid.fields_of (h : r.Valid a k) : ∀ field ∈ k.fields, 0 ≤ r.field field ∧
    Decimal.HasPlaces 9 (r.field field) ∧ r.field field ≤ r.originalCost + r.proceeds := by
  have hsix : ∀ field ∈ k.fields, field ∈ ["proceeds", "original_cost", "accumulated_depreciation",
      "book_value", "gain_amount", "loss_amount"] := by
    cases k with
    | disposal _ =>
      simp only [Removal.fields]
      decide
    | scrap => decide
  exact fun field hfield => h.fields field (hsix field hfield)

theorem Removal.postsField (h : r.Valid a k) (hk : k ≠ .disposal .writeOff) :
    ∀ m ∈ k.policy.lineMappings, PostsField r.field (k.event a r) m := by
  intro m hm
  obtain ⟨hledger, hforeach, field, hfield, hcontext, hamount⟩ := Removal.mapping_fields hk m hm
  obtain ⟨hnonneg, hplaces, -⟩ := h.fields_of field hfield
  exact ⟨hledger, hforeach, ⟨field, hcontext, Removal.value_event h field hfield⟩,
    hamount.symm ▸ hnonneg, hamount.symm ▸ hplaces⟩

variable (r) in
/-- Both sides of the entry of a removal. -/
def Removal.sides : Removal → ℚ × ℚ
  | .disposal .sale =>
      (r.proceeds + (r.accumulatedDepreciation +
        max 0 (r.originalCost - r.accumulatedDepreciation - r.proceeds)),
        r.originalCost + max 0 (r.proceeds - (r.originalCost - r.accumulatedDepreciation)))
  | .disposal _ =>
      (r.proceeds + (r.accumulatedDepreciation +
        max 0 (r.originalCost - r.accumulatedDepreciation - r.proceeds)), r.originalCost)
  | .scrap => (r.accumulatedDepreciation + (r.originalCost - r.accumulatedDepreciation), r.originalCost)

theorem Removal.sideTotal_policy (hk : k ≠ .disposal .writeOff) :
    sideTotal r.field .debit k.policy.lineMappings = (k.sides r).1 ∧
      sideTotal r.field .credit k.policy.lineMappings = (k.sides r).2 := by
  have hthree : ∀ x y z : ℚ, x + (y + (z + 0)) = x + (y + z) := fun x y z => by rw [add_zero]
  have htwo : ∀ x y : ℚ, x + (y + 0) = x + y := fun x y => by rw [add_zero]
  obtain (_ | _ | _) | _ := k
  · exact ⟨hthree _ _ _, htwo _ _⟩
  · exact ⟨hthree _ _ _, add_zero _⟩
  · exact absurd rfl hk
  · exact ⟨htwo _ _, add_zero _⟩

/-- What a removal other than a write-off posts. -/
theorem Removal.interpret_event (h : r.Valid a k) (hk : k ≠ .disposal .writeOff) :
    interpret a.ctx allProfiles (k.event a r) =
      if fieldLines r.field r.currency k.policy.lineMappings = [] then .answered .intentFailed
      else if (k.sides r).1 = (k.sides r).2 then
        .posted ((fieldLines r.field r.currency k.policy.lineMappings).map (toLedgerLine "GL"))
      else .answered .postingFailed := by
  obtain ⟨hdebit, hcredit⟩ := Removal.sideTotal_policy (r := r) hk
  have hfields := Removal.postsField h hk
  have hcurrency : (k.event a r).currency = r.currency := by cases k <;> rfl
  obtain ⟨hnonneg, hle, hproceeds, hscrap, -, -, -, hfits⟩ := h
  have hlimit : ∀ x, x ≤ r.originalCost + r.proceeds → x * 10 ^ 9 < 10 ^ a.ctx.prec := fun x hx =>
    lt_of_le_of_lt (mul_le_mul_of_nonneg_right hx (by positivity)) hfits
  have hsides : ∀ side, sideTotal r.field side k.policy.lineMappings * 10 ^ 9 < 10 ^ a.ctx.prec := by
    intro side
    refine hlimit _ ?_
    have hloss : r.proceeds + (r.accumulatedDepreciation +
        max 0 (r.originalCost - r.accumulatedDepreciation - r.proceeds)) ≤
        r.originalCost + r.proceeds := by
      rcases max_cases 0 (r.originalCost - r.accumulatedDepreciation - r.proceeds) with ⟨heq, _⟩ | ⟨heq, _⟩
      · linarith
      · linarith
    have hgain : max 0 (r.proceeds - (r.originalCost - r.accumulatedDepreciation)) ≤ r.proceeds :=
      max_le hproceeds (by linarith)
    cases side with
    | debit =>
      rw [hdebit]
      obtain (_ | _ | _) | _ := k
      · exact hloss
      · exact hloss
      · exact hloss
      · show r.accumulatedDepreciation + (r.originalCost - r.accumulatedDepreciation) ≤ _
        linarith
    | credit =>
      rw [hcredit]
      obtain (_ | _ | _) | _ := k
      · exact add_le_add_right hgain _
      · exact le_add_of_nonneg_right hproceeds
      · exact le_add_of_nonneg_right hproceeds
      · exact le_add_of_nonneg_right hproceeds
  obtain ⟨hguards, heffects, hne⟩ : k.policy.guards = [] ∧
      (∃ debitRole creditRole, k.policy.ledgerEffects = [⟨"GL", debitRole, creditRole⟩]) ∧
        k.policy.lineMappings ≠ [] := by
    obtain (_ | _ | _) | _ := k
    · exact ⟨rfl, ⟨_, _, rfl⟩, List.cons_ne_nil _ _⟩
    · exact ⟨rfl, ⟨_, _, rfl⟩, List.cons_ne_nil _ _⟩
    · exact ⟨rfl, ⟨_, _, rfl⟩, List.cons_ne_nil _ _⟩
    · exact ⟨rfl, ⟨_, _, rfl⟩, List.cons_ne_nil _ _⟩
  rw [interpret_context k.findForEvent_event hguards heffects hne hfields hsides, hdebit, hcredit,
    hcurrency]

/-- Something is posted when the asset had a cost or the sale brings something. -/
theorem Removal.fieldLines_ne_nil (h : r.Valid a k) (hk : k ≠ .disposal .writeOff) :
    fieldLines r.field r.currency k.policy.lineMappings ≠ [] ↔
      0 < r.originalCost ∨ 0 < r.proceeds := by
  rw [ne_eq, fieldLines_eq_nil, ← not_iff_not, not_not, not_or, not_lt, not_lt]
  constructor
  · intro hall
    have hcost : ∃ m ∈ k.policy.lineMappings, m.fromContext = some "original_cost" := by
      obtain (_ | _ | _) | _ := k
      · decide
      · decide
      · exact absurd rfl hk
      · decide
    obtain ⟨m, hm, hcontext⟩ := hcost
    have hzero := hall m hm
    rw [fieldAmount, hcontext] at hzero
    refine ⟨hzero, ?_⟩
    cases k with
    | scrap => exact (h.scrap rfl).le
    | disposal disposalType =>
      have hproceeds : ∃ m ∈ (policy (.disposal disposalType)).lineMappings,
          m.fromContext = some "proceeds" := by
        obtain _ | _ | _ := disposalType
        · decide
        · decide
        · exact absurd rfl hk
      obtain ⟨m, hm, hcontext⟩ := hproceeds
      have hzero := hall m hm
      rwa [fieldAmount, hcontext] at hzero
  · rintro ⟨hcost, hproceeds⟩ m hm
    obtain ⟨-, -, field, hfield, -, hamount⟩ := Removal.mapping_fields hk m hm
    have hle := (h.fields_of field hfield).2.2
    rw [hamount]
    linarith

/-- A removal other than a write-off balances unless it is a retirement at a gain. -/
theorem Removal.sides_eq (hk : k ≠ .disposal .writeOff) :
    (k.sides r).1 = (k.sides r).2 ↔
      (k = .disposal .retirement → r.proceeds ≤ r.originalCost - r.accumulatedDepreciation) := by
  have hloss := max_cases 0 (r.originalCost - r.accumulatedDepreciation - r.proceeds)
  obtain (_ | _ | _) | _ := k
  · have hgain := max_cases 0 (r.proceeds - (r.originalCost - r.accumulatedDepreciation))
    refine iff_of_true ?_ fun h => by cases h
    dsimp only [sides]
    obtain ⟨hloss, _⟩ | ⟨hloss, _⟩ := hloss
    · obtain ⟨hgain, _⟩ | ⟨hgain, _⟩ := hgain <;> linarith
    · obtain ⟨hgain, _⟩ | ⟨hgain, _⟩ := hgain <;> linarith
  · dsimp only [sides]
    constructor
    · intro h _
      obtain ⟨hloss, _⟩ | ⟨hloss, _⟩ := hloss <;> linarith
    · intro h
      have hle := h rfl
      obtain ⟨hloss, _⟩ | ⟨hloss, _⟩ := hloss <;> linarith
  · exact absurd rfl hk
  · exact iff_of_true (add_sub_cancel _ _) fun h => by cases h

/-- The mappings of a removal that balances are its derecognition. -/
theorem Removal.derecognition_eq (h : r.Valid a k) (hk : k ≠ .disposal .writeOff)
    (hbalanced : k = .disposal .retirement → r.proceeds ≤ r.originalCost - r.accumulatedDepreciation)
    (role : String) :
    (k.policy.lineMappings.map fun m =>
      if m.role = role then signedOn m.side (fieldAmount r.field m) else 0).sum =
    ((r.derecognition.filter (·.1 = role)).map fun entry => signedOn entry.2.1 entry.2.2).sum := by
  simp only [RemovedAsset.derecognition, KeyedSums.sum_filter_cons, decide_eq_true_eq, List.filter_nil,
    List.map_nil, List.sum_nil]
  have hnogain : r.proceeds ≤ r.originalCost - r.accumulatedDepreciation →
      max 0 (r.proceeds - (r.originalCost - r.accumulatedDepreciation)) = 0 := fun h =>
    max_eq_left (sub_nonpos.mpr h)
  obtain (_ | _ | _) | _ := k
  · rfl
  · rw [hnogain (hbalanced rfl)]
    show _ = _ + (_ + (_ + (_ + ((if _ then -(0 : ℚ) else 0) + 0))))
    rw [neg_zero, ite_self, add_zero]
    rfl
  · exact absurd rfl hk
  · have hzero := h.scrap rfl
    have hle : r.proceeds ≤ r.originalCost - r.accumulatedDepreciation := by
      rw [hzero]
      exact sub_nonneg.mpr h.depreciation_le
    rw [hnogain hle, hzero, sub_zero, max_eq_right (sub_nonneg.mpr h.depreciation_le)]
    show _ = (if _ then (0 : ℚ) else 0) + (_ + (_ + (_ + ((if _ then -(0 : ℚ) else 0) + 0))))
    rw [neg_zero, ite_self, ite_self, add_zero, zero_add]
    rfl

/-- **A write-off posts an impairment** of the greater of proceeds and book value. -/
theorem interpret_writeOff (h : r.Valid a (.disposal .writeOff)) :
    interpret a.ctx allProfiles (Removal.event a r (.disposal .writeOff)) =
      .posted (pairLines "IMPAIRMENT_LOSS" "ACCUMULATED_DEPRECIATION"
        (max r.proceeds (r.originalCost - r.accumulatedDepreciation)) r.currency) := by
  have hfound := Removal.findForEvent_event (a := a) (r := r) (.disposal .writeOff)
  have hamount : (Removal.event a r (.disposal .writeOff)).amount =
      max r.proceeds (r.originalCost - r.accumulatedDepreciation) := by
    show max r.proceeds (a.ctx.round (r.originalCost - r.accumulatedDepreciation)) = _
    rw [h.book_eq]
  have hcurrency : (Removal.event a r (.disposal .writeOff)).currency = r.currency := rfl
  have hnonneg : 0 ≤ max r.proceeds (r.originalCost - r.accumulatedDepreciation) :=
    h.proceeds_nonneg.trans (le_max_left _ _)
  generalize Removal.event a r (.disposal .writeOff) = e at hfound hamount hcurrency ⊢
  have hguard : (Removal.policy (.disposal .writeOff)).firedGuard e.payload = none := rfl
  have hintents : ledgerIntents a.ctx (Removal.policy (.disposal .writeOff)) e =
      .ok [⟨"GL", [⟨"IMPAIRMENT_LOSS", .debit, e.amount, e.currency⟩,
        ⟨"ACCUMULATED_DEPRECIATION", .credit, e.amount, e.currency⟩]⟩] := by
    rw [← hamount] at hnonneg
    simp [ledgerIntents, effectLines, PolicyBridge.buildIntentLines, PolicyBridge.mappingLines,
      Removal.policy, assetImpairment, createIntentLine_of_nonneg hnonneg, Except.map, bind,
      Except.bind, pure, Except.pure]
  unfold interpret
  rw [hfound]
  dsimp only
  rw [hguard, hintents, ← hamount, ← hcurrency]
  simp [balanced, pairLines, toLedgerLine]

/-- A write-off leaves the asset where it is, so it is right for an asset of no cost only. -/
theorem derecognised_writeOff (h : r.Valid a (.disposal .writeOff)) :
    Derecognised r (pairLines "IMPAIRMENT_LOSS" "ACCUMULATED_DEPRECIATION"
      (max r.proceeds (r.originalCost - r.accumulatedDepreciation)) r.currency) ↔
        r.originalCost = 0 ∧ r.proceeds = 0 := by
  have hnonneg := h.depreciation_nonneg
  have hle := h.depreciation_le
  constructor
  · intro hall
    have hasset := hall.balances "FIXED_ASSET"
    have hcash := hall.balances "CASH"
    simp [pairLines, RemovedAsset.derecognition, signedOn] at hasset hcash
    exact ⟨hasset, hcash.symm⟩
  · rintro ⟨hcost, hproceeds⟩
    have hzero : r.accumulatedDepreciation = 0 := le_antisymm (hcost ▸ hle) hnonneg
    refine ⟨fun role => ?_, ?_⟩
    · simp [pairLines, RemovedAsset.derecognition, signedOn, LedgerLine.signed, KeyedSums.sum_filter_cons,
        hcost, hproceeds, hzero, stored, Decimal.quantize_of_places (.zero : Decimal.HasPlaces 9 0)]
    · simp [pairLines, LedgerLine.signed]

/-- **The entry of a removal** takes the asset off the books exactly when the removal is booked. -/
theorem Removal.posted_iff (h : r.Valid a k) :
    (∃ lines, interpret a.ctx allProfiles (k.event a r) = .posted lines ∧ Derecognised r lines) ↔
      k.Booked r := by
  by_cases hk : k = .disposal .writeOff
  · subst hk
    rw [interpret_writeOff h]
    simp only [Posting.posted.injEq, exists_eq_left', derecognised_writeOff h]
    rfl
  · rw [Removal.interpret_event h hk]
    have hfields := Removal.postsField h hk
    have hbooked : k.Booked r ↔ (0 < r.originalCost ∨ 0 < r.proceeds) ∧
        (k = .disposal .retirement → r.proceeds ≤ r.originalCost - r.accumulatedDepreciation) := by
      obtain (_ | _ | _) | _ := k
      · exact (and_iff_left fun h => by cases h).symm
      · have hnonneg := h.depreciation_nonneg
        constructor
        · exact fun hbooked => ⟨.inl hbooked.1, fun _ => hbooked.2⟩
        · rintro ⟨hcost | hproceeds, hle⟩
          · exact ⟨hcost, hle rfl⟩
          · have hcost := hle rfl
            exact ⟨by linarith, hcost⟩
      · exact absurd rfl hk
      · have hzero := h.scrap rfl
        constructor
        · exact fun hcost => ⟨.inl hcost, fun h => by cases h⟩
        · rintro ⟨hcost | hproceeds, -⟩
          · exact hcost
          · exact absurd hzero hproceeds.ne'
    rw [hbooked, ← Removal.fieldLines_ne_nil h hk, ← Removal.sides_eq hk]
    constructor
    · rintro ⟨lines, hposted, -⟩
      split at hposted
      · cases hposted
      · split at hposted
        · exact ⟨‹_›, ‹_›⟩
        · cases hposted
    · rintro ⟨hne, hbalanced⟩
      rw [if_neg hne, if_pos hbalanced]
      refine ⟨_, rfl, fun role => ?_, ?_⟩
      · rw [balance_fieldLines role hfields]
        exact Removal.derecognition_eq h hk ((Removal.sides_eq hk).mp hbalanced) role
      · obtain ⟨hdebit, hcredit⟩ := Removal.sideTotal_policy (r := r) hk
        rw [sum_signed_fieldLines hfields, hdebit, hcredit, hbalanced, sub_self]

section Books

variable {τ : Type*} {constraint : List AssetRecord → Bool} {answers : Answers}
variable {s : Session (Books AssetRecord τ)}

/-- A removal that took the asset off the books is booked. -/
theorem Removal.booked_of_run {s' : Session (Books AssetRecord τ)} {lines : List LedgerLine}
    (h : r.Valid a k)
    (hrun : k.run a (booksEnv a.ctx allProfiles constraint answers) r s = (.ok .posted, s'))
    (hlines : s'.current.lines = s.current.lines ++ lines) (hall : Derecognised r lines) :
    k.Booked r := by
  rw [Removal.run_eq] at hrun
  obtain ⟨lines', hposted, hlines'⟩ := guardedPosting_posted hrun
  rw [hlines] at hlines'
  obtain rfl := List.append_cancel_left hlines'
  exact (Removal.posted_iff h).mp ⟨lines, hposted, hall⟩

/-- **An asset that is removed leaves the books** exactly when it is sold, retired at no gain or
scrapped and there is something to post, or when it is written off and has no cost. -/
theorem asset_derecognised_iff (h : r.Valid a k) (hworkflow : answers.workflow.any (·.1.success))
    (hverdict : answers.verdict 0 = .proceeds)
    (hrows : constraint (s.current.rows ++ k.rows a r) = true) :
    (∃ s' lines, k.run a (booksEnv a.ctx allProfiles constraint answers) r s = (.ok .posted, s') ∧
      s'.current.lines = s.current.lines ++ lines ∧ Derecognised r lines) ↔ k.Booked r := by
  constructor
  · rintro ⟨s', lines, hrun, hlines, hall⟩
    exact Removal.booked_of_run h hrun hlines hall
  · intro hbooked
    obtain ⟨lines, hposted, hall⟩ := (Removal.posted_iff h).mpr hbooked
    simp only [Removal.run_eq]
    have haccepted : (accepted answers (k.transition a r)).isSome := by
      have hfind : ∃ t, WorkflowExecutor.findTransition (k.transition a r).workflow
          (k.transition a r).currentState (k.transition a r).action = some t := by
        cases k <;> exact ⟨_, rfl⟩
      obtain ⟨t, hfind⟩ := hfind
      rw [accepted, hfind, Option.filter_some, if_pos hworkflow]
      rfl
    have hrun : ((booksEnv a.ctx allProfiles constraint answers).guardedPosting (k.transition a r)
        (k.event a r) (k.rows a r) s).1 = .ok .posted := by
      refine guardedWork_posted haccepted fun n => ⟨(), _, lines, rfl, ?_, ?_⟩
      · rw [hverdict]
        exact hposted
      · show constraint (List.foldl (fun t row => Books.add row t) _ _).rows = true
        rw [Books.foldl_add]
        exact hrows
    obtain ⟨lines', hposted', hlines⟩ := guardedPosting_posted (Prod.ext hrun rfl)
    obtain rfl := Posting.posted.inj (hposted.symm.trans hposted')
    exact ⟨_, lines, Prod.ext hrun rfl, hlines, hall⟩

end Books

end Laws

/-! ### A sale, a retirement and a write-off -/

/-- An asset of 1000 with a depreciation of 400. -/
def sampleRemoval (proceeds : ℚ) : RemovedAsset where
  assetId := ⟨1⟩
  originalCost := 1000
  accumulatedDepreciation := 400
  proceeds := proceeds
  effectiveDate := .of 2024 6 30 (by decide)
  actorId := ⟨2⟩
  reasonCode := "END_OF_LIFE"
  currency := "USD"

/-- The removal of such an asset from empty books. -/
def SampleBooked (k : Removal) (proceeds : ℚ) : Prop :=
  ∃ s' lines, k.run dollars
      (booksEnv dollars.ctx allProfiles (fun _ => true) permissive) (sampleRemoval proceeds)
      (Session.start ({ store := () } : Books AssetRecord Unit)) = (.ok .posted, s') ∧
    s'.current.lines = [] ++ lines ∧ Derecognised (sampleRemoval proceeds) lines

theorem valid_sampleRemoval (k : Removal) (hk : k ≠ .scrap) :
    (sampleRemoval 700).Valid dollars k where
  depreciation_nonneg := by decide +kernel
  depreciation_le := by decide +kernel
  proceeds_nonneg := by decide +kernel
  scrap h := absurd h hk
  cost_places := ⟨1000 * 10 ^ 9, by decide +kernel⟩
  depreciation_places := ⟨400 * 10 ^ 9, by decide +kernel⟩
  proceeds_places := ⟨700 * 10 ^ 9, by decide +kernel⟩
  fits := by decide +kernel

theorem asset_derecognised_sale : SampleBooked (.disposal .sale) 700 :=
  (asset_derecognised_iff (valid_sampleRemoval _ (by decide)) rfl rfl rfl).mpr
    (.inl (by decide +kernel))

/-- **Disposals that leave the asset on the books**: a retirement at a gain of 100 is refused, and a
write-off posts an impairment. -/
theorem asset_not_derecognised :
    ¬SampleBooked (.disposal .retirement) 700 ∧ ¬SampleBooked (.disposal .writeOff) 700 := by
  constructor
  · rintro ⟨s', lines, hrun, hlines, hall⟩
    have hle := (Removal.booked_of_run (valid_sampleRemoval _ (by decide)) hrun hlines hall).2
    exact absurd hle (by decide +kernel)
  · rintro ⟨s', lines, hrun, hlines, hall⟩
    have hcost := (Removal.booked_of_run (valid_sampleRemoval _ (by decide)) hrun hlines hall).1
    exact absurd hcost (by decide +kernel)

end FinanceAccounting.FixedAssets
