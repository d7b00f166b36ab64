import FinanceAccounting.Engines.Matching
import FinanceAccounting.Kernel.LinkBatches

/-! # Three-way matching

`create_three_way_match` compares what was received with what was ordered and the price of the
invoice with that of the order, and then writes one link from the order to the receipt and one from
the receipt to the invoice.  What is invoiced is compared with nothing, the currencies are not
either, and a percentage of a base that is not above zero is not taken.  `sound_iff` says when the
match is sound all the same. -/

namespace FinanceAccounting.ThreeWayMatch

open Hashing (PyVal)
open LinkGraph (ArtifactRef EconomicLink LinkError LinkTable establishLink fromDomain goThrough
  verdict)
open Matching (MatchTolerance ToleranceType)
open UnitOfWork (Result Session)
open Valuation (Money)

/-! ### The match -/

/-- The arguments, with the identifiers and the times of the two links. -/
structure MatchInput where
  poRef : ArtifactRef
  receiptRef : ArtifactRef
  invoiceRef : ArtifactRef
  poQuantity : ℚ
  poUnitPrice : Money
  receiptQuantity : ℚ
  invoiceQuantity : ℚ
  invoiceUnitPrice : Money
  creatingEventId : UUID
  tolerance : MatchTolerance := {}
  linkIds : UUID × UUID
  createdAt : Datetime × Datetime

inductive MatchError where
  | varianceExceeded (varianceType : String) (varianceAmount tolerance : ℚ)
      (currency : Option String)
  | valueError (message : String)
  | link (e : LinkError)

structure MatchResult where
  matchedAmount : Money
  variance : Option Money
  linksCreated : List EconomicLink
  quantityVariance : ℚ
  priceVariance : Money

section Service

variable (ctx : Decimal.Context) (str : ℚ → String) (limit : ℕ)

/-- A variance beyond its tolerance: the amount, or the percentage of a base above zero. -/
def exceeding (kind : ToleranceType) (tolerance base variance : ℚ) : Option ℚ :=
  match kind with
  | .absolute => if tolerance < |variance| then some variance else none
  | .percent =>
      if 0 < base ∧ tolerance < ctx.round (ctx.round (|variance| / base) * 100) then
        some (ctx.round (ctx.round (|variance| / base) * 100))
      else none

namespace MatchInput

variable (x : MatchInput)

def quantityVariance : ℚ := ctx.round (x.receiptQuantity - x.poQuantity)

/-- In the currency of the order. -/
def priceVariance : Money where
  amount := ctx.round
    (ctx.round (x.invoiceUnitPrice.amount - x.poUnitPrice.amount) * x.invoiceQuantity)
  currency := x.poUnitPrice.currency

def expectedTotal : ℚ := ctx.round (x.poUnitPrice.amount * x.invoiceQuantity)

def exceedingQuantity : Option ℚ :=
  exceeding ctx x.tolerance.quantityToleranceType x.tolerance.quantityTolerance x.poQuantity
    (x.quantityVariance ctx)

def exceedingPrice : Option ℚ :=
  exceeding ctx x.tolerance.amountToleranceType x.tolerance.amountTolerance (x.expectedTotal ctx)
    (x.priceVariance ctx).amount

/-- The two comparisons. -/
def checkVariances : Except MatchError Unit :=
  match x.exceedingQuantity ctx, x.exceedingPrice ctx with
  | some v, _ => .error (.varianceExceeded "quantity" v x.tolerance.quantityTolerance none)
  | none, some v => .error (.varianceExceeded "price" v x.tolerance.amountTolerance
      (if x.tolerance.amountToleranceType = .absolute then some x.poUnitPrice.currency else none))
  | none, none => .ok ()

/-- The link from the order to the receipt. -/
def poReceiptLink : Except String EconomicLink :=
  EconomicLink.create x.linkIds.1 .fulfilledBy x.poRef x.receiptRef x.creatingEventId
    x.createdAt.1 (some
      [("match_type", PyVal.scalar (.str "three_way")),
        ("po_quantity", .scalar (.str (str x.poQuantity))),
        ("receipt_quantity", .scalar (.str (str x.receiptQuantity)))])

/-- The link from the receipt to the invoice. -/
def receiptInvoiceLink : Except String EconomicLink :=
  EconomicLink.create x.linkIds.2 .fulfilledBy x.receiptRef x.invoiceRef x.creatingEventId
    x.createdAt.2 (some
      [("match_type", PyVal.scalar (.str "three_way")),
        ("receipt_quantity", .scalar (.str (str x.receiptQuantity))),
        ("invoice_quantity", .scalar (.str (str x.invoiceQuantity)))])

def result (links : List EconomicLink) : MatchResult where
  matchedAmount :=
    ⟨ctx.round (x.invoiceQuantity * x.invoiceUnitPrice.amount), x.invoiceUnitPrice.currency⟩
  variance := if (x.priceVariance ctx).amount = 0 then none else some (x.priceVariance ctx)
  linksCreated := links
  quantityVariance := x.quantityVariance ctx
  priceVariance := x.priceVariance ctx

end MatchInput

/-- Create a link and establish it; the link where it is new. -/
def writeLink (s : Session LinkTable) (created : Except String EconomicLink) :
    Result MatchError LinkTable (List EconomicLink) :=
  match created with
  | .error e => (.error (.valueError e), s)
  | .ok link =>
      match establishLink limit s link true with
      | (.error e, s') => (.error (.link e), s')
      | (.ok result, s') => (.ok (if result.wasDuplicate then [] else [result.link]), s')

/-- Both links. -/
def writeLinks (s : Session LinkTable) (x : MatchInput) :
    Result MatchError LinkTable (List EconomicLink) :=
  (writeLink limit s (x.poReceiptLink str)).andThen fun links s' =>
    (writeLink limit s' (x.receiptInvoiceLink str)).andThen fun more s'' =>
      (.ok (links ++ more), s'')

/-- `create_three_way_match`. -/
def createThreeWayMatch (s : Session LinkTable) (x : MatchInput) :
    Result MatchError LinkTable MatchResult :=
  match x.checkVariances ctx with
  | .error e => (.error e, s)
  | .ok () => (writeLinks str limit s x).andThen fun links s' => (.ok (x.result ctx links), s')

/-! ### What a match should say -/

/-- A variance is within its tolerance; where the base of a percentage is not above zero there is
none. -/
def Within (kind : ToleranceType) (tolerance base variance : ℚ) : Prop :=
  match kind with
  | .absolute => |variance| ≤ tolerance
  | .percent =>
      if 0 < base then ctx.round (ctx.round (|variance| / base) * 100) ≤ tolerance
      else variance = 0

namespace MatchInput

variable (x : MatchInput)

def WithinQuantity (base variance : ℚ) : Prop :=
  Within ctx x.tolerance.quantityToleranceType x.tolerance.quantityTolerance base variance

/-- What was received fits what was ordered, what is invoiced fits what was received, and the prices
fit each other. -/
structure Fits : Prop where
  received : x.WithinQuantity ctx x.poQuantity (x.quantityVariance ctx)
  invoiced : x.WithinQuantity ctx x.receiptQuantity
    (ctx.round (x.invoiceQuantity - x.receiptQuantity))
  currency : x.invoiceUnitPrice.currency = x.poUnitPrice.currency
  price : Within ctx x.tolerance.amountToleranceType x.tolerance.amountTolerance
    (x.expectedTotal ctx) (x.priceVariance ctx).amount

/-- What the two comparisons leave open. -/
structure FitsOtherwise : Prop where
  invoiced : x.WithinQuantity ctx x.receiptQuantity
    (ctx.round (x.invoiceQuantity - x.receiptQuantity))
  currency : x.invoiceUnitPrice.currency = x.poUnitPrice.currency
  quantityBase : x.tolerance.quantityToleranceType = .percent → x.poQuantity ≤ 0 →
    x.quantityVariance ctx = 0
  priceBase : x.tolerance.amountToleranceType = .percent → x.expectedTotal ctx ≤ 0 →
    (x.priceVariance ctx).amount = 0

end MatchInput

/-- A match that is returned fits, and one that raises writes no link. -/
def Sound (s : Session LinkTable) (x : MatchInput) : Prop :=
  match createThreeWayMatch ctx str limit s x with
  | (.ok _, _) => x.Fits ctx
  | (.error _, s') => s'.current ⊆ s.current

/-- Both links are found or can be written. -/
def LinksGoThrough (s : Session LinkTable) (x : MatchInput) : Prop :=
  ∃ first second, x.poReceiptLink str = .ok first ∧ x.receiptInvoiceLink str = .ok second ∧
    (goThrough limit true s.current [first, second]).isSome

/-- If the first link is new, no check rejects the second. -/
def SecondGoes (s : Session LinkTable) (x : MatchInput) : Prop :=
  ∀ first, x.poReceiptLink str = .ok first → verdict limit true s.current first = .new →
    ∃ second, x.receiptInvoiceLink str = .ok second ∧
      verdict limit true (s.current ++ [fromDomain first]) second ≠ .rejected

/-- Where both comparisons pass, what is not compared fits if the links can be written, and no check
rejects the second link after a new first one. -/
def Meets (s : Session LinkTable) (x : MatchInput) : Prop :=
  x.exceedingQuantity ctx = none → x.exceedingPrice ctx = none →
    (LinksGoThrough str limit s x → x.FitsOtherwise ctx) ∧ SecondGoes str limit s x

end Service

/-! ### The comparisons -/

section Comparisons

variable {ctx : Decimal.Context} {str : ℚ → String} {limit : ℕ} {x : MatchInput}

/-- **A comparison that passes** leaves open the percentages that are not taken. -/
theorem within_iff {kind : ToleranceType} {tolerance base variance : ℚ}
    (h : exceeding ctx kind tolerance base variance = none) :
    Within ctx kind tolerance base variance ↔ (kind = .percent → base ≤ 0 → variance = 0) := by
  unfold exceeding at h
  unfold Within
  cases kind with
  | absolute =>
      dsimp only at h ⊢
      split_ifs at h with hlt
      exact iff_of_true (not_lt.mp hlt) (fun hkind => nomatch hkind)
  | percent =>
      dsimp only at h ⊢
      split_ifs at h with hlt
      rw [not_and, not_lt] at hlt
      split_ifs with hbase
      · exact iff_of_true (hlt hbase) fun _ hle => absurd hbase (not_lt.mpr hle)
      · exact ⟨fun hzero _ _ => hzero, fun hzero => hzero rfl (not_lt.mp hbase)⟩

theorem fits_iff (hquantity : x.exceedingQuantity ctx = none)
    (hprice : x.exceedingPrice ctx = none) : x.Fits ctx ↔ x.FitsOtherwise ctx := by
  have hreceived := within_iff hquantity
  have hprices := within_iff hprice
  exact ⟨fun h => ⟨h.invoiced, h.currency, hreceived.mp h.received, hprices.mp h.price⟩,
    fun h => ⟨hreceived.mpr h.quantityBase, h.invoiced, h.currency, hprices.mpr h.priceBase⟩⟩

end Comparisons

/-! ### The links -/

section Links

variable {ctx : Decimal.Context} {str : ℚ → String} {limit : ℕ} {s : Session LinkTable}
  {x : MatchInput}

/-- **What becomes of a link**: it is found, or new, or rejected, or the session is rolled back. -/
theorem writeLink_cases (hseen : s.committed ⊆ s.current) (link : EconomicLink) :
    (verdict limit true s.current link = .found ∧ writeLink limit s (.ok link) = (.ok [], s)) ∨
    (verdict limit true s.current link = .new ∧
      writeLink limit s (.ok link) = (.ok [link], s.flush (s.current ++ [fromDomain link]))) ∨
    (verdict limit true s.current link = .rejected ∧
      ∃ e, writeLink limit s (.ok link) = (.error e, s)) ∨
    (verdict limit true s.current link = .refused ∧
      ∃ e, writeLink limit s (.ok link) = (.error e, s.rollback)) := by
  cases hverdict : verdict limit true s.current link with
  | found =>
      obtain ⟨-, existing, -, -, hone⟩ := LinkGraph.establishLink_of_found hverdict
      exact .inl ⟨rfl, by simp [writeLink, hone]⟩
  | new =>
      have hone := (LinkGraph.establishLink_of_new hverdict).2
      exact .inr (.inl ⟨rfl, by simp [writeLink, hone]⟩)
  | rejected =>
      obtain ⟨e, hone⟩ := LinkGraph.establishLink_of_rejected hverdict
      exact .inr (.inr (.inl ⟨rfl, .link e, by simp [writeLink, hone]⟩))
  | refused =>
      obtain ⟨e, hone⟩ := LinkGraph.establishLink_of_refused hseen hverdict
      exact .inr (.inr (.inr ⟨rfl, .link e, by simp [writeLink, hone]⟩))

/-- **What becomes of both links**: they go through, or an exception leaves the first behind unless
no check rejects the second. -/
theorem writeLinks_cases (hseen : s.committed ⊆ s.current) (x : MatchInput) :
    (LinksGoThrough str limit s x ∧ SecondGoes str limit s x ∧
      ∃ links s', writeLinks str limit s x = (.ok links, s')) ∨
    (¬LinksGoThrough str limit s x ∧ ∃ e s', writeLinks str limit s x = (.error e, s') ∧
      (s'.current ⊆ s.current ↔ SecondGoes str limit s x)) := by
  unfold LinksGoThrough SecondGoes writeLinks
  cases hfirst : x.poReceiptLink str with
  | error e =>
      refine .inr ⟨?_, _, _, rfl, iff_of_true (List.Subset.refl _) fun _ h => nomatch h⟩
      rintro ⟨_, _, h, -⟩
      cases h
  | ok first =>
      simp only [Except.ok.injEq, exists_and_left, exists_eq_left', forall_eq', goThrough]
      rcases @writeLink_cases limit s hseen first with ⟨hverdict, hrun⟩ |
        ⟨hverdict, hrun⟩ | ⟨hverdict, e, hrun⟩ | ⟨hverdict, e, hrun⟩
      · -- the first link is found, and an exception leaves the table as it was
        rw [hrun, hverdict, Result.ok_andThen]
        cases hsecond : x.receiptInvoiceLink str with
        | error e => exact .inr ⟨by simp, _, _, rfl, by simp⟩
        | ok second =>
            rcases @writeLink_cases limit s hseen second with ⟨hverdict', hrun'⟩ |
              ⟨hverdict', hrun'⟩ | ⟨hverdict', e, hrun'⟩ | ⟨hverdict', e, hrun'⟩
            · exact .inl ⟨by simp [hverdict'], by simp, _, _, by rw [hrun']; rfl⟩
            · exact .inl ⟨by simp [hverdict'], by simp, _, _, by rw [hrun']; rfl⟩
            · exact .inr ⟨by simp [hverdict'], _, _, by rw [hrun']; rfl, by simp⟩
            · exact .inr ⟨by simp [hverdict'], _, _, by rw [hrun']; rfl,
                by simpa [Session.rollback] using hseen⟩
      · -- the first link is new
        have hnew : ¬s.current ++ [fromDomain first] ⊆ s.current := fun hsubset =>
          LinkGraph.not_mem_of_refuses (LinkGraph.establishLink_of_new hverdict).1
            (hsubset (by simp))
        have hseen' : (s.flush (s.current ++ [fromDomain first])).committed ⊆
            (s.flush (s.current ++ [fromDomain first])).current :=
          List.Subset.trans hseen (List.subset_append_left _ _)
        rw [hrun, hverdict, Result.ok_andThen]
        cases hsecond : x.receiptInvoiceLink str with
        | error e => exact .inr ⟨by simp, _, _, rfl, iff_of_false hnew (by simp)⟩
        | ok second =>
            rcases @writeLink_cases limit (s.flush _) hseen' second with ⟨hverdict', hrun'⟩ |
              ⟨hverdict', hrun'⟩ | ⟨hverdict', e, hrun'⟩ | ⟨hverdict', e, hrun'⟩
            all_goals
              change verdict limit true (s.current ++ [fromDomain first]) second = _ at hverdict'
            · exact .inl ⟨by simp [hverdict'], by simp [hverdict'], _, _, by rw [hrun']; rfl⟩
            · exact .inl ⟨by simp [hverdict'], by simp [hverdict'], _, _, by rw [hrun']; rfl⟩
            · exact .inr ⟨by simp [hverdict'], _, _, by rw [hrun']; rfl,
                iff_of_false hnew (by simp [hverdict'])⟩
            · exact .inr ⟨by simp [hverdict'], _, _, by rw [hrun']; rfl,
                iff_of_true hseen (by simp [hverdict'])⟩
      · rw [hrun, hverdict]
        exact .inr ⟨by simp, _, _, rfl, by simp⟩
      · rw [hrun, hverdict]
        exact .inr ⟨by simp, _, _, rfl, by simpa [Session.rollback] using hseen⟩

end Links

/-- **Three-way matches are sound**, when they raise as well, if and only if, where the two
comparisons pass, what they leave open fits as far as the links can be written, and no check rejects
the second link after a new first one. -/
theorem sound_iff (ctx : Decimal.Context) (str : ℚ → String) (limit : ℕ) (s : Session LinkTable)
    (hseen : s.committed ⊆ s.current) (x : MatchInput) :
    Sound ctx str limit s x ↔ Meets ctx str limit s x := by
  unfold Sound Meets createThreeWayMatch MatchInput.checkVariances
  cases hquantity : x.exceedingQuantity ctx with
  | some v => exact iff_of_true (List.Subset.refl _) fun h => nomatch h
  | none =>
      cases hprice : x.exceedingPrice ctx with
      | some v => exact iff_of_true (List.Subset.refl _) fun _ h => nomatch h
      | none =>
          simp only [forall_true_left, ← fits_iff hquantity hprice]
          rcases @writeLinks_cases str limit s hseen x with
            ⟨hthrough, hsecond, links, s', hrun⟩ | ⟨hthrough, e, s', hrun, hback⟩
          · rw [hrun]
            exact ⟨fun h => ⟨fun _ => h, hsecond⟩, fun h => h.1 hthrough⟩
          · rw [hrun]
            exact hback.trans ⟨fun h => ⟨fun h' => absurd h' hthrough, h⟩, fun h => h.2⟩

/-- Ten pieces at ten dollars that were ordered and received. -/
def sampleInput (invoiceQuantity : ℚ) : MatchInput where
  poRef := ⟨.purchaseOrder, ⟨1⟩⟩
  receiptRef := ⟨.receipt, ⟨2⟩⟩
  invoiceRef := ⟨.invoice, ⟨3⟩⟩
  poQuantity := 10
  poUnitPrice := ⟨10, "USD"⟩
  receiptQuantity := 10
  invoiceQuantity := invoiceQuantity
  invoiceUnitPrice := ⟨10, "USD"⟩
  creatingEventId := ⟨4⟩
  linkIds := (⟨5⟩, ⟨6⟩)
  createdAt := (sampleTime, sampleTime)

theorem sound_iff_sample :
    Sound Hashing.defaultContext (fun q => toString q) 100 ⟨[], []⟩ (sampleInput 10) ∧
      Meets Hashing.defaultContext (fun q => toString q) 100 ⟨[], []⟩ (sampleInput 10) := by
  have hok : (createThreeWayMatch Hashing.defaultContext (fun q => toString q) 100 ⟨[], []⟩
    (sampleInput 10)).1.toOption.isSome = true := by decide +kernel
  have hquantity : |Hashing.defaultContext.round (10 - 10)| ≤ (0 : ℚ) := by decide +kernel
  have hprice : |((sampleInput 10).priceVariance Hashing.defaultContext).amount| ≤
      (sampleInput 10).tolerance.amountTolerance := by decide +kernel
  have hsound : Sound Hashing.defaultContext (fun q => toString q) 100 ⟨[], []⟩ (sampleInput 10) := by
    unfold Sound
    split
    · exact ⟨hquantity, hquantity, rfl, hprice⟩
    · rename_i hrun
      rw [hrun] at hok
      cases hok
  exact ⟨hsound, (sound_iff _ _ 100 ⟨[], []⟩ (List.Subset.refl _) (sampleInput 10)).mp hsound⟩

/-- A hundred pieces are paid for. -/
theorem unreceived_goods_matched :
    ¬Sound Hashing.defaultContext (fun q => toString q) 100 ⟨[], []⟩ (sampleInput 100) := by
  intro h
  have hok : (createThreeWayMatch Hashing.defaultContext (fun q => toString q) 100 ⟨[], []⟩
    (sampleInput 100)).1.toOption.isSome = true := by decide +kernel
  unfold Sound at h
  split at h
  · have hinvoiced : |Hashing.defaultContext.round (100 - 10)| ≤ (0 : ℚ) := h.invoiced
    exact absurd hinvoiced (by decide +kernel)
  · rename_i hrun
    rw [hrun] at hok
    cases hok

end FinanceAccounting.ThreeWayMatch
