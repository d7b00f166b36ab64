import FinanceAccounting.Kernel.LinkGraph
import FinanceAccounting.Kernel.PolicySelector
import FinanceAccounting.Library.DecimalSums
import FinanceAccounting.Library.Traversals

/-! # What the links of an artifact consume

`get_unconsumed_value` adds up the amounts that the metadata of the child links hold and subtracts
them from an original amount.  A value that `Decimal` does not read raises `InvalidOperation`,
which is neither of the two exceptions that are caught; what it reads need not be a number of
finite size.

`getUnconsumedValue_exact_iff`: the call returns the original amount less the amounts that are
numbers exactly where every value under the key is one and the arithmetic is exact. -/

namespace FinanceAccounting.LinkGraph

open Hashing (PyVal)
open PolicySelector (Builtins)

/-! ### The service -/

/-- An amount with its currency; `Money` keeps NaNs and infinities too. -/
structure MoneyValue where
  amount : Decimal
  currency : String

structure UnconsumedValue where
  artifactRef : ArtifactRef
  originalAmount : MoneyValue
  consumedAmount : MoneyValue
  remainingAmount : MoneyValue
  childCount : ℕ

/-- `get_children`; an empty set of types restricts nothing. -/
def childrenOf (table : LinkTable) (parentRef : ArtifactRef) (linkTypes : List LinkType) :
    LinkTable :=
  table.filter fun l =>
    l.parentRef = parentRef && (linkTypes.isEmpty || linkTypes.contains l.linkType)

/-- The types that consume, unless others are given. -/
def consumingTypes : List LinkType := [.paidBy, .allocatedTo, .consumedBy]

/-- The value under the key, where there are metadata that have it. -/
def metadataValue (key : String) (link : EconomicLink) : Option PyVal :=
  link.metadata.bind fun metadata => metadata.lookup key

/-- One round of the loop. -/
def addConsumed (b : Builtins) (ctx : Decimal.Context) (key : String) (total : Decimal)
    (link : EconomicLink) : Except Decimal.Signal Decimal :=
  match metadataValue key link with
  | none => .ok total
  | some v =>
      match b.decimal (b.str v) with
      | none => .error .invalidOperation
      | some amount => Decimal.add ctx total amount

/-- `get_unconsumed_value`. -/
def getUnconsumedValue (b : Builtins) (ctx : Decimal.Context) (table : LinkTable)
    (parentRef : ArtifactRef) (originalAmount : MoneyValue)
    (linkTypes : Option (List LinkType)) (amountMetadataKey : String) :
    Except Decimal.Signal UnconsumedValue := do
  let children := childrenOf table parentRef (linkTypes.getD consumingTypes)
  let consumedTotal ← children.foldlM (addConsumed b ctx amountMetadataKey) (.finite false 0 0)
  let remaining ← Decimal.sub ctx originalAmount.amount consumedTotal
  pure
    { artifactRef := parentRef
      originalAmount
      consumedAmount := ⟨consumedTotal, originalAmount.currency⟩
      remainingAmount := ⟨remaining, originalAmount.currency⟩
      childCount := children.length }

/-! ### Amounts -/

section Laws

variable {b : Builtins} {ctx : Decimal.Context} {key : String} {links : List EconomicLink}

/-- What the values under the key are read as. -/
def readAmounts (b : Builtins) (key : String) (links : List EconomicLink) : List Decimal :=
  links.filterMap fun l => (metadataValue key l).bind fun v => b.decimal (b.str v)

/-- The valid amounts among them: those that are numbers. -/
def validAmounts (b : Builtins) (key : String) (links : List EconomicLink) : List Decimal :=
  (readAmounts b key links).filter fun a => a.IsFinite

/-- Every value under the key is read as a number. -/
def AllNumbers (b : Builtins) (key : String) (links : List EconomicLink) : Prop :=
  ∀ l ∈ links, ∀ v ∈ metadataValue key l, ∃ a ∈ b.decimal (b.str v), a.IsFinite

/-- The amounts, added one after the other and subtracted from an original amount, come to what
they are worth. -/
def ExactDifference (ctx : Decimal.Context) (original : Decimal) (amounts : List Decimal) : Prop :=
  ∃ total remaining, Decimal.sum ctx amounts = .ok total ∧
    Decimal.sub ctx original total = .ok remaining ∧ remaining.IsFinite ∧
    remaining.toRat = original.toRat - (amounts.map Decimal.toRat).sum

/-- The loop adds what is read, up to the first value that is not. -/
theorem foldlM_addConsumed_eq_ok_iff {acc total : Decimal} :
    links.foldlM (addConsumed b ctx key) acc = .ok total ↔
      (∀ l ∈ links, ∀ v ∈ metadataValue key l, (b.decimal (b.str v)).isSome = true) ∧
        (readAmounts b key links).foldlM (Decimal.add ctx) acc = .ok total := by
  induction links generalizing acc with
  | nil => simp [readAmounts]
  | cons l links ih =>
      rw [List.foldlM_cons, List.forall_mem_cons]
      unfold addConsumed readAmounts
      cases hvalue : metadataValue key l with
      | none =>
          rw [List.filterMap_cons_none (by rw [hvalue]; rfl)]
          refine Iff.trans ih ?_
          simp [readAmounts]
      | some v =>
          dsimp only
          cases hread : b.decimal (b.str v) with
          | none =>
              refine iff_of_false (fun h => (nomatch h)) fun h => ?_
              have := h.1.1 v rfl
              rw [hread] at this
              cases this
          | some amount =>
              rw [List.filterMap_cons_some (by rw [hvalue]; exact hread), List.foldlM_cons]
              dsimp only
              cases Decimal.add ctx acc amount with
              | error e => exact iff_of_false (fun h => (nomatch h)) fun h => (nomatch h.2)
              | ok next =>
                  refine Iff.trans ih (and_congr ?_ Iff.rfl)
                  simp [hread]

theorem validAmounts_eq (h : AllNumbers b key links) :
    validAmounts b key links = readAmounts b key links := by
  unfold validAmounts
  rw [List.filter_eq_self]
  intro a ha
  obtain ⟨l, hl, hread⟩ := List.mem_filterMap.1 ha
  obtain ⟨v, hv, hdecimal⟩ := Option.bind_eq_some_iff.1 hread
  obtain ⟨a', ha', hfinite⟩ := h l hl v hv
  obtain rfl : a = a' := Option.some.inj (hdecimal.symm.trans ha')
  exact decide_eq_true hfinite

theorem allNumbers_of_readAmounts
    (hread : ∀ l ∈ links, ∀ v ∈ metadataValue key l, (b.decimal (b.str v)).isSome = true)
    (hfinite : ∀ a ∈ readAmounts b key links, a.IsFinite) : AllNumbers b key links := by
  intro l hl v hv
  obtain ⟨a, ha⟩ := Option.isSome_iff_exists.1 (hread l hl v hv)
  refine ⟨a, ha, hfinite a (List.mem_filterMap.2 ⟨l, hl, ?_⟩)⟩
  rw [hv]
  exact ha

end Laws

/-! ### What remains -/

section Remainder

variable (b : Builtins) (ctx : Decimal.Context) (table : LinkTable) (parentRef : ArtifactRef)
variable (originalAmount : MoneyValue) (linkTypes : Option (List LinkType)) (key : String)

/-- The call returns the original amount less the valid amounts of the links. -/
def ReturnsRemainder : Prop :=
  ∃ value, getUnconsumedValue b ctx table parentRef originalAmount linkTypes key = .ok value ∧
    value.remainingAmount.amount.IsFinite ∧
    value.remainingAmount.amount.toRat = originalAmount.amount.toRat -
      ((validAmounts b key (childrenOf table parentRef (linkTypes.getD consumingTypes))).map
        Decimal.toRat).sum

/-- **What remains is the original amount less the valid amounts** exactly where every value under
the key is a number and the arithmetic is exact on them. -/
theorem getUnconsumedValue_exact_iff :
    ReturnsRemainder b ctx table parentRef originalAmount linkTypes key ↔
      AllNumbers b key (childrenOf table parentRef (linkTypes.getD consumingTypes)) ∧
        ExactDifference ctx originalAmount.amount
          (validAmounts b key (childrenOf table parentRef (linkTypes.getD consumingTypes))) := by
  unfold ReturnsRemainder getUnconsumedValue
  dsimp only
  generalize childrenOf table parentRef (linkTypes.getD consumingTypes) = children
  constructor
  · rintro ⟨value, hvalue, hfinite, hexact⟩
    obtain ⟨total, htotal, hvalue⟩ := Traversals.bind_eq_ok.1 hvalue
    obtain ⟨remaining, hremaining, hvalue⟩ := Traversals.bind_eq_ok.1 hvalue
    obtain rfl := Except.ok.inj hvalue
    obtain ⟨hread, hsum⟩ := foldlM_addConsumed_eq_ok_iff.1 htotal
    have htotal' := (Decimal.isFinite_of_sub hremaining hfinite).2
    have hall := allNumbers_of_readAmounts hread (Decimal.isFinite_of_foldlM_add hsum htotal').2
    rw [validAmounts_eq hall] at hexact ⊢
    exact ⟨hall, total, remaining, hsum, hremaining, hfinite, hexact⟩
  · rintro ⟨hall, total, remaining, hsum, hremaining, hfinite, hexact⟩
    rw [validAmounts_eq hall] at hsum
    have htotal := foldlM_addConsumed_eq_ok_iff.2 ⟨fun l hl v hv => ?_, hsum⟩
    · rw [htotal]
      refine ⟨⟨parentRef, originalAmount, ⟨total, originalAmount.currency⟩,
        ⟨remaining, originalAmount.currency⟩, children.length⟩, ?_, hfinite, hexact⟩
      · show (Decimal.sub ctx originalAmount.amount total >>= _) = _
        rw [hremaining]
        rfl
    · obtain ⟨a, ha, -⟩ := hall l hl v hv
      exact Option.isSome_iff_exists.2 ⟨a, ha⟩

end Remainder

/-- What `str` and `Decimal` do with texts that metadata may hold. -/
def sampleBuiltins : Builtins where
  str
    | .scalar (.str s) => s
    | _ => ""
  decimal s :=
    if s = "400.00" then some (.finite false 40000 (-2))
    else if s = "NaN" then some (.nan false false 0)
    else none

/-- A link of an invoice to its payment, with metadata. -/
def paymentLink (metadata : List (String × PyVal)) : EconomicLink where
  linkId := ⟨1⟩
  linkType := .paidBy
  parentRef := ⟨.invoice, ⟨2⟩⟩
  childRef := ⟨.payment, ⟨3⟩⟩
  creatingEventId := ⟨4⟩
  createdAt := sampleTime
  metadata := some metadata
  parent_ne_child := by decide
  typesAllowed := by
    intro spec hspec
    obtain rfl := Option.some.inj hspec
    exact ⟨by decide, by decide⟩

/-- A text that is no number raises. -/
theorem not_returnsRemainder :
    ¬ReturnsRemainder sampleBuiltins Hashing.defaultContext
      [paymentLink [("amount_applied", .scalar (.str "n/a"))]] ⟨.invoice, ⟨2⟩⟩
      ⟨.finite false 100000 (-2), "USD"⟩ none "amount_applied" := by
  rintro ⟨value, hvalue, -⟩
  have herror : (getUnconsumedValue sampleBuiltins Hashing.defaultContext
      [paymentLink [("amount_applied", .scalar (.str "n/a"))]] ⟨.invoice, ⟨2⟩⟩
      ⟨.finite false 100000 (-2), "USD"⟩ none "amount_applied").toOption.isSome = false := by
    decide +kernel
  rw [hvalue] at herror
  cases herror

end FinanceAccounting.LinkGraph
