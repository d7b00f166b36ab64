import FinanceAccounting.Library.Dicts
import FinanceAccounting.Library.Ranking
import FinanceAccounting.Engines.Variance

/-! # The matching engine

`find_matches` scores every candidate against a target: the score starts at a hundred, a required
dimension that differs sets it to zero, differences beyond the tolerance take points off, and equal
references add ten.  `create_match` matches the least amount of several documents and keeps what is
unmatched of each under its document id.  The texts of the notes are left out, not their data. -/

namespace FinanceAccounting.Matching

open Valuation (Money)
open Variance (VarianceResult priceVariance quantityVariance)

inductive MatchType where
  | threeWay
  | twoWay
  | shipment
  | bank
  | custom
deriving DecidableEq, Repr

inductive MatchStatus where
  | pending
  | partially
  | matched
  | variance
  | rejected
deriving DecidableEq, Repr

inductive ToleranceType where
  | absolute
  | percent
deriving DecidableEq, Repr

structure MatchTolerance where
  amountTolerance : ℚ := 1 / 100
  amountToleranceType : ToleranceType := .absolute
  quantityTolerance : ℚ := 0
  quantityToleranceType : ToleranceType := .absolute
  dateToleranceDays : ℤ := 0
  requireSameVendor : Bool := true
  requireSameItem : Bool := true
  requireSameCurrency : Bool := true
deriving DecidableEq, Repr

/-- `str | UUID`. -/
inductive DocumentId where
  | text (value : String)
  | uuid (value : UUID)
deriving DecidableEq, Repr

structure MatchCandidate where
  documentType : String
  documentId : DocumentId
  lineId : Option DocumentId := none
  reference : String := ""
  amount : Option Money := none
  quantity : Option ℚ := none
  date : Option Date := none
  dimensions : List (String × String) := []
deriving DecidableEq, Repr

def MatchCandidate.vendorId (doc : MatchCandidate) : Option String :=
  Dicts.get? doc.dimensions "vendor_id"

def MatchCandidate.itemId (doc : MatchCandidate) : Option String :=
  Dicts.get? doc.dimensions "item_id"

inductive MatchNote where
  | vendorMismatch
  | itemMismatch
  | currencyMismatch
  | amountDiffers (difference : Money)
  | amountDiffersPercent (percent : ℚ)
  | quantityDiffers (difference : ℚ)
  | quantityDiffersPercent (percent : ℚ)
  | datesDiffer (days : ℕ)
  | referenceMatch
deriving DecidableEq, Repr

structure MatchSuggestion where
  target : MatchCandidate
  candidate : MatchCandidate
  score : ℚ
  amountDifference : Option Money
  quantityDifference : Option ℚ
  dateDifferenceDays : Option ℕ
  isWithinTolerance : Bool
  notes : List MatchNote
deriving DecidableEq, Repr

structure MatchResult where
  matchId : UUID
  matchType : MatchType
  status : MatchStatus
  documents : List MatchCandidate
  matchedAmount : Money
  matchedQuantity : Option ℚ
  priceVariance : Option VarianceResult
  quantityVariance : Option VarianceResult
  unmatched : List (DocumentId × Money)
  createdAt : Option Date := none
deriving DecidableEq, Repr

inductive MatchError where
  | tooFewDocuments
  | currencyMismatch (currencies : List String)
  | noAmounts
  | variance (e : Variance.VarianceError)
deriving DecidableEq, Repr

/-! ### Scores -/

/-- The local variables of `_evaluate_match`. -/
structure Evaluation where
  score : ℚ := 100
  notes : List MatchNote := []
  isWithinTolerance : Bool := true
deriving DecidableEq, Repr

/-- A required dimension differs. -/
def Evaluation.reject (e : Evaluation) (note : MatchNote) : Evaluation where
  score := 0
  notes := e.notes ++ [note]
  isWithinTolerance := false

section Scores

variable (ctx : Decimal.Context) (tolerance : MatchTolerance) (target candidate : MatchCandidate)

/-- A difference takes points off. -/
def Evaluation.deduct (e : Evaluation) (points : ℚ) (note : MatchNote) : Evaluation where
  score := ctx.round (e.score - points)
  notes := e.notes ++ [note]
  isWithinTolerance := false

/-- A difference in percent of a base. -/
def percentOf (difference base : ℚ) : ℚ := ctx.round (ctx.round (|difference| / base) * 100)

/-- A difference is beyond a tolerance; nothing is beyond a percentage of zero. -/
def IsBeyond (toleranceType : ToleranceType) (limit base difference : ℚ) : Prop :=
  match toleranceType with
  | .absolute => limit < |difference|
  | .percent => base ≠ 0 ∧ limit < percentOf ctx difference base

instance (toleranceType : ToleranceType) (limit base difference : ℚ) :
    Decidable (IsBeyond ctx toleranceType limit base difference) :=
  match toleranceType with
  | .absolute => inferInstanceAs (Decidable (_ < _))
  | .percent => inferInstanceAs (Decidable (_ ∧ _))

def amountNote (toleranceType : ToleranceType) (difference : Money) (base : ℚ) : MatchNote :=
  match toleranceType with
  | .absolute => .amountDiffers difference
  | .percent => .amountDiffersPercent (percentOf ctx difference.amount base)

def quantityNote (toleranceType : ToleranceType) (difference base : ℚ) : MatchNote :=
  match toleranceType with
  | .absolute => .quantityDiffers difference
  | .percent => .quantityDiffersPercent (percentOf ctx difference base)

def checkVendor (e : Evaluation) : Evaluation :=
  if tolerance.requireSameVendor ∧ target.vendorId ≠ candidate.vendorId then e.reject .vendorMismatch
  else e

def checkItem (e : Evaluation) : Evaluation :=
  if tolerance.requireSameItem ∧ target.itemId ≠ candidate.itemId then e.reject .itemMismatch
  else e

/-- The amounts are compared if the same currency is required. -/
def checkAmounts (e : Evaluation) : Evaluation × Option Money :=
  match target.amount, candidate.amount with
  | some t, some c =>
      if tolerance.requireSameCurrency then
        if t.currency ≠ c.currency then (e.reject .currencyMismatch, none)
        else
          let difference : Money := ⟨ctx.round (t.amount - c.amount), t.currency⟩
          if IsBeyond ctx tolerance.amountToleranceType tolerance.amountTolerance t.amount
              difference.amount then
            (e.deduct ctx 30 (amountNote ctx tolerance.amountToleranceType difference t.amount),
              some difference)
          else (e, some difference)
      else (e, none)
  | _, _ => (e, none)

def checkQuantities (e : Evaluation) : Evaluation × Option ℚ :=
  match target.quantity, candidate.quantity with
  | some t, some c =>
      let difference := ctx.round (t - c)
      if IsBeyond ctx tolerance.quantityToleranceType tolerance.quantityTolerance t difference then
        (e.deduct ctx 20 (quantityNote ctx tolerance.quantityToleranceType difference t),
          some difference)
      else (e, some difference)
  | _, _ => (e, none)

/-- Dates take points off, but are a soft constraint. -/
def checkDates (e : Evaluation) : Evaluation × Option ℕ :=
  match target.date, candidate.date with
  | some t, some c =>
      let difference := ((t.toordinal : ℤ) - c.toordinal).natAbs
      if tolerance.dateToleranceDays < difference then
        ({ e with score := ctx.round (e.score - 10), notes := e.notes ++ [.datesDiffer difference] },
          some difference)
      else (e, some difference)
  | _, _ => (e, none)

/-- The bonus for equal references. -/
def checkReferences (e : Evaluation) : Evaluation :=
  if target.reference ≠ "" ∧ candidate.reference ≠ "" ∧ target.reference = candidate.reference then
    { e with score := ctx.round (e.score + 10), notes := e.notes ++ [.referenceMatch] }
  else e

/-- `_evaluate_match`. -/
def evaluateMatch : MatchSuggestion :=
  let rejected := checkItem tolerance target candidate (checkVendor tolerance target candidate {})
  let (amounts, amountDifference) := checkAmounts ctx tolerance target candidate rejected
  let (quantities, quantityDifference) := checkQuantities ctx tolerance target candidate amounts
  let (dates, dateDifference) := checkDates ctx tolerance target candidate quantities
  let e := checkReferences ctx target candidate dates
  { target := target
    candidate := candidate
    score := max 0 (min 100 e.score)
    amountDifference := amountDifference
    quantityDifference := quantityDifference
    dateDifferenceDays := dateDifference
    isWithinTolerance := e.isWithinTolerance
    notes := e.notes }

/-- `find_matches`. -/
def findMatches (candidates : List MatchCandidate) : List MatchSuggestion :=
  Ranking.descending (·.score)
    ((candidates.map (evaluateMatch ctx tolerance target)).filter fun s => 0 < s.score)

end Scores

/-! ### Matches -/

section Matches

variable (ctx : Decimal.Context) (documents : List MatchCandidate)

def MatchCandidate.unitPrice (doc : MatchCandidate) : Option Money :=
  match doc.amount, doc.quantity with
  | some amount, some quantity =>
      if quantity = 0 then none else some ⟨ctx.round (amount.amount / quantity), amount.currency⟩
  | _, _ => none

/-- `_calculate_price_variance`: of the last unit price to the first. -/
def calculatePriceVariance (matchedQuantity : Option ℚ) :
    Except MatchError (Option VarianceResult) :=
  let prices := documents.filterMap (·.unitPrice ctx)
  match prices.head?, prices.getLast?, matchedQuantity with
  | some expected, some actual, some quantity =>
      if prices.length < 2 then .ok none
      else if expected.currency ≠ actual.currency then .ok none
      else if expected = actual then .ok none
      else
        match priceVariance ctx expected actual quantity with
        | .ok result => .ok (some result)
        | .error e => .error (.variance e)
  | _, _, _ => .ok none

/-- `_calculate_quantity_variance`: of the last quantity to the first, at the first unit price. -/
def calculateQuantityVariance : Option VarianceResult :=
  let quantities := documents.filterMap (·.quantity)
  match quantities.head?, quantities.getLast?, (documents.filterMap (·.unitPrice ctx)).head? with
  | some expected, some actual, some price =>
      if quantities.length < 2 then none
      else if expected = actual then none
      else some (quantityVariance ctx expected actual price)
  | _, _, _ => none

/-- What is unmatched of a document goes under its id, unless it is nothing. -/
def recordUnmatched (matched : Money) (unmatched : List (DocumentId × Money)) (doc : MatchCandidate) :
    List (DocumentId × Money) :=
  match doc.amount with
  | none => unmatched
  | some amount =>
      let remainder : Money := ⟨ctx.round (amount.amount - matched.amount), amount.currency⟩
      if remainder.amount = 0 then unmatched
      else Dicts.setItem unmatched doc.documentId remainder

/-- `min` of the amounts. -/
def leastAmount (first : ℚ) (rest : List Money) : ℚ := rest.foldl (fun least m => min least m.amount) first

/-- `create_match`. -/
def createMatch (matchId : UUID) (matchType : MatchType) (asOfDate : Date) :
    Except MatchError MatchResult :=
  if documents.length < 2 then .error .tooFewDocuments
  else
    let amounts := documents.filterMap (·.amount)
    match amounts with
    | [] => .error .noAmounts
    | first :: rest =>
        if rest.any (·.currency ≠ first.currency) then
          .error (.currencyMismatch (amounts.map (·.currency)))
        else do
          let matched : Money := ⟨leastAmount first.amount rest, first.currency⟩
          let matchedQuantity := (documents.filterMap (·.quantity)).min?
          let price ← calculatePriceVariance ctx documents matchedQuantity
          let quantity := calculateQuantityVariance ctx documents
          let unmatched := documents.foldl (recordUnmatched ctx matched) []
          return {
            matchId := matchId
            matchType := matchType
            status :=
              if unmatched ≠ [] then .partially
              else if price.isSome ∨ quantity.isSome then .variance
              else .matched
            documents := documents
            matchedAmount := matched
            matchedQuantity := matchedQuantity
            priceVariance := price
            quantityVariance := quantity
            unmatched := unmatched
            createdAt := some asOfDate }

end Matches

end FinanceAccounting.Matching
