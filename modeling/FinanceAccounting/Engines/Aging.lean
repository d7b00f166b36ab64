import FinanceAccounting.Library.Intervals
import FinanceAccounting.Engines.Matching

/-! # The aging engine

`AgingCalculator` computes the age of a document in days, classifies it into a bucket, and collects the
aged items in a report; `AgingReport` adds their amounts up, in all, by bucket and by counterparty.
Ages before the first day go into the first bucket that starts at zero.  Adding amounts of different
currencies raises. -/

namespace FinanceAccounting.Aging

open Matching (DocumentId)
open Valuation (Money)

/-- A range of days that passed `__post_init__`. -/
structure AgeBucket where
  name : String
  minDays : ℤ
  maxDays : Option ℤ
  minDays_nonneg : 0 ≤ minDays
  minDays_le : ∀ m ∈ maxDays, minDays ≤ m
deriving DecidableEq, Repr

def AgeBucket.contains (bucket : AgeBucket) (ageDays : ℤ) : Bool :=
  if ageDays < bucket.minDays then false
  else
    match bucket.maxDays with
    | none => true
    | some maxDays => decide (ageDays ≤ maxDays)

/-- A bounded bucket. -/
def bounded (name : String) (minDays maxDays : ℤ) (hmin : 0 ≤ minDays := by decide)
    (hmax : minDays ≤ maxDays := by decide) : AgeBucket :=
  ⟨name, minDays, some maxDays, hmin, fun _ hm => Option.some.inj hm ▸ hmax⟩

/-- A bucket without an upper limit. -/
def unbounded (name : String) (minDays : ℤ) (hmin : 0 ≤ minDays := by decide) : AgeBucket :=
  ⟨name, minDays, none, hmin, fun _ hm => nomatch hm⟩

/-- `STANDARD_BUCKETS`. -/
def standardBuckets : List AgeBucket :=
  [bounded "Current" 0 0, bounded "1-30" 1 30, bounded "31-60" 31 60, bounded "61-90" 61 90,
    unbounded "Over 90" 91]

structure AgedItem where
  documentId : DocumentId
  documentType : String
  documentDate : Date
  dueDate : Option Date
  amount : Money
  ageDays : ℤ
  bucket : AgeBucket
  counterpartyId : Option DocumentId := none
  counterpartyName : Option String := none
  reference : Option String := none
  dimensions : List (String × String) := []
deriving DecidableEq, Repr

/-- A document with the keys that `generate_report_from_documents` reads. -/
structure Document where
  documentId : DocumentId
  documentType : String
  documentDate : Date
  amount : Money
  dueDate : Option Date := none
  counterpartyId : Option DocumentId := none
  counterpartyName : Option String := none
  reference : Option String := none
  dimensions : Option (List (String × String)) := none
deriving DecidableEq, Repr

structure AgingReport where
  asOfDate : Date
  buckets : List AgeBucket
  items : List AgedItem
  reportType : String := "standard"
  currency : Option String := none
deriving DecidableEq, Repr

inductive AgingError where
  | noBucket (ageDays : ℤ)
  | differentCurrencies (left right : String)
  | indexError
  | keyError (name : String)
deriving DecidableEq, Repr

/-! ### Classification -/

def calculateAge (documentDate asOfDate : Date) (dueDate : Option Date) (useDueDate : Bool) : ℤ :=
  let referenceDate := if useDueDate then dueDate.getD documentDate else documentDate
  (asOfDate.toordinal : ℤ) - referenceDate.toordinal

def classify (ageDays : ℤ) (buckets : Option (List AgeBucket)) : Except AgingError AgeBucket :=
  let buckets := buckets.getD standardBuckets
  if ageDays < 0 then
    match buckets.find? (·.minDays == 0) with
    | some bucket => .ok bucket
    | none =>
        match buckets.head? with
        | some bucket => .ok bucket
        | none => .error .indexError
  else
    match buckets.find? (·.contains ageDays) with
    | some bucket => .ok bucket
    | none => .error (.noBucket ageDays)

/-- `age_item`. -/
def ageItem (doc : Document) (asOfDate : Date) (buckets : Option (List AgeBucket)) (useDueDate : Bool) :
    Except AgingError AgedItem := do
  let ageDays := calculateAge doc.documentDate asOfDate doc.dueDate useDueDate
  let bucket ← classify ageDays buckets
  return {
    documentId := doc.documentId
    documentType := doc.documentType
    documentDate := doc.documentDate
    dueDate := doc.dueDate
    amount := doc.amount
    ageDays := ageDays
    bucket := bucket
    counterpartyId := doc.counterpartyId
    counterpartyName := doc.counterpartyName
    reference := doc.reference
    dimensions := doc.dimensions.getD [] }

/-- `generate_report`. -/
def generateReport (items : List AgedItem) (asOfDate : Date) (buckets : Option (List AgeBucket))
    (reportType : String) : AgingReport where
  asOfDate := asOfDate
  buckets := buckets.getD standardBuckets
  items := items
  reportType := reportType
  currency := items.head?.map (·.amount.currency)

/-- `generate_report_from_documents`. -/
def generateReportFromDocuments (documents : List Document) (asOfDate : Date)
    (buckets : Option (List AgeBucket)) (reportType : String) (useDueDate : Bool) :
    Except AgingError AgingReport := do
  let buckets := buckets.getD standardBuckets
  let agedItems ← documents.mapM fun doc => ageItem doc asOfDate (some buckets) useDueDate
  return generateReport agedItems asOfDate (some buckets) reportType

/-! ### Totals -/

section Totals

variable (ctx : Decimal.Context)

/-- `Money.__add__`. -/
def addMoney (x y : Money) : Except AgingError Money :=
  if x.currency = y.currency then .ok ⟨ctx.round (x.amount + y.amount), x.currency⟩
  else .error (.differentCurrencies x.currency y.currency)

/-- The amounts of items on top of a total. -/
def addItems (total : Money) (items : List AgedItem) : Except AgingError Money :=
  items.foldlM (fun total item => addMoney ctx total item.amount) total

variable (report : AgingReport)

/-- `total_amount`. -/
def AgingReport.totalAmount : Except AgingError Money :=
  match report.items with
  | [] => .ok ⟨0, report.currency.getD "USD"⟩
  | item :: items => addItems ctx item.amount items

/-- The total of a bucket. -/
def bucketTotal (currency : String) (items : List AgedItem) (bucket : AgeBucket) :
    Except AgingError Money :=
  match items.filter fun i => i.bucket.name = bucket.name with
  | [] => .ok ⟨0, currency⟩
  | item :: items => addItems ctx item.amount items

/-- `total_by_bucket`. -/
def AgingReport.totalByBucket : Except AgingError (List (String × Money)) :=
  match report.items with
  | [] => .ok []
  | first :: _ =>
      report.buckets.foldlM (fun result bucket => do
        let total ← bucketTotal ctx first.amount.currency report.items bucket
        return Dicts.setItem result bucket.name total) []

/-- The totals of a counterparty that has none yet. -/
def emptyTotals (currency : String) (buckets : List AgeBucket) : List (String × Money) :=
  buckets.foldl (fun result bucket => Dicts.setItem result bucket.name ⟨0, currency⟩) []

/-- Add an item to the totals of its counterparty. -/
def addToCounterparty (currency : String) (buckets : List AgeBucket)
    (result : List (DocumentId × List (String × Money))) (item : AgedItem) :
    Except AgingError (List (DocumentId × List (String × Money))) :=
  match item.counterpartyId with
  | none => .ok result
  | some counterparty => do
      let totals := (Dicts.get? result counterparty).getD (emptyTotals currency buckets)
      let current ←
        match Dicts.get? totals item.bucket.name with
        | none => throw (.keyError item.bucket.name)
        | some current => pure current
      let total ← addMoney ctx current item.amount
      return Dicts.setItem result counterparty (Dicts.setItem totals item.bucket.name total)

/-- `total_by_counterparty`. -/
def AgingReport.totalByCounterparty :
    Except AgingError (List (DocumentId × List (String × Money))) :=
  match report.items with
  | [] => .ok []
  | first :: _ =>
      report.items.foldlM (addToCounterparty ctx first.amount.currency report.buckets) []

def AgingReport.itemsInBucket (bucketName : String) : List AgedItem :=
  report.items.filter fun i => i.bucket.name = bucketName

def AgingReport.itemsForCounterparty (counterpartyId : DocumentId) : List AgedItem :=
  report.items.filter fun i => i.counterpartyId = some counterpartyId

end Totals

end FinanceAccounting.Aging
