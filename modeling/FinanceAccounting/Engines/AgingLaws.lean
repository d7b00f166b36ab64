import FinanceAccounting.Library.KeyedSums
import FinanceAccounting.Library.RoundingErrors
import FinanceAccounting.Library.Traversals
import FinanceAccounting.Engines.Aging

/-! # What an aging report adds up to

Buckets that are contiguous from the first day cover every age once, so a document falls into exactly
one (`classify_eq_ok`).  Where the amounts are of one currency and their digits fit, adding them up
loses nothing; the totals of the buckets are then sums over the items by bucket name, and make up the
whole (`sum_totals`).  The totals of the counterparties are such sums over the items of each, as the
loop over the items keeps (`counterpartyTotals_step`). -/

namespace FinanceAccounting.Aging

open Intervals (Interval Contiguous Reaches)
open Matching (DocumentId)
open Traversals (bind_eq_ok)
open Valuation (Money)

/-! ### Buckets -/

def AgeBucket.interval (bucket : AgeBucket) : Interval := ⟨bucket.minDays, bucket.maxDays⟩

/-- The buckets start at the first day and follow one another, under names of their own. -/
structure WellOrdered (buckets : List AgeBucket) : Prop where
  contiguous : Contiguous 0 (buckets.map (·.interval))
  names : (buckets.map (·.name)).Nodup

theorem wellOrdered_standardBuckets : WellOrdered standardBuckets :=
  ⟨⟨rfl, 0, rfl, rfl, 30, rfl, rfl, 60, rfl, rfl, 90, rfl, rfl⟩, by decide⟩

section Buckets

variable {buckets : List AgeBucket} {bucket : AgeBucket} {ageDays : ℤ}

theorem contains_iff : bucket.contains ageDays ↔ bucket.interval.Contains ageDays := by
  unfold AgeBucket.contains Interval.Contains AgeBucket.interval
  by_cases hmin : ageDays < bucket.minDays
  · rw [if_pos hmin]
    constructor
    · exact fun h => Bool.noConfusion h
    · exact fun h => absurd h.1 (not_le.mpr hmin)
  · rw [if_neg hmin]
    cases hmax : bucket.maxDays with
    | none => exact ⟨fun _ => ⟨not_lt.mp hmin, fun m hm => nomatch hm⟩, fun _ => rfl⟩
    | some m =>
        show decide (ageDays ≤ m) = true ↔ _
        rw [decide_eq_true_iff]
        constructor
        · intro h
          exact ⟨not_lt.mp hmin, fun n hn => Option.some.inj hn ▸ h⟩
        · exact fun h => h.2 m rfl

/-- No age is in two buckets. -/
theorem unique_bucket (h : Contiguous 0 (buckets.map (·.interval))) {other : AgeBucket}
    (hbucket : bucket ∈ buckets) (hother : other ∈ buckets) (hcontains : bucket.contains ageDays)
    (hother' : other.contains ageDays) : other = bucket := by
  by_contra hne
  have hbounds : ∀ i ∈ buckets.map (·.interval), ∀ m ∈ i.upper, i.lower ≤ m := by
    intro i hi
    obtain ⟨b, -, rfl⟩ := List.mem_map.mp hi
    exact b.minDays_le
  have hdisjoint := List.pairwise_map.mp (Intervals.pairwise_disjoint h hbounds)
  have hsymm : Std.Symm fun b c : AgeBucket =>
      ∀ x, b.interval.Contains x → ¬c.interval.Contains x := ⟨fun _ _ hij x hj hi => hij x hi hj⟩
  exact hdisjoint.forall hbucket hother (Ne.symm hne) ageDays (contains_iff.mp hcontains)
    (contains_iff.mp hother')

/-- **A document falls into exactly one bucket**, the first one if it is not due. -/
theorem classify_eq_ok (h : Contiguous 0 (buckets.map (·.interval)))
    (hreaches : Reaches (buckets.map (·.interval)) ageDays) :
    ∃ bucket ∈ buckets, classify ageDays (some buckets) = .ok bucket ∧
      bucket.contains (max ageDays 0) ∧
      ∀ other ∈ buckets, other.contains (max ageDays 0) → other = bucket := by
  unfold classify
  by_cases hneg : ageDays < 0
  · obtain ⟨first, rest, rfl⟩ : ∃ first rest, buckets = first :: rest := by
      cases buckets with
      | nil => exact h.elim
      | cons first rest => exact ⟨first, rest, rfl⟩
    have hzero : first.minDays = 0 := by
      cases rest with
      | nil => exact h
      | cons next rest => exact h.1
    have hcontains : first.contains 0 :=
      contains_iff.mpr ⟨hzero.le, fun m hm => hzero ▸ first.minDays_le m hm⟩
    have hfind : (first :: rest).find? (·.minDays == 0) = some first :=
      List.find?_cons_of_pos (beq_iff_eq.mpr hzero)
    refine ⟨first, List.mem_cons_self, ?_, ?_, fun other hother hin => ?_⟩
    · simp only [Option.getD_some, if_pos hneg, hfind]
    · rw [max_eq_right hneg.le]
      exact hcontains
    · rw [max_eq_right hneg.le] at hin
      exact unique_bucket h List.mem_cons_self hother hcontains hin
  · obtain ⟨i, hi, hcontains⟩ := Intervals.exists_contains h (not_lt.mp hneg) hreaches
    obtain ⟨b, hb, rfl⟩ := List.mem_map.mp hi
    cases hfind : buckets.find? (·.contains ageDays) with
    | none => exact absurd (contains_iff.mpr hcontains) (List.find?_eq_none.mp hfind b hb)
    | some bucket =>
        have hin : bucket.contains ageDays := by
          have hfound := List.find?_some hfind
          exact hfound
        refine ⟨bucket, List.mem_of_find?_eq_some hfind, ?_, ?_, fun other hother hin' => ?_⟩
        · simp only [Option.getD_some, if_neg hneg, hfind]
        · rw [max_eq_left (not_lt.mp hneg)]
          exact hin
        · rw [max_eq_left (not_lt.mp hneg)] at hin'
          exact unique_bucket h (List.mem_of_find?_eq_some hfind) hother hin hin'

end Buckets

/-! ### Sums -/

def amountOf (items : List AgedItem) : ℚ := (items.map (·.amount.amount)).sum

/-- The amounts are of one currency, and the digits fit what they add up to. -/
structure AddsUp (ctx : Decimal.Context) (places : ℕ) (currency : String) (items : List AgedItem) :
    Prop where
  currencies : ∀ item ∈ items, item.amount.currency = currency
  hasPlaces : ∀ item ∈ items, Decimal.HasPlaces places item.amount.amount
  digits : (items.map fun i => |i.amount.amount|).sum * 10 ^ places < 10 ^ ctx.prec

/-- The totals of some items by bucket. -/
def totalsOf (currency : String) (buckets : List AgeBucket) (items : List AgedItem) :
    List (String × Money) :=
  buckets.map fun b => (b.name, ⟨amountOf (items.filter fun i => i.bucket.name = b.name), currency⟩)

section Sums

variable {ctx : Decimal.Context} {places : ℕ} {currency : String} {items more : List AgedItem}
variable {item : AgedItem} {buckets : List AgeBucket} {bucket : AgeBucket}

theorem amountOf_append (items more : List AgedItem) :
    amountOf (items ++ more) = amountOf items + amountOf more := by
  unfold amountOf
  rw [List.map_append, List.sum_append]

theorem AddsUp.sublist (h : AddsUp ctx places currency items) (hsub : more.Sublist items) :
    AddsUp ctx places currency more := by
  refine ⟨fun i hi => h.currencies i (hsub.subset hi), fun i hi => h.hasPlaces i (hsub.subset hi), ?_⟩
  refine lt_of_le_of_lt (mul_le_mul_of_nonneg_right ?_ (by positivity)) h.digits
  refine (hsub.map _).sum_le_sum fun x hx => ?_
  obtain ⟨i, -, rfl⟩ := List.mem_map.mp hx
  exact abs_nonneg _

/-- What they add up to is not rounded. -/
theorem AddsUp.round_amountOf (h : AddsUp ctx places currency items) :
    ctx.round (amountOf items) = amountOf items := by
  have hplaces : Decimal.HasPlaces places (amountOf items) := by
    refine Decimal.HasPlaces.list_sum fun x hx => ?_
    obtain ⟨i, hi, rfl⟩ := List.mem_map.mp hx
    exact h.hasPlaces i hi
  refine ctx.round_of_places hplaces (lt_of_le_of_lt (mul_le_mul_of_nonneg_right ?_ (by positivity)) h.digits)
  have hle := List.le_sum_of_subadditive (fun x : ℚ => |x|) abs_zero.le abs_add_le
    (items.map (·.amount.amount))
  rw [List.map_map] at hle
  exact hle

/-- **Adding items up** gives the sum of their amounts. -/
theorem addItems_eq_ok (h : AddsUp ctx places currency (more ++ items)) :
    addItems ctx ⟨amountOf more, currency⟩ items = .ok ⟨amountOf (more ++ items), currency⟩ := by
  induction items generalizing more with
  | nil =>
      rw [List.append_nil]
      rfl
  | cons item items ih =>
      have hsplit : more ++ item :: items = (more ++ [item]) ++ items := by
        rw [List.append_assoc, List.singleton_append]
      have hsum : amountOf more + item.amount.amount = amountOf (more ++ [item]) := by
        rw [amountOf_append]
        exact congrArg _ (add_zero _).symm
      rw [hsplit] at h ⊢
      have hcurrency : item.amount.currency = currency :=
        h.currencies item (List.mem_append_left _ (List.mem_append_right _ List.mem_cons_self))
      have hround := (h.sublist (List.sublist_append_left _ items)).round_amountOf
      unfold addItems
      rw [List.foldlM_cons]
      refine bind_eq_ok.mpr ⟨⟨amountOf (more ++ [item]), currency⟩, ?_, ih h⟩
      unfold addMoney
      rw [if_pos hcurrency.symm, hsum, hround]

theorem addItems_first (h : AddsUp ctx places currency (item :: items)) :
    addItems ctx item.amount items = .ok ⟨amountOf (item :: items), currency⟩ := by
  have hamount : item.amount = ⟨amountOf [item], currency⟩ := by
    rw [← h.currencies item List.mem_cons_self]
    show (⟨item.amount.amount, item.amount.currency⟩ : Money) = ⟨item.amount.amount + 0, _⟩
    rw [add_zero]
  have hrun := addItems_eq_ok (show AddsUp ctx places currency ([item] ++ items) from h)
  rw [← hamount] at hrun
  exact hrun

theorem bucketTotal_eq_ok (h : AddsUp ctx places currency items) :
    bucketTotal ctx currency items bucket =
      .ok ⟨amountOf (items.filter fun i => i.bucket.name = bucket.name), currency⟩ := by
  have hsub := h.sublist (List.filter_sublist (p := fun i => i.bucket.name = bucket.name))
  unfold bucketTotal
  cases hfilter : items.filter fun i => i.bucket.name = bucket.name with
  | nil => rfl
  | cons first rest =>
      rw [hfilter] at hsub
      exact addItems_first hsub

theorem keys_totalsOf (currency : String) (buckets : List AgeBucket) (items : List AgedItem) :
    (totalsOf currency buckets items).map Prod.fst = buckets.map (·.name) := by
  unfold totalsOf
  rw [List.map_map]
  rfl

/-- **The totals of the buckets make up the whole.** -/
theorem sum_totals (hnames : (buckets.map (·.name)).Nodup) (hmem : ∀ i ∈ items, i.bucket ∈ buckets) :
    ((totalsOf currency buckets items).map (·.2.amount)).sum = amountOf items := by
  have hkeys : ∀ i ∈ items, i.bucket.name ∈ (buckets.map (·.name)).toFinset := fun i hi =>
    List.mem_toFinset.mpr (List.mem_map_of_mem (hmem i hi))
  have hsum := KeyedSums.sum_filter_eq_sum (p := fun _ => true) (f := fun i : AgedItem => i.amount.amount) _
    items hkeys
  rw [List.filter_true, List.sum_toFinset _ hnames] at hsum
  unfold amountOf
  rw [hsum]
  unfold totalsOf
  rw [List.map_map, List.map_map]
  rfl

/-- `total_amount` is the sum of all items. -/
theorem totalAmount_eq_ok {report : AgingReport} {first : AgedItem} {rest : List AgedItem}
    (hitems : report.items = first :: rest) (h : AddsUp ctx places currency report.items) :
    report.totalAmount ctx = .ok ⟨amountOf report.items, currency⟩ := by
  unfold AgingReport.totalAmount
  rw [hitems] at h ⊢
  exact addItems_first h

/-- `total_by_bucket` is the totals of all items. -/
theorem totalByBucket_eq_ok {report : AgingReport} {first : AgedItem} {rest : List AgedItem}
    (hitems : report.items = first :: rest) (h : AddsUp ctx places currency report.items)
    (hnames : (report.buckets.map (·.name)).Nodup) :
    report.totalByBucket ctx = .ok (totalsOf currency report.buckets report.items) := by
  have hcurrency : first.amount.currency = currency :=
    h.currencies first (hitems ▸ List.mem_cons_self)
  have hstep : ∀ bucket ∈ report.buckets, ∀ result : List (String × Money),
      (do
        let total ← bucketTotal ctx first.amount.currency report.items bucket
        return Dicts.setItem result bucket.name total : Except AgingError (List (String × Money))) =
      .ok (Dicts.setItem result bucket.name
        ⟨amountOf (report.items.filter fun i => i.bucket.name = bucket.name), currency⟩) := by
    intro bucket _ result
    rw [hcurrency, bucketTotal_eq_ok h]
    rfl
  have hrun := Traversals.foldlM_of_forall hstep []
  rw [Dicts.foldl_setItem_of_nodup hnames fun _ _ h => absurd h List.not_mem_nil] at hrun
  unfold AgingReport.totalByBucket
  rw [hitems] at hrun ⊢
  exact hrun

/-! ### Counterparties -/

/-- The items of a counterparty. -/
def owned (items : List AgedItem) (counterparty : DocumentId) : List AgedItem :=
  items.filter fun i => i.counterpartyId = some counterparty

/-- The dictionary has the totals of every counterparty of the items, and no others. -/
def HasTotals (currency : String) (buckets : List AgeBucket) (items : List AgedItem)
    (result : List (DocumentId × List (String × Money))) : Prop :=
  ∀ counterparty, Dicts.get? result counterparty =
    if owned items counterparty = [] then none
    else some (totalsOf currency buckets (owned items counterparty))

theorem owned_append (items more : List AgedItem) (counterparty : DocumentId) :
    owned (items ++ more) counterparty = owned items counterparty ++ owned more counterparty :=
  List.filter_append items more

/-- What an item adds to the totals of its counterparty. -/
theorem setItem_totalsOf (hnames : (buckets.map (·.name)).Nodup) (hbucket : item.bucket ∈ buckets) :
    Dicts.setItem (totalsOf currency buckets items) item.bucket.name
        ⟨amountOf ((items ++ [item]).filter fun i => i.bucket.name = item.bucket.name), currency⟩ =
      totalsOf currency buckets (items ++ [item]) := by
  unfold totalsOf
  rw [Dicts.setItem_map hnames hbucket]
  refine List.map_congr_left fun b _ => congrArg (b.name, ·) ?_
  by_cases hname : b.name = item.bucket.name
  · rw [if_pos hname, hname]
  · have hother : [item].filter (fun i => i.bucket.name = b.name) = [] := by
      rw [List.filter_eq_nil_iff]
      intro i hi
      obtain rfl := List.mem_singleton.mp hi
      simpa using Ne.symm hname
    rw [if_neg hname, List.filter_append, hother, List.append_nil]

/-- **Each item is added to the totals of its counterparty.** -/
theorem counterpartyTotals_step {result : List (DocumentId × List (String × Money))}
    (h : AddsUp ctx places currency (items ++ [item])) (hnames : (buckets.map (·.name)).Nodup)
    (hbucket : item.bucket ∈ buckets) (htotals : HasTotals currency buckets items result) :
    ∃ result', addToCounterparty ctx currency buckets result item = .ok result' ∧
      HasTotals currency buckets (items ++ [item]) result' := by
  unfold addToCounterparty
  cases hcounterparty : item.counterpartyId with
  | none =>
      refine ⟨result, rfl, fun counterparty => ?_⟩
      have hnone : owned [item] counterparty = [] := by
        unfold owned
        rw [List.filter_eq_nil_iff]
        intro i hi
        obtain rfl := List.mem_singleton.mp hi
        rw [hcounterparty]
        simp
      rw [owned_append, hnone, List.append_nil]
      exact htotals counterparty
  | some own =>
      have hown : owned [item] own = [item] :=
        List.filter_cons_of_pos (decide_eq_true hcounterparty)
      have hothers : ∀ counterparty, counterparty ≠ own → owned [item] counterparty = [] := by
        intro counterparty hne
        unfold owned
        rw [List.filter_eq_nil_iff]
        intro i hi
        obtain rfl := List.mem_singleton.mp hi
        rw [hcounterparty]
        simpa using Ne.symm hne
      -- the totals so far, with zeros for a new counterparty
      have hcurrent : (Dicts.get? result own).getD (emptyTotals currency buckets) =
          totalsOf currency buckets (owned items own) := by
        rw [htotals own]
        by_cases hempty : owned items own = []
        · rw [if_pos hempty, hempty]
          exact Dicts.foldl_setItem_of_nodup hnames fun _ _ h => absurd h List.not_mem_nil
        · rw [if_neg hempty]
          rfl
      have hentry : Dicts.get? (totalsOf currency buckets (owned items own)) item.bucket.name =
          some ⟨amountOf ((owned items own).filter fun i => i.bucket.name = item.bucket.name),
            currency⟩ := by
        refine Dicts.get?_of_mem ?_ (List.mem_map.mpr ⟨item.bucket, hbucket, rfl⟩)
        rw [keys_totalsOf]
        exact hnames
      have hsub : ((owned items own ++ [item]).filter
          fun i => i.bucket.name = item.bucket.name).Sublist (items ++ [item]) :=
        List.filter_sublist.trans (List.filter_sublist.append (.refl [item]))
      have hsum : amountOf ((owned items own).filter fun i => i.bucket.name = item.bucket.name) +
          item.amount.amount =
            amountOf ((owned items own ++ [item]).filter
              fun i => i.bucket.name = item.bucket.name) := by
        have hsame : [item].filter (fun i => i.bucket.name = item.bucket.name) = [item] :=
          List.filter_cons_of_pos (decide_eq_true rfl)
        rw [List.filter_append, amountOf_append, hsame]
        exact congrArg _ (add_zero _).symm
      have hcurrency : item.amount.currency = currency :=
        h.currencies item (List.mem_append_right _ List.mem_cons_self)
      have hadd : addMoney ctx
          ⟨amountOf ((owned items own).filter fun i => i.bucket.name = item.bucket.name), currency⟩
          item.amount =
            .ok ⟨amountOf ((owned items own ++ [item]).filter
              fun i => i.bucket.name = item.bucket.name), currency⟩ := by
        unfold addMoney
        rw [if_pos hcurrency.symm, hsum, (h.sublist hsub).round_amountOf]
      refine ⟨Dicts.setItem result own (totalsOf currency buckets (owned items own ++ [item])), ?_, ?_⟩
      · dsimp only
        rw [hcurrent, hentry]
        refine bind_eq_ok.mpr ⟨_, rfl, bind_eq_ok.mpr ⟨_, hadd, ?_⟩⟩
        rw [setItem_totalsOf hnames hbucket]
        rfl
      · intro counterparty
        rw [Dicts.get?_setItem, owned_append]
        by_cases hne : own = counterparty
        · subst hne
          rw [if_pos rfl, hown, if_neg (List.append_ne_nil_of_right_ne_nil _ (List.cons_ne_nil _ _))]
        · rw [if_neg hne, hothers counterparty (Ne.symm hne), List.append_nil]
          exact htotals counterparty

/-- **The totals of all counterparties**, over the whole loop. -/
theorem counterpartyTotals_run (h : AddsUp ctx places currency items)
    (hnames : (buckets.map (·.name)).Nodup) (hbuckets : ∀ i ∈ items, i.bucket ∈ buckets) :
    ∃ result, items.foldlM (addToCounterparty ctx currency buckets) [] = .ok result ∧
      HasTotals currency buckets items result := by
  induction items using List.reverseRecOn with
  | nil => exact ⟨[], rfl, fun _ => rfl⟩
  | append_singleton items item ih =>
      obtain ⟨before, hbefore, htotals⟩ := ih (h.sublist (List.sublist_append_left _ _))
        fun i hi => hbuckets i (List.mem_append_left _ hi)
      obtain ⟨result, hstep, hresult⟩ := counterpartyTotals_step h hnames
        (hbuckets item (List.mem_append_right _ List.mem_cons_self)) htotals
      refine ⟨result, ?_, hresult⟩
      rw [List.foldlM_append]
      refine bind_eq_ok.mpr ⟨before, hbefore, ?_⟩
      rw [List.foldlM_cons]
      exact bind_eq_ok.mpr ⟨result, hstep, rfl⟩

/-- `total_by_counterparty` is the loop over the items. -/
theorem totalByCounterparty_eq_ok {report : AgingReport} {first : AgedItem} {rest : List AgedItem}
    {result : List (DocumentId × List (String × Money))} (hitems : report.items = first :: rest)
    (hcurrency : first.amount.currency = currency)
    (hrun : report.items.foldlM (addToCounterparty ctx currency report.buckets) [] = .ok result) :
    report.totalByCounterparty ctx = .ok result := by
  unfold AgingReport.totalByCounterparty
  rw [← hcurrency, hitems] at hrun
  rw [hitems]
  exact hrun

end Sums

/-! ### Reports -/

section Reports

/-- The amounts of the documents are of one currency, and the digits fit what they add up to. -/
structure OneCurrency (ctx : Decimal.Context) (places : ℕ) (currency : String)
    (documents : List Document) : Prop where
  currencies : ∀ doc ∈ documents, doc.amount.currency = currency
  hasPlaces : ∀ doc ∈ documents, Decimal.HasPlaces places doc.amount.amount
  digits : (documents.map fun doc => |doc.amount.amount|).sum * 10 ^ places < 10 ^ ctx.prec

/-- The item is that of the document, in the one bucket that has its age. -/
structure FallsInto (asOfDate : Date) (buckets : List AgeBucket) (useDueDate : Bool) (doc : Document)
    (item : AgedItem) : Prop where
  documentId : item.documentId = doc.documentId
  amount : item.amount = doc.amount
  counterpartyId : item.counterpartyId = doc.counterpartyId
  ageDays : item.ageDays = calculateAge doc.documentDate asOfDate doc.dueDate useDueDate
  bucket_mem : item.bucket ∈ buckets
  contains : item.bucket.contains (max item.ageDays 0)
  unique : ∀ other ∈ buckets, other.contains (max item.ageDays 0) → other = item.bucket

/-- **The report partitions the documents**: each falls into one bucket, and the totals of the buckets
make up the total, in all and for each counterparty. -/
structure Partitions (asOfDate : Date) (buckets : List AgeBucket) (useDueDate : Bool)
    (documents : List Document) (report : AgingReport) (total : Money)
    (byBucket : List (String × Money)) (byCounterparty : List (DocumentId × List (String × Money))) :
    Prop where
  falls : List.Forall₂ (FallsInto asOfDate buckets useDueDate) documents report.items
  total_eq : total.amount = (documents.map (·.amount.amount)).sum
  bucket_eq : documents ≠ [] → ∀ bucket ∈ buckets,
    (Dicts.get? byBucket bucket.name).map (·.amount) =
      some (amountOf (report.itemsInBucket bucket.name))
  bucket_sum : (byBucket.map (·.2.amount)).sum = total.amount
  counterparties : ∀ counterparty, (Dicts.get? byCounterparty counterparty).isSome ↔
    report.itemsForCounterparty counterparty ≠ []
  counterparty_sum : ∀ counterparty totals, Dicts.get? byCounterparty counterparty = some totals →
    (totals.map (·.2.amount)).sum = amountOf (report.itemsForCounterparty counterparty)

variable {ctx : Decimal.Context} {places : ℕ} {currency : String} {documents : List Document}
variable {asOfDate : Date} {buckets : List AgeBucket} {useDueDate : Bool} {items : List AgedItem}

theorem ageItem_eq_ok {doc : Document} (h : Contiguous 0 (buckets.map (·.interval)))
    (hreaches : Reaches (buckets.map (·.interval))
      (calculateAge doc.documentDate asOfDate doc.dueDate useDueDate)) :
    ∃ item, ageItem doc asOfDate (some buckets) useDueDate = .ok item ∧
      FallsInto asOfDate buckets useDueDate doc item := by
  obtain ⟨bucket, hmem, hclassify, hcontains, hunique⟩ := classify_eq_ok h hreaches
  unfold ageItem
  refine ⟨_, bind_eq_ok.mpr ⟨bucket, hclassify, rfl⟩, ?_⟩
  exact ⟨rfl, rfl, rfl, rfl, hmem, hcontains, hunique⟩

/-- **No document is dropped or counted twice.** -/
theorem exists_items (h : Contiguous 0 (buckets.map (·.interval)))
    (hreaches : ∀ doc ∈ documents, Reaches (buckets.map (·.interval))
      (calculateAge doc.documentDate asOfDate doc.dueDate useDueDate)) :
    ∃ items, (documents.mapM fun doc => ageItem doc asOfDate (some buckets) useDueDate) = .ok items ∧
      List.Forall₂ (FallsInto asOfDate buckets useDueDate) documents items := by
  induction documents with
  | nil => exact ⟨[], rfl, .nil⟩
  | cons doc documents ih =>
      obtain ⟨item, hitem, hfalls⟩ := ageItem_eq_ok h (hreaches doc List.mem_cons_self)
      obtain ⟨items, hitems, hall⟩ := ih fun d hd => hreaches d (List.mem_cons_of_mem doc hd)
      refine ⟨item :: items, ?_, .cons hfalls hall⟩
      rw [List.mapM_cons]
      exact bind_eq_ok.mpr ⟨item, hitem, bind_eq_ok.mpr ⟨items, hitems, rfl⟩⟩

/-- What is read off the amounts of the items is read off those of the documents. -/
theorem map_amounts {α : Type} (f : Money → α)
    (h : List.Forall₂ (FallsInto asOfDate buckets useDueDate) documents items) :
    items.map (fun i => f i.amount) = documents.map fun doc => f doc.amount := by
  induction h with
  | nil => rfl
  | cons hfalls _ ih => rw [List.map_cons, List.map_cons, ih, hfalls.amount]

theorem addsUp_of_documents (h : OneCurrency ctx places currency documents)
    (hfalls : List.Forall₂ (FallsInto asOfDate buckets useDueDate) documents items) :
    AddsUp ctx places currency items := by
  refine ⟨fun item hitem => ?_, fun item hitem => ?_, ?_⟩
  · obtain ⟨doc, hdoc, hsame⟩ := (Traversals.mem_of_forall₂ hfalls).2 item hitem
    rw [hsame.amount]
    exact h.currencies doc hdoc
  · obtain ⟨doc, hdoc, hsame⟩ := (Traversals.mem_of_forall₂ hfalls).2 item hitem
    rw [hsame.amount]
    exact h.hasPlaces doc hdoc
  · rw [map_amounts (fun m => |m.amount|) hfalls]
    exact h.digits

end Reports

/-- **Aging partitions the documents**, for amounts of one currency and contiguous buckets that reach
every age. -/
theorem generateReport_partitions (ctx : Decimal.Context) (documents : List Document) (asOfDate : Date)
    (buckets : Option (List AgeBucket)) (reportType : String) (useDueDate : Bool) (currency : String)
    (places : ℕ) (hbuckets : WellOrdered (buckets.getD standardBuckets))
    (hreaches : ∀ doc ∈ documents, Reaches ((buckets.getD standardBuckets).map (·.interval))
      (calculateAge doc.documentDate asOfDate doc.dueDate useDueDate))
    (hamounts : OneCurrency ctx places currency documents) :
    ∃ report total byBucket byCounterparty,
      generateReportFromDocuments documents asOfDate buckets reportType useDueDate = .ok report ∧
      report.totalAmount ctx = .ok total ∧ report.totalByBucket ctx = .ok byBucket ∧
      report.totalByCounterparty ctx = .ok byCounterparty ∧
      Partitions asOfDate (buckets.getD standardBuckets) useDueDate documents report total byBucket
        byCounterparty := by
  set sequence := buckets.getD standardBuckets with hsequence
  obtain ⟨items, hitems, hfalls⟩ := exists_items hbuckets.contiguous hreaches
  have hadds := addsUp_of_documents hamounts hfalls
  have hmem : ∀ i ∈ items, i.bucket ∈ sequence := by
    intro i hi
    obtain ⟨doc, -, hsame⟩ := (Traversals.mem_of_forall₂ hfalls).2 i hi
    exact hsame.bucket_mem
  have hsum : amountOf items = (documents.map (·.amount.amount)).sum :=
    congrArg List.sum (map_amounts (·.amount) hfalls)
  have hreport : generateReportFromDocuments documents asOfDate buckets reportType useDueDate =
      .ok (generateReport items asOfDate (some sequence) reportType) :=
    bind_eq_ok.mpr ⟨items, hitems, rfl⟩
  cases hcases : items with
  | nil =>
      subst hcases
      obtain rfl := List.forall₂_nil_right_iff.mp hfalls
      refine ⟨_, ⟨0, "USD"⟩, [], [], hreport, rfl, rfl, rfl, hfalls, rfl, fun h => absurd rfl h, rfl, ?_, ?_⟩
      · exact fun _ => ⟨fun h => Bool.noConfusion h, fun h => absurd rfl h⟩
      · exact fun _ _ h => nomatch h
  | cons first rest =>
      have hfirst : first.amount.currency = currency :=
        hadds.currencies first (hcases ▸ List.mem_cons_self)
      obtain ⟨byCounterparty, hrun, htotals⟩ := counterpartyTotals_run hadds hbuckets.names hmem
      set report := generateReport items asOfDate (some sequence) reportType with hreportDef
      have hreportItems : report.items = first :: rest := hcases
      have htotal := totalAmount_eq_ok hreportItems hadds
      have hbyBucket := totalByBucket_eq_ok hreportItems hadds hbuckets.names
      have hbyCounterparty := totalByCounterparty_eq_ok hreportItems hfirst hrun
      refine ⟨_, _, _, byCounterparty, hreport, htotal, hbyBucket, hbyCounterparty, hfalls, hsum, ?_,
        sum_totals hbuckets.names hmem, ?_, ?_⟩
      · intro _ bucket hbucket
        have hentry : Dicts.get? (totalsOf currency sequence items) bucket.name =
            some ⟨amountOf (items.filter fun i => i.bucket.name = bucket.name), currency⟩ := by
          refine Dicts.get?_of_mem ?_ (List.mem_map.mpr ⟨bucket, hbucket, rfl⟩)
          rw [keys_totalsOf]
          exact hbuckets.names
        exact congrArg (Option.map (·.amount)) hentry
      · intro counterparty
        rw [htotals counterparty]
        show _ ↔ owned items counterparty ≠ []
        by_cases hempty : owned items counterparty = []
        · rw [if_pos hempty]
          exact ⟨fun h => Bool.noConfusion h, fun h => absurd hempty h⟩
        · rw [if_neg hempty]
          exact ⟨fun _ => hempty, fun _ => rfl⟩
      · intro counterparty totals hget
        rw [htotals counterparty] at hget
        by_cases hempty : owned items counterparty = []
        · rw [if_pos hempty] at hget
          cases hget
        · rw [if_neg hempty] at hget
          obtain rfl := Option.some.inj hget
          exact sum_totals hbuckets.names fun i hi => hmem i (List.mem_of_mem_filter hi)

/-- An invoice of a customer, a month before the report. -/
def sampleInvoice (amount : ℚ) (currency : String) : Document where
  documentId := .text "INV-1"
  documentType := "invoice"
  documentDate := .of 2024 1 15 (by decide)
  amount := ⟨amount, currency⟩
  counterpartyId := some (.text "C-1")

def sampleReportDate : Date := .of 2024 2 15 (by decide)

/-- Two invoices in the standard buckets. -/
theorem generateReport_sample :
    ∃ report total byBucket byCounterparty,
      generateReportFromDocuments [sampleInvoice 100 "USD", sampleInvoice 50 "USD"] sampleReportDate none
        "AR" true = .ok report ∧
      report.totalAmount Hashing.defaultContext = .ok total ∧
      report.totalByBucket Hashing.defaultContext = .ok byBucket ∧
      report.totalByCounterparty Hashing.defaultContext = .ok byCounterparty ∧
      Partitions sampleReportDate standardBuckets true
        [sampleInvoice 100 "USD", sampleInvoice 50 "USD"] report total byBucket byCounterparty := by
  have hplaces : ∀ doc ∈ [sampleInvoice 100 "USD", sampleInvoice 50 "USD"],
      Decimal.HasPlaces 0 doc.amount.amount := by
    intro doc hdoc
    rcases List.mem_cons.mp hdoc with rfl | hdoc
    · exact ⟨100, by norm_num [sampleInvoice]⟩
    · obtain rfl := List.mem_singleton.mp hdoc
      exact ⟨50, by norm_num [sampleInvoice]⟩
  refine generateReport_partitions Hashing.defaultContext _ sampleReportDate none "AR" true "USD" 0
    wellOrdered_standardBuckets (fun doc _ i hi m hm => ?_) ⟨by decide +kernel, hplaces, by decide +kernel⟩
  obtain rfl := Option.some.inj (show some (unbounded "Over 90" 91).interval = some i from hi)
  cases hm

/-- Amounts of two currencies do not add up; the last bucket may end too early; and the context may
round a total, but not those of the buckets. -/
theorem generateReport_not_partitions :
    ((generateReportFromDocuments [sampleInvoice 100 "USD", sampleInvoice 50 "EUR"] sampleReportDate none
        "AR" true).toOption.map fun report => report.totalAmount Hashing.defaultContext) =
      some (.error (.differentCurrencies "USD" "EUR")) ∧
    generateReportFromDocuments [sampleInvoice 100 "USD"] sampleReportDate
      (some [bounded "Current" 0 30]) "AR" true = .error (.noBucket 31) ∧
    ((generateReportFromDocuments
        [sampleInvoice (10 ^ 27) "USD",
          { sampleInvoice (2 / 5) "USD" with documentDate := sampleReportDate },
          { sampleInvoice (2 / 5) "USD" with documentDate := sampleReportDate }]
        sampleReportDate none "AR" true).toOption.map fun report =>
          ((report.totalAmount Hashing.defaultContext).toOption.map (·.amount),
            (report.totalByBucket Hashing.defaultContext).toOption.map fun totals =>
              (totals.map (·.2.amount)).sum)) =
      some (some (10 ^ 27), some (10 ^ 27 + 4 / 5)) := by
  decide +kernel

end FinanceAccounting.Aging
