import FinanceAccounting.Kernel.Journal
import FinanceAccounting.Library.Pages
import Mathlib.Data.List.Sort

/-! # Queries of the ledger

`LedgerSelector.query` has the database select posted lines, order them by the sequence of their
entries and cut out a page, and only then keeps the lines that have the requested dimensions; a line
without any dimensions is kept too.  `queriesRightly_iff` says when that is the page of the lines
that satisfy all filters. -/

namespace FinanceAccounting.LedgerSelector

open Journal (JournalEntryStatus LineSide)
open Pages (SameCut filter_page_eq_iff page)

/-! ### Lines -/

structure LedgerLine (V : Type) where
  journalEntryId : UUID
  journalLineId : UUID
  seq : ℕ
  effectiveDate : Date
  accountId : UUID
  accountCode : String
  side : LineSide
  amount : Decimal
  currency : String
  dimensions : Option (List (String × V))

/-- A row of `journal_lines` with its entry and its account. -/
structure LedgerRow (V : Type) extends LedgerLine V where
  status : JournalEntryStatus
  lineSeq : ℤ
  isRounding : Bool

/-- The rows, in an order in which the database reads them. -/
structure Ledger (V : Type) where
  rows : List (LedgerRow V)
  ids_nodup : (rows.map (·.journalLineId)).Nodup

/-- The arguments of `query`. -/
structure Query (V : Type) where
  asOfDate : Option Date := none
  accountId : Option UUID := none
  currency : Option String := none
  dimensions : Option (List (String × V)) := none
  limit : Option ℕ := none
  offset : Option ℕ := none

variable {V : Type}

/-- The `WHERE` clauses. -/
def inScope (asOfDate : Option Date) (accountId : Option UUID) (currency : Option String)
    (row : LedgerRow V) : Bool :=
  row.status = .posted && asOfDate.all (row.effectiveDate ≤ ·) &&
    accountId.all (row.accountId = ·) && currency.all (row.currency = ·)

/-- The lines in scope, ordered by the sequence of their entries. -/
def selected (ledger : Ledger V) (q : Query V) : List (LedgerLine V) :=
  ((ledger.rows.filter (inScope q.asOfDate q.accountId q.currency)).insertionSort
    fun a b => a.seq ≤ b.seq).map (·.toLedgerLine)

theorem nodup_selected (ledger : Ledger V) (q : Query V) : (selected ledger q).Nodup := by
  refine List.Nodup.of_map (fun line : LedgerLine V => line.journalLineId) ?_
  unfold selected
  rw [List.map_map]
  refine ((List.perm_insertionSort _ _).map _).nodup_iff.mpr ?_
  exact ledger.ids_nodup.sublist (List.filter_sublist.map _)

section Dimensions

variable [DecidableEq V]

/-- The filter in Python; `get` returns `None` for a key that is not there. -/
def keepsLine (null : V) (requested : Option (List (String × V))) (line : LedgerLine V) : Bool :=
  match requested, line.dimensions with
  | some requested, some (entry :: own) =>
      requested.all fun (k, v) => ((entry :: own).lookup k).getD null = v
  | _, _ => true

/-- `query`. -/
def query (null : V) (ledger : Ledger V) (q : Query V) : List (LedgerLine V) :=
  (page q.limit (q.offset.getD 0) (selected ledger q)).filter (keepsLine null q.dimensions)

/-! ### The page of the lines that satisfy all filters -/

/-- The line has the requested dimensions. -/
def hasDimensions (requested : Option (List (String × V))) (line : LedgerLine V) : Bool :=
  (requested.getD []).all fun (k, v) => (line.dimensions.getD []).lookup k = some v

/-- The posted lines that satisfy all filters, ordered by sequence. -/
def matching (ledger : Ledger V) (q : Query V) : List (LedgerLine V) :=
  (selected ledger q).filter (hasDimensions q.dimensions)

/-- The query returns the page of the lines that satisfy all filters. -/
def QueriesRightly (null : V) (ledger : Ledger V) (q : Query V) : Prop :=
  query null ledger q = page q.limit (q.offset.getD 0) (matching ledger q)

/-- A line that has the dimensions is kept. -/
theorem keepsLine_of_hasDimensions {null : V} {requested : Option (List (String × V))}
    {line : LedgerLine V} (h : hasDimensions requested line = true) :
    keepsLine null requested line = true := by
  cases requested with
  | none => rfl
  | some requested =>
      unfold keepsLine
      cases hown : line.dimensions with
      | none => rfl
      | some own =>
          cases own with
          | nil => rfl
          | cons entry own =>
              simp only [hasDimensions, Option.getD_some, hown, List.all_eq_true,
                decide_eq_true_eq] at h ⊢
              intro kv hkv
              rw [h kv hkv, Option.getD_some]

variable {null : V} {ledger : Ledger V} {q : Query V}

/-- Where the page holds no line that is kept without the dimensions, the filter in Python is the
one that was asked for. -/
theorem query_eq_filter
    (h : ∀ line ∈ page q.limit (q.offset.getD 0) (selected ledger q),
      keepsLine null q.dimensions line = true → hasDimensions q.dimensions line = true) :
    query null ledger q =
      (page q.limit (q.offset.getD 0) (selected ledger q)).filter (hasDimensions q.dimensions) :=
  List.filter_congr fun line hline =>
    Bool.eq_iff_iff.mpr ⟨h line hline, keepsLine_of_hasDimensions⟩

theorem mem_of_mem_page {α : Type*} {limit : Option ℕ} {offset : ℕ} {xs : List α} {x : α}
    (h : x ∈ page limit offset xs) : x ∈ xs := by
  have := List.mem_append_left (Pages.after limit offset xs) h
  rw [Pages.page_append_after] at this
  exact List.mem_of_mem_drop this

end Dimensions

/-- **Filtering and paging**: the query is right if and only if no line of the page is kept without
the requested dimensions, and the page of all lines in scope is cut where the page of those with the
dimensions is. -/
theorem queriesRightly_iff [DecidableEq V] (null : V) (ledger : Ledger V) (q : Query V) :
    QueriesRightly null ledger q ↔
      (∀ line ∈ page q.limit (q.offset.getD 0) (selected ledger q),
        keepsLine null q.dimensions line = true → hasDimensions q.dimensions line = true) ∧
      SameCut (hasDimensions q.dimensions) q.limit (q.offset.getD 0) (selected ledger q) := by
  rw [← filter_page_eq_iff (nodup_selected ledger q)]
  unfold QueriesRightly
  constructor
  · intro h
    have hkept : ∀ line ∈ page q.limit (q.offset.getD 0) (selected ledger q),
        keepsLine null q.dimensions line = true → hasDimensions q.dimensions line = true := by
      intro line hline hkeeps
      have hreturned : line ∈ query null ledger q := List.mem_filter.mpr ⟨hline, hkeeps⟩
      rw [h] at hreturned
      exact (List.mem_filter.mp (mem_of_mem_page hreturned)).2
    exact ⟨hkept, (query_eq_filter hkept).symm.trans h⟩
  · rintro ⟨hkept, hcut⟩
    exact (query_eq_filter hkept).trans hcut

/-- A posted line, with or without dimensions. -/
def sampleRow (lineId : UUID) (dimensions : Option (List (String × String))) :
    LedgerRow String where
  journalEntryId := ⟨10⟩
  journalLineId := lineId
  seq := 1
  effectiveDate := sampleTime.date
  accountId := ⟨20⟩
  accountCode := "6100"
  side := .debit
  amount := .finite false 10000 (-2)
  currency := "USD"
  dimensions := dimensions
  status := .posted
  lineSeq := 0
  isRounding := false

def sampleLedger : Ledger String where
  rows := [sampleRow ⟨1⟩ none, sampleRow ⟨2⟩ (some [("dept", "10")])]
  ids_nodup := by decide +kernel

/-- A line without dimensions takes the only place of the page of those of a department. -/
theorem department_query :
    (query "None" sampleLedger { dimensions := some [("dept", "10")], limit := some 1 }).map
        (·.dimensions) = [none] ∧
      ¬QueriesRightly "None" sampleLedger
        { dimensions := some [("dept", "10")], limit := some 1 } := by
  refine ⟨by decide +kernel, fun h => ?_⟩
  have hids := congrArg (List.map fun line : LedgerLine String => line.journalLineId) h
  exact absurd hids (by decide +kernel)

end FinanceAccounting.LedgerSelector
