import FinanceAccounting.Library.DecimalSums
import FinanceAccounting.Library.Traversals
import FinanceAccounting.Database.RoundingTriggers
import FinanceAccounting.Kernel.UndisturbedWrite
import FinanceAccounting.Kernel.WrittenEntries

/-! # The balance of stored entries

`JournalWriter.write` compares the debits and credits of an intent as sums of the `decimal` module,
before the amounts pass through a column of nine decimal places.  What is stored for an entry then
differs from what was compared: by the places the column drops from each amount, and by the digits
the sums have lost.

`stored_balanced_iff` says exactly when the stored lines of a created entry balance: when in every
currency these errors are the same on both sides.  Amounts of nine places that fit into the digits
of the context have no error at all. -/

namespace FinanceAccounting.JournalWriter

open UnitOfWork (Session Table Result)
open Journal

/-! ### Where the entries of a journal come from -/

variable {σ : Type} {tbl : Table σ Journal} {w : Services σ} {i : AccountingIntent}
variable {actorId : UUID} {eventType : String} {s s' : Session σ} {result : JournalWriteResult}
variable {env : ℕ → Interleaving} {e : JournalEntry}

/-- The entry is there after the call, and neither was it there before nor is it one that another
transaction has committed. -/
structure CreatedBy (tbl : Table σ Journal) (env : ℕ → Interleaving) (s s' : Session σ)
    (e : JournalEntry) : Prop where
  mem : e ∈ (s'.seen tbl).entries
  seen : e ∉ (s.seen tbl).entries
  stored : e ∉ (s.stored tbl).entries
  foreign : ∀ n, e ∉ (env n).beforeSelect ++ (env n).foreign

/-- **What a call creates**: entries of balanced ledgers of the intent, with all their lines. -/
theorem complete_of_created (h : write tbl w i actorId eventType env s = (.ok result, s'))
    (he : CreatedBy tbl env s s' e) :
    ∃ l ∈ i.ledgerIntents, checkBalances i.ledgerIntents = .ok none ∧
      ∃ resolved, List.Forall₂ (ResolvedBy w) l.lines resolved ∧ e.lines = resolved.map toLine := by
  have hevery : Every tbl (fun d => d ∈ (s.seen tbl).entries ∨ d ∈ (s.stored tbl).entries ∨
      (∃ n, d ∈ (env n).beforeSelect ++ (env n).foreign) ∨
        ∃ l ∈ i.ledgerIntents, checkBalances i.ledgerIntents = .ok none ∧
          ∃ resolved, List.Forall₂ (ResolvedBy w) l.lines resolved ∧
            d.lines = resolved.map toLine) (write tbl w i actorId eventType env s).2 := by
    refine Every.write ⟨fun d hd => .inr (.inl hd), fun d hd => .inl hd⟩
      (fun n d hd => .inr (.inr (.inl ⟨n, hd⟩))) ?_
    intro resolved hbal hres t ht d _ hcomplete
    obtain ⟨p, hp, rfl⟩ := List.mem_map.mp ht
    have hmem : p.1 ∈ resolved := (List.mem_zipIdx' hp).2 ▸ List.getElem_mem _
    obtain ⟨hledger, hlines⟩ := mem_resolveLedgers hres p.1 hmem
    exact .inr (.inr (.inr ⟨p.1.1, hledger, hbal, p.1.2, forall₂_resolveLines hlines,
      (hcomplete ⟨result, by rw [h]⟩).lines⟩))
  rw [h] at hevery
  rcases hevery.current e he.mem with hold | hold | ⟨n, hforeign⟩ | hwritten
  · exact absurd hold he.seen
  · exact absurd hold he.stored
  · exact absurd hforeign (he.foreign n)
  · exact hwritten

end FinanceAccounting.JournalWriter

namespace FinanceAccounting

open Hashing (defaultContext)
open Journal (LineSide)

/-! ### What rounding adds -/

namespace LedgerIntent

/-- The amounts of one side in a currency. -/
def amounts (l : LedgerIntent) (side : LineSide) (currency : String) : List Decimal :=
  (l.lines.filter fun line => line.side = side ∧ line.currency = currency).map (·.amount)

end LedgerIntent

namespace StoredBalance

open JournalWriter (CreatedBy Interleaving ResolvedBy Services toLine write)
open JournalTriggers (amountOn enforceBalancedJournalEntry fits linesOf net sumNumeric total)
open RoundingTriggers (amount_of_numeric numeric)
open UnitOfWork (Session Table)

/-- What the column of nine places adds to an amount. -/
def columnError (amount : Decimal) : ℚ := Decimal.quantize 9 amount.toRat - amount.toRat

/-- What a sum at the digits of the context leaves out. -/
def sumError (amounts : List Decimal) : ℚ :=
  (amounts.map Decimal.toRat).sum -
    (((Decimal.sum defaultContext amounts).toOption.map Decimal.toRat).getD 0)

/-- The error of a side: that of its amounts in the column, and that of their sum. -/
def sideError (l : LedgerIntent) (side : LineSide) (currency : String) : ℚ :=
  ((l.amounts side currency).map columnError).sum + sumError (l.amounts side currency)

/-- Rounding does the same to both sides of a currency. -/
def ErrorsAgree (l : LedgerIntent) (currency : String) : Prop :=
  sideError l .debit currency = sideError l .credit currency

/-- All amounts are written with nine places, and no side of a currency has more than the
28 digits of the context. -/
structure NinePlaces (l : LedgerIntent) : Prop where
  written : ∀ line ∈ l.lines, line.amount.Written 9
  digits : ∀ side currency, ((l.amounts side currency).map Decimal.toRat).sum < 10 ^ 19

/-! ### Rows of lines -/

/-- The text of a side. -/
def sideValue : LineSide → String
  | .debit => "debit"
  | .credit => "credit"

/-- The row is what the table stores for a line of an entry. -/
structure StoredAs (entryId : UUID) (line : Journal.JournalLine)
    (row : JournalTriggers.JournalLine) : Prop where
  journalEntryId : row.journalEntryId = entryId.str
  accountId : row.accountId = line.accountId.str
  side : row.side = sideValue line.side
  amount : numeric line.amount = some row.amount
  currency : row.currency = line.currency
  isRounding : row.isRounding = line.isRounding
  lineMemo : row.lineMemo = line.lineMemo
  exchangeRateId : row.exchangeRateId = line.exchangeRateId.map (·.str)
  lineSeq : row.lineSeq = line.lineSeq

/-- Debits are credits in every currency. -/
def Balances (rows : List JournalTriggers.JournalLine) : Prop :=
  ∀ currency, total "debit" (rows.filter (·.currency = currency)) =
    total "credit" (rows.filter (·.currency = currency))

/-- What of a row the balance reads, against the line of the intent. -/
structure Carries (line : IntentLine) (row : JournalTriggers.JournalLine) : Prop where
  side : row.side = sideValue line.side
  currency : row.currency = line.currency
  amount : row.amount = some (Decimal.quantize 9 line.amount.toRat)

section Laws

variable {l : LedgerIntent} {lines : List IntentLine} {line : IntentLine}
variable {row : JournalTriggers.JournalLine} {rows : List JournalTriggers.JournalLine}
variable {side : LineSide} {currency : String}

theorem sideValue_eq_iff {side' : LineSide} : sideValue side = sideValue side' ↔ side = side' := by
  cases side <;> cases side' <;> decide

/-- The rows of an entry carry the lines of its ledger. -/
theorem carries_of_stored {σ : Type} {w : Services σ} {resolved : List ResolvedIntentLine}
    {entryId : UUID} (hresolved : List.Forall₂ (ResolvedBy w) lines resolved)
    (hrows : List.Forall₂ (StoredAs entryId) (resolved.map toLine) rows) :
    List.Forall₂ Carries lines rows := by
  induction hresolved generalizing rows with
  | nil =>
      cases hrows
      exact .nil
  | @cons line r lines resolved hline _ ih =>
      rw [List.map_cons] at hrows
      cases hrows with
      | @cons _ row _ rows hrow hrest =>
          refine .cons ⟨?_, ?_, ?_⟩ (ih hrest)
          · exact hrow.side.trans (congrArg sideValue hline.side)
          · exact hrow.currency.trans hline.currency
          · have hamount : numeric line.amount = some row.amount := by
              have hstored := hrow.amount
              rwa [show (toLine r).amount = line.amount from hline.amount] at hstored
            exact (amount_of_numeric line.amount_nonneg hamount).2

theorem total_cons {side : String} {x y : ℚ} (hrow : amountOn side row = some x)
    (hrows : total side rows = some y) : total side (row :: rows) = some (x + y) := by
  unfold total at hrows ⊢
  obtain ⟨hsome, hsum⟩ := JournalTriggers.sumNumeric_eq_some.mp hrows
  refine JournalTriggers.sumNumeric_eq_some.mpr ⟨?_, ?_⟩
  · rw [List.map_cons, List.forall_mem_cons]
    exact ⟨by rw [hrow, Option.isSome_some], hsome⟩
  · rw [List.map_cons, List.map_cons, List.sum_cons, hsum, hrow, Option.getD_some]

/-- **The stored total of a side** is the sum of the amounts as the column has them. -/
theorem total_of_carries (side : LineSide) (currency : String)
    (h : List.Forall₂ Carries lines rows) :
    total (sideValue side) (rows.filter (·.currency = currency)) =
      some ((((lines.filter fun line => line.side = side ∧ line.currency = currency).map
        (·.amount)).map fun amount => Decimal.quantize 9 amount.toRat).sum) := by
  induction h with
  | nil => rfl
  | @cons line row lines rows hrow _ ih =>
      by_cases hcurrency : line.currency = currency
      · rw [List.filter_cons_of_pos (by simp [hrow.currency, hcurrency])]
        by_cases hside : line.side = side
        · have hon : amountOn (sideValue side) row =
              some (Decimal.quantize 9 line.amount.toRat) := by
            unfold amountOn
            rw [if_pos (by rw [hrow.side, hside]), hrow.amount]
          rw [total_cons hon ih, List.filter_cons_of_pos (by simp [hside, hcurrency])]
          rw [List.map_cons, List.map_cons, List.sum_cons]
        · have hon : amountOn (sideValue side) row = some 0 := by
            unfold amountOn
            rw [if_neg (by rw [hrow.side, sideValue_eq_iff]; exact hside)]
          rw [total_cons hon ih, List.filter_cons_of_neg (by simp [hside]), zero_add]
      · rw [List.filter_cons_of_neg (by simp [hrow.currency, hcurrency]), ih,
          List.filter_cons_of_neg (by simp [hcurrency])]

/-- What is stored is what was compared and the error. -/
theorem stored_eq (l : LedgerIntent) (side : LineSide) (currency : String) :
    ((l.amounts side currency).map fun amount => Decimal.quantize 9 amount.toRat).sum =
      (((l.total side currency).toOption.map Decimal.toRat).getD 0) + sideError l side currency := by
  have hsplit : ∀ amounts : List Decimal,
      (amounts.map fun amount => Decimal.quantize 9 amount.toRat).sum =
        (amounts.map columnError).sum + (amounts.map Decimal.toRat).sum := by
    intro amounts
    rw [← List.sum_map_add]
    congr 1
    refine List.map_congr_left fun amount _ => ?_
    unfold columnError
    ring
  rw [hsplit]
  have htotal : l.total side currency = Decimal.sum defaultContext (l.amounts side currency) := rfl
  unfold sideError sumError
  rw [htotal]
  ring

/-- A currency that is compared has stored totals that differ by the errors alone. -/
theorem stored_eq_iff {ls : List LedgerIntent} (hbalanced : JournalWriter.checkBalances ls = .ok none)
    (hl : l ∈ ls) :
    ((l.amounts .debit currency).map fun amount => Decimal.quantize 9 amount.toRat).sum =
        ((l.amounts .credit currency).map fun amount => Decimal.quantize 9 amount.toRat).sum ↔
      ErrorsAgree l currency := by
  rw [stored_eq, stored_eq]
  unfold ErrorsAgree
  have htotals : ((l.total .debit currency).toOption.map Decimal.toRat).getD 0 =
      ((l.total .credit currency).toOption.map Decimal.toRat).getD 0 := by
    by_cases hmem : currency ∈ l.currencies
    · obtain ⟨debit, credit, hdebit, hcredit, heq⟩ :=
        JournalWriter.totals_of_checkBalances hbalanced l hl hmem
      rw [show l.total .debit currency = .ok debit from hdebit,
        show l.total .credit currency = .ok credit from hcredit]
      exact Decimal.toRat_eq_of_numEq heq
    · have hnone : ∀ side, l.amounts side currency = [] := by
        intro side
        unfold LedgerIntent.amounts
        rw [List.map_eq_nil_iff, List.filter_eq_nil_iff]
        intro line hline hkept
        have hcurrency : line.currency = currency := (of_decide_eq_true hkept).2
        refine hmem (List.mem_dedup.mpr ?_)
        exact hcurrency ▸ List.mem_map_of_mem hline
      have hdebit := hnone .debit
      have hcredit := hnone .credit
      unfold LedgerIntent.total
      unfold LedgerIntent.amounts at hdebit hcredit
      rw [hdebit, hcredit]
  rw [htotals, add_right_inj]

theorem roomy_defaultContext : defaultContext.Roomy 9 := ⟨by decide, by decide⟩

/-- **No error** in amounts of nine places that fit. -/
theorem sideError_of_ninePlaces (h : NinePlaces l) (side : LineSide) (currency : String) :
    sideError l side currency = 0 := by
  have hlines : ∀ amount ∈ l.amounts side currency, ∃ line ∈ l.lines, line.amount = amount := by
    intro amount hamount
    obtain ⟨line, hline, heq⟩ := List.mem_map.mp hamount
    exact ⟨line, List.mem_of_mem_filter hline, heq⟩
  have hwritten : ∀ amount ∈ l.amounts side currency, amount.Written 9 := by
    intro amount hamount
    obtain ⟨line, hline, rfl⟩ := hlines amount hamount
    exact h.written line hline
  have hnonneg : ∀ amount ∈ l.amounts side currency, amount.NonNegative := by
    intro amount hamount
    obtain ⟨line, -, rfl⟩ := hlines amount hamount
    exact line.amount_nonneg
  have hcolumn : ((l.amounts side currency).map columnError).sum = 0 := by
    refine List.sum_eq_zero fun x hx => ?_
    obtain ⟨amount, hamount, rfl⟩ := List.mem_map.mp hx
    exact sub_eq_zero.mpr (Decimal.quantize_of_places (hwritten amount hamount).hasPlaces)
  have hdigits : ((l.amounts side currency).map Decimal.toRat).sum * 10 ^ 9 <
      10 ^ defaultContext.prec := by
    have hlt := mul_lt_mul_of_pos_right (h.digits side currency)
      (show (0 : ℚ) < 10 ^ 9 by norm_num)
    rwa [← pow_add] at hlt
  obtain ⟨d, hd, -, hvalue⟩ :=
    Decimal.sum_eq_ok_of_nonneg roomy_defaultContext hwritten hnonneg hdigits
  unfold sideError sumError
  rw [hcolumn, hd, zero_add]
  exact sub_eq_zero.mpr hvalue.symm

/-- What is stored for an entry of a ledger. -/
structure StoredLaw (l : LedgerIntent) (e : Journal.JournalEntry) : Prop where
  /-- The lines are those of the ledger. -/
  lines : e.lines.map (fun line => (line.side, line.amount, line.currency)) =
    l.lines.map fun line => (line.side, line.amount, line.currency)
  /-- The rows balance exactly when the errors agree. -/
  balanced : ∀ table, List.Forall₂ (StoredAs e.id) e.lines (linesOf table e.id.str) →
    (Balances (linesOf table e.id.str) ↔ ∀ currency, ErrorsAgree l currency)
  /-- Where the trigger lets the entry be posted, one currency may be left out. -/
  checked : ∀ table, List.Forall₂ (StoredAs e.id) e.lines (linesOf table e.id.str) →
    ∀ old new, new.id = e.id.str → old.status ≠ "posted" → new.status = "posted" →
      enforceBalancedJournalEntry table old new = true →
        (Balances (linesOf table e.id.str) ↔
          ∃ currency, ∀ currency', currency' ≠ currency → ErrorsAgree l currency')
  /-- Amounts of nine places have no errors. -/
  ninePlaces : NinePlaces l → ∀ currency, ErrorsAgree l currency

theorem map_of_resolved {σ : Type} {w : Services σ} {resolved : List ResolvedIntentLine}
    (h : List.Forall₂ (ResolvedBy w) lines resolved) :
    (resolved.map toLine).map (fun line => (line.side, line.amount, line.currency)) =
      lines.map fun line => (line.side, line.amount, line.currency) := by
  induction h with
  | nil => rfl
  | @cons line r lines resolved hline _ ih =>
      rw [List.map_cons, List.map_cons, List.map_cons, ih]
      congr 1
      show (r.side, r.amount, r.currency) = _
      rw [hline.side, hline.amount, hline.currency]

/-- **When stored entries balance.**  Every entry that a call of `write` creates is one of a ledger
of the intent, and its stored lines balance if and only if the rounding of the column and of the
sums does the same to both sides of every currency. -/
theorem stored_balanced_iff {σ : Type} {tbl : Table σ Journal} {w : Services σ}
    {i : AccountingIntent} {actorId : UUID} {eventType : String} {env : ℕ → Interleaving}
    {s s' : Session σ} {result : JournalWriter.JournalWriteResult} {e : Journal.JournalEntry}
    (h : write tbl w i actorId eventType env s = (.ok result, s'))
    (he : CreatedBy tbl env s s' e) : ∃ l ∈ i.ledgerIntents, StoredLaw l e := by
  obtain ⟨l, hl, hbalanced, resolved, hresolved, hlines⟩ := JournalWriter.complete_of_created h he
  have hcarries : ∀ table, List.Forall₂ (StoredAs e.id) e.lines (linesOf table e.id.str) →
      List.Forall₂ Carries l.lines (linesOf table e.id.str) := by
    intro table hrows
    rw [hlines] at hrows
    exact carries_of_stored hresolved hrows
  have hiff : ∀ table, List.Forall₂ (StoredAs e.id) e.lines (linesOf table e.id.str) →
      ∀ currency, total "debit" ((linesOf table e.id.str).filter (·.currency = currency)) =
        total "credit" ((linesOf table e.id.str).filter (·.currency = currency)) ↔
          ErrorsAgree l currency := by
    intro table hrows currency
    have hdebit := total_of_carries .debit currency (hcarries table hrows)
    have hcredit := total_of_carries .credit currency (hcarries table hrows)
    rw [show "debit" = sideValue .debit from rfl, show "credit" = sideValue .credit from rfl,
      hdebit, hcredit, Option.some.injEq]
    exact stored_eq_iff hbalanced hl
  refine ⟨l, hl, ?_, fun table hrows => ?_, fun table hrows old new hid hold hnew hpasses => ?_,
    fun hplaces currency => ?_⟩
  · rw [hlines]
    exact map_of_resolved hresolved
  · exact forall_congr' (hiff table hrows)
  · constructor
    · intro hbalances
      exact ⟨"", fun currency _ => (hiff table hrows currency).mp (hbalances currency)⟩
    · rintro ⟨currency, hothers⟩
      obtain ⟨htwo, hfinite, hsum⟩ := JournalTriggers.checked_of_enforced hold hnew hpasses
      rw [hid] at htwo hfinite hsum
      have hrest := JournalTriggers.Balanced.of_checked htwo hfinite hsum
        fun currency' hne => (hiff table hrows currency').mpr (hothers currency' hne)
      exact hrest.balanced
  · unfold ErrorsAgree
    rw [sideError_of_ninePlaces hplaces, sideError_of_ninePlaces hplaces]

end Laws

/-! ### A tenth place -/

theorem nonNegative_unsigned (coeff : ℕ) (exp : ℤ) :
    (Decimal.finite false coeff exp).NonNegative := Or.inl rfl

/-- Amounts at so many places. -/
def sampleLine (side : LineSide) (coeff places : ℕ) (currency : String) : IntentLine where
  accountRole := "Payable"
  side := side
  amount := .finite false coeff (-places)
  currency := currency
  amount_nonneg := nonNegative_unsigned coeff (-places)

def sampleIntent (lines : List IntentLine) (h : lines ≠ []) : AccountingIntent where
  econEventId := ⟨0xec⟩
  sourceEventId := ⟨0xe⟩
  profileId := "ap.invoice"
  profileVersion := 1
  effectiveDate := JournalWriter.sampleIntent.effectiveDate
  ledgerIntents := [{ ledgerId := "GL", lines := lines, lines_ne_nil := h }]
  ledgerIntents_ne_nil := List.cons_ne_nil _ _
  snapshot := { coaVersion := 1, dimensionSchemaVersion := 1 }

/-- Two shares of 33.3333333335 dollars against 66.666666667, and the same in euros on the other
sides. -/
def unevenLines : List IntentLine :=
  [sampleLine .debit 333333333335 10 "USD", sampleLine .debit 333333333335 10 "USD",
    sampleLine .credit 66666666667 9 "USD", sampleLine .debit 66666666667 9 "EUR",
    sampleLine .credit 333333333335 10 "EUR", sampleLine .credit 333333333335 10 "EUR"]

/-- A hundred dollars. -/
def evenLines : List IntentLine :=
  [sampleLine .debit 10000 2 "USD", sampleLine .credit 10000 2 "USD"]

def sampleRun (lines : List IntentLine) (h : lines ≠ []) :
    UnitOfWork.Result JournalWriter.WriteError Journal JournalWriter.JournalWriteResult :=
  write (Table.self Journal) JournalWriter.sampleServices (sampleIntent lines h) ⟨0xac⟩
    "economic.posting" (JournalWriter.sampleEnv false) (Session.start Journal.empty)

/-- The row of a line. -/
def sampleRow (entryId : UUID) (line : Journal.JournalLine) : JournalTriggers.JournalLine where
  id := toString line.lineSeq
  journalEntryId := entryId.str
  accountId := line.accountId.str
  side := sideValue line.side
  amount := some (Decimal.quantize 9 line.amount.toRat)
  currency := line.currency
  isRounding := line.isRounding
  lineMemo := line.lineMemo
  exchangeRateId := line.exchangeRateId.map (·.str)
  lineSeq := line.lineSeq
  createdAt := 0
  updatedAt := 0
  createdById := (⟨0xac⟩ : UUID).str

/-- The row of the entry with a status. -/
def sampleEntryRow (entryId : UUID) (status : String) : JournalTriggers.JournalEntry where
  id := entryId.str
  sourceEventId := (⟨0xe⟩ : UUID).str
  sourceEventType := "economic.posting"
  occurredAt := 0
  effectiveDate := JournalWriter.sampleIntent.effectiveDate
  actorId := (⟨0xac⟩ : UUID).str
  status := status
  idempotencyKey := ""
  createdAt := 0
  updatedAt := 0
  createdById := (⟨0xac⟩ : UUID).str

theorem storedAs_sampleRow {entryId : UUID} {lines : List Journal.JournalLine}
    (h : ∀ line ∈ lines, numeric line.amount =
      some (some (Decimal.quantize 9 line.amount.toRat))) :
    List.Forall₂ (StoredAs entryId) lines (lines.map (sampleRow entryId)) := by
  induction lines with
  | nil => exact .nil
  | cons line lines ih =>
      have hrow : StoredAs entryId line (sampleRow entryId line) :=
        ⟨rfl, rfl, rfl, h line List.mem_cons_self, rfl, rfl, rfl, rfl, rfl⟩
      exact .cons hrow (ih fun l hl => h l (List.mem_cons_of_mem _ hl))

/-- The entry that is there after the call was created by it. -/
theorem createdBy_sample {s' : Session Journal} {e : Journal.JournalEntry}
    (h : e ∈ s'.current.entries) :
    CreatedBy (Table.self Journal) (JournalWriter.sampleEnv false) (Session.start Journal.empty) s'
      e where
  mem := h
  seen := List.not_mem_nil
  stored := List.not_mem_nil
  foreign n := by simp [JournalWriter.sampleEnv, Interleaving.foreign]

theorem stored_balanced_sample :
    ∃ e ∈ (sampleRun evenLines (List.cons_ne_nil _ _)).2.current.entries,
      ∃ l ∈ (sampleIntent evenLines (List.cons_ne_nil _ _)).ledgerIntents, StoredLaw l e := by
  have hlength : (sampleRun evenLines (List.cons_ne_nil _ _)).2.current.entries.length = 1 := by
    decide +kernel
  have hok : (sampleRun evenLines (List.cons_ne_nil _ _)).1.toOption.map (·.isSuccess) =
      some true := by decide +kernel
  obtain ⟨e, he⟩ := List.exists_mem_of_length_pos (by rw [hlength]; exact Nat.one_pos)
  obtain ⟨result, hresult, -⟩ := Traversals.exists_of_map_toOption hok
  have hrun : sampleRun evenLines (List.cons_ne_nil _ _) =
      (.ok result, (sampleRun evenLines (List.cons_ne_nil _ _)).2) := Prod.ext hresult rfl
  exact ⟨e, he, stored_balanced_iff hrun (createdBy_sample he)⟩

/-- **A stored entry that does not balance.**  The writer accepts the intent, the trigger lets the
entry be posted, and what is stored is a unit of the ninth place apart in both currencies. -/
theorem stored_unbalanced :
    let run := sampleRun unevenLines (List.cons_ne_nil _ _)
    run.1.toOption.map (·.isSuccess) = some true ∧
      ∃ e ∈ run.2.current.entries,
        CreatedBy (Table.self Journal) (JournalWriter.sampleEnv false)
          (Session.start Journal.empty) run.2 e ∧
        List.Forall₂ (StoredAs e.id) e.lines (e.lines.map (sampleRow e.id)) ∧
        enforceBalancedJournalEntry (e.lines.map (sampleRow e.id)) (sampleEntryRow e.id "draft")
          (sampleEntryRow e.id "posted") = true ∧
        ¬Balances (e.lines.map (sampleRow e.id)) := by
  intro run
  refine ⟨by decide +kernel, ?_⟩
  have hentries : run.2.current.entries.all (fun e =>
      e.lines.all (fun line => numeric line.amount =
          some (some (Decimal.quantize 9 line.amount.toRat))) &&
        enforceBalancedJournalEntry (e.lines.map (sampleRow e.id)) (sampleEntryRow e.id "draft")
          (sampleEntryRow e.id "posted") &&
        !decide (total "debit" ((e.lines.map (sampleRow e.id)).filter (·.currency = "USD")) =
          total "credit" ((e.lines.map (sampleRow e.id)).filter (·.currency = "USD")))) = true := by
    decide +kernel
  have hlength : run.2.current.entries.length = 1 := by decide +kernel
  obtain ⟨e, he⟩ := List.exists_mem_of_length_pos (by rw [hlength]; exact Nat.one_pos)
  have hall := List.all_eq_true.mp hentries e he
  simp only [Bool.and_eq_true, Bool.not_eq_true', List.all_eq_true, decide_eq_true_eq,
    decide_eq_false_iff_not] at hall
  obtain ⟨⟨hamounts, hpasses⟩, hunequal⟩ := hall
  exact ⟨e, he, createdBy_sample he, storedAs_sampleRow hamounts, hpasses,
    fun h => hunequal (h "USD")⟩

end StoredBalance

end FinanceAccounting
