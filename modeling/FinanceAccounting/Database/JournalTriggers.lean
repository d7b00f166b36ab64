import Mathlib.Algebra.Order.Field.Basic
import Mathlib.Algebra.Order.Ring.Rat
import FinanceAccounting.Library.KeyedSums
import FinanceAccounting.Library.RowStatements
import FinanceAccounting.Kernel.Values

/-! # The guards of `journal_entries` and `journal_lines`

Six row triggers protect posted entries from raw SQL: an entry is balanced when its status
changes to posted, its row can no longer be changed or deleted, and neither can its lines.  The
guard has three gaps.  Nothing looks at an entry that is inserted as posted; the balance is that of
all currencies together; and an update of a line looks at the entry the line leaves, not at the
one it comes to.

`posted_protected_iff` is the law of all runs of statements: posted entries are balanced in every
currency and never change if and only if no statement that is executed goes through a gap. -/

namespace FinanceAccounting.JournalTriggers

open KeyedSums
open RowStatements (Rules Statement Table)
open TransitionSystem (run Along Between Throughout along_cons along_nil)

/-! ### Tables -/

/-- A value of a `NUMERIC(38, 9)` column; `none` is `NaN`. -/
abbrev Numeric := Option ℚ

/-- A row of `journal_entries`; times are instants, in microseconds. -/
structure JournalEntry where
  id : String
  sourceEventId : String
  sourceEventType : String
  occurredAt : ℤ
  effectiveDate : Date
  postedAt : Option ℤ := none
  actorId : String
  status : String
  reversalOfId : Option String := none
  idempotencyKey : String
  postingRuleVersion : ℤ := 1
  coaVersion : Option ℤ := none
  dimensionSchemaVersion : Option ℤ := none
  roundingPolicyVersion : Option ℤ := none
  currencyRegistryVersion : Option ℤ := none
  seq : Option ℤ := none
  entryMetadata : Option String := none
  description : Option String := none
  createdAt : ℤ
  updatedAt : ℤ
  createdById : String
  updatedById : Option String := none
deriving DecidableEq

/-- A row of `journal_lines`. -/
structure JournalLine where
  id : String
  journalEntryId : String
  accountId : String
  side : String
  amount : Numeric
  currency : String
  dimensions : Option String := none
  isRounding : Bool := false
  lineMemo : Option String := none
  exchangeRateId : Option String := none
  lineSeq : ℤ := 0
  createdAt : ℤ
  updatedAt : ℤ
  createdById : String
  updatedById : Option String := none
deriving DecidableEq

/-- The keys of the tables: a line has its entry, idempotency keys, sequence numbers and reversed
entries are unique, and a reversal says so in its key. -/
def constraints (entries : List JournalEntry) (lines : List JournalLine) : Bool :=
  lines.all (fun line => entries.any (·.id = line.journalEntryId)) &&
    decide (entries.map (·.idempotencyKey)).Nodup && decide (entries.filterMap (·.seq)).Nodup &&
    decide (entries.filterMap (·.reversalOfId)).Nodup &&
    entries.all fun e => e.reversalOfId.all fun id =>
      entries.any (·.id = id) && "reversal:".toList.isPrefixOf e.idempotencyKey.toList

structure Journal where
  entries : Table JournalEntry.id
  lines : Table JournalLine.id
  constrained : constraints entries.rows lines.rows = true

def Journal.empty : Journal where
  entries := .empty _
  lines := .empty _
  constrained := rfl

def linesOf (lines : List JournalLine) (journalEntryId : String) : List JournalLine :=
  lines.filter (·.journalEntryId = journalEntryId)

/-- `SELECT status … WHERE id = …`. -/
def statusOf (entries : List JournalEntry) (id : String) : Option String :=
  (KeyedTable.get? JournalEntry.id entries id).map (·.status)

/-- `SUM`, zero for no rows. -/
def sumNumeric (xs : List Numeric) : Numeric :=
  if xs.all (·.isSome) then some (xs.map (·.getD 0)).sum else none

/-- `CASE WHEN side = … THEN amount ELSE 0 END`. -/
def amountOn (side : String) (line : JournalLine) : Numeric :=
  if line.side = side then line.amount else some 0

def total (side : String) (lines : List JournalLine) : Numeric :=
  sumNumeric (lines.map (amountOn side))

/-- The value has a place in `NUMERIC(38, 9)`; an assignment raises otherwise. -/
def fits (x : ℚ) : Bool := |x| < 10 ^ 29

/-! ### The triggers on entries -/

/-- A trigger that lets the statement pass returns `true`. -/
def enforceBalancedJournalEntry (lines : List JournalLine) (old new : JournalEntry) : Bool :=
  if old.status ≠ "posted" && new.status = "posted" then
    let entryLines := linesOf lines new.id
    match total "debit" entryLines, total "credit" entryLines with
    | some totalDebits, some totalCredits =>
        if !fits totalDebits || !fits totalCredits then false
        else if entryLines.length < 2 then false
        else if totalDebits - totalCredits ≠ 0 then false
        else if totalDebits ≤ 0 then false
        else true
    | _, _ => false
  else true

def preventPostedJournalEntryModification (old new : JournalEntry) : Bool :=
  if old.status ≠ "posted" && new.status = "posted" then true
  else if old.status = "posted" then false
  else true

def preventPostedJournalEntryDeletion (old : JournalEntry) : Bool :=
  if old.status = "posted" then false else true

/-! ### The triggers on lines -/

def preventPostedJournalLineModification (entries : List JournalEntry) (old : JournalLine) : Bool :=
  if statusOf entries old.journalEntryId = some "posted" then false else true

def preventPostedJournalLineDeletion (entries : List JournalEntry) (old : JournalLine) : Bool :=
  if statusOf entries old.journalEntryId = some "posted" then false else true

def preventLineInsertOnPostedEntry (entries : List JournalEntry) (new : JournalLine) : Bool :=
  if statusOf entries new.journalEntryId = some "posted" then false else true

/-! ### Statements -/

/-- There is no trigger before an insert of an entry. -/
def entryRules (lines : List JournalLine) : Rules JournalEntry where
  insert _ := true
  update old new :=
    enforceBalancedJournalEntry lines old new && preventPostedJournalEntryModification old new
  delete old := preventPostedJournalEntryDeletion old
  constraints entries := constraints entries lines

def lineRules (entries : List JournalEntry) : Rules JournalLine where
  insert new := preventLineInsertOnPostedEntry entries new
  update old _ := preventPostedJournalLineModification entries old
  delete old := preventPostedJournalLineDeletion entries old
  constraints lines := constraints entries lines

inductive Action where
  | entry (statement : Statement String JournalEntry)
  | line (statement : Statement String JournalLine)

/-- Execute a statement, and drop it if it is refused. -/
def step (j : Journal) : Action → Option Journal
  | .entry statement =>
      some {
        entries := j.entries.attempt (entryRules j.lines.rows) statement
        lines := j.lines
        constrained :=
          (Table.attempt_effect (entryRules j.lines.rows) j.entries statement).constraints
            j.constrained }
  | .line statement =>
      some {
        entries := j.entries
        lines := j.lines.attempt (lineRules j.entries.rows) statement
        constrained :=
          (Table.attempt_effect (lineRules j.entries.rows) j.lines statement).constraints
            j.constrained }

/-! ### The law -/

/-- At least two lines, and equal debits and credits in every currency. -/
structure Balanced (lines : List JournalLine) : Prop where
  two_le : 2 ≤ lines.length
  balanced : ∀ currency, total "debit" (lines.filter (·.currency = currency)) =
    total "credit" (lines.filter (·.currency = currency))

/-- Posted entries are balanced. -/
def Sound (j : Journal) : Prop :=
  ∀ e ∈ j.entries.rows, e.status = "posted" → Balanced (linesOf j.lines.rows e.id)

/-- A posted entry has its row and its lines in the later journal. -/
def Frozen (j j' : Journal) : Prop :=
  ∀ e ∈ j.entries.rows, e.status = "posted" →
    e ∈ j'.entries.rows ∧ linesOf j'.lines.rows e.id = linesOf j.lines.rows e.id

/-- A statement that is executed goes through none of the gaps. -/
structure Careful (j : Journal) (a : Action) : Prop where
  /-- No entry is inserted as posted. -/
  insert : ∀ row, a = .entry (.insert row) →
    (j.entries.execute (entryRules j.lines.rows) (.insert row)).isSome → row.status ≠ "posted"
  /-- When an entry is posted, its lines balance in every currency but one. -/
  post : ∀ old ∈ j.entries.rows, ∀ row, a = .entry (.update old.id row) →
    old.status ≠ "posted" → row.status = "posted" →
      (j.entries.execute (entryRules j.lines.rows) (.update old.id row)).isSome →
        ∃ currency, ∀ currency', currency' ≠ currency →
          total "debit" ((linesOf j.lines.rows row.id).filter (·.currency = currency')) =
            total "credit" ((linesOf j.lines.rows row.id).filter (·.currency = currency'))
  /-- No line comes to a posted entry. -/
  move : ∀ old ∈ j.lines.rows, ∀ row, a = .line (.update old.id row) →
    (j.lines.execute (lineRules j.entries.rows) (.update old.id row)).isSome →
      statusOf j.entries.rows row.journalEntryId ≠ some "posted"

section Law

variable {j j' : Journal} {a : Action} {e old new : JournalEntry} {line row : JournalLine}
variable {lines : List JournalLine} {entries : Table JournalEntry.id} {side : String}

/-! ### Sums -/

theorem sumNumeric_eq_some {xs : List Numeric} {x : ℚ} :
    sumNumeric xs = some x ↔ (∀ y ∈ xs, y.isSome) ∧ (xs.map (·.getD 0)).sum = x := by
  unfold sumNumeric
  split
  · rename_i hall
    rw [List.all_eq_true] at hall
    rw [Option.some.injEq]
    exact (and_iff_right hall).symm
  · rename_i hall
    rw [List.all_eq_true] at hall
    exact iff_of_false (Option.some_ne_none x).symm fun h => hall h.1

/-- A line as debits less credits see it. -/
def net (line : JournalLine) : ℚ :=
  ((amountOn "debit" line).getD 0) - ((amountOn "credit" line).getD 0)

/-- No line of a side is `NaN`. -/
def Finite (lines : List JournalLine) : Prop :=
  ∀ line ∈ lines, (amountOn "debit" line).isSome ∧ (amountOn "credit" line).isSome

theorem total_of_isSome (h : ∀ line ∈ lines, (amountOn side line).isSome) :
    total side lines = some (lines.map fun line => (amountOn side line).getD 0).sum := by
  refine sumNumeric_eq_some.mpr ⟨fun y hy => ?_, ?_⟩
  · obtain ⟨line, hline, rfl⟩ := List.mem_map.mp hy
    exact h line hline
  · rw [List.map_map]
    rfl

/-- Debits are credits when the net amount is zero. -/
theorem totals_eq_iff (h : Finite lines) :
    total "debit" lines = total "credit" lines ↔ (lines.map net).sum = 0 := by
  rw [total_of_isSome fun line hline => (h line hline).1,
    total_of_isSome fun line hline => (h line hline).2, Option.some.injEq]
  have hnet : (lines.map net).sum =
      (lines.map fun line => (amountOn "debit" line).getD 0).sum -
        (lines.map fun line => (amountOn "credit" line).getD 0).sum := by
    clear h
    induction lines with
    | nil => simp
    | cons line lines ih =>
        rw [List.map_cons, List.map_cons, List.map_cons, List.sum_cons, List.sum_cons,
          List.sum_cons, ih, add_sub_add_comm]
        rfl
  rw [hnet, sub_eq_zero]

theorem Finite.filter (h : Finite lines) (p : JournalLine → Bool) : Finite (lines.filter p) :=
  fun line hline => h line (List.mem_of_mem_filter hline)

/-- **What the trigger checks**: two lines, and a balance over all currencies together. -/
theorem checked_of_enforced (hold : old.status ≠ "posted") (hnew : new.status = "posted")
    (h : enforceBalancedJournalEntry lines old new = true) :
    2 ≤ (linesOf lines new.id).length ∧ Finite (linesOf lines new.id) ∧
      ((linesOf lines new.id).map net).sum = 0 := by
  unfold enforceBalancedJournalEntry at h
  rw [if_pos (by simp [hold, hnew])] at h
  dsimp only at h
  cases hdebit : total "debit" (linesOf lines new.id) with
  | none => simp [hdebit] at h
  | some totalDebits =>
      cases hcredit : total "credit" (linesOf lines new.id) with
      | none => simp [hdebit, hcredit] at h
      | some totalCredits =>
          simp only [hdebit, hcredit] at h
          have hfinite : Finite (linesOf lines new.id) := fun line hline =>
            ⟨(sumNumeric_eq_some.mp hdebit).1 _ (List.mem_map_of_mem hline),
              (sumNumeric_eq_some.mp hcredit).1 _ (List.mem_map_of_mem hline)⟩
          split at h
          · cases h
          · split at h
            · cases h
            · rename_i hlength
              split at h
              · cases h
              · rename_i hdifference
                have heq : totalDebits = totalCredits := sub_eq_zero.mp (not_not.mp hdifference)
                refine ⟨not_lt.mp hlength, hfinite, (totals_eq_iff hfinite).mp ?_⟩
                rw [hdebit, hcredit, heq]

/-- **The currency that is left** balances when all others do. -/
theorem Balanced.of_checked (htwo : 2 ≤ lines.length) (hfinite : Finite lines)
    (hsum : (lines.map net).sum = 0) {currency : String}
    (hothers : ∀ currency', currency' ≠ currency →
      total "debit" (lines.filter (·.currency = currency')) =
        total "credit" (lines.filter (·.currency = currency'))) : Balanced lines := by
  refine ⟨htwo, fun currency' => ?_⟩
  by_cases hcurrency : currency' = currency
  · subst hcurrency
    refine (totals_eq_iff (hfinite.filter _)).mpr ?_
    have hzero : ∀ k, k ≠ currency' →
        ((lines.filter fun line => line.currency = k).map net).sum = 0 := fun k hk =>
      (totals_eq_iff (hfinite.filter _)).mp (hothers k hk)
    exact sum_filter_of_others currency' hsum hzero
  · exact hothers currency' hcurrency

/-! ### Statements on entries -/

theorem statusOf_of_mem (h : e ∈ entries.rows) : statusOf entries.rows e.id = some e.status := by
  unfold statusOf
  rw [Table.get?_of_mem h, Option.map_some]

theorem not_modified (h : old.status = "posted") :
    preventPostedJournalEntryModification old new = false := by
  unfold preventPostedJournalEntryModification
  rw [if_neg (by simp [h]), if_pos h]

theorem not_deleted (h : old.status = "posted") : preventPostedJournalEntryDeletion old = false :=
  if_pos h

/-- What the triggers let pass changes an entry that is not posted. -/
theorem unposted_of_updated (hpasses : (entryRules lines).update old new = true) :
    old.status ≠ "posted" ∧ enforceBalancedJournalEntry lines old new = true := by
  obtain ⟨hbalanced, hmodified⟩ := (Bool.and_eq_true _ _).mp hpasses
  refine ⟨fun hold => ?_, hbalanced⟩
  rw [not_modified hold] at hmodified
  cases hmodified

/-- A line has its entry. -/
theorem Journal.exists_entry (j : Journal) (hline : line ∈ j.lines.rows) :
    ∃ e ∈ j.entries.rows, e.id = line.journalEntryId := by
  have hall := j.constrained
  simp only [constraints, Bool.and_eq_true] at hall
  obtain ⟨e, he, hid⟩ := List.any_eq_true.mp (List.all_eq_true.mp hall.1.1.1.1 line hline)
  exact ⟨e, he, of_decide_eq_true hid⟩

/-- Posted entries stay, and no line is touched. -/
theorem frozen_entry (statement : Statement String JournalEntry)
    (hstep : step j (.entry statement) = some j') : Frozen j j' := by
  obtain rfl := Option.some.inj hstep
  intro e he hposted
  refine ⟨?_, rfl⟩
  rcases (Table.attempt_effect (entryRules j.lines.rows) j.entries statement).kept he with
    hkept | ⟨row, -, -, hpasses⟩ | ⟨-, hpasses⟩
  · exact hkept
  · have hmodified := ((Bool.and_eq_true _ _).mp hpasses).2
    rw [not_modified hposted] at hmodified
    cases hmodified
  · have hdeleted : preventPostedJournalEntryDeletion e = true := hpasses
    rw [not_deleted hposted] at hdeleted
    cases hdeleted

theorem sound_entry (statement : Statement String JournalEntry) (hsound : Sound j)
    (ha : Careful j (.entry statement)) (hstep : step j (.entry statement) = some j') :
    Sound j' := by
  obtain rfl := Option.some.inj hstep
  intro e he hposted
  show Balanced (linesOf j.lines.rows e.id)
  have he : e ∈ (j.entries.attempt (entryRules j.lines.rows) statement).rows := he
  cases hexecute : j.entries.execute (entryRules j.lines.rows) statement with
  | none =>
      rw [Table.attempt, hexecute, Option.getD_none] at he
      exact hsound e he hposted
  | some entries =>
      rw [Table.attempt_of_execute hexecute] at he
      have hsome : (j.entries.execute (entryRules j.lines.rows) statement).isSome := by
        rw [hexecute, Option.isSome_some]
      rcases (Table.execute_effect hexecute).origin he with
        hold | ⟨rfl, -⟩ | ⟨old, hold, rfl, hpasses⟩
      · exact hsound e hold hposted
      · exact absurd hposted (ha.insert e rfl hsome)
      · obtain ⟨hunposted, hbalanced⟩ := unposted_of_updated hpasses
        obtain ⟨htwo, hfinite, hsum⟩ := checked_of_enforced hunposted hposted hbalanced
        obtain ⟨currency, hothers⟩ := ha.post old hold e rfl hunposted hposted hsome
        exact .of_checked htwo hfinite hsum hothers

/-- An entry that is inserted has no lines. -/
theorem linesOf_of_inserted {t : Table JournalEntry.id}
    (h : j.entries.execute (entryRules j.lines.rows) (.insert e) = some t) :
    linesOf j.lines.rows e.id = [] := by
  refine List.filter_eq_nil_iff.mpr fun line hline hid => ?_
  obtain ⟨old, hold, holdId⟩ := j.exists_entry hline
  have hkeys := t.keys_nodup
  rw [(Table.rows_of_insert h).2, List.map_append] at hkeys
  refine (List.nodup_append'.mp hkeys).2.2 (List.mem_map_of_mem hold) ?_
  rw [holdId, of_decide_eq_true hid]
  exact List.mem_singleton_self e.id

/-! ### Statements on lines -/

theorem unposted_of_touched (h : (if statusOf entries.rows line.journalEntryId = some "posted"
    then false else true) = true) (he : e ∈ entries.rows) (hposted : e.status = "posted") :
    decide (line.journalEntryId = e.id) = false := by
  refine decide_eq_false fun hid => ?_
  rw [hid, statusOf_of_mem he, hposted, if_pos rfl] at h
  cases h

theorem frozen_line (statement : Statement String JournalLine)
    (ha : Careful j (.line statement)) (hstep : step j (.line statement) = some j') :
    Frozen j j' := by
  obtain rfl := Option.some.inj hstep
  intro e he hposted
  refine ⟨he, ?_⟩
  show linesOf (j.lines.attempt (lineRules j.entries.rows) statement).rows e.id = _
  cases hexecute : j.lines.execute (lineRules j.entries.rows) statement with
  | none => rw [Table.attempt, hexecute, Option.getD_none]
  | some t =>
      rw [Table.attempt_of_execute hexecute]
      refine (Table.execute_effect hexecute).filter_eq ?_ ?_ ?_
      · intro row _ hpasses
        exact unposted_of_touched hpasses he hposted
      · rintro old hold row rfl hpasses
        refine ⟨unposted_of_touched hpasses he hposted, decide_eq_false fun hid => ?_⟩
        have hmoved := ha.move old hold row rfl (by rw [hexecute, Option.isSome_some])
        rw [hid, statusOf_of_mem he, hposted] at hmoved
        exact hmoved rfl
      · intro old _ _ hpasses
        exact unposted_of_touched hpasses he hposted

/-- A line that comes to an entry is one more. -/
theorem length_linesOf_moved {t : Table JournalLine.id} {moved : JournalLine}
    (hold : moved ∈ j.lines.rows)
    (h : j.lines.execute (lineRules j.entries.rows) (.update moved.id row) = some t)
    (hposted : statusOf j.entries.rows row.journalEntryId = some "posted") :
    linesOf t.rows row.journalEntryId ≠ linesOf j.lines.rows row.journalEntryId := by
  obtain ⟨hpasses, hrows⟩ := Table.rows_of_update hold h
  have hleft : moved.journalEntryId ≠ row.journalEntryId := by
    intro hsame
    have hunposted : preventPostedJournalLineModification j.entries.rows moved = true := hpasses
    unfold preventPostedJournalLineModification at hunposted
    rw [hsame, hposted, if_pos rfl] at hunposted
    cases hunposted
  have hcount := @KeyedTable.countP_replaceAt _ _ _ JournalLine.id _ row moved
    (fun line => decide (line.journalEntryId = row.journalEntryId)) j.lines.keys_nodup hold
  rw [decide_eq_false hleft, decide_eq_true rfl, ← hrows] at hcount
  intro hlines
  have hlength := congrArg List.length hlines
  unfold linesOf at hlength
  rw [← List.countP_eq_length_filter, ← List.countP_eq_length_filter] at hlength
  simp at hcount
  omega

/-! ### Runs -/

theorem careful_of_kept (hsound : Sound j') (hfrozen : Frozen j j') (hstep : step j a = some j') :
    Careful j a := by
  constructor
  · rintro row rfl hexecutes hposted
    obtain ⟨t, hexecute⟩ := Option.isSome_iff_exists.mp hexecutes
    obtain rfl := Option.some.inj hstep
    have hrow : row ∈ (j.entries.attempt (entryRules j.lines.rows) (.insert row)).rows := by
      rw [Table.attempt_of_execute hexecute, (Table.rows_of_insert hexecute).2]
      exact List.mem_append_right _ (List.mem_singleton_self row)
    have htwo : 2 ≤ (linesOf j.lines.rows row.id).length := (hsound row hrow hposted).two_le
    rw [linesOf_of_inserted hexecute] at htwo
    simp at htwo
  · rintro old hold row rfl - hposted hexecutes
    obtain ⟨t, hexecute⟩ := Option.isSome_iff_exists.mp hexecutes
    obtain rfl := Option.some.inj hstep
    have hrow : row ∈
        (j.entries.attempt (entryRules j.lines.rows) (.update old.id row)).rows := by
      rw [Table.attempt_of_execute hexecute, (Table.rows_of_update hold hexecute).2]
      exact KeyedTable.mem_replaceAt_self hold
    exact ⟨"", fun currency _ => (hsound row hrow hposted).balanced currency⟩
  · rintro old hold row rfl hexecutes hposted
    obtain ⟨t, hexecute⟩ := Option.isSome_iff_exists.mp hexecutes
    obtain rfl := Option.some.inj hstep
    obtain ⟨e, he, hid⟩ : ∃ e ∈ j.entries.rows, e.id = row.journalEntryId := by
      obtain ⟨e, hget, -⟩ := Option.map_eq_some_iff.mp hposted
      exact ⟨e, KeyedTable.mem_of_get? hget⟩
    have hstatus : e.status = "posted" := by
      have hsame := statusOf_of_mem he
      rw [hid, hposted] at hsame
      exact (Option.some.inj hsame).symm
    have hlines : linesOf (j.lines.attempt (lineRules j.entries.rows) (.update old.id row)).rows
        e.id = linesOf j.lines.rows e.id := (hfrozen e he hstatus).2
    rw [Table.attempt_of_execute hexecute, hid] at hlines
    exact length_linesOf_moved hold hexecute hposted hlines

/-- **The step lemma**: a statement keeps posted entries balanced and as they are if and only if
it goes through none of the gaps. -/
theorem kept_iff_careful (j : Journal) (a : Action) (j' : Journal) (hsound : Sound j)
    (hstep : step j a = some j') : Sound j' ∧ Frozen j j' ↔ Careful j a := by
  refine ⟨fun h => careful_of_kept h.1 h.2 hstep, fun ha => ?_⟩
  cases a with
  | entry statement =>
      exact ⟨sound_entry statement hsound ha hstep, frozen_entry statement hstep⟩
  | line statement =>
      have hfrozen := frozen_line statement ha hstep
      refine ⟨fun e he hposted => ?_, hfrozen⟩
      have hsame : j'.entries = j.entries := by
        obtain rfl := Option.some.inj hstep
        rfl
      rw [hsame] at he
      rw [(hfrozen e he hposted).2]
      exact hsound e he hposted

theorem frozen_refl (j : Journal) : Frozen j j := fun _ he _ => ⟨he, rfl⟩

theorem frozen_trans (j₁ j₂ j₃ : Journal) (h : Frozen j₁ j₂) (h' : Frozen j₂ j₃) :
    Frozen j₁ j₃ := by
  intro e he hposted
  obtain ⟨he', hlines⟩ := h e he hposted
  obtain ⟨he'', hlines'⟩ := h' e he' hposted
  exact ⟨he'', hlines'.trans hlines⟩

/-- **Posted entries are balanced in every currency, and never change**, in a run of statements if
and only if no statement that is executed inserts an entry as posted, posts one that is out of
balance in two currencies, or moves a line to a posted entry. -/
theorem posted_protected_iff (j : Journal) (actions : List Action) (hj : Sound j) :
    Throughout step Sound j actions ∧ Between step Frozen j actions ↔
      Along step Careful j actions :=
  TransitionSystem.throughout_between_iff_along (fun _ a => by cases a <;> rfl) frozen_refl
    frozen_trans kept_iff_careful hj actions

/-! ### Statements through the gaps -/

def sampleEntry (id status : String) : JournalEntry where
  id := id
  sourceEventId := "v1"
  sourceEventType := "ap.invoice"
  occurredAt := 0
  effectiveDate := sampleTime.date
  actorId := "u1"
  status := status
  idempotencyKey := id
  createdAt := 0
  updatedAt := 0
  createdById := "u1"

def sampleLine (id journalEntryId side currency : String) (amount : ℚ) : JournalLine where
  id := id
  journalEntryId := journalEntryId
  accountId := "a1"
  side := side
  amount := some amount
  currency := currency
  createdAt := 0
  updatedAt := 0
  createdById := "u1"

/-- A draft with a debit and a credit, and its posting. -/
def samplePosting (currency : String) : List Action :=
  [.entry (.insert (sampleEntry "e1" "draft")),
    .line (.insert (sampleLine "l1" "e1" "debit" "USD" 100)),
    .line (.insert (sampleLine "l2" "e1" "credit" currency 100)),
    .entry (.update "e1" (sampleEntry "e1" "posted"))]

/-- A line of a draft comes to the posted entry. -/
def sampleMove : List Action :=
  samplePosting "USD" ++
    [.entry (.insert (sampleEntry "e2" "draft")),
      .line (.insert (sampleLine "l3" "e2" "debit" "USD" 1)),
      .line (.update "l3" (sampleLine "l3" "e1" "debit" "USD" 1))]

theorem sound_empty : Sound Journal.empty := by
  intro e he
  cases he

theorem careful_insert_line (j : Journal) (row : JournalLine) :
    Careful j (.line (.insert row)) :=
  ⟨fun _ h => (by cases h), fun _ _ _ h => (by cases h), fun _ _ _ h => (by cases h)⟩

theorem careful_samplePosting : Along step Careful Journal.empty (samplePosting "USD") := by
  refine along_cons.mpr ⟨?_, fun j₁ h₁ => along_cons.mpr ⟨careful_insert_line j₁ _, fun j₂ h₂ =>
    along_cons.mpr ⟨careful_insert_line j₂ _, fun j₃ h₃ => along_cons.mpr ⟨?_, fun _ _ =>
      along_nil⟩⟩⟩⟩
  · refine ⟨fun row h _ => ?_, fun _ _ _ h => (by cases h), fun _ _ _ h => (by cases h)⟩
    obtain rfl := Statement.insert.inj (Action.entry.inj h)
    decide
  · refine ⟨fun _ h => (by cases h), fun old _ row h _ _ _ => ?_, fun _ _ _ h => (by cases h)⟩
    obtain ⟨-, rfl⟩ := Statement.update.inj (Action.entry.inj h)
    obtain rfl := Option.some.inj h₁
    obtain rfl := Option.some.inj h₂
    obtain rfl := Option.some.inj h₃
    refine ⟨"USD", fun currency hcurrency => ?_⟩
    have hlines : ∀ j : Journal, linesOf j.lines.rows "e1" =
        [sampleLine "l1" "e1" "debit" "USD" 100, sampleLine "l2" "e1" "credit" "USD" 100] →
          (linesOf j.lines.rows "e1").filter (·.currency = currency) = [] := by
      intro j hj
      rw [hj]
      simp [sampleLine, hcurrency.symm]
    rw [show (sampleEntry "e1" "posted").id = "e1" from rfl, hlines _ (by decide +kernel)]
    rfl

theorem sample_posting_protected :
    Throughout step Sound Journal.empty (samplePosting "USD") ∧
      Between step Frozen Journal.empty (samplePosting "USD") := by
  exact (posted_protected_iff Journal.empty (samplePosting "USD") sound_empty).mpr
    careful_samplePosting

/-- **Each of the gaps breaks the law**: an entry that is posted without lines, one that is posted
with dollars against euros, and a posted entry that gains a line. -/
theorem posted_unprotected :
    ¬Throughout step Sound Journal.empty [.entry (.insert (sampleEntry "e1" "posted"))] ∧
      ¬Throughout step Sound Journal.empty (samplePosting "EUR") ∧
      ¬Between step Frozen Journal.empty sampleMove := by
  refine ⟨fun h => ?_, fun h => ?_, fun h => ?_⟩
  · have htwo := (h [.entry (.insert (sampleEntry "e1" "posted"))] [] _ rfl rfl
      (sampleEntry "e1" "posted") (by decide +kernel) rfl).two_le
    revert htwo
    decide +kernel
  · have hbalanced := (h (samplePosting "EUR") [] _ rfl rfl (sampleEntry "e1" "posted")
      (by decide +kernel) rfl).balanced "EUR"
    revert hbalanced
    decide +kernel
  · have hlines := (h (samplePosting "USD") (sampleMove.drop 4) [] _ _ rfl rfl rfl
      (sampleEntry "e1" "posted") (by decide +kernel) rfl).2
    revert hlines
    decide +kernel

end Law

end FinanceAccounting.JournalTriggers
