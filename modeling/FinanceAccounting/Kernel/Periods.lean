import Mathlib.Order.CompletePartialOrder
import Mathlib.Order.Interval.Set.Basic
import FinanceAccounting.Library.TransitionSystem
import FinanceAccounting.Kernel.ModulePosting

/-! # Fiscal periods

`PeriodService` over the rows of `fiscal_periods`: creation with the overlap check, the close
lock (`begin_closing`, `cancel_closing`), closing, locking, and the switches for adjustments.  An
operation reads rows, raises, or flushes one new or changed row; a refused flush rolls the
session back.

`periods_lawful` is the invariant of the store over all runs.  The lock belongs to a run only as
far as `begin_closing` is concerned: the operations that end a close carry no run, so any caller
may end it (`close_ended_by_any_caller`). -/

namespace FinanceAccounting.Periods

open TransitionSystem (run Along Throughout)
open ModulePosting (PeriodStatus)
open UnitOfWork (Session Logged Change)

/-! ### Rows and errors -/

def statusStr : PeriodStatus → String
  | .open => "open"
  | .closing => "closing"
  | .closed => "closed"
  | .locked => "locked"

/-- A row of `fiscal_periods`. -/
structure FiscalPeriod where
  id : UUID
  periodCode : String
  name : String
  startDate : Date
  endDate : Date
  status : PeriodStatus
  /-- The run of the close that holds the period. -/
  closingRunId : Option UUID := none
  closedAt : Option Datetime := none
  closedById : Option UUID := none
  allowsAdjustments : Bool := false
  createdById : UUID

def FiscalPeriod.isClosed (p : FiscalPeriod) : Bool := p.status = .closed || p.status = .locked

/-- The days of a period. -/
def FiscalPeriod.days (p : FiscalPeriod) : Set Date := Set.Icc p.startDate p.endDate

inductive PeriodError where
  | valueError (message : String)
  /-- `.value` of a status that was read from the database. -/
  | attributeError
  | multipleResultsFound
  | periodOverlap (newPeriodCode existingPeriodCode overlapStart overlapEnd : String)
  | periodNotFound (period : String)
  | periodAlreadyClosed (periodCode : String)
  | periodClosing (periodCode : String)
  | closedPeriod (periodCode effectiveDate : String)
  | adjustmentsNotAllowed (periodCode : String)
  | periodImmutable (periodCode operation : String)

/-- Rows in the order of their creation. -/
abbrev PeriodTable := List FiscalPeriod

/-- `scalar_one_or_none`. -/
def scalarOneOrNone : PeriodTable → Except PeriodError (Option FiscalPeriod)
  | [] => .ok none
  | [p] => .ok (some p)
  | _ :: _ :: _ => .error .multipleResultsFound

/-- The row with a code, for reading or for update. -/
def getPeriodOrm (table : PeriodTable) (periodCode : String) :
    Except PeriodError (Option FiscalPeriod) :=
  scalarOneOrNone (table.filter (·.periodCode = periodCode))

def getPeriodForDateOrm (table : PeriodTable) (effectiveDate : Date) :
    Except PeriodError (Option FiscalPeriod) :=
  scalarOneOrNone (table.filter fun p => p.startDate ≤ effectiveDate && effectiveDate ≤ p.endDate)

/-! ### Validation of postings -/

/-- R12, R25 and R13. -/
def validateAdjustmentAllowed (table : PeriodTable) (effectiveDate : Date)
    (isAdjustment isClosePosting : Bool) : Except PeriodError Unit :=
  (getPeriodForDateOrm table effectiveDate).bind fun
    | none => .error (.periodNotFound effectiveDate.str)
    | some p =>
        if p.isClosed then .error (.closedPeriod p.periodCode effectiveDate.str)
        else if p.status = .closing ∧ isClosePosting = false then
          .error (.periodClosing p.periodCode)
        else if isAdjustment && !p.allowsAdjustments then
          .error (.adjustmentsNotAllowed p.periodCode)
        else .ok ()

/-- R12 and R25. -/
def validateEffectiveDate (table : PeriodTable) (effectiveDate : Date) (isClosePosting : Bool) :
    Except PeriodError Unit :=
  validateAdjustmentAllowed table effectiveDate false isClosePosting

/-! ### Operations -/

/-- The arguments of `create_period`, with the identifier the row gets. -/
structure Creation where
  newId : UUID
  periodCode : String
  name : String
  startDate : Date
  endDate : Date
  actorId : UUID
  allowsAdjustments : Bool := false

section Service

variable (table : PeriodTable)

/-- Rows whose days meet those of a new period. -/
def overlapping (startDate endDate : Date) : PeriodTable :=
  table.filter fun p => p.startDate ≤ endDate && startDate ≤ p.endDate

def validateNoOverlap (newPeriodCode : String) (startDate endDate : Date) :
    Except PeriodError Unit :=
  (scalarOneOrNone (overlapping table startDate endDate)).bind fun
    | none => .ok ()
    | some p =>
        .error (.periodOverlap newPeriodCode p.periodCode (max startDate p.startDate).str
          (min endDate p.endDate).str)

def createPeriod (c : Creation) : Except PeriodError (Change FiscalPeriod) :=
  if c.endDate < c.startDate then
    .error (.valueError ("start_date (" ++ c.startDate.str ++ ") cannot be after end_date (" ++
      c.endDate.str ++ ")"))
  else
    (validateNoOverlap table c.periodCode c.startDate c.endDate).map fun _ =>
      { before := none
        after :=
          { id := c.newId
            periodCode := c.periodCode
            name := c.name
            startDate := c.startDate
            endDate := c.endDate
            status := .open
            allowsAdjustments := c.allowsAdjustments
            createdById := c.actorId } }

/-- The checks of an operation on the row with a code, and what it makes of it. -/
def updatePeriod (periodCode : String) (f : FiscalPeriod → Except PeriodError FiscalPeriod) :
    Except PeriodError (Change FiscalPeriod) :=
  (getPeriodOrm table periodCode).bind fun
    | none => .error (.periodNotFound periodCode)
    | some p => (f p).map fun p' => ⟨some p, p'⟩

def closePeriod (periodCode : String) (actorId : UUID) (now : Datetime) :=
  updatePeriod table periodCode fun p =>
    if p.isClosed then .error (.periodAlreadyClosed periodCode)
    else
      .ok { p with
        status := .closed
        closedAt := some now
        closedById := some actorId
        closingRunId := none }

/-- Acquire the close lock (R25). -/
def beginClosing (periodCode : String) (closingRunId : UUID) :=
  updatePeriod table periodCode fun p =>
    if p.isClosed then .error (.periodAlreadyClosed periodCode)
    else if p.status = .closing then .error (.periodClosing periodCode)
    else .ok { p with status := .closing, closingRunId := some closingRunId }

/-- The message names the status; one that was read from the database is a plain text without
`.value`. -/
def wrongStatus (p : FiscalPeriod) (text : String) (loaded : Bool) : PeriodError :=
  if loaded then .attributeError
  else .valueError (text ++ " (current: " ++ statusStr p.status ++ ")")

/-- Release the close lock. -/
def cancelClosing (periodCode : String) (loaded : Bool) :=
  updatePeriod table periodCode fun p =>
    if p.status ≠ .closing then
      .error (wrongStatus p ("Period " ++ periodCode ++ " is not in CLOSING state") loaded)
    else .ok { p with status := .open, closingRunId := none }

def lockPeriod (periodCode : String) (loaded : Bool) :=
  updatePeriod table periodCode fun p =>
    if p.status ≠ .closed then
      .error (wrongStatus p ("Period " ++ periodCode ++ " must be CLOSED to lock") loaded)
    else .ok { p with status := .locked }

/-- R13: only periods that are not closed can be modified. -/
def setAdjustments (periodCode operation : String) (allowed : Bool) :=
  updatePeriod table periodCode fun p =>
    if p.isClosed then .error (.periodImmutable periodCode operation)
    else .ok { p with allowsAdjustments := allowed }

def enableAdjustments (periodCode : String) :=
  setAdjustments table periodCode "enable adjustments on" true

def disableAdjustments (periodCode : String) :=
  setAdjustments table periodCode "disable adjustments on" false

/-- Nothing is ever reopened: a closed period is immutable and another one is left alone. -/
def reopenPeriod (periodCode : String) :=
  updatePeriod table periodCode fun p =>
    if p.isClosed then .error (.periodImmutable periodCode "reopen") else .ok p

inductive Operation where
  | createPeriod (c : Creation)
  | beginClosing (periodCode : String) (closingRunId : UUID)
  | cancelClosing (periodCode : String) (loaded : Bool)
  | closePeriod (periodCode : String) (actorId : UUID) (now : Datetime)
  | lockPeriod (periodCode : String) (loaded : Bool)
  | enableAdjustments (periodCode : String)
  | disableAdjustments (periodCode : String)
  | reopenPeriod (periodCode : String)

/-- The row an operation adds or changes, or what it raises. -/
def Operation.apply : Operation → Except PeriodError (Change FiscalPeriod)
  | .createPeriod c => Periods.createPeriod table c
  | .beginClosing code runId => Periods.beginClosing table code runId
  | .cancelClosing code loaded => Periods.cancelClosing table code loaded
  | .closePeriod code actorId now => Periods.closePeriod table code actorId now
  | .lockPeriod code loaded => Periods.lockPeriod table code loaded
  | .enableAdjustments code => Periods.enableAdjustments table code
  | .disableAdjustments code => Periods.disableAdjustments table code
  | .reopenPeriod code => Periods.reopenPeriod table code

end Service

/-- The run an operation carries. -/
def Operation.closingRunId : Operation → Option UUID
  | .beginClosing _ runId => some runId
  | _ => none

/-- Put a flushed row into the table. -/
def put (table : PeriodTable) (c : Change FiscalPeriod) : PeriodTable :=
  match c.before with
  | none => table ++ [c.after]
  | some p => table.map fun q => if q.periodCode = p.periodCode then c.after else q

/-- `uq_period_code` and the primary key. -/
def refuses (table : PeriodTable) (c : Change FiscalPeriod) : Bool :=
  c.before.isNone && table.any fun p => p.periodCode = c.after.periodCode || p.id = c.after.id

/-! ### Sessions -/

abbrev Log := Logged PeriodTable FiscalPeriod

structure Call where
  operation : Operation
  flushRefused : Bool := false

inductive Action where
  | call (c : Call)
  | commit
  | rollback

/-- A call that raises before its flush leaves the session as it is. -/
def Call.perform (c : Call) (s : Session Log) : Session Log :=
  match c.operation.apply s.current.tables with
  | .error _ => s
  | .ok change =>
      if c.flushRefused || refuses s.current.tables change then s.rollback
      else s.flush (s.current.become (put s.current.tables change) [change])

def step (s : Session Log) : Action → Option (Session Log)
  | .call c => some (c.perform s)
  | .commit => some s.commit
  | .rollback => some s.rollback

def start : Session Log := Session.start (Logged.start [])

/-! ### What an operation does -/

variable {table : PeriodTable}

theorem scalarOneOrNone_eq_some {p : FiscalPeriod} :
    scalarOneOrNone table = .ok (some p) ↔ table = [p] := by
  rcases table with _ | ⟨q, _ | ⟨r, rest⟩⟩ <;> simp [scalarOneOrNone]

theorem scalarOneOrNone_eq_none : scalarOneOrNone table = .ok none ↔ table = [] := by
  rcases table with _ | ⟨q, _ | ⟨r, rest⟩⟩ <;> simp [scalarOneOrNone]

theorem getPeriodOrm_mem {periodCode : String} {p : FiscalPeriod}
    (h : getPeriodOrm table periodCode = .ok (some p)) : p ∈ table ∧ p.periodCode = periodCode := by
  have hmem : p ∈ table.filter (·.periodCode = periodCode) := by
    rw [scalarOneOrNone_eq_some.mp h]
    exact List.mem_singleton_self p
  simpa using hmem

theorem updatePeriod_eq_ok {periodCode : String} {f : FiscalPeriod → Except PeriodError FiscalPeriod}
    {c : Change FiscalPeriod} (h : updatePeriod table periodCode f = .ok c) :
    ∃ p ∈ table, p.periodCode = periodCode ∧ f p = .ok c.after ∧ c.before = some p := by
  unfold updatePeriod at h
  cases hp : getPeriodOrm table periodCode with
  | error e =>
      rw [hp] at h
      cases h
  | ok found =>
      rw [hp] at h
      cases found with
      | none => cases h
      | some p =>
          simp only [Except.bind] at h
          cases hf : f p with
          | error e =>
              rw [hf] at h
              cases h
          | ok p' =>
              rw [hf] at h
              cases h
              obtain ⟨hmem, hcode⟩ := getPeriodOrm_mem hp
              exact ⟨p, hmem, hcode, hf, rfl⟩

/-- The status changes of the lifecycle. -/
def allowedTransitions : List (PeriodStatus × PeriodStatus) :=
  [(.open, .closing), (.closing, .open), (.open, .closed), (.closing, .closed), (.closed, .locked)]

/-- How an operation changes a row. -/
structure Moved (p p' : FiscalPeriod) : Prop where
  id_eq : p'.id = p.id
  periodCode_eq : p'.periodCode = p.periodCode
  startDate_eq : p'.startDate = p.startDate
  endDate_eq : p'.endDate = p.endDate
  status : p'.status = p.status ∨ (p.status, p'.status) ∈ allowedTransitions
  /-- A row that was fine keeps its run exactly while it is CLOSING. -/
  closingRunId : (p.closingRunId.isSome ↔ p.status = .closing) →
    (p'.closingRunId.isSome ↔ p'.status = .closing)

/-- A new row, apart from all others. -/
structure Created (table : PeriodTable) (p' : FiscalPeriod) : Prop where
  ordered : p'.startDate ≤ p'.endDate
  apart : ∀ p ∈ table, Disjoint p.days p'.days
  status_eq : p'.status = .open
  closingRunId_eq : p'.closingRunId = none

theorem disjoint_days {p q : FiscalPeriod}
    (h : ¬(p.startDate ≤ q.endDate ∧ q.startDate ≤ p.endDate)) : Disjoint p.days q.days := by
  rw [Set.disjoint_left]
  intro d hp hq
  exact h ⟨hp.1.trans hq.2, hq.1.trans hp.2⟩

theorem created_createPeriod {c : Creation} {change : Change FiscalPeriod}
    (h : createPeriod table c = .ok change) :
    change.before = none ∧ Created table change.after := by
  unfold createPeriod at h
  split at h
  · cases h
  · rename_i hordered
    unfold validateNoOverlap at h
    cases hs : scalarOneOrNone (overlapping table c.startDate c.endDate) with
    | error e =>
        rw [hs] at h
        cases h
    | ok found =>
        rw [hs] at h
        cases found with
        | some p => cases h
        | none =>
            cases h
            refine ⟨rfl, not_lt.mp hordered, fun p hp => disjoint_days fun hmeet => ?_, rfl, rfl⟩
            have hnone := scalarOneOrNone_eq_none.mp hs
            have hmem : p ∈ overlapping table c.startDate c.endDate := by
              simp only [overlapping, List.mem_filter, Bool.and_eq_true, decide_eq_true_eq]
              exact ⟨hp, hmeet⟩
            rw [hnone] at hmem
            cases hmem

theorem moved_closePeriod {periodCode : String} {actorId : UUID} {now : Datetime}
    {c : Change FiscalPeriod} (h : closePeriod table periodCode actorId now = .ok c) :
    ∃ p ∈ table, c.before = some p ∧ Moved p c.after := by
  obtain ⟨p, hp, -, hf, hbefore⟩ := updatePeriod_eq_ok h
  refine ⟨p, hp, hbefore, ?_⟩
  split at hf
  · cases hf
  · rename_i hclosed
    obtain heq := Except.ok.inj hf
    rw [← heq]
    refine ⟨rfl, rfl, rfl, rfl, Or.inr ?_, by simp⟩
    show (p.status, PeriodStatus.closed) ∈ allowedTransitions
    cases hs : p.status <;> simp [FiscalPeriod.isClosed, hs] at hclosed <;> decide

theorem moved_beginClosing {periodCode : String} {closingRunId : UUID}
    {c : Change FiscalPeriod} (h : beginClosing table periodCode closingRunId = .ok c) :
    ∃ p ∈ table, c.before = some p ∧ Moved p c.after := by
  obtain ⟨p, hp, -, hf, hbefore⟩ := updatePeriod_eq_ok h
  refine ⟨p, hp, hbefore, ?_⟩
  split at hf
  · cases hf
  · rename_i hclosed
    split at hf
    · cases hf
    · rename_i hclosing
      obtain heq := Except.ok.inj hf
      rw [← heq]
      refine ⟨rfl, rfl, rfl, rfl, Or.inr ?_, by simp⟩
      show (p.status, PeriodStatus.closing) ∈ allowedTransitions
      cases hs : p.status <;> simp [FiscalPeriod.isClosed, hs] at hclosed hclosing
      decide

theorem moved_cancelClosing {periodCode : String} {loaded : Bool}
    {c : Change FiscalPeriod} (h : cancelClosing table periodCode loaded = .ok c) :
    ∃ p ∈ table, c.before = some p ∧ Moved p c.after := by
  obtain ⟨p, hp, -, hf, hbefore⟩ := updatePeriod_eq_ok h
  refine ⟨p, hp, hbefore, ?_⟩
  split at hf
  · cases hf
  · rename_i hclosing
    obtain heq := Except.ok.inj hf
    rw [← heq]
    rw [not_not] at hclosing
    refine ⟨rfl, rfl, rfl, rfl, Or.inr ?_, by simp⟩
    show (p.status, PeriodStatus.open) ∈ allowedTransitions
    rw [hclosing]
    decide

theorem moved_lockPeriod {periodCode : String} {loaded : Bool}
    {c : Change FiscalPeriod} (h : lockPeriod table periodCode loaded = .ok c) :
    ∃ p ∈ table, c.before = some p ∧ Moved p c.after := by
  obtain ⟨p, hp, -, hf, hbefore⟩ := updatePeriod_eq_ok h
  refine ⟨p, hp, hbefore, ?_⟩
  split at hf
  · cases hf
  · rename_i hclosed
    obtain heq := Except.ok.inj hf
    rw [← heq]
    rw [not_not] at hclosed
    refine ⟨rfl, rfl, rfl, rfl, Or.inr ?_, by simp [hclosed]⟩
    show (p.status, PeriodStatus.locked) ∈ allowedTransitions
    rw [hclosed]
    decide

theorem moved_setAdjustments {periodCode operation : String} {allowed : Bool}
    {c : Change FiscalPeriod} (h : setAdjustments table periodCode operation allowed = .ok c) :
    ∃ p ∈ table, c.before = some p ∧ Moved p c.after := by
  obtain ⟨p, hp, -, hf, hbefore⟩ := updatePeriod_eq_ok h
  refine ⟨p, hp, hbefore, ?_⟩
  split at hf
  · cases hf
  · obtain heq := Except.ok.inj hf
    rw [← heq]
    exact ⟨rfl, rfl, rfl, rfl, Or.inl rfl, id⟩

theorem moved_reopenPeriod {periodCode : String} {c : Change FiscalPeriod}
    (h : reopenPeriod table periodCode = .ok c) :
    ∃ p ∈ table, c.before = some p ∧ Moved p c.after := by
  obtain ⟨p, hp, -, hf, hbefore⟩ := updatePeriod_eq_ok h
  refine ⟨p, hp, hbefore, ?_⟩
  split at hf
  · cases hf
  · obtain heq := Except.ok.inj hf
    rw [← heq]
    exact ⟨rfl, rfl, rfl, rfl, Or.inl rfl, id⟩

/-- **Spec of the operations**: one that returns has created a row or moved one. -/
theorem apply_cases {op : Operation} {c : Change FiscalPeriod} (h : op.apply table = .ok c) :
    (c.before = none ∧ Created table c.after) ∨
      ∃ p ∈ table, c.before = some p ∧ Moved p c.after := by
  cases op with
  | createPeriod => exact Or.inl (created_createPeriod h)
  | beginClosing => exact Or.inr (moved_beginClosing h)
  | cancelClosing => exact Or.inr (moved_cancelClosing h)
  | closePeriod => exact Or.inr (moved_closePeriod h)
  | lockPeriod => exact Or.inr (moved_lockPeriod h)
  | enableAdjustments => exact Or.inr (moved_setAdjustments h)
  | disableAdjustments => exact Or.inr (moved_setAdjustments h)
  | reopenPeriod => exact Or.inr (moved_reopenPeriod h)

/-! ### The invariant of the store -/

/-- **The fiscal period store (R12, R13, R25).** -/
structure Lawful (l : Log) : Prop where
  /-- Stored periods do not overlap. -/
  apart : l.tables.Pairwise fun p q => Disjoint p.days q.days
  ordered : ∀ p ∈ l.tables, p.startDate ≤ p.endDate
  codes : (l.tables.map (·.periodCode)).Nodup
  /-- The status moves along the lifecycle only. -/
  moves : ∀ c ∈ l.changes, ∀ p, c.before = some p →
    c.after.status = p.status ∨ (p.status, c.after.status) ∈ allowedTransitions
  /-- The run of a close is set exactly while the period is CLOSING. -/
  runs : ∀ p ∈ l.tables, p.closingRunId.isSome ↔ p.status = .closing

theorem eq_of_periodCode (hcodes : (table.map (·.periodCode)).Nodup) {p q : FiscalPeriod}
    (hp : p ∈ table) (hq : q ∈ table) (h : p.periodCode = q.periodCode) : p = q :=
  List.inj_on_of_nodup_map hcodes hp hq h

/-- What no move changes is the same in the table after it. -/
theorem map_put {α : Type*} (hcodes : (table.map (·.periodCode)).Nodup) {c : Change FiscalPeriod}
    {p : FiscalPeriod} (hp : p ∈ table) (hbefore : c.before = some p) (f : FiscalPeriod → α)
    (hf : f c.after = f p) : (put table c).map f = table.map f := by
  simp only [put, hbefore, List.map_map]
  refine List.map_congr_left fun q hq => ?_
  by_cases hcode : q.periodCode = p.periodCode
  · rw [Function.comp_apply, if_pos hcode, hf, eq_of_periodCode hcodes hq hp hcode]
  · rw [Function.comp_apply, if_neg hcode]

theorem mem_put {c : Change FiscalPeriod} {q : FiscalPeriod} (h : q ∈ put table c) :
    q ∈ table ∨ q = c.after := by
  unfold put at h
  cases hb : c.before with
  | none =>
      rw [hb] at h
      simpa using h
  | some p =>
      rw [hb] at h
      obtain ⟨r, hr, rfl⟩ := List.mem_map.mp h
      split
      · exact Or.inr rfl
      · exact Or.inl hr

theorem lawful_start : Lawful (Logged.start []) where
  apart := List.Pairwise.nil
  ordered p hp := by cases hp
  codes := List.nodup_nil
  moves c hc := by cases hc
  runs p hp := by cases hp

theorem moves_become {l : Log} (h : Lawful l) {t : PeriodTable} {c : Change FiscalPeriod}
    (hc : ∀ p, c.before = some p →
      c.after.status = p.status ∨ (p.status, c.after.status) ∈ allowedTransitions) :
    ∀ c' ∈ (l.become t [c]).changes, ∀ p, c'.before = some p →
      c'.after.status = p.status ∨ (p.status, c'.after.status) ∈ allowedTransitions := by
  intro c' hc'
  rw [Logged.changes_become, List.mem_append, List.mem_singleton] at hc'
  rcases hc' with hold | rfl
  · exact h.moves c' hold
  · exact hc

/-- **Step lemma**: a flushed row keeps the store lawful. -/
theorem Lawful.put {l : Log} (h : Lawful l) {op : Operation} {c : Change FiscalPeriod}
    (hok : op.apply l.tables = .ok c) (hrefuses : refuses l.tables c = false) :
    Lawful (l.become (put l.tables c) [c]) := by
  rcases apply_cases hok with ⟨hnone, hcreated⟩ | ⟨p, hp, hbefore, hmoved⟩
  · have hput : Periods.put l.tables c = l.tables ++ [c.after] := by
      simp only [Periods.put, hnone]
    have hcode : c.after.periodCode ∉ l.tables.map (·.periodCode) := by
      simp only [refuses, hnone, Option.isNone_none, Bool.true_and, List.any_eq_false,
        Bool.or_eq_true, decide_eq_true_eq, not_or] at hrefuses
      simp only [List.mem_map, not_exists, not_and]
      exact fun q hq => (hrefuses q hq).1
    refine ⟨?_, fun q hq => ?_, ?_, moves_become h fun p hp => ?_, fun q hq => ?_⟩
    · rw [Logged.tables_become, hput]
      refine List.pairwise_append.mpr ⟨h.apart, List.pairwise_singleton _ _, fun q hq r hr => ?_⟩
      rw [List.mem_singleton.mp hr]
      exact hcreated.apart q hq
    · rcases mem_put hq with hold | rfl
      · exact h.ordered q hold
      · exact hcreated.ordered
    · rw [Logged.tables_become, hput, List.map_append]
      exact h.codes.append (List.nodup_singleton _) (by simpa using hcode)
    · rw [hnone] at hp
      cases hp
    · rcases mem_put hq with hold | rfl
      · exact h.runs q hold
      · simp [hcreated.status_eq, hcreated.closingRunId_eq]
  · have hdays := map_put h.codes hp hbefore FiscalPeriod.days
      (by rw [FiscalPeriod.days, FiscalPeriod.days, hmoved.startDate_eq, hmoved.endDate_eq])
    have hcodes := map_put h.codes hp hbefore (·.periodCode) hmoved.periodCode_eq
    refine ⟨?_, fun q hq => ?_, ?_, moves_become h fun q hq => ?_, fun q hq => ?_⟩
    · have hapart := List.pairwise_map.mpr h.apart
      rw [← hdays] at hapart
      exact List.pairwise_map.mp hapart
    · rcases mem_put hq with hold | rfl
      · exact h.ordered q hold
      · rw [hmoved.startDate_eq, hmoved.endDate_eq]
        exact h.ordered p hp
    · rw [Logged.tables_become, hcodes]
      exact h.codes
    · obtain rfl := Option.some.inj (hbefore.symm.trans hq)
      exact hmoved.status
    · rcases mem_put hq with hold | rfl
      · exact h.runs q hold
      · exact hmoved.closingRunId (h.runs p hp)

theorem both_step {s s' : Session Log} {a : Action} (h : s.Both Lawful)
    (hstep : step s a = some s') : s'.Both Lawful := by
  cases a with
  | commit =>
      obtain rfl := Option.some.inj hstep
      exact h.commit
  | rollback =>
      obtain rfl := Option.some.inj hstep
      exact h.rollback
  | call c =>
      obtain rfl := Option.some.inj hstep
      unfold Call.perform
      split
      · exact h
      · rename_i change hok
        split
        · exact h.rollback
        · rename_i hrefused
          rw [Bool.or_eq_true, not_or, Bool.not_eq_true, Bool.not_eq_true] at hrefused
          exact h.flush (h.current.put hok hrefused.2)

/-! ### The close lock -/

/-- The operations that end the close of a period. -/
def Operation.EndsClose (periodCode : String) : Operation → Prop
  | .closePeriod code _ _ | .cancelClosing code _ => code = periodCode
  | _ => False

/-- A CLOSING period keeps the run that holds it, unless the call ends the close. -/
def KeepsLock (s : Session Log) : Action → Prop
  | .call c => ∀ change, c.operation.apply s.current.tables = .ok change →
      ∀ p, change.before = some p → p.status = .closing →
        c.operation.EndsClose p.periodCode ∨
          (change.after.status = .closing ∧ change.after.closingRunId = p.closingRunId)
  | .commit | .rollback => True

/-- Only an operation that carries the run of a close ends it. -/
def Exclusive (s : Session Log) : Action → Prop
  | .call c => ∀ change, c.operation.apply s.current.tables = .ok change →
      ∀ p runId, change.before = some p → p.status = .closing → p.closingRunId = some runId →
        (change.after.status = .open ∨ change.after.status = .closed) →
          c.operation.closingRunId = some runId
  | .commit | .rollback => True

theorem updatePeriod_row {periodCode : String} {f : FiscalPeriod → Except PeriodError FiscalPeriod}
    {c : Change FiscalPeriod} (h : updatePeriod table periodCode f = .ok c) {p : FiscalPeriod}
    (hp : c.before = some p) : p.periodCode = periodCode ∧ f p = .ok c.after := by
  obtain ⟨q, -, hcode, hf, hbefore⟩ := updatePeriod_eq_ok h
  obtain rfl := Option.some.inj (hp.symm.trans hbefore)
  exact ⟨hcode, hf⟩

/-- An operation that does not end the close of a CLOSING period leaves it to its run. -/
theorem keepsLock (s : Session Log) (a : Action) : KeepsLock s a := by
  cases a with
  | commit => trivial
  | rollback => trivial
  | call c =>
      intro change hok p hp hclosing
      cases hop : c.operation with
      | createPeriod creation =>
          rw [hop] at hok
          rw [(created_createPeriod hok).1] at hp
          cases hp
      | closePeriod => exact Or.inl (updatePeriod_row (hop ▸ hok) hp).1.symm
      | cancelClosing => exact Or.inl (updatePeriod_row (hop ▸ hok) hp).1.symm
      | beginClosing =>
          rw [hop] at hok
          have hf := (updatePeriod_row hok hp).2
          rw [if_pos hclosing] at hf
          split at hf <;> cases hf
      | lockPeriod =>
          rw [hop] at hok
          have hf := (updatePeriod_row hok hp).2
          rw [if_pos (by rw [hclosing]; decide)] at hf
          cases hf
      | enableAdjustments =>
          rw [hop] at hok
          have hf := (updatePeriod_row hok hp).2
          rw [if_neg (by simp [FiscalPeriod.isClosed, hclosing])] at hf
          rw [← Except.ok.inj hf]
          exact Or.inr ⟨hclosing, rfl⟩
      | disableAdjustments =>
          rw [hop] at hok
          have hf := (updatePeriod_row hok hp).2
          rw [if_neg (by simp [FiscalPeriod.isClosed, hclosing])] at hf
          rw [← Except.ok.inj hf]
          exact Or.inr ⟨hclosing, rfl⟩
      | reopenPeriod =>
          rw [hop] at hok
          have hf := (updatePeriod_row hok hp).2
          rw [if_neg (by simp [FiscalPeriod.isClosed, hclosing])] at hf
          rw [← Except.ok.inj hf]
          exact Or.inr ⟨hclosing, rfl⟩

/-- **The period store over all runs**: periods stay apart, their status moves along the
lifecycle, the run of a close is set exactly while the period is CLOSING, and no other run takes
the lock over before the close ends. -/
theorem periods_lawful (as : List Action) :
    Throughout step (fun s => s.Both Lawful) start as ∧ Along step KeepsLock start as :=
  ⟨TransitionSystem.throughout_of_step (fun _ _ _ => both_step) (Session.Both.start lawful_start)
      as,
    TransitionSystem.along_of_forall keepsLock start as⟩

/-- A close that another caller cancels. -/
def sampleCancel : List Action :=
  [.call ⟨.createPeriod ⟨⟨1⟩, "2025-01", "January", sampleTime.date, sampleTime.date, ⟨2⟩, false⟩,
      false⟩,
    .call ⟨.beginClosing "2025-01" ⟨3⟩, false⟩, .call ⟨.cancelClosing "2025-01" false, false⟩]

/-- **The lock is not exclusive**: a call that carries no run returns the period to OPEN. -/
theorem close_ended_by_any_caller : ¬Along step Exclusive start sampleCancel := by
  intro h
  have hrun : (run step start (sampleCancel.take 2)).any (fun s =>
      (cancelClosing s.current.tables "2025-01" false).toOption.any fun change =>
        change.before.any (fun p => p.status = .closing && p.closingRunId = some ⟨3⟩) &&
          change.after.status = .open) = true := by decide +kernel
  obtain ⟨s, hs, hchange⟩ := (Option.any_eq_true ..).mp hrun
  obtain ⟨change, hok, hrow⟩ := (Option.any_eq_true ..).mp hchange
  rw [Bool.and_eq_true, decide_eq_true_eq] at hrow
  obtain ⟨p, hp, hheld⟩ := (Option.any_eq_true ..).mp hrow.1
  rw [Bool.and_eq_true, decide_eq_true_eq, decide_eq_true_eq] at hheld
  have hcancel : cancelClosing s.current.tables "2025-01" false = .ok change := by
    cases hc : cancelClosing s.current.tables "2025-01" false with
    | error e => simp [hc, Except.toOption] at hok
    | ok change' => simpa [hc, Except.toOption] using hok
  have hcarries := h (sampleCancel.take 2) _ [] s rfl hs change hcancel p ⟨3⟩ hp hheld.1 hheld.2
    (Or.inl hrow.2)
  cases hcarries

end FinanceAccounting.Periods
