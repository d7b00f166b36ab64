import FinanceAccounting.Library.RowStatements
import FinanceAccounting.Kernel.Values

/-! # The guards of `fiscal_periods`

Two layers keep sealed periods: a listener of the ORM, which sees the history of the attributes,
and the row triggers of the database.  Both look at the pair of old and new status first and let
the transitions of the lifecycle pass, whatever else the statement changes.  So a statement that
locks a closed period may carry other dates with it.

`sealed_stay_iff` is the law of all runs of statements: sealed periods stay as they were sealed
if and only if no statement that is executed moves a period while it locks it. -/

namespace FinanceAccounting.FiscalPeriodTriggers

open RowStatements (Rules Statement Table)
open TransitionSystem (run Along Between Steps along_cons along_nil between_iff_along)

/-- A row of `fiscal_periods`, as the database has it: any text may stand in `status`. -/
structure FiscalPeriod where
  id : String
  periodCode : String
  name : String
  startDate : Date
  endDate : Date
  status : String
  closingRunId : Option String := none
  closedAt : Option Datetime := none
  closedById : Option String := none
  allowsAdjustments : Bool := false
  createdAt : Datetime
  updatedAt : Datetime
  createdById : String
  updatedById : Option String := none
deriving DecidableEq

abbrev PeriodTable := Table FiscalPeriod.id

namespace FiscalPeriod

def isSealed (p : FiscalPeriod) : Bool := p.status = "closed" || p.status = "locked"

/-- The journal entries of these dates that lie in the period. -/
def covers (p : FiscalPeriod) (effectiveDate : Date) : Bool :=
  p.startDate ≤ effectiveDate && effectiveDate ≤ p.endDate

end FiscalPeriod

/-! ### The triggers -/

/-- The row triggers that let a statement pass return `true`. -/
def preventClosedFiscalPeriodModification (old new : FiscalPeriod) : Bool :=
  if old.status = "open" && (new.status = "closing" || new.status = "closed") then true
  else if old.status = "closing" && (new.status = "open" || new.status = "closed") then true
  else if old.status = "closed" && new.status = "locked" then true
  else if old.status = "closed" || old.status = "locked" then false
  else true

/-- `effectiveDates` are those of the journal entries. -/
def preventFiscalPeriodDeletion (effectiveDates : List Date) (old : FiscalPeriod) : Bool :=
  if old.status = "closed" || old.status = "locked" then false
  else if effectiveDates.any old.covers then false
  else true

/-! ### The listener -/

/-- Whether `PeriodStatus(value)` has a value. -/
def isPeriodStatus (value : String) : Bool := value ∈ ["open", "closing", "closed", "locked"]

def allowedTransitions : List (String × String) :=
  [("open", "closing"), ("open", "closed"), ("closing", "open"), ("closing", "closed"),
    ("closed", "locked")]

/-- An attribute other than `updated_at` and `updated_by_id` has changed. -/
def hasChanges (old new : FiscalPeriod) : Bool :=
  { new with updatedAt := old.updatedAt, updatedById := old.updatedById } ≠ old

/-- `_check_fiscal_period_immutability`.  The history of the status has no old value when the
attribute was not loaded before it was set. -/
def checkFiscalPeriodImmutability (statusLoaded : Bool) (old new : FiscalPeriod) : Bool :=
  let changed := old.status ≠ new.status
  let deleted := if changed ∧ statusLoaded then some old.status else none
  let added := if changed then some new.status else none
  let unlessSealed := fun status : String =>
    !((status = "closed" || status = "locked") && hasChanges old new)
  match deleted, added with
  | some oldStatus, some newStatus =>
      if !(isPeriodStatus oldStatus && isPeriodStatus newStatus) then false
      else if (oldStatus, newStatus) ∈ allowedTransitions then true
      else unlessSealed oldStatus
  | some oldStatus, none => unlessSealed oldStatus
  | none, none => unlessSealed new.status
  | none, some _ => true

/-- `_check_fiscal_period_delete`. -/
def checkFiscalPeriodDelete (effectiveDates : List Date) (target : FiscalPeriod) : Bool :=
  if target.status = "closed" || target.status = "locked" then false
  else if effectiveDates.any target.covers then false
  else true

/-! ### Statements -/

/-- A statement comes from a flush of the ORM or is raw SQL. -/
inductive Route where
  | orm (statusLoaded : Bool)
  | sql

structure Action where
  route : Route
  statement : Statement String FiscalPeriod

def rules (effectiveDates : List Date) (route : Route) : Rules FiscalPeriod where
  insert _ := true
  update old new :=
    (match route with
      | .orm statusLoaded => checkFiscalPeriodImmutability statusLoaded old new
      | .sql => true) && preventClosedFiscalPeriodModification old new
  delete old :=
    (match route with
      | .orm _ => checkFiscalPeriodDelete effectiveDates old
      | .sql => true) && preventFiscalPeriodDeletion effectiveDates old
  constraints rows := (rows.map (·.periodCode)).Nodup

/-- Execute a statement, and drop it if it is refused. -/
def step (effectiveDates : List Date) (t : PeriodTable) (a : Action) : Option PeriodTable :=
  some (t.attempt (rules effectiveDates a.route) a.statement)

/-! ### The law -/

/-- What a sealed period keeps. -/
structure StaysSealed (effectiveDates : List Date) (p p' : FiscalPeriod) : Prop where
  id : p'.id = p.id
  periodCode : p'.periodCode = p.periodCode
  startDate : p'.startDate = p.startDate
  endDate : p'.endDate = p.endDate
  status : p'.status = p.status ∨ p'.status = "locked"
  locked : p.status = "locked" → p' = p
  entries : ∀ effectiveDate ∈ effectiveDates, p.covers effectiveDate → p'.covers effectiveDate

/-- Every sealed period of a table is in the other one, as it was sealed. -/
def SealedStay (effectiveDates : List Date) (t t' : PeriodTable) : Prop :=
  ∀ p ∈ t.rows, p.isSealed → ∃ p' ∈ t'.rows, StaysSealed effectiveDates p p'

/-- A statement that is executed and locks a closed period leaves the period where it is. -/
def LocksInPlace (effectiveDates : List Date) (t : PeriodTable) (a : Action) : Prop :=
  ∀ old ∈ t.rows, ∀ row, a.statement = .update old.id row →
    old.status = "closed" → row.status = "locked" →
      (t.execute (rules effectiveDates a.route) a.statement).isSome →
        row.id = old.id ∧ row.periodCode = old.periodCode ∧ row.startDate = old.startDate ∧
          row.endDate = old.endDate

section Law

variable {effectiveDates : List Date} {route : Route} {t t' : PeriodTable} {a : Action}
variable {p p' p'' old new row : FiscalPeriod}

theorem StaysSealed.refl (p : FiscalPeriod) : StaysSealed effectiveDates p p :=
  ⟨rfl, rfl, rfl, rfl, Or.inl rfl, fun _ => rfl, fun _ _ h => h⟩

theorem StaysSealed.isSealed (h : StaysSealed effectiveDates p p') (hp : p.isSealed) :
    p'.isSealed := by
  rcases h.status with hstatus | hstatus
  · unfold FiscalPeriod.isSealed at hp ⊢
    rwa [hstatus]
  · simp [FiscalPeriod.isSealed, hstatus]

theorem StaysSealed.trans (h : StaysSealed effectiveDates p p')
    (h' : StaysSealed effectiveDates p' p'') : StaysSealed effectiveDates p p'' where
  id := h'.id.trans h.id
  periodCode := h'.periodCode.trans h.periodCode
  startDate := h'.startDate.trans h.startDate
  endDate := h'.endDate.trans h.endDate
  status := by
    rcases h'.status with hstatus | hstatus
    · rw [hstatus]
      exact h.status
    · exact Or.inr hstatus
  locked hp := by
    obtain rfl := h.locked hp
    exact h'.locked hp
  entries d hd hp := h'.entries d hd (h.entries d hd hp)

theorem sealedStay_refl (t : PeriodTable) : SealedStay effectiveDates t t :=
  fun p hp _ => ⟨p, hp, .refl p⟩

theorem sealedStay_trans (t₁ t₂ t₃ : PeriodTable) (h : SealedStay effectiveDates t₁ t₂)
    (h' : SealedStay effectiveDates t₂ t₃) : SealedStay effectiveDates t₁ t₃ := by
  intro p hp hsealed
  obtain ⟨p', hp', hstays⟩ := h p hp hsealed
  obtain ⟨p'', hp'', hstays'⟩ := h' p' hp' (hstays.isSealed hsealed)
  exact ⟨p'', hp'', hstays.trans hstays'⟩

/-- The one change of a sealed row that the trigger lets pass. -/
theorem status_of_passed (hsealed : old.isSealed)
    (h : preventClosedFiscalPeriodModification old new = true) :
    old.status = "closed" ∧ new.status = "locked" := by
  unfold FiscalPeriod.isSealed at hsealed
  unfold preventClosedFiscalPeriodModification at h
  rcases (Bool.or_eq_true _ _).mp hsealed with hstatus | hstatus
  · rw [decide_eq_true_eq] at hstatus
    simpa [hstatus] using h
  · rw [decide_eq_true_eq] at hstatus
    simp [hstatus] at h

theorem not_deleted (hsealed : old.isSealed) :
    preventFiscalPeriodDeletion effectiveDates old = false := by
  unfold preventFiscalPeriodDeletion
  exact if_pos hsealed

/-- A period that is locked in place has the days it had. -/
theorem StaysSealed.of_locked (hold : old.status = "closed") (hrow : row.status = "locked")
    (hid : row.id = old.id) (hcode : row.periodCode = old.periodCode)
    (hstart : row.startDate = old.startDate) (hend : row.endDate = old.endDate) :
    StaysSealed effectiveDates old row where
  id := hid
  periodCode := hcode
  startDate := hstart
  endDate := hend
  status := Or.inr hrow
  locked h := by
    rw [hold] at h
    simp at h
  entries d _ hcovers := by
    unfold FiscalPeriod.covers at hcovers ⊢
    rwa [hstart, hend]

/-- **The step lemma**: sealed periods stay if and only if the statement locks in place. -/
theorem steps_iff_locksInPlace (t : PeriodTable) (a : Action) :
    Steps (step effectiveDates) (SealedStay effectiveDates) t a ↔
      LocksInPlace effectiveDates t a := by
  constructor
  · intro h old hold row hstatement hclosed hlocked hexecutes
    obtain ⟨t', hexecute⟩ := Option.isSome_iff_exists.mp hexecutes
    have hstep : step effectiveDates t a = some t' := by
      unfold step
      rw [Table.attempt_of_execute hexecute]
    have hsealed : old.isSealed := by simp [FiscalPeriod.isSealed, hclosed]
    obtain ⟨p', hp', hstays⟩ := h t' hstep old hold hsealed
    rw [hstatement] at hexecute
    rw [(Table.rows_of_update hold hexecute).2] at hp'
    rcases KeyedTable.mem_replaceAt hp' with rfl | ⟨-, hid⟩
    · exact ⟨hstays.id, hstays.periodCode, hstays.startDate, hstays.endDate⟩
    · exact absurd hstays.id hid
  · intro h t' hstep p hp hsealed
    obtain rfl := Option.some.inj hstep
    cases hexecute : t.execute (rules effectiveDates a.route) a.statement with
    | none =>
        refine ⟨p, ?_, .refl p⟩
        unfold Table.attempt
        rwa [hexecute, Option.getD_none]
    | some t' =>
        rw [Table.attempt_of_execute hexecute]
        rcases (Table.execute_effect hexecute).kept hp with
          hkept | ⟨row, hrow, hstatement, hpasses⟩ | ⟨-, hpasses⟩
        · exact ⟨p, hkept, .refl p⟩
        · have htrigger := ((Bool.and_eq_true _ _).mp hpasses).2
          obtain ⟨hclosed, hlocked⟩ := status_of_passed hsealed htrigger
          have hexecutes : (t.execute (rules effectiveDates a.route) a.statement).isSome := by
            rw [hexecute, Option.isSome_some]
          obtain ⟨hid, hcode, hstart, hend⟩ :=
            h p hp row hstatement hclosed hlocked hexecutes
          exact ⟨row, hrow, .of_locked hclosed hlocked hid hcode hstart hend⟩
        · have htrigger := ((Bool.and_eq_true _ _).mp hpasses).2
          rw [not_deleted hsealed] at htrigger
          cases htrigger

/-- **Sealed periods stay as they were sealed** in a run of statements if and only if every
statement of the run that locks a closed period leaves it where it is. -/
theorem sealed_stay_iff (effectiveDates : List Date) (t : PeriodTable) (actions : List Action) :
    Between (step effectiveDates) (SealedStay effectiveDates) t actions ↔
      Along (step effectiveDates) (LocksInPlace effectiveDates) t actions := by
  rw [between_iff_along sealedStay_refl sealedStay_trans]
  exact TransitionSystem.along_iff steps_iff_locksInPlace

/-! ### A period that is cut short -/

def sampleDay (day : ℕ) (h : Date.IsDay 2025 1 day) : Date := Date.of 2025 1 day h

theorem isDay_first : Date.IsDay 2025 1 1 := by decide

/-- January, up to a last day. -/
def samplePeriod (lastDay : Date) (status : String) : FiscalPeriod where
  id := "p1"
  periodCode := "2025-01"
  name := "January"
  startDate := sampleDay 1 isDay_first
  endDate := lastDay
  status := status
  createdAt := sampleTime
  updatedAt := sampleTime
  createdById := "u1"

/-- January is closed, and it ends on the 15th when it is locked. -/
def sampleActions : List Action :=
  [⟨.orm true, .insert (samplePeriod (sampleDay 31 (by decide)) "open")⟩,
    ⟨.orm true, .update "p1" (samplePeriod (sampleDay 31 (by decide)) "closed")⟩,
    ⟨.orm true, .update "p1" (samplePeriod (sampleDay 15 (by decide)) "locked")⟩]

/-- **A closed period loses half of its days when it is locked**, and with them the entry of the
20th. -/
theorem sealed_period_cut :
    (run (step [sampleDay 20 (by decide)]) (Table.empty FiscalPeriod.id) sampleActions).map (·.rows) =
        some [samplePeriod (sampleDay 15 (by decide)) "locked"] ∧
      ¬Between (step [sampleDay 20 (by decide)]) (SealedStay [sampleDay 20 (by decide)])
        (Table.empty FiscalPeriod.id) sampleActions := by
  refine ⟨by decide +kernel, fun h => ?_⟩
  have hstay := h (sampleActions.take 2) (sampleActions.drop 2) [] _ _ rfl rfl rfl
    (samplePeriod (sampleDay 31 (by decide)) "closed") (by decide +kernel) (by decide +kernel)
  obtain ⟨p', hp', hstays⟩ := hstay
  have hend := hstays.endDate
  clear hstays
  revert p'
  decide +kernel

end Law

end FinanceAccounting.FiscalPeriodTriggers
