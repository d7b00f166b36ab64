import FinanceAccounting.Engines.TimesheetCompliance
import FinanceAccounting.Kernel.Hashing
import FinanceAccounting.Modules.Books

/-! # Timesheets

`PayrollService` takes in the timesheets of employees.  The entries of a submission are checked among
themselves; the total time record is computed and only logged, and what an employee submitted before
is not looked at.  `timesheets_comply_iff` says of every run when the stored timesheets comply.

The guard of the transition is among the answers of the executor.  The evaluator that is registered by
default looks for `daily_recording_valid` in the context of the call, where `submit_timesheet` does not
put it. -/

namespace FinanceAccounting.Payroll

open ModulePosting (ModulePostingStatus)
open Modules
open PolicyBridge (AccountingPolicy PayloadValue)
open Timesheets
open UnitOfWork (Session Result)
open WorkflowExecutor (Workflow)

inductive TimesheetSubmissionStatus where
  | draft
  | submitted
  | pendingApproval
  | approved
  | rejected
  | correctionPending
deriving DecidableEq, Repr

/-- What is handed in. -/
structure TimesheetSubmission where
  submissionId : UUID
  employeeId : UUID
  payPeriodId : UUID
  workWeekStart : Date
  workWeekEnd : Date
  entries : List TimesheetEntry
  week_ordered : workWeekStart.toordinal ≤ workWeekEnd.toordinal

/-- The rules of a call. -/
structure Rules where
  maxRetroactiveDays : ℤ := 7
  expectedHours : ℚ := 40
  totalTimeTolerance : ℚ := 1 / 4
  enableConcurrentCheck : Bool := true

/-- A stored submission with its stored entries; no column keeps its rules. -/
structure TimesheetSubmissionModel where
  id : UUID
  employeeId : UUID
  payPeriodId : UUID
  workWeekStart : Date
  workWeekEnd : Date
  submittedAt : Datetime
  totalHours : ℚ
  status : TimesheetSubmissionStatus
  entries : List TimesheetEntry
  rules : Rules
  places : ∀ e ∈ entries, Decimal.HasPlaces 9 e.hours

/-- An entry as its columns keep it. -/
def storedEntry (e : TimesheetEntry) : TimesheetEntry where
  entryId := e.entryId
  workDate := e.workDate
  chargeCode := e.chargeCode
  chargeType := e.chargeType
  hours := stored e.hours
  startTime := e.startTime
  endTime := e.endTime
  hours_nonneg := Decimal.quantize_nonneg e.hours_nonneg
  hours_le := by
    have hle : e.hours ≤ ((24 * 10 ^ 9 : ℕ) : ℚ) / 10 ^ 9 := e.hours_le.trans (by norm_num)
    have hquantize := Decimal.quantize_le hle
    calc stored e.hours ≤ ((24 * 10 ^ 9 : ℕ) : ℚ) / 10 ^ 9 := hquantize
      _ = 24 := by norm_num
  ends_later := e.ends_later

/-- `TIMESHEET_WORKFLOW`. -/
def timesheetWorkflow : Workflow where
  name := "timesheet"
  transitions := [
    { fromState := "draft", toState := "submitted", action := "submit",
      guard := some "daily_recording_valid" },
    { fromState := "submitted", toState := "pending_approval", action := "route_for_approval",
      guard := some "no_concurrent_overlap" },
    { fromState := "pending_approval", toState := "approved", action := "approve",
      guard := some "supervisor_approved", postsEntry := true },
    { fromState := "pending_approval", toState := "rejected", action := "reject" },
    { fromState := "rejected", toState := "draft", action := "revise" },
    { fromState := "approved", toState := "correction_pending", action := "initiate_correction",
      guard := some "reversal_exists" }]

/-! ### The service -/

/-- A call of `submit_timesheet`. -/
structure Submit where
  submission : TimesheetSubmission
  actorId : UUID
  rules : Rules
  now : Datetime

namespace Submit

variable (ctx : Decimal.Context) (c : Submit)

def transition : TransitionCall where
  workflow := timesheetWorkflow
  entityType := "timesheet"
  entityId := c.submission.submissionId
  currentState := "draft"
  action := "submit"
  actorId := c.actorId
  amount := some 0
  context := [("max_retroactive_days", .number c.rules.maxRetroactiveDays),
    ("expected_hours", .number c.rules.expectedHours),
    ("total_time_tolerance", .number c.rules.totalTimeTolerance)]

def totalHours : ℚ := ctx.total (c.submission.entries.map (·.hours))

/-- The submission as it is stored. -/
def row : TimesheetSubmissionModel where
  id := c.submission.submissionId
  employeeId := c.submission.employeeId
  payPeriodId := c.submission.payPeriodId
  workWeekStart := c.submission.workWeekStart
  workWeekEnd := c.submission.workWeekEnd
  submittedAt := c.now
  totalHours := stored (c.totalHours ctx)
  status := .submitted
  entries := c.submission.entries.map storedEntry
  rules := c.rules
  places := List.forall_mem_map.mpr fun _ _ => Decimal.hasPlaces_quantize 9 _

/-- `timesheet.submitted`; the total time record is part of it. -/
def event : Event :=
  let totalTime := computeTotalTimeRecord ctx c.submission.employeeId c.submission.payPeriodId
    c.submission.entries c.rules.expectedHours c.rules.totalTimeTolerance
  { eventType := "timesheet.submitted"
    payload := payloadOf [
      ("submission_id", .text c.submission.submissionId.str),
      ("employee_id", .text c.submission.employeeId.str),
      ("pay_period_id", .text c.submission.payPeriodId.str),
      ("total_hours", .number (c.totalHours ctx)),
      ("entry_count", .number c.submission.entries.length),
      ("d3_compliant", .flag totalTime.isCompliant),
      ("d3_variance", .number totalTime.variance)]
    amount := 0
    currency := "USD" }

end Submit

section Service

variable (ctx : Decimal.Context) {σ : Type*} (env : Env σ TimesheetSubmissionModel) (c : Submit)

/-- The rows are added and the event is posted, whatever that is answered. -/
def persist (s : Session σ) : Result ServiceError σ TimesheetSubmissionModel :=
  (env.postEvent 0 (c.event ctx) (env.addRow (c.row ctx) s)).andThen fun _ s =>
    (env.commit s).andThen fun _ s => (.ok (c.row ctx), s)

def submitTimesheet (s : Session σ) : Result ServiceError σ TimesheetSubmissionModel :=
  let entries := c.submission.entries
  rollingBack <|
    (env.runWorkflowGuard c.transition s).andThen fun failure s =>
      if failure.isSome then (.error .valueError, s)
      else if validateAllEntriesDailyRecording entries c.now.date c.rules.maxRetroactiveDays ≠ [] then
        (.error .valueError, s)
      else if c.rules.enableConcurrentCheck && !entries.isEmpty &&
          !(detectConcurrentOverlaps ctx entries).isValid then (.error .valueError, s)
      else if !(validateNoExcessiveDailyHours ctx entries 24).1 then (.error .valueError, s)
      else persist ctx env c s

end Service

/-! ### Runs -/

section Runs

variable (ctx : Decimal.Context) (policies : List AccountingPolicy)
variable (constraint : List TimesheetSubmissionModel → Bool)

def step (s : Session (Books TimesheetSubmissionModel Unit)) (call : Submit × Answers) :
    Session (Books TimesheetSubmissionModel Unit) :=
  (submitTimesheet ctx (booksEnv ctx policies constraint call.2) call.1 s).2

def run (s : Session (Books TimesheetSubmissionModel Unit)) (calls : List (Submit × Answers)) :
    Session (Books TimesheetSubmissionModel Unit) := calls.foldl (step ctx policies constraint) s

/-- Nothing stored. -/
def start : Session (Books TimesheetSubmissionModel Unit) := Session.start { store := () }

/-- The checks that are made among the entries of one submission. -/
def Submit.checked (c : Submit) : Bool :=
  validateAllEntriesDailyRecording c.submission.entries c.now.date c.rules.maxRetroactiveDays = [] &&
    !(c.rules.enableConcurrentCheck && !c.submission.entries.isEmpty &&
      !(detectConcurrentOverlaps ctx c.submission.entries).isValid) &&
    (validateNoExcessiveDailyHours ctx c.submission.entries 24).1

/-- The executor lets the submission through, its own checks pass, the posting does not raise, and the
tables take it. -/
def accepts (answers : Answers) (rows : List TimesheetSubmissionModel) (c : Submit) : Bool :=
  answers.workflow.any (·.1.success) && c.checked ctx &&
    decide (postEvent ctx policies (answers.verdict 0) (c.event ctx) ≠ .raised) &&
    constraint (rows ++ [c.row ctx])

/-- The stored entries of an employee. -/
def entriesOf (employeeId : UUID) (rows : List TimesheetSubmissionModel) : List TimesheetEntry :=
  (rows.filter (·.employeeId = employeeId)).flatMap (·.entries)

/-- The hours are within the tolerance of the expected hours (D3). -/
def Balanced (r : TimesheetSubmissionModel) : Prop :=
  |(r.entries.map (·.hours)).sum - r.rules.expectedHours| ≤ r.rules.totalTimeTolerance

/-- The stored timesheets comply: each on its own, and those of an employee together. -/
structure Comply (rows : List TimesheetSubmissionModel) : Prop where
  inTime : ∀ r ∈ rows, ∀ e ∈ r.entries, InTime r.submittedAt.date r.rules.maxRetroactiveDays e
  balanced : ∀ r ∈ rows, Balanced r
  apart : ∀ employeeId, (entriesOf employeeId rows).Pairwise fun a b => ¬Concurrent a b
  within : ∀ employeeId d, hoursOn d (entriesOf employeeId rows) ≤ 24

/-- What the service does not check: an accepted submission is balanced, and passes the other checks
together with what its employee has stored. -/
def Sound (rows : List TimesheetSubmissionModel) (call : Submit × Answers) : Prop :=
  accepts ctx policies constraint call.2 rows call.1 = true →
    let new := call.1.row ctx
    let entries := entriesOf new.employeeId rows ++ new.entries
    Balanced new ∧ (detectConcurrentOverlaps ctx entries).isValid = true ∧
      (validateNoExcessiveDailyHours ctx entries 24).1 = true

/-- Every call of a run is sound where it is made. -/
def SoundRun : Session (Books TimesheetSubmissionModel Unit) → List (Submit × Answers) → Prop
  | _, [] => True
  | s, call :: calls => Sound ctx policies constraint s.committed.rows call ∧
      SoundRun (step ctx policies constraint s call) calls

/-! ### One call -/

variable {ctx policies constraint} {answers : Answers} {c : Submit}
variable {b : Books TimesheetSubmissionModel Unit} {rows : List TimesheetSubmissionModel}

/-- The executor answers from outside, about a transition that exists. -/
theorem runWorkflowGuard_submit (s : Session (Books TimesheetSubmissionModel Unit)) :
    (booksEnv ctx policies constraint answers).runWorkflowGuard c.transition s =
      match answers.workflow with
      | none => (.error .raised, s)
      | some (r, requests) =>
          (.ok (if r.success then none else some (if r.approvalRequired then .guardBlocked
            else .guardRejected)), s.flush (s.current.request requests)) := by
  unfold Env.runWorkflowGuard
  dsimp only [booksEnv, executeOn, Submit.transition]
  cases answers.workflow with
  | none => rfl
  | some answer => rfl

/-- What is added to tables without anything pending but requests. -/
theorem persist_start (n : ℕ) : ∃ b', (rollingBack (persist ctx
    (booksEnv ctx policies constraint answers) c ((Session.start b).flush (b.request n)))).2 =
      Session.start b' ∧ b'.rows =
        if postEvent ctx policies (answers.verdict 0) (c.event ctx) ≠ .raised ∧
            constraint (b.rows ++ [c.row ctx]) = true then b.rows ++ [c.row ctx] else b.rows := by
  -- the tables with the row, whatever lines are posted, are committed or rolled back
  have hcommit : ∀ b₁ : Books TimesheetSubmissionModel Unit, b₁.rows = b.rows ++ [c.row ctx] →
      ∃ b', (rollingBack (((booksEnv ctx policies constraint answers).commit ⟨b, b₁⟩).andThen
        fun _ s => (.ok (c.row ctx), s))).2 = Session.start b' ∧ b'.rows =
          if constraint (b.rows ++ [c.row ctx]) = true then b.rows ++ [c.row ctx] else b.rows := by
    intro b₁ hrows
    unfold Env.commit
    dsimp only [booksEnv]
    rw [hrows]
    by_cases htaken : constraint (b.rows ++ [c.row ctx]) = true
    · rw [if_pos htaken, if_pos htaken]
      exact ⟨b₁, rfl, hrows⟩
    · rw [if_neg htaken, if_neg htaken]
      exact ⟨b, rfl, rfl⟩
  unfold persist
  dsimp only [booksEnv, postOn, Env.addRow]
  cases hposting : postEvent ctx policies (answers.verdict 0) (c.event ctx) with
  | posted lines =>
    obtain ⟨b', hsession, hrows⟩ := hcommit (((b.request n).add (c.row ctx)).post lines) rfl
    exact ⟨b', hsession, by simpa using hrows⟩
  | answered status =>
    obtain ⟨b', hsession, hrows⟩ := hcommit ((b.request n).add (c.row ctx)) rfl
    exact ⟨b', hsession, by simpa using hrows⟩
  | raised => exact ⟨b, rfl, by simp⟩

/-- The checks one after the other. -/
theorem checks_eq {α : Type*} (failed passed : α) :
    (if validateAllEntriesDailyRecording c.submission.entries c.now.date c.rules.maxRetroactiveDays ≠ []
      then failed
      else if (c.rules.enableConcurrentCheck && !c.submission.entries.isEmpty &&
        !(detectConcurrentOverlaps ctx c.submission.entries).isValid) = true then failed
      else if (!(validateNoExcessiveDailyHours ctx c.submission.entries 24).1) = true then failed
      else passed) = if c.checked ctx = true then passed else failed := by
  unfold Submit.checked
  generalize (c.rules.enableConcurrentCheck && !c.submission.entries.isEmpty &&
    !(detectConcurrentOverlaps ctx c.submission.entries).isValid) = overlap
  generalize (validateNoExcessiveDailyHours ctx c.submission.entries 24).1 = daily
  by_cases hnone : validateAllEntriesDailyRecording c.submission.entries c.now.date
      c.rules.maxRetroactiveDays = []
  · cases overlap <;> cases daily <;> simp [hnone]
  · simp [hnone]

/-- **What a call does**: an accepted submission is stored, and nothing else changes the rows. -/
theorem step_start : ∃ b', step ctx policies constraint (Session.start b) (c, answers) =
    Session.start b' ∧ b'.rows =
      if accepts ctx policies constraint answers b.rows c then b.rows ++ [c.row ctx] else b.rows := by
  unfold step submitTimesheet
  dsimp only
  rw [runWorkflowGuard_submit]
  cases hworkflow : answers.workflow with
  | none => exact ⟨b, rfl, by simp [accepts, hworkflow]⟩
  | some answer =>
    obtain ⟨r, requests⟩ := answer
    dsimp only
    rw [Result.ok_andThen]
    cases hsuccess : r.success with
    | false => exact ⟨b, rfl, by simp [accepts, hworkflow, hsuccess]⟩
    | true =>
      have haccepts : accepts ctx policies constraint answers b.rows c = (c.checked ctx &&
          decide (postEvent ctx policies (answers.verdict 0) (c.event ctx) ≠ .raised ∧
            constraint (b.rows ++ [c.row ctx]) = true)) := by
        simp [accepts, hworkflow, hsuccess, Bool.and_assoc]
      rw [if_pos rfl, Option.isSome_none, if_neg Bool.false_ne_true, checks_eq, haccepts]
      cases c.checked ctx with
      | false => exact ⟨b, rfl, rfl⟩
      | true =>
        obtain ⟨b', hsession, hrows⟩ := @persist_start ctx policies constraint answers c b requests
        exact ⟨b', hsession, by simpa using hrows⟩

/-! ### What complies -/

theorem entriesOf_append (employeeId : UUID) (r : TimesheetSubmissionModel) :
    entriesOf employeeId (rows ++ [r]) =
      entriesOf employeeId rows ++ if r.employeeId = employeeId then r.entries else [] := by
  unfold entriesOf
  rw [List.filter_append, List.flatMap_append]
  by_cases hemployee : r.employeeId = employeeId <;> simp [hemployee]

/-- Stored hours have nine places. -/
theorem hasPlaces_of_mem_entriesOf {employeeId : UUID} {e : TimesheetEntry}
    (he : e ∈ entriesOf employeeId rows) : Decimal.HasPlaces 9 e.hours := by
  obtain ⟨r, -, he⟩ := List.mem_flatMap.mp he
  exact r.places e he

/-- **One more submission**: it complies on its own, and so do the entries of its employee together. -/
theorem Comply.append_iff (hprec : 11 ≤ ctx.prec) (h : Comply rows) {r : TimesheetSubmissionModel}
    (hin : ∀ e ∈ r.entries, InTime r.submittedAt.date r.rules.maxRetroactiveDays e) :
    Comply (rows ++ [r]) ↔ Balanced r ∧
      (detectConcurrentOverlaps ctx (entriesOf r.employeeId rows ++ r.entries)).isValid = true ∧
      (validateNoExcessiveDailyHours ctx (entriesOf r.employeeId rows ++ r.entries) 24).1 = true := by
  have hself : entriesOf r.employeeId (rows ++ [r]) = entriesOf r.employeeId rows ++ r.entries := by
    rw [entriesOf_append, if_pos rfl]
  have hother : ∀ employeeId, r.employeeId ≠ employeeId →
      entriesOf employeeId (rows ++ [r]) = entriesOf employeeId rows := by
    intro employeeId hne
    rw [entriesOf_append, if_neg hne, List.append_nil]
  have hplaces : ∀ e ∈ entriesOf r.employeeId rows ++ r.entries, Decimal.HasPlaces 9 e.hours := by
    rw [← hself]
    exact fun e he => hasPlaces_of_mem_entriesOf he
  rw [detectConcurrentOverlaps_isValid, validateNoExcessiveDailyHours_iff ctx hprec hplaces, ← hself]
  constructor
  · intro hall
    exact ⟨hall.balanced r List.mem_concat_self, hall.apart r.employeeId, hall.within r.employeeId⟩
  · rintro ⟨hbalanced, hapart, hwithin⟩
    refine ⟨?_, ?_, fun employeeId => ?_, fun employeeId => ?_⟩
    · exact List.forall_mem_append.mpr ⟨h.inTime, List.forall_mem_singleton.mpr hin⟩
    · exact List.forall_mem_append.mpr ⟨h.balanced, List.forall_mem_singleton.mpr hbalanced⟩
    · by_cases hemployee : r.employeeId = employeeId
      · exact hemployee ▸ hapart
      · rw [hother employeeId hemployee]
        exact h.apart employeeId
    · by_cases hemployee : r.employeeId = employeeId
      · exact hemployee ▸ hwithin
      · rw [hother employeeId hemployee]
        exact h.within employeeId

/-- What is stored is in time. -/
theorem inTime_of_accepts (h : accepts ctx policies constraint answers rows c = true) :
    ∀ e ∈ (c.row ctx).entries, InTime c.now.date c.rules.maxRetroactiveDays e := by
  simp only [accepts, Submit.checked, Bool.and_eq_true, decide_eq_true_eq] at h
  obtain ⟨⟨⟨-, ⟨hdaily, -⟩, -⟩, -⟩, -⟩ := h
  exact List.forall_mem_map.mpr fun e he => validateAllEntriesDailyRecording_eq_nil.mp hdaily e he

/-- **A call keeps what complies** exactly when it is sound. -/
theorem Comply.step_iff (hprec : 11 ≤ ctx.prec) (h : Comply b.rows) :
    Comply (step ctx policies constraint (Session.start b) (c, answers)).committed.rows ↔
      Sound ctx policies constraint b.rows (c, answers) := by
  obtain ⟨b', hsession, hrows⟩ := @step_start ctx policies constraint answers c b
  rw [hsession]
  show Comply b'.rows ↔ _
  rw [hrows]
  unfold Sound
  by_cases haccepts : accepts ctx policies constraint answers b.rows c = true
  · rw [if_pos haccepts]
    exact (h.append_iff hprec (inTime_of_accepts haccepts)).trans
      ⟨fun hall _ => hall, fun hall => hall haccepts⟩
  · rw [if_neg haccepts]
    exact iff_of_true h fun haccepted => absurd haccepted haccepts

theorem comply_nil : Comply [] where
  inTime _ hr := by cases hr
  balanced _ hr := by cases hr
  apart _ := .nil
  within _ _ := by
    show (0 : ℚ) ≤ 24
    norm_num

/-- From tables that comply. -/
theorem comply_run_iff (hprec : 11 ≤ ctx.prec) {calls : List (Submit × Answers)} :
    ∀ {b : Books TimesheetSubmissionModel Unit}, Comply b.rows →
      ((∀ pre post, calls = pre ++ post →
          Comply (run ctx policies constraint (Session.start b) pre).committed.rows) ↔
        SoundRun ctx policies constraint (Session.start b) calls) := by
  induction calls with
  | nil =>
    intro b hb
    refine iff_of_true (fun pre post hcalls => ?_) trivial
    obtain ⟨rfl, -⟩ := List.append_eq_nil_iff.mp hcalls.symm
    exact hb
  | cons call calls ih =>
    intro b hb
    have hstep : Comply (step ctx policies constraint (Session.start b) call).committed.rows ↔
        Sound ctx policies constraint b.rows call := hb.step_iff hprec
    obtain ⟨b', hsession, -⟩ := @step_start ctx policies constraint call.2 call.1 b
    have hrest : Comply b'.rows → ((∀ pre post, calls = pre ++ post →
        Comply (run ctx policies constraint (step ctx policies constraint (Session.start b) call)
          pre).committed.rows) ↔ SoundRun ctx policies constraint
            (step ctx policies constraint (Session.start b) call) calls) := by
      rw [hsession]
      exact ih
    constructor
    · intro h
      have hnext := h [call] calls rfl
      have hb' : Comply b'.rows := by
        have hrows := hnext
        rw [show run ctx policies constraint (Session.start b) [call] = Session.start b' from hsession]
          at hrows
        exact hrows
      refine ⟨hstep.mp hnext, (hrest hb').mp fun pre post hcalls => ?_⟩
      exact h (call :: pre) post (by rw [hcalls, List.cons_append])
    · rintro ⟨hsound, hsounds⟩ pre post hcalls
      cases pre with
      | nil => exact hb
      | cons first pre =>
        rw [List.cons_append, List.cons.injEq] at hcalls
        obtain ⟨rfl, hcalls⟩ := hcalls
        have hb' : Comply b'.rows := by
          have hrows := hstep.mpr hsound
          rw [show step ctx policies constraint (Session.start b) call = Session.start b' from hsession]
            at hrows
          exact hrows
        exact (hrest hb').mpr hsounds pre post hcalls

end Runs

/-- **When the stored timesheets comply**: in every state of a run, exactly when each call that is
accepted is balanced, and its entries pass the checks together with those that its employee has
stored. -/
theorem timesheets_comply_iff (policies : List AccountingPolicy)
    (constraint : List TimesheetSubmissionModel → Bool) (calls : List (Submit × Answers)) :
    (∀ pre post, calls = pre ++ post →
        Comply (run Hashing.defaultContext policies constraint start pre).committed.rows) ↔
      SoundRun Hashing.defaultContext policies constraint start calls :=
  comply_run_iff (by decide) comply_nil

/-! ### Two weeks of one employee -/

/-- The primary keys and `uq_timesheet_submission_employee_week`. -/
def uniqueKeys (rows : List TimesheetSubmissionModel) : Bool :=
  (rows.map (·.id)).Nodup && (rows.flatMap fun r => r.entries.map (·.entryId)).Nodup &&
    (rows.map fun r => (r.employeeId, r.payPeriodId, r.workWeekStart)).Nodup

theorem isDay_june (day : Fin 9) : Date.IsDay 2024 6 (day + 1) := by
  revert day
  decide

def sampleDate (day : Fin 9) : Date := Date.of 2024 6 (day + 1) (isDay_june day)

/-- Sixteen hours on 3 June 2024, from six to ten in the evening. -/
def sampleEntry (entryId : UUID) (chargeCode : String) : TimesheetEntry where
  entryId := entryId
  workDate := sampleDate 2
  chargeCode := chargeCode
  chargeType := .direct
  hours := 16
  startTime := some 21600000000
  endTime := some 79200000000
  hours_nonneg := by norm_num
  hours_le := by norm_num
  ends_later := by simp

/-- The entry is submitted on 5 June for the week from `weekStart` on. -/
def sampleSubmit (id entryId : UUID) (chargeCode : String) (weekStart : Fin 9) (expectedHours : ℚ) :
    Submit × Answers where
  fst := {
    submission := {
      submissionId := id
      employeeId := ⟨1⟩
      payPeriodId := ⟨2⟩
      workWeekStart := sampleDate weekStart
      workWeekEnd := sampleDate weekStart
      entries := [sampleEntry entryId chargeCode]
      week_ordered := le_rfl }
    actorId := ⟨3⟩
    rules := { expectedHours := expectedHours }
    now := { sampleTime with date := sampleDate 4, utcoffset := none } }
  snd := permissive

/-- The rows that a run of calls stores. -/
def sampleRows (calls : List (Submit × Answers)) : List TimesheetSubmissionModel :=
  (run Hashing.defaultContext [] uniqueKeys start calls).committed.rows

/-- **Sixteen hours are stored where forty are expected**, and two submissions of one employee for the
same hours of a date on different charge codes are both stored. -/
theorem timesheets_not_comply :
    ¬Comply (sampleRows [sampleSubmit ⟨10⟩ ⟨11⟩ "A" 2 40]) ∧
    ¬Comply (sampleRows [sampleSubmit ⟨10⟩ ⟨11⟩ "A" 2 16, sampleSubmit ⟨20⟩ ⟨21⟩ "B" 3 16]) := by
  constructor
  · intro h
    have hrow : (sampleRows [sampleSubmit ⟨10⟩ ⟨11⟩ "A" 2 40]).any (fun r => decide
        (r.rules.totalTimeTolerance < |(r.entries.map (·.hours)).sum - r.rules.expectedHours|)) = true := by
      decide +kernel
    obtain ⟨r, hr, hover⟩ := List.any_eq_true.mp hrow
    exact not_lt.mpr (h.balanced r hr) (of_decide_eq_true hover)
  · intro h
    have hhours : hoursOn (sampleDate 2) (entriesOf ⟨1⟩ (sampleRows
        [sampleSubmit ⟨10⟩ ⟨11⟩ "A" 2 16, sampleSubmit ⟨20⟩ ⟨21⟩ "B" 3 16])) = 32 := by
      decide +kernel
    have hwithin := h.within ⟨1⟩ (sampleDate 2)
    rw [hhours] at hwithin
    norm_num at hwithin

end FinanceAccounting.Payroll
