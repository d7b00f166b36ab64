import FinanceAccounting.Modules.AssetStore

/-! # Does the fixed asset service own its transaction?

A call keeps the transaction boundary when it leaves nothing pending: a success has committed the
rows of the executor, of the journal and of the service, and everything else leaves the committed
tables as they were.  `boundary_kept_iff` says exactly when.  Two kinds of calls do not: a transfer
or a revaluation that is posted is never committed, and a method that returns early on a refused
transition leaves what the executor has written, an approval request for instance. -/

namespace FinanceAccounting.FixedAssets

open UnitOfWork (Session Result)
open ModulePosting (ModulePostingStatus)
open AllocationEngine (Arithmetic)
open WorkflowExecutor (TransitionResult)
open Modules

/-! ### What a call writes -/

def Plan.transition : Plan → TransitionCall
  | .guarded t _ _ | .checked t _ | .mass t _ | .uncommitted t _ _ => t

/-- The events that are posted when nothing stops the call. -/
def Plan.events : Plan → List Event
  | .guarded _ event _ | .uncommitted _ event _ => [event]
  | .checked _ event => event.toList
  | .mass _ events => events.filterMap id

def Plan.rows : Plan → List AssetRecord
  | .guarded _ _ rows => rows
  | .uncommitted _ _ row => [row]
  | _ => []

section Written

variable {σ : Type*} (env : Env σ AssetRecord)

/-- The session after these events. -/
def postAll : ℕ → List Event → Session σ → Session σ
  | _, [], s => s
  | n, e :: es, s => postAll (n + 1) es (env.postEvent n e s).2

/-- The tables with everything that is written for the transition, the events and the rows of a
plan, unless a constraint refuses a row. -/
def Plan.written (p : Plan) (tables : σ) : Option σ :=
  let s := postAll env 0 p.events (env.executeTransition p.transition (Session.start tables)).2
  env.flush (p.rows.foldl (fun t r => env.add r t) s.current)

/-- Nothing is pending, a success has committed all that was written, and everything else nothing. -/
structure Plan.Kept (p : Plan) (tables : σ)
    (r : Result ServiceError σ (List ModulePostingStatus)) : Prop where
  settled : r.2.current = r.2.committed
  success : ∀ statuses, r.1 = .ok statuses → statuses.all succeeded = true →
    p.written env tables = some r.2.committed
  failure : (∀ statuses, r.1 = .ok statuses → statuses.all succeeded = false) →
    r.2.committed = tables

end Written

/-! ### The boundary -/

section Boundary

variable {σ : Type*} {env : Env σ AssetRecord} {tables : σ} {s : Session σ}

/-- A call that raises has rolled back to the tables before it. -/
theorem Plan.kept_error {p : Plan} {e : ServiceError} (h : s.committed = tables) :
    p.Kept env tables (rollingBack (.error e, s)) where
  settled := rfl
  success _ hok := by cases hok
  failure _ := h

/-- So has one that rolls back after a failed posting. -/
theorem Plan.kept_rollback {p : Plan} {statuses : List ModulePostingStatus}
    (hfailed : statuses.all succeeded = false) (h : s.committed = tables) :
    p.Kept env tables (.ok statuses, s.rollback) where
  settled := rfl
  success statuses' hok hall := by
    obtain rfl := Except.ok.inj hok
    rw [hfailed] at hall
    cases hall
  failure _ := h

/-- A commit of all that was written, or its refusal, keeps the boundary. -/
theorem Plan.kept_commit {p : Plan} {statuses : List ModulePostingStatus}
    (hall : statuses.all succeeded = true) (h : s.committed = tables)
    (hwritten : p.written env tables = env.flush s.current) :
    p.Kept env tables (rollingBack ((env.commit s).andThen fun _ s => (.ok statuses, s))) := by
  unfold Env.commit
  cases hflush : env.flush s.current with
  | none => exact kept_error h
  | some flushed =>
      refine ⟨rfl, fun _ _ _ => hwritten.trans hflush, fun hfailed => ?_⟩
      have hfalse := hfailed statuses rfl
      rw [hall] at hfalse
      cases hfalse

/-- A method whose transition must pass raises, or goes on after the transition. -/
theorem gate_cases {α : Type*} {t : TransitionCall} {work : Session σ → Result ServiceError σ α}
    {motive : Result ServiceError σ α → Prop}
    (raised : ∀ e s₁, s₁.committed = s.committed →
      (∀ r s', env.executeTransition t s = (.ok r, s') → r.success = false) →
        motive (rollingBack (.error e, s₁)))
    (passed : ∀ r s₁, env.executeTransition t s = (.ok r, s₁) → s₁.committed = s.committed →
      r.success = true → motive (rollingBack (work s₁))) :
    motive (rollingBack ((env.executeTransition t s).andThen fun r s =>
      if !r.success then (.error .typeError, s) else work s)) := by
  have hcommitted := env.committed_executeTransition t s
  rcases htransition : env.executeTransition t s with ⟨e | r, s₁⟩
  · rw [htransition] at hcommitted
    refine raised e s₁ hcommitted fun r s' h => ?_
    cases htransition.symm.trans h
  · rw [htransition] at hcommitted
    rw [Result.ok_andThen]
    cases hsuccess : r.success with
    | false =>
        refine raised _ s₁ hcommitted fun r' s' h => ?_
        cases htransition.symm.trans h
        exact hsuccess
    | true => exact passed r s₁ htransition hcommitted hsuccess

/-- A loop of postings commits nothing; when it ends, it has posted every event. -/
theorem postings_session (events : List (Option Event)) :
    ∀ n (s : Session σ), (postings env n events s).2.committed = s.committed ∧
      ∀ statuses, (postings env n events s).1 = .ok statuses →
        (postings env n events s).2 = postAll env n (events.filterMap id) s := by
  induction events with
  | nil => exact fun _ _ => ⟨rfl, fun _ _ => rfl⟩
  | cons event events ih =>
      intro n s
      cases event with
      | none => exact ⟨rfl, fun _ hok => by cases hok⟩
      | some event =>
          have hcommitted := env.committed_postEvent n event s
          simp only [postings, List.filterMap_cons_some (show id (some event) = some event from rfl),
            postAll]
          rcases hpost : env.postEvent n event s with ⟨e | status, s₁⟩
          · rw [hpost] at hcommitted
            exact ⟨hcommitted, fun _ hok => by cases hok⟩
          · rw [hpost] at hcommitted
            obtain ⟨hc, hok⟩ := ih (n + 1) s₁
            rw [Result.ok_andThen]
            rcases hrest : postings env (n + 1) events s₁ with ⟨e | statuses, s₂⟩
            · rw [hrest] at hc
              exact ⟨hc.trans hcommitted, fun _ hok => by cases hok⟩
            · rw [hrest] at hc hok
              exact ⟨hc.trans hcommitted, fun _ _ => hok statuses rfl⟩

/-- When the transition passes and the posting succeeds, what is pending has more rows than what is
committed. -/
theorem current_ne_of_addRow {t : TransitionCall} {event : Event} {row : AssetRecord}
    {r : TransitionResult} {status : ModulePostingStatus} {s₁ s₂ : Session σ}
    (htransition : env.executeTransition t (Session.start tables) = (.ok r, s₁))
    (hpost : env.postEvent 0 event s₁ = (.ok status, s₂)) :
    (env.addRow row s₂).current ≠ tables := by
  intro heq
  have h₁ : env.rows tables ≤ env.rows s₁.current :=
    env.rows_executeTransition _ _ _ _ htransition
  have h₂ : env.rows s₁.current ≤ env.rows s₂.current := env.rows_postEvent _ _ _ _ _ hpost
  have h₃ : env.rows (env.addRow row s₂).current = env.rows s₂.current + 1 :=
    env.rows_add row s₂.current
  rw [heq] at h₃
  omega

/-- The condition: a call that is never committed does not succeed, and a refused transition of a
method that then returns early has written nothing. -/
def Plan.Bounded (env : Env σ AssetRecord) (p : Plan) (tables : σ) : Prop :=
  ∀ r s, env.executeTransition p.transition (Session.start tables) = (.ok r, s) →
    match p with
    | .guarded _ _ _ => r.success = false → s.current = tables
    | .uncommitted _ event _ => r.success = true → ∀ status s',
        env.postEvent 0 event s = (.ok status, s') → succeeded status = false
    | _ => True

theorem guarded_kept_iff (t : TransitionCall) (event : Event) (rows : List AssetRecord) :
    (Plan.guarded t event rows).Kept env tables
        ((Plan.guarded t event rows).run env (Session.start tables)) ↔
      (Plan.guarded t event rows).Bounded env tables := by
  have hcommitted := env.committed_executeTransition t (Session.start tables)
  simp only [Plan.run, Plan.Bounded, Plan.transition, Env.guardedPosting, Env.guardedWork,
    Env.runWorkflowGuard, mapOk_rollingBack, mapOk_andThen]
  rcases htransition : env.executeTransition t (Session.start tables) with ⟨e | r, s⟩
  · rw [htransition] at hcommitted
    exact iff_of_true (Plan.kept_error hcommitted) fun r s h => by cases h
  · rw [htransition] at hcommitted
    have hs : s.committed = tables := hcommitted
    cases hsuccess : r.success with
    | false =>
        have hcond : (∀ r' s', ((Except.ok r, s) : Result ServiceError σ _) = (.ok r', s') →
            r'.success = false → s'.current = tables) ↔ s.current = tables := by
          constructor
          · exact fun h => h r s rfl hsuccess
          · intro h r' s' heq _
            cases heq
            exact h
        rw [hcond]
        simp only [Result.ok_andThen, guardFailureResult, hsuccess, Bool.false_eq_true, if_false,
          mapOk_ok, rollingBack_ok]
        constructor
        · exact fun hkept => hkept.settled.trans hs
        · intro hcurrent
          refine ⟨hcurrent.trans hs.symm, fun statuses hok hall => ?_, fun _ => hs⟩
          obtain rfl := Except.ok.inj hok
          have hrefused := not_succeeded_refusal r.approvalRequired
          simp [hrefused] at hall
    | true =>
        refine iff_of_true ?_ fun r' s' heq hfalse => ?_
        · simp only [Result.ok_andThen, guardFailureResult, hsuccess, if_true, mapOk_andThen]
          have hpostCommitted := env.committed_postEvent 0 event s
          rcases hpost : env.postEvent 0 event s with ⟨e | status, s'⟩
          · rw [hpost] at hpostCommitted
            exact Plan.kept_error (hpostCommitted.trans hs)
          · rw [hpost] at hpostCommitted
            simp only [Result.ok_andThen, Env.commitOrRollback, mapOk_ok]
            cases hstatus : succeeded status with
            | false =>
                refine Plan.kept_rollback ?_ (hpostCommitted.trans hs)
                simp [hstatus]
            | true =>
                refine Plan.kept_commit (by simp [hstatus]) ?_ ?_
                · exact hpostCommitted.trans hs
                · simp [Plan.written, Plan.transition, Plan.events, Plan.rows, postAll, htransition,
                    hpost]
        · cases heq
          rw [hsuccess] at hfalse
          cases hfalse

theorem mass_kept (t : TransitionCall) (events : List (Option Event)) :
    (Plan.mass t events).Kept env tables
      ((Plan.mass t events).run env (Session.start tables)) := by
  refine gate_cases (motive := fun out => (Plan.mass t events).Kept env tables out)
    (fun e s hs _ => Plan.kept_error hs) fun r s htransition hs hsuccess => ?_
  obtain ⟨hc, hposted⟩ := @postings_session _ env events 0 s
  rcases hpostings : postings env 0 events s with ⟨e | statuses, s'⟩
  · rw [hpostings] at hc
    exact Plan.kept_error (hc.trans hs)
  · rw [hpostings] at hc hposted
    have hs' : s' = postAll env 0 (events.filterMap id) s := hposted statuses rfl
    rw [Result.ok_andThen]
    cases hall : statuses.all succeeded with
    | false => exact Plan.kept_rollback hall (hc.trans hs)
    | true =>
        refine Plan.kept_commit hall (hc.trans hs) ?_
        simp [Plan.written, Plan.transition, Plan.events, Plan.rows, htransition, hs']

/-- A checked posting is a batch of one event. -/
theorem run_checked (t : TransitionCall) (event : Event) (s : Session σ) :
    (Plan.checked t (some event)).run env s = (Plan.mass t [some event]).run env s := by
  simp only [Plan.run]
  refine congrArg (rollingBack <| Result.andThen _ ·) (funext₂ fun r s => ?_)
  cases r.success with
  | false => rfl
  | true =>
      simp only [Bool.not_true, Bool.false_eq_true, if_false, postings]
      rcases env.postEvent 0 event s with ⟨e | status, s'⟩
      · rfl
      · simp only [Result.ok_andThen, Env.commitOrRollback, List.all_cons, List.all_nil,
          Bool.and_true]
        split <;> rfl

theorem checked_kept (t : TransitionCall) (event : Option Event) :
    (Plan.checked t event).Kept env tables
      ((Plan.checked t event).run env (Session.start tables)) := by
  cases event with
  | some event =>
      rw [run_checked]
      obtain ⟨hsettled, hsuccess, hfailure⟩ := @mass_kept _ env tables t [some event]
      exact ⟨hsettled, hsuccess, hfailure⟩
  | none =>
      exact gate_cases (motive := fun out => (Plan.checked t none).Kept env tables out)
        (fun e s hs _ => Plan.kept_error hs) fun r s _ hs _ => Plan.kept_error hs

theorem uncommitted_kept_iff (t : TransitionCall) (event : Event) (row : AssetRecord) :
    (Plan.uncommitted t event row).Kept env tables
        ((Plan.uncommitted t event row).run env (Session.start tables)) ↔
      (Plan.uncommitted t event row).Bounded env tables := by
  refine gate_cases (motive := fun out => (Plan.uncommitted t event row).Kept env tables out ↔ _)
    (fun e s hs hfails => ?_) fun r s htransition hs hsuccess => ?_
  · refine iff_of_true (Plan.kept_error hs) fun r s' heq htrue => ?_
    rw [hfails r s' heq] at htrue
    cases htrue
  · have hpostCommitted := env.committed_postEvent 0 event s
    rcases hpost : env.postEvent 0 event s with ⟨e | status, s'⟩
    · rw [hpost] at hpostCommitted
      refine iff_of_true (Plan.kept_error (hpostCommitted.trans hs)) ?_
      intro r' s'' heq _ status s₃ hok
      cases htransition.symm.trans heq
      cases hpost.symm.trans hok
    · rw [hpost] at hpostCommitted
      have hs' : s'.committed = tables := hpostCommitted.trans hs
      rw [Result.ok_andThen]
      cases hstatus : succeeded status with
      | false =>
          refine iff_of_true (Plan.kept_rollback (by simp [hstatus]) hs') ?_
          intro r' s'' heq _ status' s₃ hok
          cases htransition.symm.trans heq
          cases hpost.symm.trans hok
          exact hstatus
      | true =>
          refine iff_of_false (fun hkept => ?_) fun hbounded => ?_
          · exact current_ne_of_addRow htransition hpost (hkept.settled.trans hs')
          · have hfalse := hbounded r s htransition hsuccess status s' hpost
            rw [hstatus] at hfalse
            cases hfalse

/-- **The boundary is kept exactly when no transfer or revaluation succeeds and a refused transition
of a method that returns early has written nothing.** -/
theorem boundary_kept_iff (a : Arithmetic) (env : Env σ AssetRecord) (c : Call) (tables : σ) :
    (c.plan a).Kept env tables (c.run a env (Session.start tables)) ↔
      (c.plan a).Bounded env tables := by
  rw [run_eq_plan]
  cases c.plan a with
  | guarded t event rows => exact guarded_kept_iff t event rows
  | checked t event => exact iff_of_true (checked_kept t event) fun _ _ _ => trivial
  | mass t events => exact iff_of_true (mass_kept t events) fun _ _ _ => trivial
  | uncommitted t event row => exact uncommitted_kept_iff t event row

end Boundary

/-! ### A revaluation -/

/-- Twenty-eight digits. -/
def sampleArithmetic : Arithmetic where
  ctx := Hashing.defaultContext
  decimalPlaces _ := 2

def sampleDate : Date where
  year := 2024
  month := 6
  day := 30
  year_pos := by decide
  year_le := by decide
  month_pos := by decide
  month_le := by decide
  day_pos := by decide
  day_le := by decide

/-- One asset of 1000 in the register. -/
def registered : Tables where
  categories := [⟨9⟩]
  rows := [.asset (acquiredAsset ⟨1⟩ 1000 sampleDate ⟨9⟩ 60 none)]

/-- **A posted revaluation is not committed.** -/
theorem revaluation_uncommitted :
    let c : Call := .recordRevaluation ⟨1⟩ 1000 1200 sampleDate ⟨5⟩ "USD"
    let env := storeEnv sampleArithmetic.ctx permissive
    ¬(c.plan sampleArithmetic).Kept env registered
      (c.run sampleArithmetic env (Session.start registered)) := by
  intro c env hkept
  have hsize := congrArg Tables.size hkept.settled
  revert hsize
  decide +kernel

end FinanceAccounting.FixedAssets
