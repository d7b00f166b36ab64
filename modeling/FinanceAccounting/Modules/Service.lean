import FinanceAccounting.Modules.Posting
import FinanceAccounting.Kernel.WorkflowExecutor

/-! # The transaction boundary of a module service

A module service owns the transaction: it asks the workflow executor, has the kernel post without
committing, adds rows of its own, and commits or rolls back.  What it works with is an `Env`: the
answers of the executor and of the kernel, both of which may write to the open transaction or raise,
and the flush of the rows that are added, which constraints may refuse.

`guarded_posting` is the pattern most methods follow. -/

namespace FinanceAccounting.Modules

open UnitOfWork (Session Result)
open ModulePosting (ModulePostingStatus)
open WorkflowExecutor (Workflow Transition TransitionResult)

/-! ### What a service works with -/

inductive ServiceError where
  /-- From the executor, the kernel or an engine. -/
  | raised
  | typeError
  | valueError
  | integrityError
deriving DecidableEq, Repr

/-- The arguments of `execute_transition` that the services give. -/
structure TransitionCall where
  workflow : Workflow
  entityType : String
  entityId : UUID
  currentState : String
  action : String
  actorId : UUID
  actorRole : String := ""
  amount : Option ℚ := none
  currency : String := "USD"
  context : List (String × PolicyBridge.PayloadValue) := []
  approvalRequestId : Option UUID := none

/-- `_assets_draft_posted`, `_gl_draft_posted` and their like. -/
def draftPosted (name : String) : Workflow where
  name := name
  transitions := [{ fromState := "draft", toState := "posted", action := "post", postsEntry := true }]

/-- The one transition of such a workflow. -/
def draftPost (name entityType : String) (entityId actorId : UUID) (amount : Option ℚ)
    (currency : String) : TransitionCall where
  workflow := draftPosted name
  entityType := entityType
  entityId := entityId
  currentState := "draft"
  action := "post"
  actorId := actorId
  amount := amount
  currency := currency

/-- The collaborators of a service on tables `σ` whose own rows are of type `ρ`.  Neither commits,
and no row is deleted. -/
structure Env (σ ρ : Type*) where
  executeTransition : TransitionCall → Session σ → Result ServiceError σ TransitionResult
  /-- The posting of the `n`-th event of a call. -/
  postEvent : ℕ → Event → Session σ → Result ServiceError σ ModulePostingStatus
  add : ρ → σ → σ
  /-- The added rows are written, or a constraint refuses one. -/
  flush : σ → Option σ
  rows : σ → ℕ
  committed_executeTransition : ∀ a s, (executeTransition a s).2.committed = s.committed
  committed_postEvent : ∀ n e s, (postEvent n e s).2.committed = s.committed
  rows_executeTransition : ∀ a s r s', executeTransition a s = (.ok r, s') →
    rows s.current ≤ rows s'.current
  /-- As long as the ingestor meets no `IntegrityError`, on which it rolls the session back. -/
  rows_postEvent : ∀ n e s r s', postEvent n e s = (.ok r, s') → rows s.current ≤ rows s'.current
  rows_add : ∀ r t, rows (add r t) = rows t + 1

/-- `is_success`. -/
def succeeded (status : ModulePostingStatus) : Bool :=
  status = .posted || status = .alreadyPosted

/-- `guard_failure_result`. -/
def guardFailureResult (r : TransitionResult) : Option ModulePostingStatus :=
  if r.success then none else some (if r.approvalRequired then .guardBlocked else .guardRejected)

/-- A refusal is no success. -/
theorem not_succeeded_refusal (approvalRequired : Bool) :
    succeeded (if approvalRequired then .guardBlocked else .guardRejected) = false := by
  cases approvalRequired <;> rfl

/-- `except Exception: rollback; raise`. -/
def rollingBack {σ α : Type*} (r : Result ServiceError σ α) : Result ServiceError σ α :=
  match r with
  | (.ok a, s) => (.ok a, s)
  | (.error e, s) => (.error e, s.rollback)

/-- The value that is returned, by the function. -/
def mapOk {σ α β : Type*} (f : α → β) (r : Result ServiceError σ α) : Result ServiceError σ β :=
  r.andThen fun a s => (.ok (f a), s)

section Answers

variable {σ : Type*}

@[simp] theorem mapOk_ok {α β : Type*} (f : α → β) (x : α) (s : Session σ) :
    mapOk f (.ok x, s) = (.ok (f x), s) := rfl

@[simp] theorem mapOk_error {α β : Type*} (f : α → β) (e : ServiceError) (s : Session σ) :
    mapOk f (.error e, s) = (.error e, s) := rfl

@[simp] theorem rollingBack_ok {α : Type*} (x : α) (s : Session σ) :
    rollingBack (.ok x, s) = (.ok x, s) := rfl

theorem mapOk_rollingBack {α β : Type*} (f : α → β) (r : Result ServiceError σ α) :
    mapOk f (rollingBack r) = rollingBack (mapOk f r) := by
  rcases r with ⟨e | x, s⟩ <;> rfl

theorem mapOk_andThen {α β γ : Type*} (f : β → γ) (r : Result ServiceError σ α)
    (k : α → Session σ → Result ServiceError σ β) :
    mapOk f (r.andThen k) = r.andThen fun x s => mapOk f (k x s) := by
  rcases r with ⟨e | x, s⟩ <;> rfl

end Answers

namespace Env

variable {σ ρ : Type*} (env : Env σ ρ)

/-- The same collaborators, for rows that are among those of the tables. -/
def through {ρ' : Type*} (f : ρ' → ρ) : Env σ ρ' where
  executeTransition := env.executeTransition
  postEvent := env.postEvent
  add r := env.add (f r)
  flush := env.flush
  rows := env.rows
  committed_executeTransition := env.committed_executeTransition
  committed_postEvent := env.committed_postEvent
  rows_executeTransition := env.rows_executeTransition
  rows_postEvent := env.rows_postEvent
  rows_add r := env.rows_add (f r)

/-- `run_workflow_guard`. -/
def runWorkflowGuard (a : TransitionCall) (s : Session σ) :
    Result ServiceError σ (Option ModulePostingStatus) :=
  (env.executeTransition a s).andThen fun r s => (.ok (guardFailureResult r), s)

/-- `session.add`. -/
def addRow (r : ρ) (s : Session σ) : Session σ := s.flush (env.add r s.current)

/-- `session.commit`. -/
def commit (s : Session σ) : Result ServiceError σ Unit :=
  match env.flush s.current with
  | some tables => (.ok (), (s.flush tables).commit)
  | none => (.error .integrityError, s)

/-- `commit_or_rollback`. -/
def commitOrRollback (status : ModulePostingStatus) (s : Session σ) : Result ServiceError σ Unit :=
  if succeeded status then env.commit s else (.ok (), s.rollback)

/-- Ask the executor, prepare the event, post it, write what goes with it, commit or roll back. -/
def guardedWork {α : Type*} (a : TransitionCall) (prepare : Session σ → Result ServiceError σ α)
    (event : α → Event) (finish : α → σ → σ) (s : Session σ) :
    Result ServiceError σ ModulePostingStatus :=
  rollingBack <|
    (env.runWorkflowGuard a s).andThen fun failure s =>
      match failure with
      | some status => (.ok status, s)
      | none =>
          (prepare s).andThen fun x s =>
            (env.postEvent 0 (event x) s).andThen fun status s =>
              let s := if succeeded status then s.flush (finish x s.current) else s
              (env.commitOrRollback status s).andThen fun _ s => (.ok status, s)

/-- Nothing to prepare, and some rows to add. -/
def guardedPosting (a : TransitionCall) (event : Event) (rows : List ρ) (s : Session σ) :
    Result ServiceError σ ModulePostingStatus :=
  env.guardedWork a (fun s => (.ok (), s)) (fun _ => event)
    (fun _ t => rows.foldl (fun t r => env.add r t) t) s

/-! ### What a guarded posting does -/

variable {env} {a : TransitionCall} {event : Event} {rows : List ρ} {s s' : Session σ}

theorem rollingBack_eq_ok {α : Type*} {r : Result ServiceError σ α} {x : α}
    (h : rollingBack r = (.ok x, s')) : r = (.ok x, s') := by
  rcases r with ⟨e | y, s⟩
  · cases h
  · exact h

theorem rollingBack_eq_error {α : Type*} {r : Result ServiceError σ α} {e : ServiceError}
    (h : rollingBack r = (.error e, s')) : r.1 = .error e ∧ s' = r.2.rollback := by
  rcases r with ⟨e | y, s⟩
  · cases h
    exact ⟨rfl, rfl⟩
  · cases h

theorem commit_eq_ok (h : env.commit s = (.ok (), s')) :
    ∃ t, env.flush s.current = some t ∧ s' = (s.flush t).commit := by
  unfold commit at h
  cases hflush : env.flush s.current with
  | none =>
      rw [hflush] at h
      cases h
  | some t =>
      rw [hflush] at h
      cases h
      exact ⟨t, rfl, rfl⟩

theorem commit_eq_error {e : ServiceError} (h : env.commit s = (.error e, s')) : s' = s := by
  unfold commit at h
  split at h
  · cases h
  · exact (Prod.mk.inj h).2.symm

section Work

variable {α : Type*} {prepare : Session σ → Result ServiceError σ α} {toEvent : α → Event}
variable {finish : α → σ → σ}

/-- Guarded work that returns was refused, or posted and then committed or rolled back. -/
theorem guardedWork_eq_ok {status : ModulePostingStatus}
    (h : env.guardedWork a prepare toEvent finish s = (.ok status, s')) :
    ∃ r s₁, env.executeTransition a s = (.ok r, s₁) ∧
      ((r.success = false ∧ guardFailureResult r = some status ∧ s' = s₁) ∨
        ∃ x s₂ s₃, r.success = true ∧ prepare s₁ = (.ok x, s₂) ∧
          env.postEvent 0 (toEvent x) s₂ = (.ok status, s₃) ∧
            ((succeeded status = false ∧ s' = s₃.rollback) ∨
              (succeeded status = true ∧ ∃ t, env.flush (finish x s₃.current) = some t ∧
                s' = Session.start t))) := by
  obtain ⟨failure, s₁, hguard, hrest⟩ := Result.andThen_eq_ok.mp (rollingBack_eq_ok h)
  obtain ⟨r, s₂, htransition, hfailure⟩ := Result.andThen_eq_ok.mp hguard
  obtain ⟨hok, rfl⟩ := Prod.mk.inj hfailure
  obtain rfl := Except.ok.inj hok
  refine ⟨r, s₂, htransition, ?_⟩
  cases hsuccess : r.success with
  | false =>
      refine Or.inl ⟨rfl, ?_⟩
      simp only [guardFailureResult, hsuccess, Bool.false_eq_true, if_false] at hrest ⊢
      obtain ⟨hstatus, rfl⟩ := Prod.mk.inj hrest
      exact ⟨congrArg some (Except.ok.inj hstatus), rfl⟩
  | true =>
      simp only [guardFailureResult, hsuccess, if_true] at hrest
      obtain ⟨x, s₃, hprepare, hposting⟩ := Result.andThen_eq_ok.mp hrest
      obtain ⟨status', s₄, hpost, hfinish⟩ := Result.andThen_eq_ok.mp hposting
      obtain ⟨_, s₅, hcommit, hreturn⟩ := Result.andThen_eq_ok.mp hfinish
      obtain ⟨hstatus, rfl⟩ := Prod.mk.inj hreturn
      obtain rfl := Except.ok.inj hstatus
      refine Or.inr ⟨x, s₃, s₄, rfl, hprepare, hpost, ?_⟩
      unfold commitOrRollback at hcommit
      cases hsucceeded : succeeded status' with
      | false =>
          simp only [hsucceeded, Bool.false_eq_true, if_false] at hcommit
          exact Or.inl ⟨rfl, (Prod.mk.inj hcommit).2.symm⟩
      | true =>
          simp only [hsucceeded, if_true] at hcommit
          obtain ⟨t, hflush, rfl⟩ := commit_eq_ok hcommit
          exact Or.inr ⟨rfl, t, hflush, rfl⟩

/-- Guarded work that raises leaves the committed tables as they were, and nothing pending. -/
theorem guardedWork_eq_error {e : ServiceError}
    (hprepare : ∀ s, (prepare s).2.committed = s.committed)
    (h : env.guardedWork a prepare toEvent finish s = (.error e, s')) :
    s' = Session.start s.committed := by
  obtain ⟨hraised, rfl⟩ := rollingBack_eq_error h
  rw [Session.rollback, Session.start]
  have h₁ := env.committed_executeTransition a s
  unfold runWorkflowGuard at hraised ⊢
  rcases htransition : env.executeTransition a s with ⟨e₁ | r, s₁⟩
  · rw [htransition] at h₁
    exact congrArg Session.start h₁
  · rw [htransition] at h₁ hraised
    simp only [Result.ok_andThen] at hraised ⊢
    cases hfailure : guardFailureResult r with
    | some status =>
        rw [hfailure] at hraised
        cases hraised
    | none =>
        rw [hfailure] at hraised
        dsimp only at hraised ⊢
        have h₂ := hprepare s₁
        rcases hprepared : prepare s₁ with ⟨e₂ | x, s₂⟩
        · rw [hprepared] at h₂
          exact congrArg Session.start (h₂.trans h₁)
        · rw [hprepared] at h₂ hraised
          simp only [Result.ok_andThen] at hraised ⊢
          have h₃ := env.committed_postEvent 0 (toEvent x) s₂
          rcases hpost : env.postEvent 0 (toEvent x) s₂ with ⟨e₃ | status, s₃⟩
          · rw [hpost] at h₃
            exact congrArg Session.start (h₃.trans (h₂.trans h₁))
          · rw [hpost] at h₃ hraised
            simp only [Result.ok_andThen, commitOrRollback] at hraised ⊢
            cases hsucceeded : succeeded status with
            | false =>
                simp only [hsucceeded, Bool.false_eq_true, if_false, Result.ok_andThen] at hraised
                cases hraised
            | true =>
                simp only [hsucceeded, if_true, commit] at hraised ⊢
                split
                · rename_i t hflush
                  rw [hflush] at hraised
                  cases hraised
                · exact congrArg Session.start (h₃.trans (h₂.trans h₁))

end Work

/-- A guarded posting that returns was refused, or posted and then committed or rolled back. -/
theorem guardedPosting_eq_ok {status : ModulePostingStatus}
    (h : env.guardedPosting a event rows s = (.ok status, s')) :
    ∃ r s₁, env.executeTransition a s = (.ok r, s₁) ∧
      ((r.success = false ∧ guardFailureResult r = some status ∧ s' = s₁) ∨
        ∃ s₂, r.success = true ∧ env.postEvent 0 event s₁ = (.ok status, s₂) ∧
          ((succeeded status = false ∧ s' = s₂.rollback) ∨
            (succeeded status = true ∧ ∃ t,
              env.flush (rows.foldl (fun t r => env.add r t) s₂.current) = some t ∧
                s' = Session.start t))) := by
  obtain ⟨r, s₁, htransition, hrefused | hpassed⟩ := guardedWork_eq_ok h
  · exact ⟨r, s₁, htransition, Or.inl hrefused⟩
  · obtain ⟨_, s₂, s₃, hsuccess, hprepare, hpost, hdone⟩ := hpassed
    obtain ⟨_, rfl⟩ := Prod.mk.inj hprepare
    exact ⟨r, s₁, htransition, Or.inr ⟨s₃, hsuccess, hpost, hdone⟩⟩

theorem guardedPosting_eq_error {e : ServiceError}
    (h : env.guardedPosting a event rows s = (.error e, s')) : s' = Session.start s.committed :=
  guardedWork_eq_error (fun _ => rfl) h

end Env

/-! ### Answers from outside -/

/-- What a call is answered: by the executor, with the approval requests it writes, or with an
exception, and by the kernel about each event. -/
structure Answers where
  workflow : Option (TransitionResult × ℕ)
  verdict : ℕ → Verdict

/-- Everything is let through. -/
def permissive : Answers where
  workflow := some ({ success := true, newState := some "posted" }, 0)
  verdict _ := .proceeds

end FinanceAccounting.Modules
