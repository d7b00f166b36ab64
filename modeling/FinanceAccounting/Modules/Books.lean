import FinanceAccounting.Modules.Service

/-! # The books of a module

The posted lines, the rows of a module, and the tables of an engine that shares its session.
`booksEnv` is the environment of one call on them: the workflow of the call must have the
transition, the policies of the module make the lines, and a constraint on the rows is checked when
they are written. -/

namespace FinanceAccounting.Modules

open UnitOfWork (Session Result)
open ModulePosting (ModulePostingStatus)
open PolicyBridge (AccountingPolicy)
open WorkflowExecutor (TransitionResult findTransition)

structure Books (ρ τ : Type*) where
  lines : List LedgerLine := []
  rows : List ρ := []
  store : τ
  approvalRequests : ℕ := 0

namespace Books

variable {ρ τ : Type*}

def size (b : Books ρ τ) : ℕ := b.lines.length + b.rows.length + b.approvalRequests

def post (lines : List LedgerLine) (b : Books ρ τ) : Books ρ τ :=
  { b with lines := b.lines ++ lines }

def request (n : ℕ) (b : Books ρ τ) : Books ρ τ :=
  { b with approvalRequests := b.approvalRequests + n }

def add (r : ρ) (b : Books ρ τ) : Books ρ τ := { b with rows := b.rows ++ [r] }

/-- The tables of the engine go on. -/
def become (store : τ) (b : Books ρ τ) : Books ρ τ := { b with store := store }

section Simp

variable {b : Books ρ τ} {lines : List LedgerLine} {n : ℕ} {r : ρ} {store : τ}

@[simp] theorem lines_post : (b.post lines).lines = b.lines ++ lines := rfl

@[simp] theorem rows_post : (b.post lines).rows = b.rows := rfl

@[simp] theorem store_post : (b.post lines).store = b.store := rfl

@[simp] theorem lines_request : (b.request n).lines = b.lines := rfl

@[simp] theorem rows_request : (b.request n).rows = b.rows := rfl

@[simp] theorem store_request : (b.request n).store = b.store := rfl

@[simp] theorem lines_add : (b.add r).lines = b.lines := rfl

@[simp] theorem rows_add : (b.add r).rows = b.rows ++ [r] := rfl

@[simp] theorem store_add : (b.add r).store = b.store := rfl

@[simp] theorem lines_become : (b.become store).lines = b.lines := rfl

@[simp] theorem rows_become : (b.become store).rows = b.rows := rfl

@[simp] theorem store_become : (b.become store).store = store := rfl

theorem foldl_add (rows : List ρ) : ∀ b : Books ρ τ,
    rows.foldl (fun b r => b.add r) b = { b with rows := b.rows ++ rows } := by
  induction rows with
  | nil =>
      intro b
      simp
  | cons r rows ih =>
      intro b
      rw [List.foldl_cons, ih]
      simp [add]

end Simp

end Books

/-- An engine works on its tables in the session; what it raises is raised. -/
def onStore {ρ τ ε α : Type*} (f : Session τ → Result ε τ α) (s : Session (Books ρ τ)) :
    Result ServiceError (Books ρ τ) α :=
  let r := f ⟨s.committed.store, s.current.store⟩
  let s' : Session (Books ρ τ) :=
    ⟨s.committed.become r.2.committed, s.current.become r.2.current⟩
  match r.1 with
  | .ok x => (.ok x, s')
  | .error _ => (.error .raised, s')

/-! ### The environment of a call -/

section Env

variable {ρ τ : Type*} (ctx : Decimal.Context) (policies : List AccountingPolicy)
variable (constraint : List ρ → Bool) (answers : Answers)

/-- `execute_transition`: no transition, no success; the permissions, the guard and the approval
answer for the rest. -/
def executeOn (a : TransitionCall) (s : Session (Books ρ τ)) :
    Result ServiceError (Books ρ τ) TransitionResult :=
  match findTransition a.workflow a.currentState a.action with
  | none =>
      (.ok {
        success := false
        reason := "No transition from '" ++ a.currentState ++ "' via action '" ++ a.action ++
          "' in workflow '" ++ a.workflow.name ++ "'" }, s)
  | some transition =>
      match answers.workflow with
      | none => (.error .raised, s)
      | some (r, requests) =>
          (.ok { r with newState := if r.success then some transition.toState else none },
            s.flush (s.current.request requests))

def postOn (n : ℕ) (e : Event) (s : Session (Books ρ τ)) :
    Result ServiceError (Books ρ τ) ModulePostingStatus :=
  match postEvent ctx policies (answers.verdict n) e with
  | .posted lines => (.ok .posted, s.flush (s.current.post lines))
  | .answered status => (.ok status, s)
  | .raised => (.error .raised, s)

variable {ctx policies answers} {s s' : Session (Books ρ τ)}

/-- What an answer of the executor leaves; a success is a transition of the workflow. -/
theorem executeOn_eq_ok {a : TransitionCall} {r : TransitionResult}
    (h : executeOn answers a s = (.ok r, s')) : ∃ n, s' = s.flush (s.current.request n) ∧
      (r.success = true → ∃ transition requests r₀,
        findTransition a.workflow a.currentState a.action = some transition ∧
          r.newState = some transition.toState ∧ answers.workflow = some (r₀, requests) ∧
            r₀.success = true) := by
  unfold executeOn at h
  cases hfind : findTransition a.workflow a.currentState a.action with
  | none =>
      rw [hfind] at h
      obtain ⟨hr, rfl⟩ := Prod.mk.inj h
      obtain rfl := Except.ok.inj hr
      exact ⟨0, rfl, fun hsuccess => by cases hsuccess⟩
  | some transition =>
      rw [hfind] at h
      cases hworkflow : answers.workflow with
      | none =>
          rw [hworkflow] at h
          cases h
      | some answer =>
          obtain ⟨r₀, requests⟩ := answer
          rw [hworkflow] at h
          obtain ⟨hr, rfl⟩ := Prod.mk.inj h
          obtain rfl := Except.ok.inj hr
          refine ⟨requests, rfl, fun hsuccess => ⟨transition, requests, r₀, rfl, ?_, rfl, hsuccess⟩⟩
          exact if_pos hsuccess

/-- The transition that the executor accepts. -/
def accepted (answers : Answers) (a : TransitionCall) : Option WorkflowExecutor.Transition :=
  (findTransition a.workflow a.currentState a.action).filter fun _ =>
    answers.workflow.any (·.1.success)

theorem findTransition_of_accepted {a : TransitionCall} {t : WorkflowExecutor.Transition}
    (h : accepted answers a = some t) : findTransition a.workflow a.currentState a.action = some t :=
  (Option.filter_eq_some_iff.mp h).1

/-- The executor accepts what it lets pass. -/
theorem accepted_of_success {a : TransitionCall} {r : TransitionResult}
    (h : executeOn answers a s = (.ok r, s')) (hsuccess : r.success = true) :
    ∃ t, accepted answers a = some t ∧ r.newState = some t.toState := by
  obtain ⟨n, -, htransition⟩ := executeOn_eq_ok h
  obtain ⟨t, requests, r₀, hfind, hstate, hworkflow, hpassed⟩ := htransition hsuccess
  refine ⟨t, Option.filter_eq_some_iff.mpr ⟨hfind, ?_⟩, hstate⟩
  rw [hworkflow]
  exact hpassed

/-- What a posting leaves. -/
theorem postOn_eq_ok {n : ℕ} {e : Event} {status : ModulePostingStatus}
    (h : postOn ctx policies answers n e s = (.ok status, s')) :
    (∃ lines, postEvent ctx policies (answers.verdict n) e = .posted lines ∧ status = .posted ∧
        s' = s.flush (s.current.post lines)) ∨
      (postEvent ctx policies (answers.verdict n) e = .answered status ∧ s' = s) := by
  unfold postOn at h
  cases hposting : postEvent ctx policies (answers.verdict n) e with
  | posted lines =>
      rw [hposting] at h
      cases h
      exact Or.inl ⟨lines, rfl, rfl, rfl⟩
  | answered status' =>
      rw [hposting] at h
      cases h
      exact Or.inr ⟨rfl, rfl⟩
  | raised =>
      rw [hposting] at h
      cases h

theorem committed_executeOn (a : TransitionCall) (s : Session (Books ρ τ)) :
    (executeOn answers a s).2.committed = s.committed := by
  unfold executeOn
  cases findTransition a.workflow a.currentState a.action with
  | none => rfl
  | some transition => cases answers.workflow <;> rfl

theorem committed_postOn (n : ℕ) (e : Event) (s : Session (Books ρ τ)) :
    (postOn ctx policies answers n e s).2.committed = s.committed := by
  unfold postOn
  cases postEvent ctx policies (answers.verdict n) e <;> rfl

variable (ctx policies answers)

def booksEnv : Env (Books ρ τ) ρ where
  executeTransition := executeOn answers
  postEvent := postOn ctx policies answers
  add := Books.add
  flush b := if constraint b.rows then some b else none
  rows := Books.size
  committed_executeTransition := committed_executeOn
  committed_postEvent := committed_postOn
  rows_executeTransition a s r s' h := by
    obtain ⟨n, rfl, _⟩ := executeOn_eq_ok h
    simp only [Books.size, Books.request, UnitOfWork.Session.current_flush]
    omega
  rows_postEvent n e s r s' h := by
    obtain ⟨lines, _, _, rfl⟩ | ⟨_, rfl⟩ := postOn_eq_ok h
    · simp only [Books.size, Books.post, UnitOfWork.Session.current_flush, List.length_append]
      omega
    · exact le_rfl
  rows_add r b := by
    simp only [Books.size, Books.add, List.length_append, List.length_singleton]
    omega

end Env

/-! ### A posted call -/

section Posted

variable {ρ τ : Type*} {ctx : Decimal.Context} {policies : List AccountingPolicy}
variable {constraint : List ρ → Bool} {answers : Answers} {s s' : Session (Books ρ τ)}

/-- What the posting of an event leaves. -/
theorem booksEnv_postEvent_posted {n : ℕ} {e : Event}
    (h : (booksEnv ctx policies constraint answers).postEvent n e s = (.ok .posted, s')) :
    ∃ lines, interpret ctx policies e = .posted lines ∧ s' = s.flush (s.current.post lines) := by
  obtain ⟨lines, hposting, _, hs'⟩ | ⟨hposting, _⟩ := postOn_eq_ok h
  · exact ⟨lines, interpret_of_posted hposting, hs'⟩
  · exact absurd hposting postEvent_ne_answered_posted

theorem booksEnv_executeTransition {a : TransitionCall} {r : TransitionResult}
    (h : (booksEnv ctx policies constraint answers).executeTransition a s = (.ok r, s')) :
    ∃ n, s' = s.flush (s.current.request n) := by
  obtain ⟨n, hs', _⟩ := executeOn_eq_ok h
  exact ⟨n, hs'⟩

theorem booksEnv_flush {b b' : Books ρ τ}
    (h : (booksEnv ctx policies constraint answers).flush b = some b') :
    b' = b ∧ constraint b.rows = true := by
  simp only [booksEnv] at h
  by_cases hrows : constraint b.rows = true
  · rw [if_pos hrows] at h
    exact ⟨(Option.some.inj h).symm, hrows⟩
  · rw [if_neg hrows] at h
    cases h

/-- Interpretation answers with no success. -/
theorem not_succeeded_of_interpret {e : Event} {status : ModulePostingStatus}
    (h : interpret ctx policies e = .answered status) : succeeded status = false := by
  unfold interpret at h
  repeat' split at h
  all_goals first | cases h; rfl | cases h

/-- The kernel does not find the event posted before; its identifier is a new one. -/
def Fresh (answers : Answers) : Prop :=
  ∀ n status h, answers.verdict n = .answers status h → succeeded status = false

theorem not_succeeded_of_postEvent {n : ℕ} {e : Event} {status : ModulePostingStatus}
    (hfresh : Fresh answers)
    (h : postEvent ctx policies (answers.verdict n) e = .answered status) :
    succeeded status = false := by
  cases hverdict : answers.verdict n with
  | proceeds =>
      rw [hverdict] at h
      exact not_succeeded_of_interpret h
  | answers status' hne =>
      rw [hverdict] at h
      obtain rfl := Posting.answered.inj h
      exact hfresh n status' hne hverdict
  | raises =>
      rw [hverdict] at h
      cases h

section Work

variable {α : Type*} {prepare : Session (Books ρ τ) → Result ServiceError (Books ρ τ) α}
variable {toEvent : α → Event} {finish : α → Books ρ τ → Books ρ τ} {a : TransitionCall}

/-- Only approval requests are pending. -/
def Quiet (s : Session (Books ρ τ)) : Prop := ∃ n, s.current = s.committed.request n

/-- A call that goes through: the executor accepted, the preparation and the posting of the event
succeeded, and everything is committed. -/
structure Through (ctx : Decimal.Context) (policies : List AccountingPolicy)
    (constraint : List ρ → Bool) (answers : Answers) (a : TransitionCall)
    (prepare : Session (Books ρ τ) → Result ServiceError (Books ρ τ) α) (toEvent : α → Event)
    (finish : α → Books ρ τ → Books ρ τ) (s s' : Session (Books ρ τ)) : Prop where
  accepted : (accepted answers a).isSome
  done : ∃ n x s₂ b, prepare (s.flush (s.current.request n)) = (.ok x, s₂) ∧
    ((∃ lines, postEvent ctx policies (answers.verdict 0) (toEvent x) = .posted lines ∧
        b = s₂.current.post lines) ∨
      (∃ status, postEvent ctx policies (answers.verdict 0) (toEvent x) = .answered status ∧
        succeeded status = true ∧ b = s₂.current)) ∧
    constraint (finish x b).rows = true ∧ s' = Session.start (finish x b)

/-- **What a guarded work does**: it goes through, or it does not succeed and changes nothing but
the approval requests. -/
theorem guardedWork_cases (hprepare : ∀ s, (prepare s).2.committed = s.committed)
    (hquiet : Quiet s) : ∃ r s',
      (booksEnv ctx policies constraint answers).guardedWork a prepare toEvent finish s = (r, s') ∧
        ((∃ status, r = .ok status ∧ succeeded status = true ∧
            Through ctx policies constraint answers a prepare toEvent finish s s') ∨
          ((∀ status, r = .ok status → succeeded status = false) ∧ Quiet s' ∧
            s'.committed = s.committed)) := by
  rcases hrun : (booksEnv ctx policies constraint answers).guardedWork a prepare toEvent finish s
    with ⟨e | status, s'⟩
  · obtain rfl := Env.guardedWork_eq_error hprepare hrun
    exact ⟨_, _, rfl, Or.inr ⟨(fun _ h => nomatch h), ⟨0, rfl⟩, rfl⟩⟩
  · refine ⟨_, _, rfl, ?_⟩
    obtain ⟨r, s₁, htransition, hrefused | hpassed⟩ := Env.guardedWork_eq_ok hrun
    · obtain ⟨hfalse, hstatus, rfl⟩ := hrefused
      obtain ⟨n, rfl⟩ := booksEnv_executeTransition htransition
      obtain ⟨m, hm⟩ := hquiet
      refine Or.inr ⟨fun status' h => ?_, ⟨m + n, ?_⟩, rfl⟩
      · obtain rfl := Except.ok.inj h
        simp only [guardFailureResult, hfalse, Bool.false_eq_true, if_false,
          Option.some.injEq] at hstatus
        rw [← hstatus]
        exact not_succeeded_refusal r.approvalRequired
      · rw [UnitOfWork.Session.current_flush, hm, UnitOfWork.Session.committed_flush]
        simp [Books.request, add_assoc]
    · obtain ⟨x, s₂, s₃, hsuccess, hprepared, hpost, hfailed | hdone⟩ := hpassed
      · obtain ⟨hfalse, rfl⟩ := hfailed
        refine Or.inr ⟨fun status' h => ?_, ⟨0, rfl⟩, ?_⟩
        · obtain rfl := Except.ok.inj h
          exact hfalse
        · have hcommitted₁ : s₁.committed = s.committed := by
            obtain ⟨n, rfl⟩ := booksEnv_executeTransition htransition
            rfl
          have hcommitted₂ : s₂.committed = s₁.committed := by
            have h := hprepare s₁
            rw [hprepared] at h
            exact h
          have hcommitted₃ : s₃.committed = s₂.committed := by
            have h := @committed_postOn _ _ ctx policies answers 0 (toEvent x) s₂
            rw [show postOn ctx policies answers 0 (toEvent x) s₂ = _ from hpost] at h
            exact h
          rw [UnitOfWork.Session.committed_rollback, hcommitted₃, hcommitted₂, hcommitted₁]
      · obtain ⟨htrue, t, hflush, rfl⟩ := hdone
        have haccepted : (accepted answers a).isSome := by
          obtain ⟨t, ht, -⟩ := accepted_of_success htransition hsuccess
          exact Option.isSome_of_eq_some ht
        obtain ⟨n, rfl⟩ := booksEnv_executeTransition htransition
        obtain ⟨rfl, hrows⟩ := booksEnv_flush hflush
        refine Or.inl ⟨status, rfl, htrue, haccepted, n, x, s₂, s₃.current, hprepared, ?_, hrows, rfl⟩
        obtain ⟨lines, hposting, -, rfl⟩ | ⟨hposting, rfl⟩ := postOn_eq_ok hpost
        · exact Or.inl ⟨lines, hposting, rfl⟩
        · exact Or.inr ⟨status, hposting, htrue, rfl⟩

/-- **A guarded work goes through** where the executor accepts, the preparation and the event
succeed, and the rows are taken. -/
theorem guardedWork_posted (haccepted : (accepted answers a).isSome)
    (h : ∀ n, ∃ x s₂ lines, prepare (s.flush (s.current.request n)) = (.ok x, s₂) ∧
      postEvent ctx policies (answers.verdict 0) (toEvent x) = .posted lines ∧
        constraint (finish x (s₂.current.post lines)).rows = true) :
    ((booksEnv ctx policies constraint answers).guardedWork a prepare toEvent finish s).1 =
      .ok .posted := by
  obtain ⟨t, ht⟩ := Option.isSome_iff_exists.mp haccepted
  obtain ⟨hfind, hanswer⟩ := Option.filter_eq_some_iff.mp ht
  obtain ⟨⟨r, requests⟩, hworkflow, hsuccess⟩ := Option.any_eq_true _ _ |>.mp hanswer
  obtain ⟨x, s₂, lines, hprepared, hposting, hrows⟩ := h requests
  have hpassed : r.success = true := hsuccess
  have htransition : (booksEnv ctx policies constraint answers).executeTransition a s =
      (.ok { r with newState := some t.toState }, s.flush (s.current.request requests)) := by
    show executeOn answers a s = _
    unfold executeOn
    rw [hfind, hworkflow]
    dsimp only
    rw [if_pos hpassed]
  have hpost : (booksEnv ctx policies constraint answers).postEvent 0 (toEvent x) s₂ =
      (.ok .posted, s₂.flush (s₂.current.post lines)) := by
    show postOn ctx policies answers 0 (toEvent x) s₂ = _
    unfold postOn
    rw [hposting]
  have hflush : (booksEnv ctx policies constraint answers).flush
      (finish x (s₂.current.post lines)) = some (finish x (s₂.current.post lines)) := if_pos hrows
  have hsucceeded : succeeded .posted = true := rfl
  unfold Env.guardedWork Env.runWorkflowGuard
  rw [htransition, Result.ok_andThen, guardFailureResult]
  dsimp only
  rw [if_pos hpassed, Result.ok_andThen]
  dsimp only
  rw [hprepared, Result.ok_andThen, hpost, Result.ok_andThen]
  unfold Env.commitOrRollback Env.commit
  rw [hsucceeded, if_pos rfl, if_pos rfl]
  simp only [UnitOfWork.Session.current_flush, hflush, Result.ok_andThen, rollingBack_ok]

/-- Where no event was posted before, a call that goes through posts its event. -/
theorem Through.posted (hfresh : Fresh answers)
    (h : Through ctx policies constraint answers a prepare toEvent finish s s') :
    ∃ n x s₂ lines, prepare (s.flush (s.current.request n)) = (.ok x, s₂) ∧
      postEvent ctx policies (answers.verdict 0) (toEvent x) = .posted lines ∧
        constraint (finish x (s₂.current.post lines)).rows = true ∧
          s' = Session.start (finish x (s₂.current.post lines)) := by
  obtain ⟨n, x, s₂, b, hprepared, hposted, hrows, hs'⟩ := h.done
  rcases hposted with ⟨lines, hposting, rfl⟩ | ⟨status, hposting, hsucceeded, -⟩
  · exact ⟨n, x, s₂, lines, hprepared, hposting, hrows, hs'⟩
  · rw [not_succeeded_of_postEvent hfresh hposting] at hsucceeded
    cases hsucceeded

end Work

/-- **A guarded posting that is posted** has added the lines that the policies make of its event. -/
theorem guardedPosting_posted {a : TransitionCall} {e : Event} {rows : List ρ}
    (h : (booksEnv ctx policies constraint answers).guardedPosting a e rows s = (.ok .posted, s')) :
    ∃ lines, interpret ctx policies e = .posted lines ∧
      s'.current.lines = s.current.lines ++ lines := by
  obtain ⟨r, s₁, htransition, hrefused | hposted⟩ := Env.guardedPosting_eq_ok h
  · obtain ⟨_, hstatus, _⟩ := hrefused
    have hfalse := not_succeeded_refusal r.approvalRequired
    unfold guardFailureResult at hstatus
    split at hstatus
    · cases hstatus
    · rw [Option.some.inj hstatus] at hfalse
      cases hfalse
  · obtain ⟨n, rfl⟩ := booksEnv_executeTransition htransition
    obtain ⟨s₂, _, hpost, ⟨hfalse, _⟩ | ⟨_, t, hflush, rfl⟩⟩ := hposted
    · cases hfalse
    · obtain ⟨lines, hinterpret, rfl⟩ := booksEnv_postEvent_posted hpost
      obtain ⟨rfl, _⟩ := booksEnv_flush hflush
      refine ⟨lines, hinterpret, ?_⟩
      have hadded := Books.foldl_add rows
        ((s.flush (s.current.request n)).flush ((s.current.request n).post lines)).current
      exact congrArg Books.lines hadded

end Posted

end FinanceAccounting.Modules
