import Mathlib.Algebra.BigOperators.Group.List.Basic
import FinanceAccounting.Library.DecimalSums
import FinanceAccounting.Library.KeyedSums
import FinanceAccounting.Modules.Books

/-! # Encumbrances

`BudgetService` records a commitment against the budget, relieves it as invoices come in, or cancels
it.  It computes the new encumbrance before it posts, and returns it whatever the posting answers; no
amount and no status is checked.  A run in which every call is sound (`Sound`) keeps the encumbrances
and the ledger together (`encumbrances_kept`). -/

namespace FinanceAccounting.Budget

open ModulePosting (ModulePostingStatus)
open Modules
open PolicyBridge (AccountingPolicy)
open UnitOfWork (Session Result)

/-! ### Policies -/

def budgetEntry : AccountingPolicy :=
  pairPolicy "BudgetEntry" "budget.entry" "BUDGET_CONTROL" "BUDGET_OFFSET" [] [invalidAmount "amount"]

def budgetTransfer : AccountingPolicy :=
  pairPolicy "BudgetTransfer" "budget.transfer" "BUDGET_CONTROL" "BUDGET_CONTROL" []
    [invalidAmount "amount"]

def encumbranceCommit : AccountingPolicy :=
  pairPolicy "EncumbranceCommit" "budget.encumbrance_commit" "ENCUMBRANCE" "RESERVE_FOR_ENCUMBRANCE" []
    [invalidAmount "amount"]

def encumbranceRelieve : AccountingPolicy :=
  pairPolicy "EncumbranceRelieve" "budget.encumbrance_relieve" "RESERVE_FOR_ENCUMBRANCE" "ENCUMBRANCE"
    [] [invalidAmount "amount"]

def encumbranceCancel : AccountingPolicy :=
  pairPolicy "EncumbranceCancel" "budget.encumbrance_cancel" "RESERVE_FOR_ENCUMBRANCE" "ENCUMBRANCE" []
    [invalidAmount "amount"]

def forecastUpdate : AccountingPolicy :=
  pairPolicy "ForecastUpdate" "budget.forecast_update" "BUDGET_CONTROL" "BUDGET_OFFSET" []
    [invalidAmount "amount"]

/-- `_ALL_PROFILES`. -/
def allProfiles : List AccountingPolicy :=
  [budgetEntry, budgetTransfer, encumbranceCommit, encumbranceRelieve, encumbranceCancel,
    forecastUpdate]

/-! ### The service -/

inductive EncumbranceStatus where
  | opened
  | partiallyRelieved
  | relieved
  | cancelled
deriving DecidableEq, Repr

structure Encumbrance where
  id : UUID
  poId : UUID
  accountCode : String
  amount : ℚ
  period : String
  status : EncumbranceStatus := .opened
  relievedAmount : ℚ := 0
  currency : String := "USD"
deriving DecidableEq, Repr

/-- The encumbrance counts in the balance. -/
def Encumbrance.outstanding (e : Encumbrance) : Bool :=
  e.status = .opened || e.status = .partiallyRelieved

/-- The calls, with their arguments; `i` says which encumbrance is handed over. -/
inductive Call where
  | recordEncumbrance (id poId : UUID) (amount : ℚ) (accountCode period : String) (actorId : UUID)
      (currency : String)
  | relieveEncumbrance (i : ℕ) (reliefAmount : ℚ) (actorId : UUID) (currency : String)
  | cancelEncumbrance (i : ℕ) (actorId : UUID) (currency : String)

section Service

variable (ctx : Decimal.Context)

/-- The encumbrance that a relief returns. -/
def relieved (e : Encumbrance) (reliefAmount : ℚ) : Encumbrance :=
  let newRelieved := ctx.round (e.relievedAmount + reliefAmount)
  { e with
    relievedAmount := newRelieved
    status := if e.amount ≤ newRelieved then .relieved else .partiallyRelieved }

/-- The encumbrance that a cancellation returns. -/
def cancelled (e : Encumbrance) : Encumbrance := { e with status := .cancelled }

/-- The event of a commitment. -/
def commitEvent (poId : UUID) (amount : ℚ) (accountCode period currency : String) : Event where
  eventType := "budget.encumbrance_commit"
  payload := payloadOf [("po_id", .text poId.str), ("account_code", .text accountCode),
    ("period", .text period)]
  amount := amount
  currency := currency

def relieveEvent (e : Encumbrance) (reliefAmount : ℚ) (currency : String) : Event where
  eventType := "budget.encumbrance_relieve"
  payload := payloadOf [("po_id", .text e.poId.str), ("relief_amount", .number reliefAmount)]
  amount := reliefAmount
  currency := currency

def cancelEvent (e : Encumbrance) (remaining : ℚ) (currency : String) : Event where
  eventType := "budget.encumbrance_cancel"
  payload := payloadOf [("po_id", .text e.poId.str), ("cancelled_amount", .number remaining)]
  amount := remaining
  currency := currency

variable {σ : Type*} (env : Env σ Unit)

def recordEncumbrance (id poId : UUID) (amount : ℚ) (accountCode period : String) (actorId : UUID)
    (currency : String) (s : Session σ) :
    Result ServiceError σ (Encumbrance × ModulePostingStatus) :=
  let encumbrance : Encumbrance := {
    id := id
    poId := poId
    accountCode := accountCode
    amount := amount
    period := period
    currency := currency }
  mapOk (encumbrance, ·) <| env.guardedPosting
    (draftPost "budget_record_encumbrance" "encumbrance" id actorId (some amount) currency)
    (commitEvent poId amount accountCode period currency) [] s

def relieveEncumbrance (encumbrance : Encumbrance) (reliefAmount : ℚ) (actorId : UUID)
    (currency : String) (s : Session σ) :
    Result ServiceError σ (Encumbrance × ModulePostingStatus) :=
  mapOk (relieved ctx encumbrance reliefAmount, ·) <| env.guardedPosting
    (draftPost "budget_relieve_encumbrance" "encumbrance" encumbrance.id actorId (some reliefAmount)
      currency)
    (relieveEvent encumbrance reliefAmount currency) [] s

def cancelEncumbrance (encumbrance : Encumbrance) (actorId : UUID) (currency : String)
    (s : Session σ) : Result ServiceError σ (Encumbrance × ModulePostingStatus) :=
  let remaining := ctx.round (encumbrance.amount - encumbrance.relievedAmount)
  mapOk (cancelled encumbrance, ·) <| env.guardedPosting
    (draftPost "budget_cancel_encumbrance" "encumbrance" encumbrance.id actorId (some remaining) currency)
    (cancelEvent encumbrance remaining currency) [] s

def getEncumbranceBalance (encumbrances : List Encumbrance) : ℚ :=
  ctx.total ((encumbrances.filter (·.outstanding)).map fun e =>
    ctx.round (e.amount - e.relievedAmount))

/-! ### Runs -/

/-- The encumbrances as they were last returned, and the books. -/
structure State where
  encumbrances : List Encumbrance
  session : Session (Books Unit Unit)

/-- What a call answers; nothing when it is handed an encumbrance that nobody has. -/
def Call.answer (answers : Answers) (st : State) (c : Call) :
    Option (Result ServiceError (Books Unit Unit) (Encumbrance × ModulePostingStatus)) :=
  let env := booksEnv ctx allProfiles (fun _ => true) answers
  match c with
  | .recordEncumbrance id poId amount accountCode period actorId currency =>
      some (Budget.recordEncumbrance env id poId amount accountCode period actorId currency st.session)
  | .relieveEncumbrance i reliefAmount actorId currency =>
      st.encumbrances[i]?.map fun e =>
        Budget.relieveEncumbrance ctx env e reliefAmount actorId currency st.session
  | .cancelEncumbrance i actorId currency =>
      st.encumbrances[i]?.map fun e => Budget.cancelEncumbrance ctx env e actorId currency st.session

/-- The encumbrance that is returned takes the place of the one that was handed over. -/
@[simp] def Call.place (encumbrances : List Encumbrance) (e : Encumbrance) : Call → List Encumbrance
  | .recordEncumbrance .. => encumbrances ++ [e]
  | .relieveEncumbrance i .. => encumbrances.set i e
  | .cancelEncumbrance i .. => encumbrances.set i e

def step (st : State) (call : Call × Answers) : State :=
  match call.1.answer ctx call.2 st with
  | none => st
  | some (.ok (e, _), s) => ⟨call.1.place st.encumbrances e, s⟩
  | some (.error _, s) => { st with session := s }

def run (st : State) (calls : List (Call × Answers)) : State := calls.foldl (step ctx) st

/-- What a call posts to the encumbrance account, and the encumbrance that it returns. -/
def Call.outcome (encumbrances : List Encumbrance) : Call → Option (ℚ × ℚ × Encumbrance)
  | .recordEncumbrance id poId amount accountCode period _ currency =>
      some (amount, stored amount, { id, poId, accountCode, amount, period, currency })
  | .relieveEncumbrance i reliefAmount _ _ => encumbrances[i]?.map fun e =>
      (reliefAmount, -stored reliefAmount, relieved ctx e reliefAmount)
  | .cancelEncumbrance i _ _ => encumbrances[i]?.map fun e =>
      let remaining := ctx.round (e.amount - e.relievedAmount)
      (remaining, -stored remaining, cancelled e)

/-- Nothing recorded and nothing posted. -/
def start : State := ⟨[], Session.start { store := () }⟩

/-- Commitments less reliefs and cancellations, as they are posted. -/
def netPosted (lines : List LedgerLine) : ℚ :=
  ((lines.filter fun l => l.ledger = "GL" ∧ l.role = "ENCUMBRANCE").map (·.signed)).sum

/-- The relieved amounts are within the encumbrances, whose balance is what is posted. -/
structure Lawful (st : State) : Prop where
  within : ∀ e ∈ st.encumbrances, 0 ≤ e.relievedAmount ∧ e.relievedAmount ≤ e.amount
  balance : getEncumbranceBalance ctx st.encumbrances = netPosted st.session.committed.lines

end Service

/-! ### Postings -/

/-- The posting of an amount goes through. -/
def GoesThrough (answers : Answers) (amount : ℚ) : Prop :=
  answers.workflow.any (·.1.success) ∧ answers.verdict 0 = .proceeds ∧ 0 ≤ amount

/-- The executor raises, or the kernel does. -/
def Raises (answers : Answers) : Prop :=
  answers.workflow = none ∨ (answers.workflow.any (·.1.success) ∧ answers.verdict 0 = .raises)

section Postings

variable {ctx : Decimal.Context} {answers : Answers} {s : Session (Books Unit Unit)}
variable {name entityType currency : String} {entityId actorId : UUID} {amount : Option ℚ}
variable {policyName eventType debitRole creditRole : String} {event : Event}

/-- The executor accepts a transition from draft to posted when it answers with success. -/
theorem accepted_draftPost : (accepted answers (draftPost name entityType entityId actorId amount
    currency)).isSome ↔ answers.workflow.any (·.1.success) = true := by
  unfold accepted
  rw [Option.isSome_filter]
  exact Iff.rfl

/-- **What the posting of a pair does**: it goes through and its lines are committed, or the committed
lines stay as they are. -/
theorem posting_cases (hquiet : Quiet s)
    (hfound : PolicyBridge.findForEvent allProfiles event.eventType event.payload =
      some (pairPolicy policyName eventType debitRole creditRole [] [invalidAmount "amount"]))
    (hguard : event.payload.value "amount" = .null) :
    ∃ r s', (booksEnv ctx allProfiles (fun _ => true) answers).guardedPosting
        (draftPost name entityType entityId actorId amount currency) event [] s = (r, s') ∧ Quiet s' ∧
      ((GoesThrough answers event.amount ∧ (∃ status, r = .ok status ∧ succeeded status = true) ∧
          s'.committed.lines =
            s.committed.lines ++ pairLines debitRole creditRole event.amount event.currency) ∨
        (¬GoesThrough answers event.amount ∧ s'.committed.lines = s.committed.lines)) := by
  have hinterpret : interpret ctx allProfiles event = if 0 ≤ event.amount then
      .posted (pairLines debitRole creditRole event.amount event.currency) else .answered .intentFailed := by
    refine interpret_pair hfound ?_
    simp [pairPolicy, PolicyBridge.AccountingPolicy.firedGuard, invalidAmount,
      PolicyBridge.GuardExpression.holds, hguard]
  obtain ⟨r, s', hrun, ⟨status, rfl, hsucceeded, hthrough⟩ | ⟨hfailed, hquiet', hcommitted⟩⟩ :=
    @guardedWork_cases _ _ ctx allProfiles (fun _ => true) answers _ _ (fun s => (.ok (), s))
      (fun _ => event) (fun _ t => ([] : List Unit).foldl (fun t r => Books.add r t) t)
      (draftPost name entityType entityId actorId amount currency) (fun _ => rfl) hquiet
  · refine ⟨_, s', hrun, ?_⟩
    obtain ⟨n, _, s₂, b, hprepared, hposting, -, rfl⟩ := hthrough.done
    cases hprepared
    refine ⟨⟨0, rfl⟩, ?_⟩
    have hlines : s.current.lines = s.committed.lines := by
      obtain ⟨m, hm⟩ := hquiet
      rw [hm]
      rfl
    obtain ⟨lines, hposted, rfl⟩ | ⟨status', hanswered, hsucceeded', rfl⟩ := hposting
    · cases hverdict : answers.verdict 0 with
      | proceeds =>
        rw [hverdict] at hposted
        have hposted := hinterpret.symm.trans hposted
        split at hposted
        · obtain rfl := Posting.posted.inj hposted
          refine .inl ⟨⟨accepted_draftPost.mp hthrough.accepted, hverdict, ‹_›⟩, ⟨status, rfl, hsucceeded⟩, ?_⟩
          rw [← hlines]
          rfl
        · cases hposted
      | answers status' hne => rw [hverdict] at hposted; cases hposted
      | raises => rw [hverdict] at hposted; cases hposted
    · refine .inr ⟨fun hgoes => ?_, hlines⟩
      obtain ⟨-, hverdict, hnonneg⟩ := hgoes
      rw [hverdict] at hanswered
      have hanswered := hinterpret.symm.trans hanswered
      rw [if_pos hnonneg] at hanswered
      cases hanswered
  · refine ⟨r, s', hrun, hquiet', .inr ⟨fun hgoes => ?_, congrArg Books.lines hcommitted⟩⟩
    obtain ⟨hworkflow, hverdict, hnonneg⟩ := hgoes
    have hposted := @guardedWork_posted _ _ ctx allProfiles (fun _ => true) answers s _
      (fun s => (.ok (), s)) (fun _ => event)
      (fun _ t => ([] : List Unit).foldl (fun t r => Books.add r t) t)
      (draftPost name entityType entityId actorId amount currency)
      (accepted_draftPost.mpr hworkflow) fun n => ⟨(), _, _, rfl, by
        rw [hverdict]
        exact hinterpret.trans (if_pos hnonneg), rfl⟩
    rw [hrun] at hposted
    exact Bool.false_ne_true ((hfailed _ hposted).symm.trans rfl)

/-- A posting that raises returns nothing. -/
theorem posting_raises (hraises : Raises answers) :
    ∃ e s', (booksEnv ctx allProfiles (fun _ => true) answers).guardedPosting
        (draftPost name entityType entityId actorId amount currency) event [] s = (.error e, s') := by
  unfold Env.guardedPosting Env.guardedWork Env.runWorkflowGuard
  obtain hnone | ⟨hworkflow, hverdict⟩ := hraises
  · have hexecute : (booksEnv ctx allProfiles (fun _ => true) answers).executeTransition
        (draftPost name entityType entityId actorId amount currency) s = (.error .raised, s) := by
      dsimp only [booksEnv, executeOn]
      rw [hnone]
      rfl
    rw [hexecute]
    exact ⟨_, _, rfl⟩
  · obtain ⟨⟨r, requests⟩, hanswer, hsuccess⟩ := (Option.any_eq_true _ _).mp hworkflow
    have hexecute : (booksEnv ctx allProfiles (fun _ => true) answers).executeTransition
        (draftPost name entityType entityId actorId amount currency) s =
        (.ok { r with newState := if r.success then some "posted" else none },
          s.flush (s.current.request requests)) := by
      dsimp only [booksEnv, executeOn]
      rw [hanswer]
      rfl
    have hpost : ∀ s' : Session (Books Unit Unit),
        (booksEnv ctx allProfiles (fun _ => true) answers).postEvent 0 event s' =
          (.error .raised, s') := by
      intro s'
      dsimp only [booksEnv, postOn]
      rw [hverdict]
      rfl
    have hpassed : r.success = true := hsuccess
    rw [hexecute]
    simp only [Result.ok_andThen, guardFailureResult, hpassed, if_true, hpost]
    exact ⟨_, _, rfl⟩

end Postings

section Steps

variable {ctx : Decimal.Context} {answers : Answers} {st : State} {c : Call}

theorem netPosted_append (xs ys : List LedgerLine) :
    netPosted (xs ++ ys) = netPosted xs + netPosted ys := by
  simp [netPosted]

/-- What the step of a call leaves: it posts, and what is posted is added to the account; or nothing is
posted, and unless it raised the returned encumbrance still takes its place. -/
def Stepped (ctx : Decimal.Context) (answers : Answers) (st : State) (c : Call) (amount posted : ℚ)
    (e : Encumbrance) : Prop :=
  let st' := step ctx st (c, answers)
  Quiet st'.session ∧
    ((GoesThrough answers amount ∧ st'.encumbrances = c.place st.encumbrances e ∧
        netPosted st'.session.committed.lines = netPosted st.session.committed.lines + posted) ∨
      (¬GoesThrough answers amount ∧ st'.session.committed.lines = st.session.committed.lines ∧
        (st'.encumbrances = st.encumbrances ∨
          ¬Raises answers ∧ st'.encumbrances = c.place st.encumbrances e))) ∧
    ∀ e' status s', c.answer ctx answers st = some (.ok (e', status), s') →
      e' = e ∧ (succeeded status = false → ¬GoesThrough answers amount ∧ ¬Raises answers)

theorem stepped_of_posting {name currency : String} {id actorId : UUID} {a : Option ℚ}
    (event : Event) {policyName eventType debitRole creditRole : String} {e : Encumbrance} {posted : ℚ}
    (hquiet : Quiet st.session)
    (hfound : PolicyBridge.findForEvent allProfiles event.eventType event.payload =
      some (pairPolicy policyName eventType debitRole creditRole [] [invalidAmount "amount"]))
    (hguard : event.payload.value "amount" = .null)
    (hposted : netPosted (pairLines debitRole creditRole event.amount event.currency) = posted)
    (hanswer : c.answer ctx answers st = some (mapOk (e, ·) ((booksEnv ctx allProfiles (fun _ => true)
      answers).guardedPosting (draftPost name "encumbrance" id actorId a currency) event []
        st.session))) : Stepped ctx answers st c event.amount posted e := by
  obtain ⟨r, s', hrun, hquiet', hcases⟩ := @posting_cases ctx answers _ name "encumbrance"
    currency id actorId a _ _ _ _ _ hquiet hfound hguard
  rw [hrun] at hanswer
  unfold Stepped step
  dsimp only
  rw [hanswer]
  obtain ⟨hgoes, ⟨status, rfl, hsucceeded⟩, hlines⟩ | ⟨hnot, hlines⟩ := hcases
  · refine ⟨hquiet', .inl ⟨hgoes, rfl, ?_⟩, ?_⟩
    · show netPosted s'.committed.lines = _
      rw [hlines, netPosted_append, hposted]
    · rintro _ _ _ h
      cases h
      exact ⟨rfl, fun hfailed => absurd (hsucceeded.symm.trans hfailed) (by decide)⟩
  · cases r with
    | error error => exact ⟨hquiet', .inr ⟨hnot, hlines, .inl rfl⟩, fun _ _ _ h => by cases h⟩
    | ok status =>
      have hnone : ¬Raises answers := by
        intro hraises
        obtain ⟨error, s'', hraised⟩ := @posting_raises ctx _ st.session name "encumbrance"
          currency id actorId a event hraises
        rw [hrun] at hraised
        cases hraised
      refine ⟨hquiet', .inr ⟨hnot, hlines, .inr ⟨hnone, rfl⟩⟩, ?_⟩
      rintro _ _ _ h
      cases h
      exact ⟨rfl, fun _ => ⟨hnot, hnone⟩⟩

theorem netPosted_commit (amount : ℚ) (currency : String) :
    netPosted (pairLines "ENCUMBRANCE" "RESERVE_FOR_ENCUMBRANCE" amount currency) = stored amount := by
  simp [netPosted, pairLines, LedgerLine.signed]

theorem netPosted_release (amount : ℚ) (currency : String) :
    netPosted (pairLines "RESERVE_FOR_ENCUMBRANCE" "ENCUMBRANCE" amount currency) = -stored amount := by
  simp [netPosted, pairLines, LedgerLine.signed]

/-- **What a step does.** -/
theorem step_cases (hquiet : Quiet st.session) :
    (c.outcome ctx st.encumbrances = none ∧ step ctx st (c, answers) = st) ∨
    ∃ amount posted e, c.outcome ctx st.encumbrances = some (amount, posted, e) ∧
      Stepped ctx answers st c amount posted e := by
  cases c with
  | recordEncumbrance id poId amount accountCode period actorId currency =>
    exact .inr ⟨_, _, _, rfl, stepped_of_posting
      (commitEvent poId amount accountCode period currency) hquiet rfl rfl
      (netPosted_commit _ _) rfl⟩
  | relieveEncumbrance i reliefAmount actorId currency =>
    cases hget : st.encumbrances[i]? with
    | none =>
      refine .inl ⟨by simp [Call.outcome, hget], ?_⟩
      simp [step, Call.answer, hget]
    | some e =>
      have hanswer : Call.answer ctx answers st (.relieveEncumbrance i reliefAmount actorId currency) =
          some (relieveEncumbrance ctx (booksEnv ctx allProfiles (fun _ => true) answers) e reliefAmount
            actorId currency st.session) := congrArg (Option.map _) hget
      exact .inr ⟨_, _, _, congrArg (Option.map _) hget, stepped_of_posting
        (relieveEvent e reliefAmount currency) hquiet rfl rfl (netPosted_release _ _) hanswer⟩
  | cancelEncumbrance i actorId currency =>
    cases hget : st.encumbrances[i]? with
    | none =>
      refine .inl ⟨by simp [Call.outcome, hget], ?_⟩
      simp [step, Call.answer, hget]
    | some e =>
      have hanswer : Call.answer ctx answers st (.cancelEncumbrance i actorId currency) =
          some (cancelEncumbrance ctx (booksEnv ctx allProfiles (fun _ => true) answers) e actorId currency
            st.session) := congrArg (Option.map _) hget
      exact .inr ⟨_, _, _, congrArg (Option.map _) hget, stepped_of_posting
        (cancelEvent e (ctx.round (e.amount - e.relievedAmount)) currency) hquiet rfl rfl
        (netPosted_release _ _) hanswer⟩

end Steps

/-! ### Sound calls -/

section Sound

/-- What an encumbrance counts in the balance. -/
def Encumbrance.remaining (e : Encumbrance) : ℚ :=
  if e.outstanding then e.amount - e.relievedAmount else 0

/-- It may be relieved or cancelled: it is not closed, or nothing of it is left. -/
def Encumbrance.Releasable (e : Encumbrance) : Prop :=
  e.outstanding = true ∨ e.relievedAmount = e.amount

/-- The encumbrance that is handed over. -/
def Call.handed (encumbrances : List Encumbrance) : Call → Option Encumbrance
  | .recordEncumbrance .. => none
  | .relieveEncumbrance i .. => encumbrances[i]?
  | .cancelEncumbrance i .. => encumbrances[i]?

variable (ctx : Decimal.Context)

/-- A sound call raises, or it goes through and is for an amount that is there, or it is refused and
would have changed nothing. -/
def Sound (answers : Answers) (st : State) : Call → Prop
  | .recordEncumbrance _ _ amount _ _ _ _ => Raises answers ∨ amount = 0 ∨
      (GoesThrough answers amount ∧ Decimal.HasPlaces 9 amount ∧
        ((st.encumbrances.map (·.amount)).sum + amount) * 10 ^ 9 < 10 ^ ctx.prec)
  | .relieveEncumbrance i reliefAmount _ _ => ∀ e ∈ st.encumbrances[i]?, Raises answers ∨
      (¬GoesThrough answers reliefAmount ∧ relieved ctx e reliefAmount = e) ∨
      (GoesThrough answers reliefAmount ∧ Decimal.HasPlaces 9 reliefAmount ∧
        reliefAmount ≤ e.amount - e.relievedAmount ∧ e.Releasable)
  | .cancelEncumbrance i _ _ => ∀ e ∈ st.encumbrances[i]?, Raises answers ∨
      (¬GoesThrough answers (ctx.round (e.amount - e.relievedAmount)) ∧ cancelled e = e) ∨
      (GoesThrough answers (ctx.round (e.amount - e.relievedAmount)) ∧ e.Releasable)

/-- Every call of a run is sound where it is made. -/
def SoundRun : State → List (Call × Answers) → Prop
  | _, [] => True
  | st, (c, answers) :: calls => Sound ctx answers st c ∧ SoundRun (step ctx st (c, answers)) calls

/-- What sound calls keep. -/
structure Kept (st : State) : Prop where
  quiet : Quiet st.session
  within : ∀ e ∈ st.encumbrances, 0 ≤ e.relievedAmount ∧ e.relievedAmount ≤ e.amount
  places : ∀ e ∈ st.encumbrances, Decimal.HasPlaces 9 e.amount ∧ Decimal.HasPlaces 9 e.relievedAmount
  relieved : ∀ e ∈ st.encumbrances, e.status = .relieved → e.relievedAmount = e.amount
  fits : (st.encumbrances.map (·.amount)).sum * 10 ^ 9 < 10 ^ ctx.prec
  posted : netPosted st.session.committed.lines = (st.encumbrances.map (·.remaining)).sum

variable {ctx} {answers : Answers} {st : State} {c : Call}

/-- The amount of one encumbrance is not rounded. -/
theorem Kept.round_eq (h : Kept ctx st) {e : Encumbrance} (he : e ∈ st.encumbrances) {x : ℚ}
    (hplaces : Decimal.HasPlaces 9 x) (hnonneg : 0 ≤ x) (hle : x ≤ e.amount) : ctx.round x = x := by
  refine ctx.round_of_places hplaces (lt_of_le_of_lt ?_ h.fits)
  rw [abs_of_nonneg hnonneg]
  refine mul_le_mul_of_nonneg_right (hle.trans ?_) (by positivity)
  refine List.single_le_sum (fun x hx => ?_) _ (List.mem_map_of_mem he)
  obtain ⟨e', he', rfl⟩ := List.mem_map.mp hx
  exact (h.within e' he').1.trans (h.within e' he').2

theorem sum_outstanding (es : List Encumbrance) :
    ((es.filter (·.outstanding)).map fun e => e.amount - e.relievedAmount).sum =
      (es.map (·.remaining)).sum := by
  induction es with
  | nil => rfl
  | cons e es ih => rw [KeyedSums.sum_filter_cons, ih, List.map_cons, List.sum_cons, Encumbrance.remaining]

/-- The balance is the sum of what remains, so what is posted. -/
theorem Kept.lawful (h : Kept ctx st) : Lawful ctx st where
  within := h.within
  balance := by
    have hopen : ∀ e ∈ st.encumbrances.filter (·.outstanding),
        Decimal.HasPlaces 9 (e.amount - e.relievedAmount) ∧ 0 ≤ e.amount - e.relievedAmount ∧
          ctx.round (e.amount - e.relievedAmount) = e.amount - e.relievedAmount := by
      intro e he
      have hmem := List.mem_of_mem_filter he
      obtain ⟨hnonneg, hle⟩ := h.within e hmem
      obtain ⟨hamount, hrelieved⟩ := h.places e hmem
      exact ⟨hamount.sub hrelieved, sub_nonneg.mpr hle, h.round_eq hmem (hamount.sub hrelieved)
        (sub_nonneg.mpr hle) (sub_le_self _ hnonneg)⟩
    have hsum := sum_outstanding st.encumbrances
    rw [getEncumbranceBalance, List.map_congr_left fun e he => (hopen e he).2.2,
      @Decimal.Context.total_eq_sum_of_nonneg 9 _ ctx, hsum, h.posted]
    · intro x hx
      obtain ⟨e, he, rfl⟩ := List.mem_map.mp hx
      exact (hopen e he).1
    · intro x hx
      obtain ⟨e, he, rfl⟩ := List.mem_map.mp hx
      exact (hopen e he).2.1
    · rw [hsum]
      refine lt_of_le_of_lt (mul_le_mul_of_nonneg_right (List.sum_le_sum fun e he => ?_)
        (by positivity)) h.fits
      obtain ⟨hnonneg, hle⟩ := h.within e he
      unfold Encumbrance.remaining
      split
      · exact sub_le_self _ hnonneg
      · exact hnonneg.trans hle

/-- What may be released counts in full. -/
theorem remaining_of_releasable {e : Encumbrance} (hreleasable : e.Releasable) :
    e.remaining = e.amount - e.relievedAmount := by
  unfold Encumbrance.remaining
  split
  · rfl
  · obtain hopen | heq := hreleasable
    · contradiction
    · rw [heq, sub_self]

/-- A relief within what is left, of an encumbrance that may be relieved. -/
theorem Kept.relieved_eq (h : Kept ctx st) {e : Encumbrance} (he : e ∈ st.encumbrances) {reliefAmount : ℚ}
    (hplaces : Decimal.HasPlaces 9 reliefAmount) (hnonneg : 0 ≤ reliefAmount)
    (hle : reliefAmount ≤ e.amount - e.relievedAmount) (hreleasable : e.Releasable) :
    (Budget.relieved ctx e reliefAmount).relievedAmount = e.relievedAmount + reliefAmount ∧
      (Budget.relieved ctx e reliefAmount).remaining = e.remaining - reliefAmount ∧
      ((Budget.relieved ctx e reliefAmount).status = .relieved →
        e.relievedAmount + reliefAmount = e.amount) ∧
      (e.outstanding = false → (Budget.relieved ctx e reliefAmount).outstanding = false) := by
  obtain ⟨hrelieved, hbelow⟩ := h.within e he
  have hround : ctx.round (e.relievedAmount + reliefAmount) = e.relievedAmount + reliefAmount :=
    h.round_eq he ((h.places e he).2.add hplaces) (by linarith) (by linarith)
  have hremaining := remaining_of_releasable hreleasable
  unfold Budget.relieved
  rw [hround]
  dsimp only
  by_cases hfull : e.amount ≤ e.relievedAmount + reliefAmount
  · rw [if_pos hfull]
    refine ⟨rfl, ?_, fun _ => le_antisymm (by linarith) hfull, fun _ => rfl⟩
    show (0 : ℚ) = _
    rw [hremaining]
    linarith
  · rw [if_neg hfull]
    refine ⟨rfl, ?_, nofun, fun hclosed => ?_⟩
    · show e.amount - (e.relievedAmount + reliefAmount) = _
      rw [hremaining]
      ring
    · obtain hopen | heq := hreleasable
      · rw [hclosed] at hopen
        cases hopen
      · exact absurd (by linarith) hfull

/-- One encumbrance is replaced. -/
theorem Kept.set (h : Kept ctx st) {i : ℕ} {e e' : Encumbrance} {s : Session (Books Unit Unit)}
    (hget : st.encumbrances[i]? = some e) (hamount : e'.amount = e.amount) (hquiet : Quiet s)
    (hwithin : 0 ≤ e'.relievedAmount ∧ e'.relievedAmount ≤ e'.amount)
    (hplaces : Decimal.HasPlaces 9 e'.relievedAmount)
    (hrelieved : e'.status = .relieved → e'.relievedAmount = e'.amount)
    (hposted : netPosted s.committed.lines =
      netPosted st.session.committed.lines + (e'.remaining - e.remaining)) :
    Kept ctx ⟨st.encumbrances.set i e', s⟩ := by
  obtain ⟨hi, hgetElem⟩ := List.getElem?_eq_some_iff.mp hget
  have hmem : e ∈ st.encumbrances := List.mem_of_getElem? hget
  have hsum : ∀ f : Encumbrance → ℚ, ((st.encumbrances.set i e').map f).sum =
      (st.encumbrances.map f).sum + (f e' - f e) := by
    intro f
    have hi' : i < (st.encumbrances.map f).length := by rwa [List.length_map]
    rw [List.map_set, List.sum_set', dif_pos hi', List.getElem_map, hgetElem]
    ring
  have hcases : ∀ x ∈ st.encumbrances.set i e', x = e' ∨ x ∈ st.encumbrances := fun x hx =>
    (List.mem_or_eq_of_mem_set hx).symm
  refine ⟨hquiet, fun x hx => ?_, fun x hx => ?_, fun x hx => ?_, ?_, ?_⟩
  · obtain rfl | hx := hcases x hx
    · exact hwithin
    · exact h.within x hx
  · obtain rfl | hx := hcases x hx
    · exact ⟨hamount ▸ (h.places e hmem).1, hplaces⟩
    · exact h.places x hx
  · obtain rfl | hx := hcases x hx
    · exact hrelieved
    · exact h.relieved x hx
  · rw [hsum, hamount, sub_self, add_zero]
    exact h.fits
  · rw [hsum, hposted, h.posted]

/-- The same encumbrances and the same lines. -/
theorem Kept.same (h : Kept ctx st) {st' : State} (hsame : st'.encumbrances = st.encumbrances)
    (hquiet : Quiet st'.session) (hlines : st'.session.committed.lines = st.session.committed.lines) :
    Kept ctx st' := by
  obtain ⟨-, hwithin, hplaces, hrelieved, hfits, hposted⟩ := h
  refine ⟨hquiet, ?_, ?_, ?_, ?_, ?_⟩
  all_goals simpa only [hsame, hlines]

/-- One encumbrance is added. -/
theorem Kept.append (h : Kept ctx st) {e : Encumbrance} {s : Session (Books Unit Unit)}
    (hquiet : Quiet s) (hnonneg : 0 ≤ e.amount) (hplaces : Decimal.HasPlaces 9 e.amount)
    (hfits : ((st.encumbrances.map (·.amount)).sum + e.amount) * 10 ^ 9 < 10 ^ ctx.prec)
    (hstatus : e.status = .opened) (hrelieved : e.relievedAmount = 0)
    (hposted : netPosted s.committed.lines = netPosted st.session.committed.lines + e.amount) :
    Kept ctx ⟨st.encumbrances ++ [e], s⟩ := by
  have hremaining : e.remaining = e.amount := by
    simp [Encumbrance.remaining, Encumbrance.outstanding, hstatus, hrelieved]
  refine ⟨hquiet, ?_, ?_, ?_, ?_, ?_⟩
  · rw [List.forall_mem_append, List.forall_mem_singleton, hrelieved]
    exact ⟨h.within, le_rfl, hnonneg⟩
  · rw [List.forall_mem_append, List.forall_mem_singleton, hrelieved]
    exact ⟨h.places, hplaces, .zero⟩
  · rw [List.forall_mem_append, List.forall_mem_singleton, hstatus]
    exact ⟨h.relieved, fun hclosed => by cases hclosed⟩
  · rw [List.map_append, List.sum_append, List.map_singleton, List.sum_singleton]
    exact hfits
  · rw [List.map_append, List.sum_append, List.map_singleton, List.sum_singleton, hremaining, hposted,
      h.posted]

theorem not_raises_of_goesThrough {amount : ℚ} (h : GoesThrough answers amount) : ¬Raises answers := by
  obtain ⟨hworkflow, hverdict, -⟩ := h
  rintro (hnone | ⟨-, hraises⟩)
  · rw [hnone] at hworkflow
    cases hworkflow
  · rw [hverdict] at hraises
    cases hraises

/-- A refused call that is sound returns the encumbrance that it was handed. -/
theorem unchanged_of_sound {amount posted : ℚ} {e e' : Encumbrance} (hsound : Sound ctx answers st c)
    (houtcome : c.outcome ctx st.encumbrances = some (amount, posted, e'))
    (hnot : ¬GoesThrough answers amount) (hnone : ¬Raises answers)
    (hhanded : c.handed st.encumbrances = some e) : e' = e := by
  cases c with
  | recordEncumbrance => cases hhanded
  | relieveEncumbrance i reliefAmount actorId currency =>
    dsimp only [Call.handed] at hhanded
    rw [Call.outcome, hhanded] at houtcome
    cases houtcome
    obtain hraises | ⟨-, hsame⟩ | ⟨hgoes, -⟩ := hsound e hhanded
    · exact absurd hraises hnone
    · exact hsame
    · exact absurd hgoes hnot
  | cancelEncumbrance i actorId currency =>
    dsimp only [Call.handed] at hhanded
    rw [Call.outcome, hhanded] at houtcome
    cases houtcome
    obtain hraises | ⟨-, hsame⟩ | ⟨hgoes, -⟩ := hsound e hhanded
    · exact absurd hraises hnone
    · exact hsame
    · exact absurd hgoes hnot

/-- A call that is refused leaves the list as it is, but for a commitment of zero. -/
theorem place_of_refused {amount posted : ℚ} {e' : Encumbrance} (hsound : Sound ctx answers st c)
    (houtcome : c.outcome ctx st.encumbrances = some (amount, posted, e'))
    (hnot : ¬GoesThrough answers amount) (hnone : ¬Raises answers) :
    c.place st.encumbrances e' = st.encumbrances ∨
      (c.place st.encumbrances e' = st.encumbrances ++ [e'] ∧ e'.amount = 0 ∧ e'.status = .opened ∧
        e'.relievedAmount = 0) := by
  have hset : ∀ {i : ℕ} {e : Encumbrance}, st.encumbrances[i]? = some e →
      st.encumbrances.set i e = st.encumbrances := by
    intro i e hget
    obtain ⟨hi, rfl⟩ := List.getElem?_eq_some_iff.mp hget
    exact List.set_getElem_self hi
  cases c with
  | recordEncumbrance id poId amount' accountCode period actorId currency =>
    cases houtcome
    obtain hraises | hzero | ⟨hgoes, -⟩ := hsound
    · exact absurd hraises hnone
    · exact .inr ⟨rfl, hzero, rfl, rfl⟩
    · exact absurd hgoes hnot
  | relieveEncumbrance i reliefAmount actorId currency =>
    obtain ⟨e, hget, -⟩ := Option.map_eq_some_iff.mp houtcome
    rw [unchanged_of_sound hsound houtcome hnot hnone hget]
    exact .inl (hset hget)
  | cancelEncumbrance i actorId currency =>
    obtain ⟨e, hget, -⟩ := Option.map_eq_some_iff.mp houtcome
    rw [unchanged_of_sound hsound houtcome hnot hnone hget]
    exact .inl (hset hget)

/-- **A sound call keeps the encumbrances and the ledger together.** -/
theorem Kept.step (h : Kept ctx st) (hsound : Sound ctx answers st c) :
    Kept ctx (Budget.step ctx st (c, answers)) := by
  obtain ⟨-, hsame⟩ | ⟨amount, posted, e', houtcome, hquiet, hstep, -⟩ :=
    @step_cases ctx answers _ c h.quiet
  · rw [hsame]
    exact h
  generalize Budget.step ctx st (c, answers) = st' at hquiet hstep ⊢
  obtain ⟨encumbrances', s'⟩ := st'
  dsimp only at hquiet hstep
  obtain ⟨hgoes, rfl, hnet⟩ | ⟨hnot, hlines, rfl | ⟨hnone, rfl⟩⟩ := hstep
  · have hnone := not_raises_of_goesThrough hgoes
    cases c with
    | recordEncumbrance id poId amount accountCode period actorId currency =>
      cases houtcome
      have hfits : Decimal.HasPlaces 9 amount ∧
          ((st.encumbrances.map (·.amount)).sum + amount) * 10 ^ 9 < 10 ^ ctx.prec := by
        obtain hraises | rfl | ⟨-, hplaces, hfits⟩ := hsound
        · exact absurd hraises hnone
        · exact ⟨.zero, by simpa using h.fits⟩
        · exact ⟨hplaces, hfits⟩
      rw [stored, Decimal.quantize_of_places hfits.1] at hnet
      exact h.append hquiet hgoes.2.2 hfits.1 hfits.2 rfl rfl hnet
    | relieveEncumbrance i reliefAmount actorId currency =>
      obtain ⟨e, hget, hrest⟩ := Option.map_eq_some_iff.mp houtcome
      cases hrest
      have hmem := List.mem_of_getElem? hget
      obtain hraises | ⟨hnot, -⟩ | ⟨-, hplaces, hle, hreleasable⟩ := hsound e hget
      · exact absurd hraises hnone
      · exact absurd hgoes hnot
      obtain ⟨hrelieved, hremaining, hstatus, -⟩ :=
        h.relieved_eq hmem hplaces hgoes.2.2 hle hreleasable
      have hwithin := h.within e hmem
      rw [stored, Decimal.quantize_of_places hplaces] at hnet
      refine h.set hget rfl hquiet ?_ ?_ ?_ ?_
      · rw [hrelieved]
        exact ⟨add_nonneg hwithin.1 hgoes.2.2, add_le_of_le_sub_left hle⟩
      · rw [hrelieved]
        exact (h.places e hmem).2.add hplaces
      · rw [hrelieved]
        exact hstatus
      · rw [hnet, hremaining]
        ring
    | cancelEncumbrance i actorId currency =>
      obtain ⟨e, hget, hrest⟩ := Option.map_eq_some_iff.mp houtcome
      cases hrest
      have hmem := List.mem_of_getElem? hget
      obtain hraises | ⟨hnot, -⟩ | ⟨-, hreleasable⟩ := hsound e hget
      · exact absurd hraises hnone
      · exact absurd hgoes hnot
      have hwithin := h.within e hmem
      obtain ⟨hamount, hrelieved⟩ := h.places e hmem
      have hplaces := hamount.sub hrelieved
      have hround := h.round_eq hmem hplaces (sub_nonneg.mpr hwithin.2) (sub_le_self _ hwithin.1)
      rw [hround, stored, Decimal.quantize_of_places hplaces, ← remaining_of_releasable hreleasable] at hnet
      refine h.set hget rfl hquiet hwithin hrelieved nofun ?_
      rw [hnet]
      show _ = _ + (0 - e.remaining)
      ring
  · exact h.same rfl hquiet hlines
  · obtain hplace | ⟨hplace, hamount, hstatus, hrelieved⟩ :=
      place_of_refused hsound houtcome hnot hnone
    · rw [hplace]
      exact h.same rfl hquiet hlines
    · rw [hplace]
      refine h.append hquiet hamount.ge (hamount ▸ .zero) ?_ hstatus hrelieved ?_
      · rw [hamount, add_zero]
        exact h.fits
      · rw [hamount, add_zero, hlines]

/-- An encumbrance that is replaced by a closed one, if it was closed. -/
theorem closed_place {encumbrances : List Encumbrance} {e' : Encumbrance}
    (hclosing : ∀ e, c.handed encumbrances = some e → e.outstanding = false → e'.outstanding = false)
    {i : ℕ} {e : Encumbrance} (hget : encumbrances[i]? = some e) (hclosed : e.outstanding = false) :
    ∃ e'', (c.place encumbrances e')[i]? = some e'' ∧ e''.outstanding = false := by
  have hset : ∀ j, (encumbrances[j]? = some e → e'.outstanding = false) →
      ∃ e'', (encumbrances.set j e')[i]? = some e'' ∧ e''.outstanding = false := by
    intro j hj
    by_cases hij : j = i
    · subst hij
      have hlt := (List.getElem?_eq_some_iff.mp hget).1
      exact ⟨e', List.getElem?_set_self hlt, hj hget⟩
    · exact ⟨e, by rw [List.getElem?_set_ne hij, hget], hclosed⟩
  cases c with
  | recordEncumbrance =>
    exact ⟨e, by rw [Call.place, List.getElem?_append_left (List.getElem?_eq_some_iff.mp hget).1, hget],
      hclosed⟩
  | relieveEncumbrance j => exact hset j fun hj => hclosing e hj hclosed
  | cancelEncumbrance j => exact hset j fun hj => hclosing e hj hclosed

/-- **What is closed stays closed** under a sound call. -/
theorem Kept.closed_step (h : Kept ctx st) (hsound : Sound ctx answers st c) {i : ℕ} {e : Encumbrance}
    (hget : st.encumbrances[i]? = some e) (hclosed : e.outstanding = false) :
    ∃ e', (Budget.step ctx st (c, answers)).encumbrances[i]? = some e' ∧ e'.outstanding = false := by
  obtain ⟨-, hsame⟩ | ⟨amount, posted, e', houtcome, -, hstep, -⟩ :=
    @step_cases ctx answers _ c h.quiet
  · rw [hsame]
    exact ⟨e, hget, hclosed⟩
  obtain ⟨hgoes, hplace, -⟩ | ⟨hnot, -, hsame | ⟨hnone, hplace⟩⟩ := hstep
  · rw [hplace]
    refine closed_place (fun x hx hxclosed => ?_) hget hclosed
    have hnone := not_raises_of_goesThrough hgoes
    cases c with
    | recordEncumbrance => cases hx
    | relieveEncumbrance j reliefAmount actorId currency =>
      obtain ⟨y, hy, hrest⟩ := Option.map_eq_some_iff.mp houtcome
      cases hrest
      obtain rfl := Option.some.inj (hx.symm.trans hy)
      obtain hraises | ⟨hnot, -⟩ | ⟨-, hplaces, hle, hreleasable⟩ := hsound x hx
      · exact absurd hraises hnone
      · exact absurd hgoes hnot
      · exact (h.relieved_eq (List.mem_of_getElem? hx) hplaces hgoes.2.2 hle hreleasable).2.2.2 hxclosed
    | cancelEncumbrance j actorId currency =>
      obtain ⟨y, -, hrest⟩ := Option.map_eq_some_iff.mp houtcome
      cases hrest
      rfl
  · rw [hsame]
    exact ⟨e, hget, hclosed⟩
  · rw [hplace]
    refine closed_place (fun x hx hxclosed => ?_) hget hclosed
    rw [unchanged_of_sound hsound houtcome hnot hnone hx]
    exact hxclosed

end Sound

section Runs

variable {ctx : Decimal.Context}

theorem soundRun_append {pre post : List (Call × Answers)} : ∀ {st : State},
    SoundRun ctx st (pre ++ post) ↔ SoundRun ctx st pre ∧ SoundRun ctx (run ctx st pre) post := by
  induction pre with
  | nil => exact fun {st} => (iff_of_eq (true_and _)).symm
  | cons call pre ih =>
    intro st
    exact (and_congr_right fun _ => ih).trans and_assoc.symm

theorem kept_run {calls : List (Call × Answers)} : ∀ {st : State}, Kept ctx st →
    SoundRun ctx st calls → Kept ctx (run ctx st calls) := by
  induction calls with
  | nil => exact fun h _ => h
  | cons call calls ih => exact fun h hsound => ih (h.step hsound.1) hsound.2

theorem closed_run {calls : List (Call × Answers)} {i : ℕ} : ∀ {st : State} {e : Encumbrance},
    Kept ctx st → SoundRun ctx st calls → st.encumbrances[i]? = some e → e.outstanding = false →
      ∃ e', (run ctx st calls).encumbrances[i]? = some e' ∧ e'.outstanding = false := by
  induction calls with
  | nil => exact fun _ _ hget hclosed => ⟨_, hget, hclosed⟩
  | cons call calls ih =>
    intro st e h hsound hget hclosed
    obtain ⟨e', hget', hclosed'⟩ := h.closed_step hsound.1 hget hclosed
    exact ih (h.step hsound.1) hsound.2 hget' hclosed'

theorem kept_start : Kept ctx start where
  quiet := ⟨0, rfl⟩
  within _ he := by cases he
  places _ he := by cases he
  relieved _ he := by cases he
  fits := by
    show (0 : ℚ) * 10 ^ 9 < _
    rw [zero_mul]
    positivity
  posted := rfl

/-- **A run of sound calls**: in every state that is reached the relieved amounts are within the
encumbrances and the balance is what is posted; what was closed stays closed; and a call that fails
returns the encumbrance that it was handed. -/
theorem encumbrances_kept {calls : List (Call × Answers)} (hsound : SoundRun ctx start calls) :
    ∀ pre post, calls = pre ++ post → Lawful ctx (run ctx start pre) ∧
      (∀ (i : ℕ) (e : Encumbrance), (run ctx start pre).encumbrances[i]? = some e →
        e.outstanding = false → ∃ e' : Encumbrance,
          (run ctx start calls).encumbrances[i]? = some e' ∧ e'.outstanding = false) ∧
      ∀ c answers rest, post = (c, answers) :: rest → ∀ e' status s',
        c.answer ctx answers (run ctx start pre) = some (.ok (e', status), s') →
          succeeded status = false → ∀ e ∈ c.handed (run ctx start pre).encumbrances, e' = e := by
  rintro pre post rfl
  obtain ⟨hpre, hpost⟩ := soundRun_append.mp hsound
  have hkept := kept_run kept_start hpre
  refine ⟨hkept.lawful, fun i e hget hclosed => ?_, ?_⟩
  · have hrun : run ctx start (pre ++ post) = run ctx (run ctx start pre) post := List.foldl_append ..
    rw [hrun]
    exact closed_run hkept hpost hget hclosed
  · rintro c answers rest rfl e' status s' hanswer hfailed e hhanded
    obtain ⟨houtcome, -⟩ | ⟨amount, posted, e'', houtcome, -, -, hreturned⟩ :=
      @step_cases ctx answers _ c hkept.quiet
    · cases c with
      | recordEncumbrance => cases houtcome
      | relieveEncumbrance i =>
        rw [Call.outcome, Option.map_eq_none_iff] at houtcome
        cases houtcome.symm.trans hhanded
      | cancelEncumbrance i =>
        rw [Call.outcome, Option.map_eq_none_iff] at houtcome
        cases houtcome.symm.trans hhanded
    · obtain ⟨rfl, hrefused⟩ := hreturned e' status s' hanswer
      obtain ⟨hnot, hnone⟩ := hrefused hfailed
      exact unchanged_of_sound hpost.1 houtcome hnot hnone hhanded

end Runs

/-! ### A commitment of 100 -/

/-- A commitment of 100, and what is done with it; everything is let through. -/
def sampleRun (calls : List Call) : State :=
  run Hashing.defaultContext start
    ((Call.recordEncumbrance ⟨1⟩ ⟨2⟩ 100 "6000" "2024-06" ⟨3⟩ "USD" :: calls).map (·, permissive))

/-- What is known of an encumbrance. -/
def summary (st : State) : List (ℚ × ℚ × EncumbranceStatus) :=
  st.encumbrances.map fun e => (e.amount, e.relievedAmount, e.status)

theorem encumbrances_kept_relief :
    Lawful Hashing.defaultContext (sampleRun [.relieveEncumbrance 0 40 ⟨3⟩ "USD"]) := by
  refine (@encumbrances_kept _ (([.recordEncumbrance ⟨1⟩ ⟨2⟩ 100 "6000" "2024-06" ⟨3⟩ "USD",
    .relieveEncumbrance 0 40 ⟨3⟩ "USD"] : List Call).map (·, permissive)) ?_ _ [] rfl).1
  refine ⟨.inr (.inr ⟨⟨rfl, rfl, by decide +kernel⟩, ⟨100 * 10 ^ 9, by decide +kernel⟩,
    by decide +kernel⟩), fun e he => ?_, trivial⟩
  have hvalue : (sampleRun []).encumbrances.all (fun e =>
      e.amount = 100 ∧ e.relievedAmount = 0 ∧ e.outstanding = true) = true := by decide +kernel
  have hget := of_decide_eq_true (List.all_eq_true.mp hvalue e (List.mem_of_getElem? he))
  refine .inr (.inr ⟨⟨rfl, rfl, by decide +kernel⟩, ⟨40 * 10 ^ 9, by decide +kernel⟩, ?_, .inl hget.2.2⟩)
  rw [hget.1, hget.2.1]
  norm_num

/-- **More can be relieved than was committed**, a cancelled encumbrance is reopened by a relief, and a
relief that is refused is counted. -/
theorem encumbrances_not_kept :
    ¬Lawful Hashing.defaultContext (sampleRun [.relieveEncumbrance 0 150 ⟨3⟩ "USD"]) ∧
    summary (sampleRun [.cancelEncumbrance 0 ⟨3⟩ "USD", .relieveEncumbrance 0 40 ⟨3⟩ "USD"]) =
      [(100, 40, .partiallyRelieved)] ∧
    summary (step Hashing.defaultContext (sampleRun [])
      (.relieveEncumbrance 0 40 ⟨3⟩ "USD", ⟨some ({ success := false }, 0), fun _ => .proceeds⟩)) =
      [(100, 40, .partiallyRelieved)] := by
  refine ⟨fun h => ?_, by decide +kernel, by decide +kernel⟩
  have hvalue : (sampleRun [.relieveEncumbrance 0 150 ⟨3⟩ "USD"]).encumbrances.all
      (fun e => e.relievedAmount ≤ e.amount) = false := by decide +kernel
  rw [List.all_eq_false] at hvalue
  obtain ⟨e, he, hover⟩ := hvalue
  exact hover (decide_eq_true (h.within e he).2)

end FinanceAccounting.Budget
