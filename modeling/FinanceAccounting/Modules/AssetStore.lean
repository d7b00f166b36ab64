import FinanceAccounting.Modules.FixedAssets

/-! # The tables behind the fixed asset service

The journal with the events of its entries, the rows of the module under their keys, and the
approval requests of the executor.  `storeEnv` is the environment of one call on these tables: what
the executor answers and what the kernel makes of each event besides its policy come from outside,
the lines of an entry come from the policies, and the constraints decide about the rows. -/

namespace FinanceAccounting.FixedAssets

open UnitOfWork (Session Result)
open ModulePosting (ModulePostingStatus)
open WorkflowExecutor (TransitionResult)
open Modules

/-! ### Tables -/

/-- A posted entry with its event. -/
structure Entry where
  event : Event
  lines : List LedgerLine

structure Tables where
  journal : List Entry := []
  rows : List AssetRecord := []
  /-- Added, but not written yet. -/
  pending : List AssetRecord := []
  approvalRequests : ℕ := 0
  categories : List UUID

namespace Tables

/-- The row of an asset in the register. -/
def asset? (t : Tables) (assetId : UUID) : Option AssetModel :=
  t.rows.findSome? fun
    | .asset row => if row.id = assetId then some row else none
    | _ => none

/-- Primary keys, foreign keys and unique constraints. -/
def accepts (t : Tables) : AssetRecord → Bool
  | .asset row => row.categoryId ∈ t.categories && t.rows.all fun
      | .asset row' => row'.id ≠ row.id && row'.assetNumber ≠ row.assetNumber
      | _ => true
  | .schedule row => (t.asset? row.assetId).isSome && t.rows.all fun
      | .schedule row' => row'.assetId ≠ row.assetId || row'.periodDate ≠ row.periodDate
      | _ => true
  | .disposal row => (t.asset? row.assetId).isSome
  | .transfer row => (t.asset? row.assetId).isSome
  | .revaluation row => (t.asset? row.assetId).isSome
  | .component row => (t.asset? row.assetId).isSome && t.rows.all fun
      | .component row' => row'.assetId ≠ row.assetId || row'.componentName ≠ row.componentName
      | _ => true

/-- Write the pending rows, oldest first. -/
def write (t : Tables) : List AssetRecord → Option Tables
  | [] => some { t with pending := [] }
  | r :: rs => if t.accepts r then ({ t with rows := t.rows ++ [r] } : Tables).write rs else none

def flush (t : Tables) : Option Tables := t.write t.pending

def add (r : AssetRecord) (t : Tables) : Tables := { t with pending := t.pending ++ [r] }

/-- All rows, written or not. -/
def size (t : Tables) : ℕ :=
  t.journal.length + t.rows.length + t.pending.length + t.approvalRequests

theorem write_eq_some {rs : List AssetRecord} :
    ∀ {t t' : Tables}, t.write rs = some t' → t' = { t with rows := t.rows ++ rs, pending := [] } := by
  induction rs with
  | nil =>
      intro t t' h
      obtain rfl := Option.some.inj h
      simp
  | cons r rs ih =>
      intro t t' h
      unfold write at h
      split at h
      · obtain rfl := ih h
        simp
      · cases h

theorem flush_eq_some {t t' : Tables} (h : t.flush = some t') :
    t' = { t with rows := t.rows ++ t.pending, pending := [] } := write_eq_some h

theorem size_flush {t t' : Tables} (h : t.flush = some t') : t'.size = t.size := by
  obtain rfl := flush_eq_some h
  simp only [size, List.length_append, List.length_nil]
  omega

end Tables

/-! ### The environment of a call -/

section Env

variable (ctx : Decimal.Context) (answers : Answers)

/-- Queries write the pending rows first. -/
def flushed (s : Session Tables) : Result ServiceError Tables Unit :=
  match s.current.flush with
  | some t => (.ok (), s.flush t)
  | none => (.error .raised, s)

def executeTransition (s : Session Tables) : Result ServiceError Tables TransitionResult :=
  (flushed s).andThen fun _ s =>
    match answers.workflow with
    | none => (.error .raised, s)
    | some (r, requests) =>
        (.ok r, s.flush { s.current with
          approvalRequests := s.current.approvalRequests + requests })

def postEvent (n : ℕ) (e : Event) (s : Session Tables) :
    Result ServiceError Tables ModulePostingStatus :=
  (flushed s).andThen fun _ s =>
    match Modules.postEvent ctx allProfiles (answers.verdict n) e with
    | .posted lines =>
        (.ok .posted, s.flush { s.current with journal := s.current.journal ++ [⟨e, lines⟩] })
    | .answered status => (.ok status, s)
    | .raised => (.error .raised, s)

variable {ctx} {answers} {s s' : Session Tables}

theorem committed_flushed : (flushed s).2.committed = s.committed := by
  unfold flushed
  cases s.current.flush with
  | none => rfl
  | some t => rfl

theorem flushed_eq_ok (h : flushed s = (.ok (), s')) :
    s'.committed = s.committed ∧ s.current.flush = some s'.current := by
  unfold flushed at h
  cases hflush : s.current.flush with
  | none =>
      rw [hflush] at h
      cases h
  | some t =>
      rw [hflush] at h
      cases h
      exact ⟨rfl, rfl⟩

/-- What an answer of the executor leaves. -/
theorem executeTransition_eq_ok {r : TransitionResult}
    (h : executeTransition answers s = (.ok r, s')) : ∃ t requests,
      s.current.flush = some t ∧ answers.workflow = some (r, requests) ∧
        s' = s.flush { t with approvalRequests := t.approvalRequests + requests } := by
  unfold executeTransition at h
  obtain ⟨_, s₁, hflushed, h⟩ := Result.andThen_eq_ok.mp h
  obtain ⟨hcommitted, hflush⟩ := flushed_eq_ok hflushed
  cases hworkflow : answers.workflow with
  | none =>
      rw [hworkflow] at h
      cases h
  | some answer =>
      obtain ⟨r', requests⟩ := answer
      rw [hworkflow] at h
      cases h
      refine ⟨s₁.current, requests, hflush, rfl, ?_⟩
      rw [Session.flush, Session.flush, hcommitted]

/-- What a posting leaves. -/
theorem postEvent_eq_ok {n : ℕ} {e : Event} {status : ModulePostingStatus}
    (h : postEvent ctx answers n e s = (.ok status, s')) : ∃ t, s.current.flush = some t ∧
      ((∃ lines, Modules.postEvent ctx allProfiles (answers.verdict n) e = .posted lines ∧
          status = .posted ∧ s' = s.flush { t with journal := t.journal ++ [⟨e, lines⟩] }) ∨
        (Modules.postEvent ctx allProfiles (answers.verdict n) e = .answered status ∧
          s' = s.flush t)) := by
  unfold postEvent at h
  obtain ⟨_, s₁, hflushed, h⟩ := Result.andThen_eq_ok.mp h
  obtain ⟨hcommitted, hflush⟩ := flushed_eq_ok hflushed
  have hs₁ : s₁ = s.flush s₁.current := by
    rw [Session.flush, ← hcommitted]
  refine ⟨s₁.current, hflush, ?_⟩
  cases hposting : Modules.postEvent ctx allProfiles (answers.verdict n) e with
  | posted lines =>
      rw [hposting] at h
      cases h
      refine Or.inl ⟨lines, rfl, rfl, ?_⟩
      rw [Session.flush, Session.flush, hcommitted]
  | answered status' =>
      rw [hposting] at h
      cases h
      exact Or.inr ⟨rfl, hs₁⟩
  | raised =>
      rw [hposting] at h
      cases h

variable (ctx answers)

/-- The environment of a call on the tables. -/
def storeEnv : Env Tables AssetRecord where
  executeTransition _ s := executeTransition answers s
  postEvent n e s := postEvent ctx answers n e s
  add := Tables.add
  flush := Tables.flush
  rows := Tables.size
  committed_executeTransition _ s := by
    rw [executeTransition]
    refine Result.session_andThen (Q := fun s' => s'.committed = s.committed) committed_flushed ?_
    intro _ s₁ h
    cases answers.workflow with
    | none => exact h
    | some answer => exact h
  committed_postEvent n e s := by
    rw [postEvent]
    refine Result.session_andThen (Q := fun s' => s'.committed = s.committed) committed_flushed ?_
    intro _ s₁ h
    cases Modules.postEvent ctx allProfiles (answers.verdict n) e with
    | posted lines => exact h
    | answered status => exact h
    | raised => exact h
  rows_executeTransition a s r s' h := by
    obtain ⟨t, requests, hflush, _, rfl⟩ := executeTransition_eq_ok h
    rw [← Tables.size_flush hflush]
    simp only [Tables.size, Session.current_flush]
    omega
  rows_postEvent n e s r s' h := by
    obtain ⟨t, hflush, ⟨lines, _, _, rfl⟩ | ⟨_, rfl⟩⟩ := postEvent_eq_ok h
    · rw [← Tables.size_flush hflush]
      simp only [Tables.size, Session.current_flush, List.length_append, List.length_singleton]
      omega
    · rw [← Tables.size_flush hflush]
      rfl
  rows_add r t := by
    simp only [Tables.size, Tables.add, List.length_append, List.length_singleton]
    omega

end Env

end FinanceAccounting.FixedAssets
