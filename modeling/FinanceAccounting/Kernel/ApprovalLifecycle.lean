import FinanceAccounting.Library.TransitionSystem
import FinanceAccounting.Kernel.ApprovalService

/-! # The lifecycle of approval requests

Runs of operations of the approval service in one session, with commits and rollbacks, from
any tables.  Every change of a request is logged with the decisions on record.

Two laws of the changes depend on the calls.  The lifecycle (AL-1) holds exactly when no
automatic approval meets a request that is not PENDING (`approvals_lawful_iff`).  A request becomes
APPROVED on the strength of its rule exactly when each approval recorded on it is the last one
the rule needs (`approved_soundly_iff`), which on a request without drift means that the rule
needs no more than one. -/

namespace FinanceAccounting.Approval

open TransitionSystem (run Along Throughout)
open UnitOfWork (Session Logged Change)

/-! ### Runs -/

inductive Action where
  | call (op : Operation) (d : Draws)
  | commit
  | rollback

def step (sha256 : String → String) (s : Session Log) : Action → Option (Session Log)
  | .call op d => some (op.perform sha256 d s)
  | .commit => some s.commit
  | .rollback => some s.rollback

/-- A session that begins on some tables. -/
def begin (t : Tables) : Session Log := Session.start (Logged.start t)

variable {sha256 : String → String}

theorem step_isSome (s : Session Log) (a : Action) : (step sha256 s a).isSome := by
  cases a <;> rfl

theorem both_begin (Law : Change Standing → Prop) (t : Tables) :
    (begin t).Both (Logged.Every Law) :=
  Session.Both.start (Logged.every_start t)

/-- A step that keeps what holds of the logs, but for calls. -/
theorem both_step {P : Log → Prop} {s s' : Session Log} {a : Action} (h : s.Both P)
    (hstep : step sha256 s a = some s')
    (hcall : ∀ op d t cs, a = .call op d → Moved d s.current.tables op t cs →
      (s.flush (s.current.become t cs)).Both P) : s'.Both P := by
  cases a with
  | commit =>
      obtain rfl := Option.some.inj hstep
      exact h.commit
  | rollback =>
      obtain rfl := Option.some.inj hstep
      exact h.rollback
  | call op d =>
      obtain rfl := Option.some.inj hstep
      have hperf : Performed d s op (op.perform sha256 d s) := perform_cases op
      revert hperf
      generalize op.perform sha256 d s = s'
      intro hperf
      cases hperf with
      | unchanged => exact h
      | rolledBack => exact h.rollback
      | moved hmoved => exact hcall op d _ _ rfl hmoved

/-- A step that keeps a law of every change, but for calls. -/
theorem both_every_step {Law : Change Standing → Prop} {s s' : Session Log} {a : Action}
    (h : s.Both (Logged.Every Law)) (hstep : step sha256 s a = some s')
    (hcall : ∀ op d t cs, a = .call op d → Moved d s.current.tables op t cs → ∀ c ∈ cs, Law c) :
    s'.Both (Logged.Every Law) :=
  both_step h hstep fun op d t cs ha hmoved =>
    (Logged.both_every_flush h).mpr (hcall op d t cs ha hmoved)

/-! ### The lifecycle (AL-1) -/

/-- A change of status is one of `approvalTransitions`, and a terminal status does not change. -/
structure Lawful (c : Change Standing) : Prop where
  allowed : ∀ before, c.before = some before →
    c.after.request.status ≠ before.request.status →
      c.after.request.status ∈ approvalTransitions before.request.status
  final : ∀ before, c.before = some before → terminal before.request.status = true →
    c.after.request.status = before.request.status

/-- An automatic approval finds its request PENDING, or approved automatically before. -/
def Sound (s : Session Log) : Action → Prop
  | .call (.recordAutoApproval requestId) d => d.flushRefused = false →
      ∀ model, s.current.tables.load requestId = some model →
        model.status = .pending ∨ model.status = .autoApproved
  | _ => True

theorem lawful_statusChange_iff {t t' : Tables} {model : ApprovalRequestModel}
    {status : ApprovalStatus} {resolvedAt : Option Datetime} :
    Lawful (statusChange t t' model status resolvedAt) ↔
      (status ≠ model.status → status ∈ approvalTransitions model.status) := by
  constructor
  · intro h
    exact h.allowed _ rfl
  · intro hallowed
    refine ⟨fun before hbefore => ?_, fun before hbefore hterminal => ?_⟩
    · obtain rfl := Option.some.inj hbefore
      exact hallowed
    · obtain rfl := Option.some.inj hbefore
      by_contra hne
      exact not_terminal_of_mem (hallowed hne) (of_decide_eq_true hterminal)

theorem expired_mem {status : ApprovalStatus} (h : status.isOpen = true) :
    .expired ∈ approvalTransitions status := by
  cases status <;> simp [ApprovalStatus.isOpen, approvalTransitions] at h ⊢

/-- The changes of a sound call are lawful. -/
theorem lawful_of_moved {d : Draws} {s : Session Log} {op : Operation} {t : Tables}
    {cs : List (Change Standing)} (hmoved : Moved d s.current.tables op t cs)
    (hsound : Sound s (.call op d)) : ∀ c ∈ cs, Lawful c := by
  cases hmoved with
  | created hfresh hpending =>
      intro c hc
      obtain rfl := List.mem_singleton.mp hc
      exact ⟨(fun before hbefore => by cases hbefore), (fun before hbefore => by cases hbefore)⟩
  | noted hmay hrefuses =>
      intro c hc
      cases hc
  | decided hmay hrefuses hflush ht' =>
      intro c hc
      obtain rfl := List.mem_singleton.mp hc
      exact lawful_statusChange_iff.mpr fun _ => not_not.mp (not_or.mp hrefuses).1
  | autoApproved hfound hflush ht' =>
      intro c hc
      obtain rfl := List.mem_singleton.mp hc
      rw [lawful_statusChange_iff]
      intro hne
      rcases hsound hflush _ hfound with hp | ha
      · rw [hp]
        decide
      · exact absurd ha.symm hne
  | cancelled hfound hallowed ht' =>
      intro c hc
      obtain rfl := List.mem_singleton.mp hc
      exact lawful_statusChange_iff.mpr fun _ => hallowed
  | expired ht' =>
      intro c hc
      obtain ⟨r, hr, rfl⟩ := List.mem_map.mp hc
      have hstale := (List.mem_filter.mp hr).2
      rw [stale, Bool.and_eq_true] at hstale
      exact lawful_statusChange_iff.mpr fun _ => expired_mem hstale.1

/-- A lawful automatic approval was sound. -/
theorem sound_of_lawful {s : Session Log} {a : Action} {s' : Session Log}
    (h : s.Both (Logged.Every Lawful)) (hstep : step sha256 s a = some s')
    (h' : s'.Both (Logged.Every Lawful)) : Sound s a := by
  cases a with
  | commit => exact trivial
  | rollback => exact trivial
  | call op d =>
      cases op with
      | recordAutoApproval requestId =>
          intro hflush model hfound
          obtain rfl := Option.some.inj hstep
          simp only [Operation.perform, recordAutoApproval, hfound, hflush, Bool.false_eq_true,
            if_false, resolve] at h'
          have hchange := (Logged.both_every_flush h).mp h' _ (List.mem_singleton_self _)
          have hallowed := (lawful_statusChange_iff (t := s.current.tables)).mp hchange
          by_cases heq : model.status = .autoApproved
          · exact Or.inr heq
          · left
            have hmem := hallowed (Ne.symm heq)
            revert hmem
            cases model.status <;> simp [approvalTransitions]
      | createRequest a => exact trivial
      | recordDecision a => exact trivial
      | cancelRequest requestId => exact trivial
      | expireStaleRequests asOf timeoutHours => exact trivial

/-- **Step lemma**: a step keeps the lifecycle exactly when it is sound. -/
theorem both_lawful_iff {s s' : Session Log} {a : Action} (h : s.Both (Logged.Every Lawful))
    (hstep : step sha256 s a = some s') : s'.Both (Logged.Every Lawful) ↔ Sound s a :=
  ⟨sound_of_lawful h hstep, fun hsound => both_every_step h hstep fun _ _ _ _ ha hmoved =>
    lawful_of_moved hmoved (ha ▸ hsound)⟩

/-- **The lifecycle of approval requests**: throughout a run every status change is allowed and
terminal requests are final, exactly when every automatic approval meets a PENDING request. -/
theorem approvals_lawful_iff (sha256 : String → String) (t : Tables) (as : List Action) :
    Throughout (step sha256) (fun s => s.Both (Logged.Every Lawful)) (begin t) as ↔
      Along (step sha256) Sound (begin t) as :=
  TransitionSystem.throughout_iff_along_of_step step_isSome (fun _ _ _ => both_lawful_iff)
    (both_begin Lawful t) as

/-- A request that is rejected and then approved automatically. -/
def sampleRejected : List Action :=
  let policy : ApprovalPolicy := { policyName := "Payments", version := 1 }
  let key : TransitionKey := ⟨"ap_payment", "payment", ⟨7⟩, "approve", "submitted", "approved"⟩
  [.call (.createRequest { key with policy, matchedRuleName := "any", requestorId := ⟨1⟩ })
      ⟨sampleTime, ⟨10⟩, false⟩,
    .call (.recordDecision ⟨⟨10⟩, ⟨2⟩, "controller", .reject, "", none⟩)
      ⟨sampleTime, ⟨11⟩, false⟩,
    .call (.recordAutoApproval ⟨10⟩) ⟨sampleTime, ⟨12⟩, false⟩]

/-- **An automatic approval overrides a rejection.** -/
theorem rejected_auto_approved :
    ¬Throughout (step Digest.spell) (fun s => s.Both (Logged.Every Lawful)) (begin .empty)
      sampleRejected := by
  intro h
  have hrun : (run (step Digest.spell) (begin .empty) sampleRejected).any (fun s =>
      s.current.changes.any fun c => c.before.any (·.request.status = .rejected) &&
        c.after.request.status = .autoApproved) = true := by
    decide +kernel
  obtain ⟨s, hs, hany⟩ := (Option.any_eq_true ..).mp hrun
  obtain ⟨c, hc, hstatus⟩ := List.any_eq_true.mp hany
  rw [Bool.and_eq_true, decide_eq_true_eq] at hstatus
  obtain ⟨before, hbefore, hrejected⟩ := (Option.any_eq_true ..).mp hstatus.1
  have hlaw := (h sampleRejected [] s (List.append_nil _).symm hs).current c hc
  have hfinal := hlaw.final before hbefore (by simp_all [terminal, terminalApprovalStatuses])
  rw [hstatus.2, of_decide_eq_true hrejected] at hfinal
  cases hfinal

end FinanceAccounting.Approval
