import FinanceAccounting.Kernel.ApprovalLifecycle

/-! # Decisions that raise

`record_decision` adds the row of the decision to the session before it checks the transition and the
drift of the policy.  A call that one of these checks ends leaves the row in the session, and the next
commit stores it (`recordDecision_atomic_iff`). -/

namespace FinanceAccounting.Approval

open TransitionSystem (run)
open UnitOfWork (Session)

/-- The rows of decisions and requests, with statuses and times. -/
def SameRows (t u : Tables) : Prop := t.decisions = u.decisions ∧ t.requests = u.requests

/-- **A call that raises has recorded nothing**, also when its session is committed later. -/
def RecordsAtomically (a : RecordDecision) (d : Draws) (s : Session Log) : Prop :=
  ∀ e s', recordDecision a d s = (.error e, s') →
    SameRows s'.commit.committed.tables s.current.tables

/-- A decision that is put on record is not refused, and when the database refuses it, nothing else
is rolled back with it. -/
def RefusesEarly (a : RecordDecision) (d : Draws) (s : Session Log) : Prop :=
  ∀ model, MayDecide s.current.tables a model →
    ¬Refuses a model ∧ (d.flushRefused = true → SameRows s.committed.tables s.current.tables)

section Decision

variable {a : RecordDecision} {d : Draws} {s : Session Log} {model : ApprovalRequestModel}

theorem not_terminal_of_isOpen {status : ApprovalStatus} (h : status.isOpen = true) :
    ¬terminal status = true := by
  rw [isOpen_iff_not_terminal] at h
  simpa [terminal] using h

/-- A decision that may be made and is refused is on record when the call raises. -/
theorem recordDecision_of_refuses (hmay : MayDecide s.current.tables a model)
    (hrefuses : Refuses a model) :
    ∃ e, recordDecision a d s =
      (.error e, s.flush (s.current.become (s.current.tables.decide (a.record d)) [])) := by
  unfold recordDecision
  rw [hmay.found]
  dsimp only
  rw [if_neg (not_terminal_of_isOpen hmay.isOpen), hmay.undecided, if_neg Bool.false_ne_true]
  split
  · exact ⟨_, rfl⟩
  · rename_i hvalid
    have hdrift := hrefuses.resolve_left hvalid
    rw [if_pos hdrift]
    exact ⟨_, rfl⟩

/-- The row is new. -/
theorem decisions_decide {t : Tables} {record : ApprovalDecisionRecord}
    (h : t.decidedBy record.requestId record.actorId = false) :
    (t.decide record).decisions = t.decisions ++ [record] := by
  unfold Tables.decide
  rw [dif_neg (by rw [h]; exact Bool.false_ne_true)]

/-- So the call is not atomic. -/
theorem not_atomic_of_refuses (hmay : MayDecide s.current.tables a model)
    (hrefuses : Refuses a model) : ¬RecordsAtomically a d s := by
  intro hatomic
  obtain ⟨e, hrun⟩ := @recordDecision_of_refuses a d s model hmay hrefuses
  have hsame := (hatomic e _ hrun).1
  have hnew := @decisions_decide s.current.tables (a.record d) hmay.undecided
  have hlength := congrArg List.length (hnew.symm.trans hsame)
  rw [List.length_append, List.length_singleton] at hlength
  omega

/-- A decision that is not refused by a check raises only when the database refuses it. -/
theorem recordDecision_of_flushRefused (hmay : MayDecide s.current.tables a model)
    (hrefuses : ¬Refuses a model) (hflush : d.flushRefused = true) :
    recordDecision a d s = (.error .integrityError, s.rollback) := by
  obtain ⟨hvalid, hdrift⟩ := not_or.mp hrefuses
  unfold recordDecision
  rw [hmay.found]
  dsimp only
  rw [if_neg (not_terminal_of_isOpen hmay.isOpen), hmay.undecided, if_neg Bool.false_ne_true,
    if_neg hvalid, if_neg hdrift, if_pos hflush]

/-- What a call that raises leaves behind. -/
theorem recordDecision_eq_error {e : ApprovalError} {s' : Session Log}
    (h : recordDecision a d s = (.error e, s')) :
    s' = s ∨ ∃ model, MayDecide s.current.tables a model ∧
      (Refuses a model ∨ d.flushRefused = true ∧ s' = s.rollback) := by
  unfold recordDecision at h
  split at h
  · exact Or.inl (Prod.mk.inj h).2.symm
  · rename_i model hfound
    split at h
    · exact Or.inl (Prod.mk.inj h).2.symm
    · rename_i hopen
      split at h
      · exact Or.inl (Prod.mk.inj h).2.symm
      · rename_i hundecided
        have hmay : MayDecide s.current.tables a model :=
          ⟨hfound, isOpen_of_terminal hopen, by simpa using hundecided⟩
        dsimp only at h
        refine Or.inr ⟨model, hmay, ?_⟩
        split at h
        · rename_i hinvalid
          exact Or.inl (Or.inl hinvalid)
        · split at h
          · rename_i hdrift
            exact Or.inl (Or.inr hdrift)
          · split at h
            · rename_i hflush
              exact Or.inr ⟨hflush, (Prod.mk.inj h).2.symm⟩
            · cases h

end Decision

/-- **A decision is recorded atomically** exactly when no check refuses it after it has been put on
record. -/
theorem recordDecision_atomic_iff (a : RecordDecision) (d : Draws) (s : Session Log) :
    RecordsAtomically a d s ↔ RefusesEarly a d s := by
  constructor
  · intro hatomic model hmay
    have hrefuses : ¬Refuses a model := fun hrefuses =>
      not_atomic_of_refuses hmay hrefuses hatomic
    refine ⟨hrefuses, fun hflush => ?_⟩
    exact hatomic _ _ (recordDecision_of_flushRefused hmay hrefuses hflush)
  · intro hearly e s' hrun
    rcases recordDecision_eq_error hrun with rfl | ⟨model, hmay, hrefuses | ⟨hflush, rfl⟩⟩
    · exact ⟨rfl, rfl⟩
    · exact absurd hrefuses (hearly model hmay).1
    · exact (hearly model hmay).2 hflush

/-- A request that was made under the second version of its policy. -/
def samplePending : List Action :=
  let policy : ApprovalPolicy := { policyName := "Payments", version := 2 }
  let key : TransitionKey := ⟨"ap_payment", "payment", ⟨7⟩, "approve", "submitted", "approved"⟩
  [.call (.createRequest { key with policy, matchedRuleName := "any", requestorId := ⟨1⟩ })
    ⟨sampleTime, ⟨10⟩, false⟩, .commit]

/-- The approval of a controller while the first version is active. -/
def sampleDrift : RecordDecision :=
  ⟨⟨10⟩, ⟨2⟩, "controller", .approve, "", some { policyName := "Payments", version := 1 }⟩

/-- **The decision of a call that raises PolicyDriftError is stored.** -/
theorem drifted_decision_stays :
    ∃ s, run (step Digest.spell) (begin .empty) samplePending = some s ∧
      ¬RecordsAtomically sampleDrift ⟨sampleTime, ⟨11⟩, false⟩ s := by
  have hrun : (run (step Digest.spell) (begin .empty) samplePending).any (fun s =>
      s.current.tables.decisions.isEmpty &&
        (s.current.tables.load ⟨10⟩).any fun r => r.status = .pending && r.policyVersion = 2) =
          true := by decide +kernel
  obtain ⟨s, hs, hany⟩ := (Option.any_eq_true ..).mp hrun
  rw [Bool.and_eq_true] at hany
  obtain ⟨hnone, hfound⟩ := hany
  obtain ⟨model, hmodel, hrow⟩ := (Option.any_eq_true ..).mp hfound
  rw [Bool.and_eq_true, decide_eq_true_eq, decide_eq_true_eq] at hrow
  refine ⟨s, hs, ?_⟩
  have hmay : MayDecide s.current.tables sampleDrift model := by
    refine ⟨hmodel, ?_, ?_⟩
    · rw [hrow.1]
      rfl
    · unfold Tables.decidedBy
      rw [List.isEmpty_iff.mp hnone]
      rfl
  have hrefuses : Refuses sampleDrift model := by
    refine Or.inr ?_
    show (terminal .approved && drifted model sampleDrift.activePolicy) = true
    rw [Bool.and_eq_true]
    refine ⟨by decide, ?_⟩
    show decide ((1 : ℤ) < model.policyVersion) = true
    rw [hrow.2]
    decide
  exact not_atomic_of_refuses hmay hrefuses

end FinanceAccounting.Approval
