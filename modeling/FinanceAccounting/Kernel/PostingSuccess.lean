import FinanceAccounting.Kernel.PostingCases

/-! # What a success takes

The way of an event through the pipeline to a POSTED result, with all it depends on: the stages
before the coordinator (`Intends`), the coordinator (`Interprets`), the journal write, and what
is recorded after it (`Concludes`).  `process_success` reads these off a success. -/

namespace FinanceAccounting.ModulePosting

open UnitOfWork (Session Table Result)
open JournalWriter (JournalWriteResult)

variable {cfg : Config} {c : Call} {s s' s₁ : Session Tables} {profile : Profile}
variable {meaning : MeaningBuilderResult} {intent : AccountingIntent} {eventType : String}
variable {r : InterpretationResult} {written : JournalWriteResult}
variable {result : ModulePostingResult}

/-! ### The coordinator -/

/-- The outcome, its decision log and the subledger entries can be recorded. -/
structure Concludes (c : Call) (s : Session Tables) : Prop where
  absent : s.current.getOutcome c.eventId = none
  outcomeRuns : c.fails .outcome = none
  logRuns : c.fails .decisionLog = none
  subledgerRuns : c.fails .subledger = none

theorem record_runs {o o' : InterpretationOutcome} (h : record c o s = (.ok o', s')) :
    c.fails .outcome = none := by
  unfold record at h
  split at h
  · cases h
  · split at h
    · cases h
    · split at h
      · assumption
      · cases h
      · cases h

/-- The POSTED outcome of a write. -/
def postedOutcome (c : Call) (intent : AccountingIntent) (written : JournalWriteResult) :
    InterpretationOutcome :=
  { blankOutcome intent .posted with
    econEventId := some c.economicEventId
    journalEntryIds := some (written.entries.map (·.entryId)) }

theorem recordWrite_success (h : recordWrite c intent written s = (.ok r, s'))
    (hr : r.success = true) :
    written.isSuccess = true ∧ c.fails .outcome = none ∧ r.outcome.isSome ∧
      r.journalResult = some written ∧ Records (postedOutcome c intent written) s s' := by
  unfold recordWrite at h
  split at h
  · rename_i hwritten
    obtain ⟨o, s₁, hrecord, h⟩ := Result.andThen_eq_ok.mp h
    cases h
    exact ⟨hwritten, record_runs hrecord, rfl, rfl, (record_eq_ok hrecord).2⟩
  · split at h
    · rw [(recordFailure_eq_ok h).1] at hr
      cases hr
    · rw [(recordFailure_eq_ok h).1] at hr
      cases hr

theorem interpretAndPost_logs (h : interpretAndPost c profile meaning intent s = (.ok r, s'))
    (hr : r.outcome.isSome) : c.fails .decisionLog = none := by
  obtain ⟨r', s₁, -, h⟩ := Result.andThen_eq_ok.mp h
  split at h
  · obtain ⟨hlog, -⟩ := attempt_eq_ok.mp h
    exact hlog
  · rename_i hnone
    cases h
    exact absurd hr hnone

theorem finish_success (h : finish c profile intent r s = (.ok result, s'))
    (hresult : result.isSuccess = true) : r.success = true ∧ c.fails .subledger = none ∧
      result.status = .posted ∧ result.journalEntryIds ≠ [] ∧
      result.journalEntryIds = (r.journalResult.elim [] (·.entries)).map (·.entryId) := by
  have hr := (finish_eq_ok h).2 hresult
  unfold finish at h
  simp only [hr, Bool.not_true, Bool.false_eq_true, if_false] at h
  obtain ⟨hsubledger, h⟩ := attempt_eq_ok.mp h
  split at h
  · cases h
  · rename_i hids
    cases h
    exact ⟨hr, hsubledger, rfl, hids, rfl⟩

/-- **What a success of an accepted event takes**, and what it leaves. -/
theorem process_success (h : process c s = (.ok result, s')) (hresult : result.isSuccess = true) :
    ∃ profile draft eventType written s₁, Intends c profile draft ∧
      Interprets c profile (c.pipeline.buildMeaning c.request profile) eventType ∧
      writeJournal c (c.toIntent draft) eventType s = (.ok written, s₁) ∧
      written.isSuccess = true ∧ Concludes c s₁ ∧
      Records (postedOutcome c (c.toIntent draft) written) s₁ s' ∧ result.status = .posted ∧
      result.journalEntryIds ≠ [] ∧ result.journalEntryIds = written.entries.map (·.entryId) := by
  unfold process at h
  rcases prepared_prepare c with ⟨-, stopped, hprepare, hfailed⟩ | ⟨e, hprepare⟩ |
    ⟨profile, draft, hintends, hprepare⟩
  · simp only [hprepare, Prod.mk.injEq, Except.ok.injEq] at h
    rw [← h.1, hfailed] at hresult
    cases hresult
  · simp [hprepare] at h
  · simp only [hprepare] at h
    obtain ⟨r, s₂, hinterpret, hfinish⟩ := Result.andThen_eq_ok.mp h
    obtain ⟨rfl, -⟩ := finish_eq_ok hfinish
    obtain ⟨hr, hsubledger, hposted, hne, hids⟩ := finish_success hfinish hresult
    rcases doInterpretAndPost_eq_ok (interpretAndPost_eq_ok hinterpret) with ⟨-, hfailed, -⟩ |
      ⟨hfailed, -⟩ | ⟨eventType, written, s₁, hinterprets, hwrite, hrecord⟩
    · rw [hfailed] at hr
      cases hr
    · rw [hfailed] at hr
      cases hr
    · obtain ⟨hwritten, houtcome, hsome, hresults, hrecords⟩ := recordWrite_success hrecord hr
      rw [hresults] at hids
      have hlog := interpretAndPost_logs hinterpret hsome
      obtain ⟨habsent, -⟩ := id hrecords
      exact ⟨profile, draft, eventType, written, s₁, hintends, hinterprets, hwrite, hwritten,
        ⟨habsent, houtcome, hlog, hsubledger⟩, hrecords, hposted, hne, hids⟩

/-! ### Calls -/

/-- **The successes of a call**, with their statuses: it finds its event, or it has accepted and
processed it. -/
theorem doPostEvent_successes (h : doPostEvent cfg c s = (.ok result, s'))
    (hresult : result.isSuccess = true) :
    c.Checked ∧ (result.status = .alreadyPosted ∧ Finds cfg c s s'.current ∨
      Accepts cfg c s ∧ ∃ payloadHash, c.request.event.hash cfg.sha256 = .ok payloadHash ∧
        process c (c.stored payloadHash s) = (.ok result, s')) := by
  have hchecked := (doPostEvent_success h hresult).1
  refine ⟨hchecked, ?_⟩
  have hcall := h
  rw [doPostEvent_of_checked hchecked] at hcall
  obtain ⟨ingested, s₁, hingest, hhandle⟩ := Result.andThen_eq_ok.mp hcall
  rcases ingest_cases hingest with hrejected | ⟨hduplicate, hfinds⟩ | ⟨-, haccepts⟩
  · rw [handleIngest, hrejected] at hhandle
    cases hhandle
    cases hresult
  · rw [handleIngest, hduplicate] at hhandle
    cases hhandle
    exact .inl ⟨rfl, hfinds⟩
  · obtain ⟨payloadHash, hhash, hdo⟩ := doPostEvent_of_accepts hchecked haccepts
    exact .inr ⟨haccepts, payloadHash, hhash, hdo ▸ h⟩

end FinanceAccounting.ModulePosting
