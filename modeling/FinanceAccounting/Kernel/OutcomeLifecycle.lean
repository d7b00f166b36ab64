import FinanceAccounting.Library.TransitionSystem
import FinanceAccounting.Kernel.OutcomeRecorder

/-! # The lifecycle of interpretation outcomes

Runs of calls of the recorder and of the retry service in one session, with commits and
rollbacks; a refused flush rolls the session back.

Every status change is one of `validTransitions`, a terminal outcome never changes, and
`retryCount` counts the retries taken, whatever is called (`Consistent`).  That a POSTED outcome
names journal entries and carries no failure or reason, and that the retries stay within the
limit, depends on the calls: `lifecycle_lawful_iff` says exactly when. -/

namespace FinanceAccounting.OutcomeLifecycle

open TransitionSystem (run Along Throughout)
open ModulePosting (OutcomeStatus)
open UnitOfWork (Session Logged Change)

/-! ### Sessions -/

abbrev Store := UUID → Option InterpretationOutcome

abbrev Log := Logged Store InterpretationOutcome

/-- One call for an event, with the time of the clock; its flush may be refused. -/
structure Call where
  eventId : UUID
  operation : Operation
  now : Datetime
  flushRefused : Bool := false

inductive Action where
  | call (c : Call)
  | commit
  | rollback

/-- A call that raises before its flush leaves the session as it is. -/
def Call.perform (c : Call) (s : Session Log) : Session Log :=
  match c.operation.apply c.now c.eventId (s.current.tables c.eventId) with
  | .error _ => s
  | .ok o =>
      if c.flushRefused then s.rollback
      else
        s.flush (s.current.become (Function.update s.current.tables c.eventId (some o))
          [⟨s.current.tables c.eventId, o⟩])

def step (s : Session Log) : Action → Option (Session Log)
  | .call c => some (c.perform s)
  | .commit => some s.commit
  | .rollback => some s.rollback

/-- No event has an outcome. -/
def start : Session Log := Session.start (Logged.start fun _ => none)

theorem step_isSome (s : Session Log) (a : Action) : (step s a).isSome := by
  cases a <;> rfl

/-! ### The law -/

/-- A change from FAILED to RETRYING. -/
def takesRetry (c : Change InterpretationOutcome) : Bool :=
  c.before.any (·.status = .failed) && c.after.status = .retrying

/-- The retries taken for an event. -/
def retriesTaken (changes : List (Change InterpretationOutcome)) (eventId : UUID) : ℕ :=
  changes.countP fun c => c.after.sourceEventId = eventId && takesRetry c

/-- What holds of every outcome and its history, whatever is called. -/
structure Consistent (l : Log) : Prop where
  /-- Every change of a row is allowed. -/
  allowed : ∀ c ∈ l.changes, ∀ o, c.before = some o → c.after.status ∈ validTransitions o.status
  /-- A terminal row does not change. -/
  final : ∀ c ∈ l.changes, ∀ o, c.before = some o → o.isTerminal = false
  /-- The count of a row is the number of retries taken. -/
  counted : ∀ eventId o, l.tables eventId = some o → o.retryCount = retriesTaken l.changes eventId
  keyed : ∀ eventId o, l.tables eventId = some o → o.sourceEventId = eventId
  /-- An event without a row has no history. -/
  fresh : ∀ eventId, l.tables eventId = none → ∀ c ∈ l.changes, c.after.sourceEventId ≠ eventId

/-- Every POSTED outcome names entries and is cleared. -/
def PostedComplete (store : Store) : Prop :=
  ∀ eventId o, store eventId = some o → o.status = .posted → o.NamesEntries ∧ o.Cleared

def WithinLimit (store : Store) : Prop :=
  ∀ eventId o, store eventId = some o → o.retryCount ≤ maxRetries

/-- **The outcome state machine (L5).** -/
structure Lawful (l : Log) : Prop where
  allowed : ∀ c ∈ l.changes, ∀ o, c.before = some o → c.after.status ∈ validTransitions o.status
  final : ∀ c ∈ l.changes, ∀ o, c.before = some o → o.isTerminal = false
  posted : PostedComplete l.tables
  counted : ∀ eventId o, l.tables eventId = some o → o.retryCount = retriesTaken l.changes eventId
  limited : WithinLimit l.tables

/-- The condition on a call: it makes an outcome POSTED only with entries and when no failure and
no reason is on the row, and takes a retry without the retry service only below the limit. -/
def Sound (s : Session Log) : Action → Prop
  | .call c => c.flushRefused = false → ∀ o, s.current.tables c.eventId = some o →
      (∀ ids, c.operation.postedIds = some ids → .posted ∈ validTransitions o.status →
        ids ≠ [] ∧ o.Cleared) ∧
      (c.operation = .transitionToRetrying → .retrying ∈ validTransitions o.status →
        o.retryCount < maxRetries)
  | .commit | .rollback => True

/-! ### Every call keeps the history consistent -/

theorem consistent_start : Consistent (Logged.start fun _ => none) where
  allowed c hc := by cases hc
  final c hc := by cases hc
  counted eventId o ho := by cases ho
  keyed eventId o ho := by cases ho
  fresh eventId _ c hc := by cases hc

section Change

variable {l : Log} {op : Operation} {now : Datetime} {eventId : UUID} {o' : InterpretationOutcome}

/-- The log after a call that stored the row `o'`. -/
def stored (l : Log) (eventId : UUID) (o' : InterpretationOutcome) : Log :=
  l.become (Function.update l.tables eventId (some o')) [⟨l.tables eventId, o'⟩]

theorem update_eq_some {store : Store} {eventId₁ : UUID} {o : InterpretationOutcome}
    (h : Function.update store eventId (some o') eventId₁ = some o) :
    (eventId₁ = eventId ∧ o' = o) ∨ (eventId₁ ≠ eventId ∧ store eventId₁ = some o) := by
  by_cases heq : eventId₁ = eventId
  · rw [heq, Function.update_self, Option.some.injEq] at h
    exact Or.inl ⟨heq, h⟩
  · rw [Function.update_of_ne heq] at h
    exact Or.inr ⟨heq, h⟩

theorem sourceEventId_of_apply (h : Consistent l)
    (hok : op.apply now eventId (l.tables eventId) = .ok o') : o'.sourceEventId = eventId := by
  rcases apply_cases hok with ⟨-, hcreated⟩ | ⟨o, hex, hmoved⟩
  · exact hcreated.sourceEventId_eq
  · rw [hmoved.sourceEventId_eq, h.keyed eventId o hex]

theorem retriesTaken_stored (c : Change InterpretationOutcome)
    (changes : List (Change InterpretationOutcome)) (eventId : UUID) :
    retriesTaken (changes ++ [c]) eventId = retriesTaken changes eventId +
      if c.after.sourceEventId = eventId ∧ takesRetry c = true then 1 else 0 := by
  simp [retriesTaken, List.countP_append, List.countP_cons]

theorem takesRetry_iff {o o' : InterpretationOutcome} (h : o'.status ∈ validTransitions o.status) :
    takesRetry ⟨some o, o'⟩ = true ↔ o'.status = .retrying := by
  simp only [takesRetry, Option.any_some, Bool.and_eq_true, decide_eq_true_eq]
  exact ⟨fun hr => hr.2, fun hr => ⟨failed_of_retrying_mem (hr ▸ h), hr⟩⟩

/-- The count of the stored row. -/
theorem counted_stored (h : Consistent l)
    (hok : op.apply now eventId (l.tables eventId) = .ok o') :
    o'.retryCount = retriesTaken (stored l eventId o').changes eventId := by
  have hid := sourceEventId_of_apply h hok
  rw [stored, Logged.changes_become, retriesTaken_stored]
  rcases apply_cases hok with ⟨hnone, hcreated⟩ | ⟨o, hex, hmoved⟩
  · have hzero : retriesTaken l.changes eventId = 0 := by
      refine List.countP_eq_zero.mpr fun c hc => ?_
      simp [h.fresh eventId hnone c hc]
    rw [hzero, hcreated.retryCount_eq, hnone]
    simp [takesRetry]
  · rw [hex, ← h.counted eventId o hex, hmoved.retryCount_eq]
    simp only [hid, true_and, takesRetry_iff hmoved.allowed]

theorem Consistent.stored (h : Consistent l)
    (hok : op.apply now eventId (l.tables eventId) = .ok o') :
    Consistent (stored l eventId o') := by
  have hid := sourceEventId_of_apply h hok
  have hchanges : (OutcomeLifecycle.stored l eventId o').changes =
      l.changes ++ [⟨l.tables eventId, o'⟩] := rfl
  have htables : (OutcomeLifecycle.stored l eventId o').tables =
      Function.update l.tables eventId (some o') := rfl
  have hlast : ∀ o, l.tables eventId = some o → o'.status ∈ validTransitions o.status := by
    intro o ho
    rcases apply_cases hok with ⟨hnone, -⟩ | ⟨o₁, hex, hmoved⟩
    · rw [hnone] at ho
      cases ho
    · obtain rfl := Option.some.inj (hex.symm.trans ho)
      exact hmoved.allowed
  have hnew : ∀ c ∈ (OutcomeLifecycle.stored l eventId o').changes,
      c ∈ l.changes ∨ c = ⟨l.tables eventId, o'⟩ := by
    intro c hc
    rwa [hchanges, List.mem_append, List.mem_singleton] at hc
  refine ⟨fun c hc o ho => ?_, fun c hc o ho => ?_, fun eventId₁ o ho => ?_,
    fun eventId₁ o ho => ?_, fun eventId₁ hnone c hc => ?_⟩
  · rcases hnew c hc with hold | rfl
    · exact h.allowed c hold o ho
    · exact hlast o ho
  · rcases hnew c hc with hold | rfl
    · exact h.final c hold o ho
    · exact not_isTerminal_of_mem (hlast o ho)
  · rcases update_eq_some ho with ⟨rfl, rfl⟩ | ⟨hne, ho⟩
    · exact counted_stored h hok
    · rw [hchanges, retriesTaken_stored, h.counted eventId₁ o ho]
      simp [hid, hne.symm]
  · rcases update_eq_some ho with ⟨rfl, rfl⟩ | ⟨-, ho⟩
    · exact hid
    · exact h.keyed eventId₁ o ho
  · rw [htables] at hnone
    by_cases heq : eventId₁ = eventId
    · rw [heq, Function.update_self] at hnone
      cases hnone
    · rw [Function.update_of_ne heq] at hnone
      rcases hnew c hc with hold | rfl
      · exact h.fresh eventId₁ hnone c hold
      · exact fun hc => heq (hc.symm.trans hid)

end Change

/-- What a step does. -/
inductive Stepped (s : Session Log) : Action → Session Log → Prop
  | commit : Stepped s .commit s.commit
  | rollback : Stepped s .rollback s.rollback
  | raised {c : Call} {e : OutcomeError}
      (h : c.operation.apply c.now c.eventId (s.current.tables c.eventId) = .error e) :
      Stepped s (.call c) s
  | refused {c : Call} (h : c.flushRefused = true) : Stepped s (.call c) s.rollback
  | stored {c : Call} {o' : InterpretationOutcome}
      (hok : c.operation.apply c.now c.eventId (s.current.tables c.eventId) = .ok o')
      (hflushed : c.flushRefused = false) :
      Stepped s (.call c) (s.flush (stored s.current c.eventId o'))

theorem stepped {s s' : Session Log} {a : Action} (h : step s a = some s') : Stepped s a s' := by
  cases a with
  | commit => exact Option.some.inj h ▸ .commit
  | rollback => exact Option.some.inj h ▸ .rollback
  | call c =>
      obtain rfl := Option.some.inj h
      unfold Call.perform
      split
      · exact .raised ‹_›
      · rename_i o' hok
        cases hrefused : c.flushRefused with
        | true => exact .refused hrefused
        | false => exact .stored hok hrefused

theorem both_step {s s' : Session Log} {a : Action} (h : s.Both Consistent)
    (hstep : step s a = some s') : s'.Both Consistent := by
  cases stepped hstep with
  | commit => exact h.commit
  | rollback | refused => exact h.rollback
  | raised => exact h
  | stored hok => exact h.flush (h.current.stored hok)

/-! ### When a call keeps the law -/

theorem lawful_iff {l : Log} (h : Consistent l) :
    Lawful l ↔ PostedComplete l.tables ∧ WithinLimit l.tables :=
  ⟨fun hl => ⟨hl.posted, hl.limited⟩,
    fun ⟨hposted, hlimited⟩ => ⟨h.allowed, h.final, hposted, h.counted, hlimited⟩⟩

theorem postedComplete_update {store : Store} (h : PostedComplete store) (eventId : UUID)
    (o' : InterpretationOutcome) :
    PostedComplete (Function.update store eventId (some o')) ↔
      (o'.status = .posted → o'.NamesEntries ∧ o'.Cleared) := by
  constructor
  · intro hp
    exact hp eventId o' (Function.update_self ..)
  · intro ho' eventId₁ o ho
    rcases update_eq_some ho with ⟨-, rfl⟩ | ⟨-, ho⟩
    · exact ho'
    · exact h eventId₁ o ho

theorem withinLimit_update {store : Store} (h : WithinLimit store) (eventId : UUID)
    (o' : InterpretationOutcome) :
    WithinLimit (Function.update store eventId (some o')) ↔ o'.retryCount ≤ maxRetries := by
  constructor
  · intro hw
    exact hw eventId o' (Function.update_self ..)
  · intro ho' eventId₁ o ho
    rcases update_eq_some ho with ⟨-, rfl⟩ | ⟨-, ho⟩
    · exact ho'
    · exact h eventId₁ o ho

/-- An operation that posts an outcome does so whenever the status allows it. -/
theorem apply_of_postedIds (now : Datetime) (eventId : UUID) {op : Operation}
    {o : InterpretationOutcome} {ids : List UUID} (hids : op.postedIds = some ids)
    (hmem : OutcomeStatus.posted ∈ validTransitions o.status) :
    ∃ o', op.apply now eventId (some o) = .ok o' ∧ o'.status = .posted := by
  cases op <;> simp only [Operation.postedIds, reduceCtorEq] at hids
  case transitionToPosted =>
    simp only [Operation.apply, transitionToPosted, validateAndTransition, if_pos hmem]
    exact ⟨_, rfl, rfl⟩
  case completeRetrySuccess =>
    simp only [Operation.apply, completeRetrySuccess, transitionToPosted, validateAndTransition,
      if_pos hmem]
    exact ⟨_, rfl, rfl⟩

theorem apply_transitionToRetrying (now : Datetime) (eventId : UUID) {o : InterpretationOutcome}
    (hmem : OutcomeStatus.retrying ∈ validTransitions o.status) :
    ∃ o', Operation.transitionToRetrying.apply now eventId (some o) = .ok o' ∧
      o'.status = .retrying := by
  simp only [Operation.apply, transitionToRetrying, validateAndTransition, if_pos hmem]
  exact ⟨_, rfl, rfl⟩

/-- The stored row is complete and within the limit exactly when the call was sound. -/
theorem stored_iff_sound {c : Call} {s : Session Log} {o' : InterpretationOutcome}
    (hlimit : WithinLimit s.current.tables) (hrefused : c.flushRefused = false)
    (hok : c.operation.apply c.now c.eventId (s.current.tables c.eventId) = .ok o') :
    ((o'.status = .posted → o'.NamesEntries ∧ o'.Cleared) ∧ o'.retryCount ≤ maxRetries) ↔
      Sound s (.call c) := by
  rcases apply_cases hok with ⟨hnone, hcreated⟩ | ⟨o, hex, hmoved⟩
  · refine iff_of_true ⟨hcreated.posted, by rw [hcreated.retryCount_eq]; exact Nat.zero_le _⟩ ?_
    intro _ o ho
    rw [hnone] at ho
    cases ho
  · rw [hex] at hok
    constructor
    · rintro ⟨hposted, hcount⟩ - o₁ ho₁
      obtain rfl := Option.some.inj (hex.symm.trans ho₁)
      refine ⟨fun ids hids hmem => ?_, fun hop hmem => ?_⟩
      · obtain ⟨o₂, hok₂, hs⟩ := apply_of_postedIds _ _ hids hmem
        obtain rfl := Except.ok.inj (hok.symm.trans hok₂)
        obtain ⟨ids₁, hids₁, hnames, hcleared⟩ := hmoved.posted hs
        obtain rfl := Option.some.inj (hids.symm.trans hids₁)
        exact ⟨hnames.mp (hposted hs).1, hcleared.mp (hposted hs).2⟩
      · rw [hop] at hok
        obtain ⟨o₂, hok₂, hs⟩ := apply_transitionToRetrying _ _ hmem
        obtain rfl := Except.ok.inj (hok.symm.trans hok₂)
        rw [hmoved.retryCount_eq, if_pos hs] at hcount
        exact hcount
    · intro hsound
      obtain ⟨hposts, hretries⟩ := hsound hrefused o hex
      refine ⟨fun hs => ?_, ?_⟩
      · obtain ⟨ids, hids, hnames, hcleared⟩ := hmoved.posted hs
        obtain ⟨hne, hclear⟩ := hposts ids hids (hs ▸ hmoved.allowed)
        exact ⟨hnames.mpr hne, hcleared.mpr hclear⟩
      · rw [hmoved.retryCount_eq]
        split
        · rename_i hs
          by_cases hop : c.operation = .transitionToRetrying
          · exact hretries hop (hs ▸ hmoved.allowed)
          · exact hmoved.retrying hs hop
        · exact hlimit c.eventId o hex

/-- A call that raises meets the condition. -/
theorem sound_of_error {c : Call} {s : Session Log} {e : OutcomeError}
    (herror : c.operation.apply c.now c.eventId (s.current.tables c.eventId) = .error e) :
    Sound s (.call c) := by
  intro _ o hex
  rw [hex] at herror
  refine ⟨fun ids hids hmem => ?_, fun hop hmem => ?_⟩
  · obtain ⟨o', hok, -⟩ := apply_of_postedIds c.now c.eventId hids hmem
    rw [herror] at hok
    cases hok
  · obtain ⟨o', hok, -⟩ := apply_transitionToRetrying c.now c.eventId hmem
    rw [← hop, herror] at hok
    cases hok

/-- **Step lemma**: a step keeps the law exactly when it is sound. -/
theorem both_lawful_iff {s s' : Session Log} {a : Action} (hinv : s.Both Consistent)
    (hlaw : s.Both Lawful) (hstep : step s a = some s') : s'.Both Lawful ↔ Sound s a := by
  cases stepped hstep with
  | commit => exact iff_of_true hlaw.commit trivial
  | rollback => exact iff_of_true hlaw.rollback trivial
  | raised herror => exact iff_of_true hlaw (sound_of_error herror)
  | refused hrefused =>
      refine iff_of_true hlaw.rollback fun hf => ?_
      rw [hrefused] at hf
      cases hf
  | @stored c o' hok hflushed =>
      rw [← stored_iff_sound hlaw.current.limited hflushed hok,
        ← postedComplete_update hlaw.current.posted c.eventId o',
        ← withinLimit_update hlaw.current.limited c.eventId o']
      have hflush : (s.flush (stored s.current c.eventId o')).Both Lawful ↔
          Lawful (stored s.current c.eventId o') := ⟨fun h => h.current, fun h => hlaw.flush h⟩
      exact hflush.trans (lawful_iff (hinv.current.stored hok))

theorem lawful_start : Lawful (Logged.start fun _ => none) :=
  (lawful_iff consistent_start).mpr
    ⟨(fun eventId o ho => by cases ho), (fun eventId o ho => by cases ho)⟩

/-- **The law holds throughout a run exactly when every call of it is sound**: in every state of
the run the status changes are allowed, terminal outcomes are final, POSTED outcomes name entries
and are cleared, and the counts are the retries taken, within the limit. -/
theorem lifecycle_lawful_iff (as : List Action) :
    Throughout step (fun s => s.Both Lawful) start as ↔ Along step Sound start as :=
  TransitionSystem.throughout_iff_along step_isSome (fun _ _ _ => both_step)
    (fun _ _ _ => both_lawful_iff) (Session.Both.start consistent_start)
    (Session.Both.start lawful_start) as

/-- A failure that is retried with success. -/
def sampleRetry : List Action :=
  let i : Interpretation := { profileId := "SalesInvoice", profileVersion := 1 }
  let f : FailureContext := { failureType := .inl .guard, failureMessage := "guard failed" }
  [.call ⟨⟨1⟩, .recordFailed i f none none, sampleTime, false⟩,
    .call ⟨⟨1⟩, .initiateRetry, sampleTime, false⟩,
    .call ⟨⟨1⟩, .completeRetrySuccess ⟨2⟩ [⟨3⟩] none, sampleTime, false⟩]

/-- **A retried outcome is POSTED with its failure.** -/
theorem retried_not_cleared : ¬Throughout step (fun s => s.Both Lawful) start sampleRetry := by
  intro h
  obtain ⟨s, hrun, o, ho, hposted, hfailure⟩ : ∃ s, run step start sampleRetry = some s ∧
      ∃ o, s.current.tables ⟨1⟩ = some o ∧ o.status = .posted ∧ o.failureType = some "guard" :=
    ⟨_, rfl, _, rfl, rfl, rfl⟩
  have hlaw := h sampleRetry [] s (List.append_nil _).symm hrun
  have hcleared := (hlaw.current.posted ⟨1⟩ o ho hposted).2
  rw [hcleared.failureType] at hfailure
  cases hfailure

end FinanceAccounting.OutcomeLifecycle
