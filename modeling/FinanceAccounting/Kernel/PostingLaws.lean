import FinanceAccounting.Library.TransitionSystem
import FinanceAccounting.Kernel.PostingCases

/-! # Two laws of posting

A success of `post_event` means that the journal has a POSTED entry for the event, and the call
that stores an event records exactly one outcome for it.  `success_posted_iff` and
`recordedOnce_iff` give, for every run of calls, commits and rollbacks on a session, the exact
condition of each law.

Both fail for one reason: results that are not successes leave the ingested event in the
session.  The invariant `StoredPosted` of an event holds along a run until such a call
(`both_postEvent`, `both_of_run`), so a retry that finds its event unposted comes after one. -/

namespace FinanceAccounting.ModulePosting

open TransitionSystem (run Along along_nil along_cons along_congr)
open UnitOfWork (Session Table Result)
open Ingestor (Event IngestResult)
open JournalWriter (PostedFor)

variable {cfg : Config} {c : Call} {s s' : Session Tables} {result : ModulePostingResult}
variable {draft : IntentDraft} {intent : AccountingIntent}

/-! ### Sample calls -/

def sampleConfig : Config where
  sha256 := Digest.tableDigest Ingestor.sampleTable
  isCurrency s := s = "USD"

def sampleDraft : IntentDraft where
  profileId := "InventoryReceipt"
  profileVersion := 1
  ledgerIntents := [JournalWriter.sampleLedger "GL"]
  ledgerIntents_ne_nil := by simp
  description := none

/-- Without a profile the event is accepted and then refused. -/
def samplePipeline (hasProfile : Bool) : Pipeline where
  partyService := some fun _ => some ⟨true, .supplier⟩
  periodForDate _ := some ⟨"2025-01", .open, false⟩
  getProfile _ := if hasProfile then some { name := "InventoryReceipt", version := 1 } else none
  buildMeaning _ _ := { success := true, economicEvent := some "inventory.receipt" }
  buildIntent _ _ := .ok sampleDraft
  journalServices := { bindings := JournalWriter.sampleServices.bindings }

/-- The `n`-th call with the same event. -/
def sampleCall (hasProfile : Bool) (n : ℕ) : Call where
  request := { event := Ingestor.sampleRequest [], amount := .finite false 10000 (-2) }
  pipeline := samplePipeline hasProfile
  ingestedAt := sampleTime
  econEventId := ⟨BitVec.ofNat 128 (200 + n)⟩
  economicEventId := ⟨BitVec.ofNat 128 (250 + n)⟩
  newId k := ⟨BitVec.ofNat 128 (300 + 10 * n + k)⟩
  now := sampleTime
  postedAt := sampleTime

theorem checked_sampleCall (hasProfile : Bool) (n : ℕ) : (sampleCall hasProfile n).Checked :=
  ⟨rfl, rfl⟩

theorem accepts_sampleCall (hasProfile : Bool) (n : ℕ) :
    Accepts sampleConfig (sampleCall hasProfile n) (Session.start Tables.empty) where
  valid := by
    change (Ingestor.sampleRequest []).validate sampleConfig.isCurrency = []
    decide +kernel
  hashed := ⟨_, rfl⟩
  absent := rfl
  inserted := rfl
  audited := rfl

theorem unrecorded_sampleCall (n : ℕ) : Unrecorded (sampleCall false n) :=
  Or.inl (.policy ⟨rfl, rfl, rfl⟩ rfl)

/-! ### Runs -/

/-- What happens on the session: a call, or its user ends the transaction. -/
inductive Action where
  | post (c : Call)
  | commit
  | rollback

def step (cfg : Config) (s : Session Tables) : Action → Option (Session Tables)
  | .post c => some (postEvent cfg c s).2
  | .commit => some s.commit
  | .rollback => some s.rollback

/-- The property holds of every call of a schedule, in the session it is made on. -/
def EveryCall (cfg : Config) (P : Session Tables → Call → Prop) (tables : Tables)
    (actions : List Action) : Prop :=
  Along (step cfg) (fun s a => ∀ c, a = .post c → P s c) (Session.start tables) actions

theorem everyCall_congr {P Q R : Session Tables → Call → Prop} {tables : Tables}
    {actions : List Action} (hR : EveryCall cfg R tables actions)
    (h : ∀ s c, R s c → (P s c ↔ Q s c)) :
    EveryCall cfg P tables actions ↔ EveryCall cfg Q tables actions :=
  along_congr hR fun s _ hs => forall₂_congr fun c hc => h s c (hs c hc)

/-! ### A success has posted -/

/-- The econ event id is a new uuid: no entry is stored under a key that begins with it. -/
def DrawsFresh (s : Session Tables) (c : Call) : Prop :=
  s.Both fun tables => ∀ e ∈ tables.journal.entries,
    (c.econEventId.str ++ ":").toList.isPrefixOf e.idempotencyKey.toList = false

theorem freshKeys_of_prefix {j : Journal} (hintent : intent.econEventId = c.econEventId)
    (h : ∀ e ∈ j.entries,
      (c.econEventId.str ++ ":").toList.isPrefixOf e.idempotencyKey.toList = false) :
    JournalWriter.FreshKeys intent j := by
  intro e he ledgerId hkey
  refine Bool.eq_false_iff.mp (h e he) ?_
  rw [List.isPrefixOf_iff_prefix, hkey, AccountingIntent.idempotencyKey, hintent]
  refine ⟨(ledgerId ++ ":" ++ toString intent.profileVersion).toList, ?_⟩
  simp [String.append_assoc]

theorem posted_of_writes {j : Journal} (hfresh : DrawsFresh s c)
    (h : Writes c (c.toIntent draft) s j) : PostedFor j c.eventId := by
  obtain ⟨eventType, written, s₁, hwrite, hsuccess, rfl⟩ := h
  have hseen : JournalWriter.FreshKeys (c.toIntent draft) (s.seen journalTable) :=
    freshKeys_of_prefix rfl hfresh.current
  have hstored : JournalWriter.FreshKeys (c.toIntent draft) (s.stored journalTable) :=
    freshKeys_of_prefix rfl hfresh.committed
  exact JournalWriter.write_posted (fun _ => ⟨rfl, rfl, rfl⟩) hseen hstored
    (writeJournal_eq_ok.mp hwrite) hsuccess

theorem posted_of_process {payloadHash : String} (hfresh : DrawsFresh s c)
    (h : process c (c.stored payloadHash s) = (.ok result, s')) (hsuccess : result.isSuccess) :
    PostedFor s'.current.journal c.eventId := by
  have hfresh' : DrawsFresh (c.stored payloadHash s) c := ⟨hfresh.committed, hfresh.current⟩
  rcases process_cases h with ⟨-, hfailed, -⟩ | ⟨draft, -, hwrites⟩
  · exact absurd hsuccess (by simp [hfailed])
  · exact posted_of_writes hfresh' (hwrites hsuccess)

/-- A success of the call means that the journal has a POSTED entry for its event. -/
def SuccessPosted (cfg : Config) (s : Session Tables) (c : Call) : Prop :=
  ∀ result, (postEvent cfg c s).1 = .ok result → result.isSuccess →
    PostedFor (postEvent cfg c s).2.current.journal c.eventId

/-- A call that finds its event stored finds it posted. -/
def RetryPosted (cfg : Config) (s : Session Tables) (c : Call) : Prop :=
  c.Checked → ∀ tables, Finds cfg c s tables → PostedFor tables.journal c.eventId

theorem successPosted_iff_retryPosted (hfresh : DrawsFresh s c) :
    SuccessPosted cfg s c ↔ RetryPosted cfg s c := by
  constructor
  · intro h hchecked tables hfinds
    obtain ⟨result, s', hcall, hstatus, rfl⟩ := doPostEvent_of_finds hchecked hfinds
    obtain ⟨hok, hcurrent⟩ := postEvent_of_ok hcall
    have hposted := h result hok (by simp [ModulePostingResult.isSuccess, hstatus])
    rwa [hcurrent] at hposted
  · intro h result hok hsuccess
    obtain ⟨s', hcall, hcurrent⟩ := exists_of_postEvent_ok hok
    rw [hcurrent]
    obtain ⟨hchecked, hfinds | ⟨payloadHash, hprocess⟩⟩ := doPostEvent_success hcall hsuccess
    · exact h hchecked _ hfinds
    · exact posted_of_process hfresh hprocess hsuccess

/-- If the event is stored, the journal has a POSTED entry for it. -/
def StoredPosted (eventId : UUID) (tables : Tables) : Prop :=
  tables.events eventId ≠ none → PostedFor tables.journal eventId

/-- The call stores its event and does not succeed. -/
def LeavesUnposted (cfg : Config) (s : Session Tables) (c : Call) : Prop :=
  c.Checked ∧ Stores cfg c s ∧
    ∀ result, (postEvent cfg c s).1 = .ok result → result.isSuccess = false

variable {eventId : UUID}

theorem kept_storedPosted (eventId : UUID) : Kept fun s => s.Both (StoredPosted eventId) where
  rollback _ h := h.rollback
  save _ _ hgrows h := h.flush fun hstored =>
    let ⟨e, he, hposted⟩ := h.current hstored
    ⟨e, hgrows e he, hposted⟩
  outcome _ _ _ h := h.flush h.current

/-- **The step lemma.** Only a call that leaves its event unposted breaks it. -/
theorem both_postEvent (hfresh : DrawsFresh s c) (h : s.Both (StoredPosted eventId))
    (hc : ¬(c.eventId = eventId ∧ LeavesUnposted cfg s c)) :
    (postEvent cfg c s).2.Both (StoredPosted eventId) := by
  have hinner : (doPostEvent cfg c s).2.Both (StoredPosted eventId) := by
    by_cases hown : c.eventId = eventId ∧ c.Checked ∧ Stores cfg c s
    · obtain ⟨rfl, hchecked, hstores⟩ := hown
      have hsucceeds : ∃ result, (postEvent cfg c s).1 = .ok result ∧ result.isSuccess := by
        by_contra hnone
        exact hc ⟨rfl, hchecked, hstores, fun result hok =>
          Bool.eq_false_iff.mpr fun hsuccess => hnone ⟨result, hok, hsuccess⟩⟩
      obtain ⟨result, hok, hsuccess⟩ := hsucceeds
      obtain ⟨s', hcall, -⟩ := exists_of_postEvent_ok hok
      obtain ⟨-, hfinds | ⟨payloadHash, hprocess⟩⟩ := doPostEvent_success hcall hsuccess
      · exact absurd hfinds (not_finds_of_stores hstores _)
      · have hcommitted : s'.committed = s.committed := by
          have hkept := (kept_committed s.committed).process (c := c)
            (s := c.stored payloadHash s) rfl
          rwa [hprocess] at hkept
        rw [hcall]
        refine ⟨?_, fun _ => posted_of_process hfresh hprocess hsuccess⟩
        rw [hcommitted]
        exact h.committed
    · refine (kept_storedPosted eventId).doPostEvent (fun hchecked hstores payloadHash => ?_) h
      have hne : eventId ≠ c.eventId := fun heq => hown ⟨heq.symm, hchecked, hstores⟩
      refine h.flush fun hstored => h.current ?_
      rwa [Tables.events_addEvent_of_ne hne] at hstored
  rcases hcall : doPostEvent cfg c s with ⟨e | result, s'⟩
  · rw [hcall] at hinner
    simp only [postEvent, hcall]
    split
    · exact hinner.rollback
    · exact hinner
  · rw [hcall] at hinner
    simp only [postEvent, hcall]
    split
    · exact hinner.commit
    · exact hinner

theorem retryPosted_of_both (h : s.Both (StoredPosted c.eventId)) : RetryPosted cfg s c := by
  intro _ tables hfinds
  cases hfinds with
  | existing hvalid hhash hfound hsame => exact h.current (by simp [hfound])
  | concurrent hvalid hhash habsent hrefused hfound => exact h.committed (by simp [hfound])

/-- A retry that finds its event unposted has an earlier call to blame. -/
def Blamed (cfg : Config) (tables : Tables) (eventId : UUID) (pre : List Action) : Prop :=
  ∃ pre' d post s, pre = pre' ++ .post d :: post ∧
    run (step cfg) (Session.start tables) pre' = some s ∧ d.eventId = eventId ∧
      LeavesUnposted cfg s d

/-- **The run lemma.** -/
theorem both_of_run {tables : Tables} {actions : List Action}
    (hfresh : EveryCall cfg DrawsFresh tables actions) (htables : StoredPosted eventId tables)
    (hblame : ¬Blamed cfg tables eventId actions)
    (h : run (step cfg) (Session.start tables) actions = some s) :
    s.Both (StoredPosted eventId) := by
  have halong : Along (step cfg) (fun s a => ∀ c, a = .post c →
      DrawsFresh s c ∧ ¬(c.eventId = eventId ∧ LeavesUnposted cfg s c))
      (Session.start tables) actions := by
    intro pre a post s' heq hrun c hc
    refine ⟨hfresh pre a post s' heq hrun c hc, fun hown => hblame ?_⟩
    exact ⟨pre, c, post, s', hc ▸ heq, hrun, hown⟩
  have hstep : ∀ s a s', s.Both (StoredPosted eventId) →
      (∀ c, a = .post c → DrawsFresh s c ∧ ¬(c.eventId = eventId ∧ LeavesUnposted cfg s c)) →
      step cfg s a = some s' → s'.Both (StoredPosted eventId) := by
    intro s a s' hs ha hstep
    cases a with
    | post c =>
        obtain rfl := Option.some.inj hstep
        exact both_postEvent (ha c rfl).1 hs (ha c rfl).2
    | commit =>
        obtain rfl := Option.some.inj hstep
        exact hs.commit
    | rollback =>
        obtain rfl := Option.some.inj hstep
        exact hs.rollback
  exact halong.run_invariant hstep (Session.Both.start htables) h

/-- **Idempotent success, exactly.** In a run of calls, commits and rollbacks every success
means that the event is posted if and only if every retry finds its event posted.  When the
stored events are posted before the run, a retry that does not comes after a call that stored
the same event and did not succeed. -/
theorem success_posted_iff (cfg : Config) (tables : Tables) (actions : List Action)
    (hfresh : EveryCall cfg DrawsFresh tables actions) :
    (EveryCall cfg (SuccessPosted cfg) tables actions ↔
        EveryCall cfg (RetryPosted cfg) tables actions) ∧
      ((∀ eventId, StoredPosted eventId tables) →
        ∀ pre c post s, actions = pre ++ .post c :: post →
          run (step cfg) (Session.start tables) pre = some s →
            RetryPosted cfg s c ∨ Blamed cfg tables c.eventId pre) := by
  refine ⟨everyCall_congr hfresh fun _ _ => successPosted_iff_retryPosted, ?_⟩
  intro htables pre c post s heq hrun
  by_cases hblame : Blamed cfg tables c.eventId pre
  · exact Or.inr hblame
  · have hpre : EveryCall cfg DrawsFresh tables pre := Along.of_append (heq ▸ hfresh)
    exact Or.inl (retryPosted_of_both (both_of_run hpre (htables c.eventId) hblame hrun))

/-- A call and its retry. -/
def sampleRetry (hasProfile : Bool) : List Action :=
  [.post (sampleCall hasProfile 0), .post (sampleCall hasProfile 1)]

theorem drawsFresh_sampleRetry :
    EveryCall sampleConfig DrawsFresh Tables.empty (sampleRetry true) := by
  refine along_cons.mpr ⟨?_, fun s hs => along_cons.mpr ⟨?_, fun _ _ => along_nil⟩⟩
  · intro c hc
    obtain rfl := Action.post.inj hc
    exact ⟨by simp [Session.start, Tables.empty, Journal.empty],
      by simp [Session.start, Tables.empty, Journal.empty]⟩
  · intro c hc
    obtain rfl := Action.post.inj hc
    obtain rfl := Option.some.inj hs
    exact ⟨by decide +kernel, by decide +kernel⟩

theorem success_posted_sample :
    (EveryCall sampleConfig (SuccessPosted sampleConfig) Tables.empty (sampleRetry true) ↔
        EveryCall sampleConfig (RetryPosted sampleConfig) Tables.empty (sampleRetry true)) ∧
      ((∀ eventId, StoredPosted eventId Tables.empty) →
        ∀ pre c post s, sampleRetry true = pre ++ .post c :: post →
          run (step sampleConfig) (Session.start Tables.empty) pre = some s →
            RetryPosted sampleConfig s c ∨ Blamed sampleConfig Tables.empty c.eventId pre) :=
  success_posted_iff sampleConfig Tables.empty (sampleRetry true) drawsFresh_sampleRetry

/-- The event is accepted and finds no profile; its retry is told ALREADY_POSTED, and the
journal is empty. -/
theorem retry_unposted :
    let s := (postEvent sampleConfig (sampleCall false 0) (Session.start Tables.empty)).2
    (postEvent sampleConfig (sampleCall false 1) s).1.toOption.map (·.status) =
        some .alreadyPosted ∧
      (postEvent sampleConfig (sampleCall false 1) s).2.current.journal.entries = [] ∧
      ¬EveryCall sampleConfig (SuccessPosted sampleConfig) Tables.empty (sampleRetry false) := by
  intro s
  have hstatus : (postEvent sampleConfig (sampleCall false 1) s).1.toOption.map (·.status) =
      some .alreadyPosted := by decide +kernel
  have hentries : (postEvent sampleConfig (sampleCall false 1) s).2.current.journal.entries = [] := by
    decide +kernel
  refine ⟨hstatus, hentries, fun h => ?_⟩
  have hposted := h [.post (sampleCall false 0)] _ [] s rfl rfl _ rfl
  cases hok : (postEvent sampleConfig (sampleCall false 1) s).1 with
  | error e => simp [hok, Except.toOption] at hstatus
  | ok result =>
      have hsuccess : result.isSuccess := by
        simp only [hok, Except.toOption, Option.map_some, Option.some.injEq] at hstatus
        simp [ModulePostingResult.isSuccess, hstatus]
      obtain ⟨e, he, -⟩ := hposted result hok hsuccess
      rw [hentries] at he
      cases he

/-! ### An outcome for every accepted event -/

/-- The call that has the ingestor accept an event records one outcome for it when it returns. -/
def RecordedOnce (cfg : Config) (s : Session Tables) (c : Call) : Prop :=
  c.Checked → ∀ ingested s', ingest cfg c s = (.ok ingested, s') → ingested.status = .accepted →
    ∀ result, (postEvent cfg c s).1 = .ok result →
      Recorded (postEvent cfg c s).2.current c.eventId

/-- An accepted event whose call records nothing has an outcome already. -/
def UnrecordedKnown (cfg : Config) (s : Session Tables) (c : Call) : Prop :=
  c.Checked → Accepts cfg c s → Unrecorded c → Recorded s.current c.eventId

theorem recordedOnce_iff_unrecordedKnown :
    RecordedOnce cfg s c ↔ UnrecordedKnown cfg s c := by
  constructor
  · intro h hchecked haccepts hunrecorded
    obtain ⟨payloadHash, hhash, hingest⟩ := ingest_of_accepts haccepts
    obtain ⟨result, hprocess, -⟩ := process_of_unrecorded (s := c.stored payloadHash s) hunrecorded
    have hcall : doPostEvent cfg c s = (.ok result, c.stored payloadHash s) := by
      rw [doPostEvent_of_checked hchecked, hingest]
      exact hprocess
    obtain ⟨hok, hcurrent⟩ := postEvent_of_ok hcall
    have hrecorded := h hchecked _ _ hingest rfl result hok
    rw [hcurrent] at hrecorded
    exact hrecorded
  · intro h hchecked ingested s₁ hingest hstatus result hok
    rcases ingest_cases hingest with hrejected | ⟨hduplicate, -⟩ | ⟨-, haccepts⟩
    · rw [hstatus] at hrejected
      cases hrejected
    · rw [hstatus] at hduplicate
      cases hduplicate
    · obtain ⟨s', hcall, hcurrent⟩ := exists_of_postEvent_ok hok
      obtain ⟨payloadHash, -, hprocess⟩ := doPostEvent_of_accepts hchecked haccepts
      rw [hprocess] at hcall
      rw [hcurrent]
      rcases process_cases hcall with ⟨hunrecorded, -, rfl⟩ | ⟨draft, hrecorded, -⟩
      · exact h hchecked haccepts hunrecorded
      · exact hrecorded

/-- No event has two outcomes. -/
def AtMostOneOutcome (tables : Tables) : Prop :=
  ∀ eventId, (tables.outcomes.filter (·.sourceEventId = eventId)).length ≤ 1

theorem atMostOneOutcome (tables : Tables) : AtMostOneOutcome tables := by
  intro eventId
  have hsub := (tables.outcomes.filter_sublist (p := (·.sourceEventId = eventId))).map
    (·.sourceEventId)
  have hnodup := tables.outcomes_nodup.sublist hsub
  have hall : ∀ id ∈ (tables.outcomes.filter (·.sourceEventId = eventId)).map (·.sourceEventId),
      id = eventId := by
    intro id hid
    obtain ⟨o, ho, rfl⟩ := List.mem_map.mp hid
    exact of_decide_eq_true (List.mem_filter.mp ho).2
  rw [List.eq_replicate_of_mem hall, List.nodup_replicate, List.length_map] at hnodup
  exact hnodup

/-- **P15, exactly.** In a run of calls, commits and rollbacks every call that stores an
accepted event records exactly one outcome for it if and only if every such call that takes an
exit without recording finds one; and in no state does an event have two outcomes. -/
theorem recordedOnce_iff (cfg : Config) (tables : Tables) (actions : List Action) :
    (EveryCall cfg (RecordedOnce cfg) tables actions ↔
        EveryCall cfg (UnrecordedKnown cfg) tables actions) ∧
      ∀ s, run (step cfg) (Session.start tables) actions = some s → s.Both AtMostOneOutcome :=
  ⟨everyCall_congr (R := fun _ _ => True) (fun _ _ _ _ _ _ _ _ => trivial)
      fun _ _ _ => recordedOnce_iff_unrecordedKnown,
    fun s _ => ⟨atMostOneOutcome s.committed, atMostOneOutcome s.current⟩⟩

/-- The event is accepted and finds no profile: nothing is recorded for it. -/
theorem profileNotFound_unrecorded :
    (postEvent sampleConfig (sampleCall false 0) (Session.start Tables.empty)).1.toOption.map
        (·.status) = some .profileNotFound ∧
      ¬EveryCall sampleConfig (RecordedOnce sampleConfig) Tables.empty
        [.post (sampleCall false 0)] := by
  refine ⟨by decide +kernel, fun h => ?_⟩
  have hrecorded := h [] _ [] _ rfl rfl _ rfl
  obtain ⟨o, ho, -⟩ := recordedOnce_iff_unrecordedKnown.mp hrecorded
    (checked_sampleCall false 0) (accepts_sampleCall false 0) (unrecorded_sampleCall 0)
  cases ho

end FinanceAccounting.ModulePosting
