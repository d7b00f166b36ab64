import FinanceAccounting.Ingestion.JournalPromoter
import FinanceAccounting.Kernel.PostingLaws
import FinanceAccounting.Kernel.PostingSuccess
import FinanceAccounting.Library.Traversals

/-! # Importing a journal twice

A posted event leaves a row with its payload hash and an outcome with its entries (`Stands`), and
both last through any run of calls, commits and rollbacks.  A record that is promoted again comes
with the same event id, and `imported_once_iff` says when the second promotion finds the first: when
its payload has the same hash.  The payload names the batch, so two batches never have it, unless
the digest collides. -/

namespace FinanceAccounting.ModulePosting

open TransitionSystem (run run_invariant)
open UnitOfWork (Session Table Result)

/-! ### What a posted event leaves -/

/-- The event is stored under its hash, and its outcome names its entries. -/
structure Stands (eventId : UUID) (payloadHash : String) (entryIds : List UUID) (tables : Tables) :
    Prop where
  event : ∃ event, tables.events eventId = some event ∧ event.payloadHash = payloadHash
  outcome : ∃ o, tables.getOutcome eventId = some o ∧ o.journalEntryIds = some entryIds

variable {cfg : Config} {c : Call} {s s' : Session Tables} {result : ModulePostingResult}
  {eventId : UUID} {payloadHash : String} {entryIds : List UUID}

theorem getOutcome_addOutcome_self {tables : Tables} {o : InterpretationOutcome}
    (h : tables.getOutcome o.sourceEventId = none) :
    (tables.addOutcome o h).getOutcome o.sourceEventId = some o := by
  unfold Tables.getOutcome at h
  unfold Tables.getOutcome Tables.addOutcome
  rw [List.find?_append, h, Option.none_or]
  simp

theorem getOutcome_addOutcome {tables : Tables} {o o' : InterpretationOutcome}
    (h : tables.getOutcome o.sourceEventId = none) (hsome : tables.getOutcome eventId = some o') :
    (tables.addOutcome o h).getOutcome eventId = some o' := by
  unfold Tables.getOutcome at hsome
  unfold Tables.getOutcome Tables.addOutcome
  rw [List.find?_append, hsome, Option.some_or]

theorem kept_stands (eventId : UUID) (payloadHash : String) (entryIds : List UUID) :
    Kept fun s => s.Both (Stands eventId payloadHash entryIds) where
  rollback _ h := h.rollback
  save _ _ _ h := h.flush ⟨h.current.event, h.current.outcome⟩
  outcome _ _ hnone h := by
    obtain ⟨o, ho, hids⟩ := h.current.outcome
    exact h.flush ⟨h.current.event, o, getOutcome_addOutcome hnone ho, hids⟩

/-- No call takes away what a posted event has left. -/
theorem both_stands_postEvent (h : s.Both (Stands eventId payloadHash entryIds)) (c : Call) :
    (postEvent cfg c s).2.Both (Stands eventId payloadHash entryIds) := by
  have hinner : (doPostEvent cfg c s).2.Both (Stands eventId payloadHash entryIds) := by
    refine (kept_stands eventId payloadHash entryIds).doPostEvent (fun _ hstores hash => ?_) h
    obtain ⟨event, hevent, hhash⟩ := h.current.event
    have hne : eventId ≠ c.eventId := by
      rintro rfl
      rw [hstores.absent] at hevent
      cases hevent
    refine h.flush ⟨⟨event, ?_, hhash⟩, h.current.outcome⟩
    exact (Tables.events_addEvent_of_ne hne).trans hevent
  rcases hcall : doPostEvent cfg c s with ⟨e | result, s'⟩
  · rw [hcall] at hinner
    simp only [postEvent, hcall]
    split
    · exact hinner.rollback
    · exact hinner
  · rw [hcall] at hinner
    simp only [postEvent, hcall]
    split
    · exact hinner.commit
    · exact hinner

theorem both_stands_of_run {actions : List Action} (hs : s.Both (Stands eventId payloadHash entryIds))
    (h : run (step cfg) s actions = some s') : s'.Both (Stands eventId payloadHash entryIds) := by
  refine run_invariant (fun s a s' hs hstep => ?_) hs h
  cases a with
  | post c =>
      obtain rfl := Option.some.inj hstep
      exact both_stands_postEvent hs c
  | commit =>
      obtain rfl := Option.some.inj hstep
      exact hs.commit
  | rollback =>
      obtain rfl := Option.some.inj hstep
      exact hs.rollback

/-- **A posted event stands.** -/
theorem stands_of_posted (hfresh : DrawsFresh s c)
    (h : (postEvent cfg c s).1 = .ok result) (hposted : result.status = .posted) :
    ∃ payloadHash, c.request.event.hash cfg.sha256 = .ok payloadHash ∧
      c.request.event.validate cfg.isCurrency = [] ∧ result.journalEntryIds ≠ [] ∧
      Stands c.eventId payloadHash result.journalEntryIds (postEvent cfg c s).2.current := by
  obtain ⟨s', hcall, hcurrent⟩ := exists_of_postEvent_ok h
  have hsuccess : result.isSuccess = true := by
    simp [ModulePostingResult.isSuccess, hposted]
  obtain ⟨-, ⟨halready, -⟩ | ⟨haccepts, payloadHash, hhash, hprocess⟩⟩ :=
    doPostEvent_successes hcall hsuccess
  · rw [hposted] at halready
    cases halready
  · obtain ⟨profile, draft, eventType, written, s₁, -, -, hwrite, hwritten, -, ⟨hnone, rfl⟩, -, hne,
      hids⟩ := process_success hprocess hsuccess
    have hseen : JournalWriter.FreshKeys (c.toIntent draft)
        ((c.stored payloadHash s).seen journalTable) := freshKeys_of_prefix rfl hfresh.current
    have hstored : JournalWriter.FreshKeys (c.toIntent draft)
        ((c.stored payloadHash s).stored journalTable) := freshKeys_of_prefix rfl hfresh.committed
    obtain ⟨-, -, j, -, -, -, -, rfl, -⟩ := JournalWriter.write_success
      (fun _ => ⟨rfl, rfl, rfl⟩) hseen hstored (writeJournal_eq_ok.mp hwrite) hwritten
    refine ⟨payloadHash, hhash, haccepts.valid, hne, ?_⟩
    rw [hcurrent]
    refine ⟨⟨c.event payloadHash, ?_, rfl⟩, _, getOutcome_addOutcome_self hnone, ?_⟩
    · exact Function.update_self _ _ _
    · rw [hids]
      rfl

/-- **A call for an event that stands** is a duplicate exactly when its payload has the hash. -/
theorem success_iff_of_stands (h : Stands c.eventId payloadHash entryIds s.current)
    (hvalid : c.request.event.validate cfg.isCurrency = []) :
    (∃ result, (postEvent cfg c s).1 = .ok result ∧ result.isSuccess = true) ↔
      c.Checked ∧ c.request.event.hash cfg.sha256 = .ok payloadHash := by
  obtain ⟨event, hevent, hhash⟩ := h.event
  constructor
  · rintro ⟨result, hok, hsuccess⟩
    obtain ⟨s', hcall, -⟩ := exists_of_postEvent_ok hok
    obtain ⟨hchecked, ⟨-, hfinds⟩ | ⟨haccepts, -⟩⟩ := doPostEvent_successes hcall hsuccess
    · refine ⟨hchecked, ?_⟩
      generalize s'.current = tables at hfinds
      cases hfinds with
      | existing _ hhashed hfound hsame =>
          obtain rfl := Option.some.inj (hevent.symm.trans hfound)
          rw [hhashed, ← hsame, hhash]
      | concurrent _ _ habsent =>
          rw [hevent] at habsent
          cases habsent
    · rw [haccepts.absent] at hevent
      cases hevent
  · rintro ⟨hchecked, hhashed⟩
    have hfinds : Finds cfg c s s.current := .existing hvalid hhashed hevent hhash
    obtain ⟨result, s', hcall, hstatus, -⟩ := doPostEvent_of_finds hchecked hfinds
    refine ⟨result, (postEvent_of_ok hcall).1, ?_⟩
    simp [ModulePostingResult.isSuccess, hstatus]

/-- Such a duplicate changes nothing. -/
theorem duplicate_of_stands (h : Stands c.eventId payloadHash entryIds s.current)
    (hok : (postEvent cfg c s).1 = .ok result) (hsuccess : result.isSuccess = true) :
    result.status = .alreadyPosted ∧ (postEvent cfg c s).2.current = s.current := by
  obtain ⟨event, hevent, -⟩ := h.event
  obtain ⟨s', hcall, hcurrent⟩ := exists_of_postEvent_ok hok
  obtain ⟨hchecked, ⟨hstatus, hfinds⟩ | ⟨haccepts, -⟩⟩ := doPostEvent_successes hcall hsuccess
  · refine ⟨hstatus, hcurrent.trans ?_⟩
    have htables : ∀ tables, Finds cfg c s tables → tables = s.current := by
      intro tables hfinds
      cases hfinds with
      | existing => rfl
      | concurrent _ _ habsent =>
          rw [hevent] at habsent
          cases habsent
    exact htables _ hfinds
  · rw [haccepts.absent] at hevent
    cases hevent

end FinanceAccounting.ModulePosting

namespace FinanceAccounting.JournalImport

open TransitionSystem (run)
open UnitOfWork (Session Result)
open Hashing (PyVal toJson hashPayload canonicalizeJson)
open Ingestion (PromoteResult)
open Ingestor (validateCurrenciesInPayload validateCurrencyItem currencyKeys)
open ModulePosting (Call ModulePostingResult Tables DrawsFresh Stands lookup postEvent step)

/-! ### Attempts -/

/-- One promotion of a record, in one batch. -/
structure Attempt where
  service : PostingService
  accountKeyToRole : String → Option String
  batchId : UUID
  actorId : UUID
  now : Datetime

section Attempts

variable (lib : Library) (mapped : List (String × PyVal)) (sourceRow : ℤ)

def Attempt.promote (a : Attempt) (s : Session Tables) : Result ImportError Tables PromoteResult :=
  JournalImport.promote lib mapped a.actorId a.now
    { modulePostingService := some a.service
      accountKeyToRole := some a.accountKeyToRole
      batchId := some a.batchId
      sourceRow := some sourceRow } s

/-- The record has the shape of an event. -/
structure Shaped (shape : Shape) : Prop where
  date : parseDate lib (lookup mapped "date") = some shape.effective
  lines : lookup mapped "lines" = .list shape.lines
  nonempty : shape.lines ≠ []
  metadata : ownMetadata lib mapped = .ok shape.metadata

def Attempt.request (a : Attempt) (shape : Shape) : ModulePosting.PostRequest :=
  shape.request lib mapped a.actorId a.now a.accountKeyToRole (some a.batchId) (some sourceRow)

/-- The call of the posting pipeline. -/
def Attempt.call (a : Attempt) (shape : Shape) : Call :=
  a.service.call (a.request lib mapped sourceRow shape)

/-- The hash of the payload. -/
def Attempt.hash (a : Attempt) (shape : Shape) : Except Hashing.PyError String :=
  hashPayload lib.config.sha256
    (.dict (payload lib shape.effective mapped (withBatch shape.metadata (some a.batchId))
      shape.lines))

end Attempts

variable {lib : Library} {mapped : List (String × PyVal)} {sourceRow : ℤ} {shape : Shape}
  {s : Session Tables}

theorem promote_of_shaped (h : Shaped lib mapped shape) (a : Attempt) :
    a.promote lib mapped sourceRow s =
      post lib a.service (a.request lib mapped sourceRow shape) s := by
  obtain ⟨line, lines, hlines⟩ := List.exists_cons_of_ne_nil h.nonempty
  have hlookup : lookup mapped "lines" = .list (line :: lines) := hlines ▸ h.lines
  obtain ⟨effective, ls, metadata⟩ := shape
  obtain rfl : ls = line :: lines := hlines
  unfold Attempt.promote JournalImport.promote
  simp only [h.date, hlookup, h.metadata]
  rfl

variable (lib mapped sourceRow shape) in
/-- The id of the event does not depend on the attempt. -/
theorem eventId_call (a b : Attempt) :
    (a.call lib mapped sourceRow shape).eventId = (b.call lib mapped sourceRow shape).eventId := by
  unfold Call.eventId Attempt.call
  rw [a.service.request_call, b.service.request_call]
  rfl

theorem hash_call (a : Attempt) :
    (a.call lib mapped sourceRow shape).request.event.hash lib.config.sha256 =
      a.hash lib mapped shape := by
  unfold Attempt.call
  rw [a.service.request_call]
  rfl

/-! ### The batch in the payload -/

section Batch

variable {isCurrency : String → Bool}

/-- A text under a key that is none of the currency keys is not looked at. -/
theorem validate_text {key : String} (hkey : key.toLower ∉ currencyKeys) (path t : String) :
    validateCurrencyItem isCurrency path (key.toLower ∈ currencyKeys) (.scalar (.str t)) = [] := by
  rw [decide_eq_false hkey]
  rfl

theorem validate_setItem {key : String} (hkey : key.toLower ∉ currencyKeys) (path t u : String)
    (ms : List (String × PyVal)) :
    validateCurrenciesInPayload isCurrency path (setItem ms key (.scalar (.str t))) =
      validateCurrenciesInPayload isCurrency path (setItem ms key (.scalar (.str u))) := by
  unfold setItem
  split
  · rename_i h
    clear h
    induction ms with
    | nil => rfl
    | cons m ms ih =>
        obtain ⟨k, v⟩ := m
        by_cases hk : k = key
        · simp only [List.map_cons, if_pos hk, validateCurrenciesInPayload]
          rw [hk, validate_text hkey, validate_text hkey, ih]
        · simp only [List.map_cons, if_neg hk, validateCurrenciesInPayload]
          rw [ih]
  · rename_i h
    clear h
    induction ms with
    | nil =>
        simp only [List.nil_append, validateCurrenciesInPayload]
        rw [validate_text hkey, validate_text hkey]
    | cons m ms ih =>
        obtain ⟨k, v⟩ := m
        simp only [List.cons_append, validateCurrenciesInPayload]
        rw [ih]

theorem notCurrencyKey : "migration_batch_id".toLower ∉ currencyKeys := by decide +kernel

variable (lib mapped sourceRow shape isCurrency) in
/-- **The batch does not matter to validation.** -/
theorem validate_call (a b : Attempt) :
    (a.call lib mapped sourceRow shape).request.event.validate isCurrency =
      (b.call lib mapped sourceRow shape).request.event.validate isCurrency := by
  unfold Attempt.call
  rw [a.service.request_call, b.service.request_call]
  have hmetadata : ∀ path,
      validateCurrenciesInPayload isCurrency path (withBatch shape.metadata (some a.batchId)) =
        validateCurrenciesInPayload isCurrency path (withBatch shape.metadata (some b.batchId)) :=
    fun path => validate_setItem notCurrencyKey path _ _ _
  unfold Ingestor.Request.validate Ingestor.validateEvent
  simp only [Attempt.request, Shape.request, payload, validateCurrenciesInPayload,
    validateCurrencyItem, hmetadata]

end Batch

theorem mem_setItem_self (ms : List (String × PyVal)) (key : String) (v : PyVal) :
    (key, v) ∈ setItem ms key v := by
  unfold setItem
  split
  · rename_i h
    obtain ⟨⟨k, w⟩, hmem, hk⟩ := List.lookup_isSome_iff.mp h
    obtain rfl : key = k := eq_of_beq hk
    refine List.mem_map.mpr ⟨(key, w), hmem, ?_⟩
    exact if_pos rfl
  · exact List.mem_append_right _ (List.mem_singleton_self _)

theorem eq_of_mem_setItem {ms : List (String × PyVal)} {key : String} {v w : PyVal}
    (h : (key, w) ∈ setItem ms key v) : w = v := by
  unfold setItem at h
  split at h
  · obtain ⟨⟨k, u⟩, -, heq⟩ := List.mem_map.mp h
    dsimp only at heq
    split at heq
    · exact (Prod.mk.inj heq).2.symm
    · rename_i hk
      exact absurd (Prod.mk.inj heq).1 hk
  · rename_i hnone
    rcases List.mem_append.mp h with hmem | hmem
    · refine absurd (List.lookup_isSome_iff.mpr ⟨(key, w), hmem, ?_⟩) hnone
      exact beq_self_eq_true key
    · exact (Prod.mk.inj (List.mem_singleton.mp hmem)).2

/-- Metadata of two batches have two encodings. -/
theorem batch_eq_of_toJson {metadata : List (String × PyVal)} {b c : UUID} {j : Json}
    (hb : toJson (.dict (withBatch metadata (some b))) = .ok j)
    (hc : toJson (.dict (withBatch metadata (some c))) = .ok j) : b = c := by
  obtain ⟨js, rfl, -, hperm⟩ := Hashing.perm_of_toJson hb
  obtain ⟨ks, hks, -, hperm'⟩ := Hashing.perm_of_toJson hc
  obtain rfl := Json.obj.inj hks
  have hmem : ("migration_batch_id", Json.str b.str) ∈ js :=
    (Hashing.mem_of_perm hperm _ _).mpr ⟨_, mem_setItem_self _ _ _, rfl⟩
  obtain ⟨v, hv, hjson⟩ := (Hashing.mem_of_perm hperm' _ _).mp hmem
  obtain rfl := eq_of_mem_setItem hv
  exact UUID.str_injective (Json.str.inj (Except.ok.inj hjson)).symm

theorem mem_payload_metadata {effective : Date} {metadata : List (String × PyVal)}
    {lines : List PyVal} {v : PyVal} :
    ("metadata", v) ∈ payload lib effective mapped metadata lines ↔ v = .dict metadata := by
  simp [payload]

/-- **Payloads of two batches have two encodings.** -/
theorem batch_eq_of_canonicalizeJson {effective : Date} {metadata : List (String × PyVal)}
    {lines : List PyVal} {b c : UUID} {text : String}
    (hb : canonicalizeJson
      (.dict (payload lib effective mapped (withBatch metadata (some b)) lines)) = .ok text)
    (hc : canonicalizeJson
      (.dict (payload lib effective mapped (withBatch metadata (some c)) lines)) = .ok text) :
    b = c := by
  unfold canonicalizeJson at hb hc
  obtain ⟨j, hj⟩ := Hashing.isOk_map.mp ⟨text, hb⟩
  obtain ⟨k, hk⟩ := Hashing.isOk_map.mp ⟨text, hc⟩
  rw [hj] at hb
  rw [hk] at hc
  obtain rfl : j = k := Json.render_injective (String.ofList_injective
    ((Except.ok.inj hb).trans (Except.ok.inj hc).symm))
  obtain ⟨js, rfl, -, hperm⟩ := Hashing.perm_of_toJson hj
  obtain ⟨ks, hks, -, hperm'⟩ := Hashing.perm_of_toJson hk
  obtain rfl := Json.obj.inj hks
  obtain ⟨m, hm⟩ := Hashing.value_of_perm hperm (mem_payload_metadata.mpr rfl)
  have hmem : ("metadata", m) ∈ js :=
    (Hashing.mem_of_perm hperm _ _).mpr ⟨_, mem_payload_metadata.mpr rfl, hm⟩
  obtain ⟨v, hv, hvm⟩ := (Hashing.mem_of_perm hperm' _ _).mp hmem
  obtain rfl := mem_payload_metadata.mp hv
  exact batch_eq_of_toJson hm hvm

/-- Two batches have one hash only where the digest collides. -/
theorem collision_of_hash {first second : Attempt} {payloadHash : String}
    (hfirst : first.hash lib mapped shape = .ok payloadHash)
    (hsecond : second.hash lib mapped shape = .ok payloadHash)
    (hne : first.batchId ≠ second.batchId) :
    ∃ t u, t ≠ u ∧ lib.config.sha256 t = lib.config.sha256 u := by
  unfold Attempt.hash hashPayload at hfirst hsecond
  obtain ⟨t, ht⟩ := Hashing.isOk_map.mp ⟨payloadHash, hfirst⟩
  obtain ⟨u, hu⟩ := Hashing.isOk_map.mp ⟨payloadHash, hsecond⟩
  rw [ht] at hfirst
  rw [hu] at hsecond
  refine ⟨t, u, ?_, (Except.ok.inj hfirst).trans (Except.ok.inj hsecond).symm⟩
  rintro rfl
  exact hne (batch_eq_of_canonicalizeJson ht hu)

/-! ### Importing twice -/

/-- The second promotion posts nothing and reports the entry of the first. -/
def ImportedOnce (lib : Library) (mapped : List (String × PyVal)) (sourceRow : ℤ) (second : Attempt)
    (s : Session Tables) (first : ModulePostingResult) : Prop :=
  ∃ entryId, first.journalEntryIds.head? = some entryId ∧
    (second.promote lib mapped sourceRow s).1 =
      .ok { success := true, entityId := some entryId } ∧
    (second.promote lib mapped sourceRow s).2.current.journal = s.current.journal

theorem session_promote (h : Shaped lib mapped shape) (a : Attempt) :
    (a.promote lib mapped sourceRow s).2 =
      (postEvent lib.config (a.call lib mapped sourceRow shape) s).2 := by
  rw [promote_of_shaped h]
  unfold post Attempt.call
  rcases postEvent lib.config (a.service.call (a.request lib mapped sourceRow shape)) s with
    ⟨e | result, s'⟩ <;> rfl

theorem promote_eq_ok {r : PromoteResult} (h : Shaped lib mapped shape) (a : Attempt) :
    (a.promote lib mapped sourceRow s).1 = .ok r ↔
      ∃ result, (postEvent lib.config (a.call lib mapped sourceRow shape) s).1 = .ok result ∧
        r = settle (a.call lib mapped sourceRow shape).eventId result
          (postEvent lib.config (a.call lib mapped sourceRow shape) s).2.current := by
  rw [promote_of_shaped h]
  have hid : (a.call lib mapped sourceRow shape).eventId =
      (a.request lib mapped sourceRow shape).event.eventId := by
    unfold Call.eventId Attempt.call
    rw [a.service.request_call]
  rw [hid]
  unfold post Attempt.call
  rcases postEvent lib.config (a.service.call (a.request lib mapped sourceRow shape)) s with
    ⟨e | result, s'⟩
  · simp
  · simp [eq_comm]

theorem success_settle {eventId : UUID} {result : ModulePostingResult} {tables : Tables}
    (h : (settle eventId result tables).success = true) : result.isSuccess = true := by
  unfold settle at h
  unfold ModulePostingResult.isSuccess
  split at h
  · rename_i halready
    simp [halready]
  · split at h
    · cases h
    · rename_i hposted
      simp [not_not.mp hposted]

/-- **The second promotion of a record whose event stands.** -/
theorem importedOnce_of_stands {second : Attempt} {first : ModulePostingResult}
    {payloadHash : String} (hshape : Shaped lib mapped shape) (hne : first.journalEntryIds ≠ [])
    (hvalid : (second.call lib mapped sourceRow shape).request.event.validate
      lib.config.isCurrency = [])
    (hstands : Stands (second.call lib mapped sourceRow shape).eventId payloadHash
      first.journalEntryIds s.current) :
    ImportedOnce lib mapped sourceRow second s first ↔
      (second.call lib mapped sourceRow shape).Checked ∧
        second.hash lib mapped shape = .ok payloadHash := by
  have hhash : (second.call lib mapped sourceRow shape).request.event.hash lib.config.sha256 =
      second.hash lib mapped shape := hash_call second
  rw [← hhash,
    ← ModulePosting.success_iff_of_stands hstands hvalid]
  unfold ImportedOnce
  rw [session_promote hshape]
  constructor
  · rintro ⟨entryId, -, hok, -⟩
    obtain ⟨result, hresult, hsettle⟩ := (promote_eq_ok hshape second).mp hok
    have hsuccess : (settle (second.call lib mapped sourceRow shape).eventId result
        (postEvent lib.config (second.call lib mapped sourceRow shape) s).2.current).success =
          true := by
      rw [← hsettle]
    exact ⟨result, hresult, success_settle hsuccess⟩
  · rintro ⟨result, hresult, hsuccess⟩
    obtain ⟨hstatus, hcurrent⟩ := ModulePosting.duplicate_of_stands hstands hresult hsuccess
    obtain ⟨o, ho, hids⟩ := hstands.outcome
    obtain ⟨entryId, rest, hentries⟩ := List.exists_cons_of_ne_nil hne
    have hhead : first.journalEntryIds.head? = some entryId := by rw [hentries, List.head?_cons]
    refine ⟨entryId, hhead, (promote_eq_ok hshape second).mpr ⟨result, hresult, ?_⟩, ?_⟩
    · rw [hcurrent, settle, if_pos hstatus, ho, Option.bind_some, hids, Option.getD_some, hhead]
    · rw [hcurrent]

/-- **A record imported twice**, once it has been posted: the second promotion reports the entry of
the first if and only if its actor and its period admit it and its payload has the same hash.  In
another batch it has another one, unless the digest collides. -/
theorem imported_once_iff (lib : Library) (mapped : List (String × PyVal)) (sourceRow : ℤ)
    (shape : Shape) (hshape : Shaped lib mapped shape) (first second : Attempt)
    (s s' : Session Tables) (result : ModulePostingResult) (actions : List ModulePosting.Action)
    (hfresh : DrawsFresh s (first.call lib mapped sourceRow shape))
    (hposts : (postEvent lib.config (first.call lib mapped sourceRow shape) s).1 = .ok result)
    (hposted : result.status = .posted)
    (hrun : run (step lib.config) (first.promote lib mapped sourceRow s).2.commit actions =
      some s') :
    (ImportedOnce lib mapped sourceRow second s' result ↔
        (second.call lib mapped sourceRow shape).Checked ∧
          second.hash lib mapped shape = first.hash lib mapped shape) ∧
      (second.hash lib mapped shape = first.hash lib mapped shape →
        first.batchId ≠ second.batchId →
          ∃ t u, t ≠ u ∧ lib.config.sha256 t = lib.config.sha256 u) := by
  obtain ⟨payloadHash, hhash, hvalid, hne, hstands⟩ :=
    ModulePosting.stands_of_posted hfresh hposts hposted
  rw [hash_call] at hhash
  rw [session_promote hshape] at hrun
  have hcommit : (postEvent lib.config (first.call lib mapped sourceRow shape) s).2.commit.Both
      (Stands (first.call lib mapped sourceRow shape).eventId payloadHash
        result.journalEntryIds) := ⟨hstands, hstands⟩
  have hafter := (ModulePosting.both_stands_of_run hcommit hrun).current
  rw [eventId_call lib mapped sourceRow shape first second] at hafter
  rw [validate_call lib mapped sourceRow shape lib.config.isCurrency first second] at hvalid
  rw [hhash]
  exact ⟨importedOnce_of_stands hshape hne hvalid hafter,
    fun hsecond => collision_of_hash hhash hsecond⟩

/-! ### A record in two batches -/

def sampleLine (account side : String) : PyVal :=
  .dict [("account", .scalar (.str account)), (side, .scalar (.str "100.00"))]

/-- Two lines, and nothing but a date. -/
def sampleRecord : List (String × PyVal) :=
  [("date", .scalar (.str "2025-01-31")),
    ("lines", .list [sampleLine "Expense" "debit", sampleLine "Payable" "credit"])]

/-- The canonical payload of the record in a batch. -/
def sampleText (batchId : UUID) : String :=
  "\x7b\"currency\":\"USD\",\"date\":\"2025-01-31\",\"lines\":[" ++
    "\x7b\"account\":\"Expense\",\"credit\":null,\"debit\":\"100.00\",\"memo\":null\x7d," ++
    "\x7b\"account\":\"Payable\",\"credit\":\"100.00\",\"debit\":null,\"memo\":null\x7d]," ++
    "\"metadata\":\x7b\"migration_batch_id\":\"" ++ batchId.str ++
    "\"\x7d,\"name\":null,\"num\":null,\"transaction_type\":null\x7d"

def sampleTable : List (String × String) :=
  [("2025-01-31\n\n\nrow:1\nExpense||100.00|0|Payable||0|100.00",
      "52cb84b2bd6d6276d0d8c1aa7846bf207d95030f26cbe3d974e7b1b7ecfb5e01"),
    (sampleText ⟨1⟩, "1213912d957ba361f6edcfed7cc56d97e283a54096c45b3a50c443fb06522d05"),
    (sampleText ⟨2⟩, "c35476b73d8a830bdd3bad8809b0050c045c0ee64310178e81e83204a722d504")]

def sampleLibrary : Library where
  config := { sha256 := Digest.tableDigest sampleTable, isCurrency := fun s => s = "USD" }
  str _ := ""
  dateFromisoformat s := if s = "2025-01-31" then some sampleTime.date else none
  dict _ := .error ""
  uuid5 _ := ⟨0x867c74d2bbea5ebea6b0162d63c7ed19⟩

def sampleShape : Shape where
  effective := sampleTime.date
  lines := [sampleLine "Expense" "debit", sampleLine "Payable" "credit"]
  metadata := []

/-- The posting service, with everything that the pipeline needs. -/
def sampleService : PostingService where
  call request :=
    { ModulePosting.sampleCall true 0 with
      request := request
      pipeline :=
        { ModulePosting.samplePipeline true with partyService := some fun _ => some ⟨true, .system⟩ } }
  request_call _ := rfl

def sampleAttempt (batchId : UUID) : Attempt where
  service := sampleService
  accountKeyToRole account := some account
  batchId := batchId
  actorId := ⟨0xac⟩
  now := sampleTime

theorem shaped_sampleRecord : Shaped sampleLibrary sampleRecord sampleShape where
  date := by decide +kernel
  lines := rfl
  nonempty := by simp [sampleShape]
  metadata := rfl

theorem posted_sampleAttempt :
    (postEvent sampleLibrary.config ((sampleAttempt ⟨1⟩).call sampleLibrary sampleRecord 1 sampleShape)
      (Session.start Tables.empty)).1.toOption.map (·.status) = some .posted := by
  decide +kernel

theorem exists_posted_sampleAttempt :
    ∃ result, (postEvent sampleLibrary.config ((sampleAttempt ⟨1⟩).call sampleLibrary sampleRecord 1
      sampleShape) (Session.start Tables.empty)).1 = .ok result ∧ result.status = .posted :=
  Traversals.exists_of_map_toOption posted_sampleAttempt

/-- The session after the record has been imported in the first batch. -/
def sampleImported : Session Tables :=
  ((sampleAttempt ⟨1⟩).promote sampleLibrary sampleRecord 1 (Session.start Tables.empty)).2.commit

theorem imported_once_sample :
    ∃ result,
      (ImportedOnce sampleLibrary sampleRecord 1 (sampleAttempt ⟨2⟩) sampleImported result ↔
          ((sampleAttempt ⟨2⟩).call sampleLibrary sampleRecord 1 sampleShape).Checked ∧
            (sampleAttempt ⟨2⟩).hash sampleLibrary sampleRecord sampleShape =
              (sampleAttempt ⟨1⟩).hash sampleLibrary sampleRecord sampleShape) ∧
        ((sampleAttempt ⟨2⟩).hash sampleLibrary sampleRecord sampleShape =
            (sampleAttempt ⟨1⟩).hash sampleLibrary sampleRecord sampleShape →
          (sampleAttempt ⟨1⟩).batchId ≠ (sampleAttempt ⟨2⟩).batchId →
            ∃ t u, t ≠ u ∧ sampleLibrary.config.sha256 t = sampleLibrary.config.sha256 u) := by
  obtain ⟨result, hok, hposted⟩ := exists_posted_sampleAttempt
  refine ⟨result, imported_once_iff sampleLibrary sampleRecord 1 sampleShape shaped_sampleRecord
    (sampleAttempt ⟨1⟩) (sampleAttempt ⟨2⟩) (Session.start Tables.empty) sampleImported result []
    ?_ hok hposted rfl⟩
  constructor
  · intro e he
    cases he
  · intro e he
    cases he

/-- The record is posted in one batch; in the next one its promotion fails. -/
theorem second_import_fails :
    ∃ result,
      (postEvent sampleLibrary.config ((sampleAttempt ⟨1⟩).call sampleLibrary sampleRecord 1
        sampleShape) (Session.start Tables.empty)).1 = .ok result ∧ result.status = .posted ∧
      ((sampleAttempt ⟨2⟩).promote sampleLibrary sampleRecord 1 sampleImported).1.toOption.map
          (·.error) = some (some "Payload hash mismatch - events are immutable") ∧
        ¬ImportedOnce sampleLibrary sampleRecord 1 (sampleAttempt ⟨2⟩) sampleImported result := by
  obtain ⟨result, hok, hposted⟩ := exists_posted_sampleAttempt
  have herror : ((sampleAttempt ⟨2⟩).promote sampleLibrary sampleRecord 1
      sampleImported).1.toOption.map (·.error) =
        some (some "Payload hash mismatch - events are immutable") := by
    decide +kernel
  refine ⟨result, hok, hposted, herror, ?_⟩
  rintro ⟨entryId, -, hsecond, -⟩
  rw [hsecond] at herror
  cases herror

end FinanceAccounting.JournalImport
