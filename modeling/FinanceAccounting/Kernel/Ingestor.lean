import FinanceAccounting.Library.TransitionSystem
import FinanceAccounting.Kernel.Hashing

/-! # Event ingestion

`IngestorService.ingest` at the grain of its database statements, run by any set of concurrent
transactions at isolation level READ COMMITTED.  A call validates the event, computes the
payload hash and selects the stored event; without one it flushes a new row.  A payload that the
JSON column does not take, such as one with a Decimal, raises `StatementError` before the row is sent.
The unique index on `event_id` makes the flush of any other wait while another open transaction has
inserted the id, and raises `IntegrityError` once the id is committed; the handler rolls the whole
session back, selects again and answers DUPLICATE when it finds the event.

The two duplicate paths differ: the first compares payload hashes, the handler does not.
`results_sound_iff` says that in any run every answer obeys the payload-hash protocol exactly
when every handler that finds an event finds one with its own hash.  Stored events never
change (`run_effect`). -/

namespace FinanceAccounting.Ingestor

open TransitionSystem (run run_invariant)
open Hashing (PyVal PyError hashPayload)

/-! ### Boundary validation -/

structure ValidationError where
  code : String
  message : String
  field : Option String := none
  /-- The `supported` entry of the details. -/
  supported : Option (List ℤ) := none
deriving DecidableEq, Repr

def supportedSchemaVersions : List ℤ := [1]

def validateSchemaVersion (schemaVersion : ℤ) : List ValidationError :=
  if schemaVersion ∈ supportedSchemaVersions then []
  else
    [{ code := "UNSUPPORTED_SCHEMA"
       message := "Schema version " ++ toString schemaVersion ++ " not supported"
       supported := some supportedSchemaVersions }]

def validateEventType (eventType : String) : List ValidationError :=
  if eventType = "" then
    [{ code := "INVALID_EVENT_TYPE"
       message := "Event type is required"
       field := some "event_type" }]
  else if '.' ∉ eventType.toList then
    [{ code := "INVALID_EVENT_TYPE"
       message := "Event type must be namespaced (e.g., 'module.action')"
       field := some "event_type" }]
  else []

def currencyKeys : List String := ["currency", "from_currency", "to_currency", "currency_code"]

mutual

/-- Currency codes in a payload, under the field path `path`. -/
def validateCurrenciesInPayload (isCurrency : String → Bool) (path : String) :
    List (String × PyVal) → List ValidationError
  | [] => []
  | (key, value) :: items =>
      validateCurrencyItem isCurrency (if path = "" then key else path ++ "." ++ key)
          (key.toLower ∈ currencyKeys) value ++
        validateCurrenciesInPayload isCurrency path items

def validateCurrencyItem (isCurrency : String → Bool) (path : String) (isKey : Bool) :
    PyVal → List ValidationError
  | .scalar (.str s) =>
      if isKey && !isCurrency s then
        [{ code := "INVALID_CURRENCY"
           message := "Invalid ISO 4217 currency code: " ++ s
           field := some path }]
      else []
  | .dict items => validateCurrenciesInPayload isCurrency path items
  | .list xs => validateCurrencyList isCurrency path 0 xs
  | _ => []

/-- Only the dictionaries of a list are searched. -/
def validateCurrencyList (isCurrency : String → Bool) (path : String) (i : ℕ) :
    List PyVal → List ValidationError
  | [] => []
  | .dict items :: xs =>
      validateCurrenciesInPayload isCurrency (path ++ "[" ++ toString i ++ "]") items ++
        validateCurrencyList isCurrency path (i + 1) xs
  | _ :: xs => validateCurrencyList isCurrency path (i + 1) xs

end

def validateEvent (isCurrency : String → Bool) (eventType : String)
    (payload : List (String × PyVal)) (schemaVersion : ℤ) : List ValidationError :=
  validateSchemaVersion schemaVersion ++ validateEventType eventType ++
    validateCurrenciesInPayload isCurrency "" payload

/-! ### Calls and answers -/

/-- A row of `events`. -/
structure Event where
  eventId : UUID
  eventType : String
  occurredAt : Datetime
  effectiveDate : Date
  actorId : UUID
  producer : String
  payload : List (String × PyVal)
  payloadHash : String
  schemaVersion : ℤ
  ingestedAt : Datetime

/-- The arguments of `ingest`. -/
structure Request where
  eventId : UUID
  eventType : String
  occurredAt : Datetime
  effectiveDate : Date
  actorId : UUID
  producer : String
  payload : List (String × PyVal)
  schemaVersion : ℤ := 1

/-- The hash of the payload of a call.  A payload beyond the limits of the interpreter raises here, as if
there were no call. -/
def Request.hash (sha256 : String → String) (r : Request) : Except PyError String :=
  hashPayload sha256 (.dict r.payload)

def Request.validate (isCurrency : String → Bool) (r : Request) : List ValidationError :=
  validateEvent isCurrency r.eventType r.payload r.schemaVersion

mutual

/-- `json.dumps` without a serializer writes the value. -/
def plainJson : PyVal → Bool
  | .none | .bool _ | .int _ | .scalar (.str _) => true
  | .scalar _ | .object _ => false
  | .list xs => plainItems xs
  | .dict ms => plainMembers ms

def plainItems : List PyVal → Bool
  | [] => true
  | x :: xs => plainJson x && plainItems xs

def plainMembers : List (String × PyVal) → Bool
  | [] => true
  | (_, v) :: ms => plainJson v && plainMembers ms

end

/-- The JSON column takes the payload. -/
def Request.storable (r : Request) : Bool := plainJson (.dict r.payload)

/-- The row a call inserts. -/
def Request.toEvent (r : Request) (payloadHash : String) (ingestedAt : Datetime) : Event where
  eventId := r.eventId
  eventType := r.eventType
  occurredAt := r.occurredAt
  effectiveDate := r.effectiveDate
  actorId := r.actorId
  producer := r.producer
  payload := r.payload
  payloadHash := payloadHash
  schemaVersion := r.schemaVersion
  ingestedAt := ingestedAt

inductive IngestStatus where
  | accepted
  | duplicate
  | rejected
deriving DecidableEq, Repr

structure IngestResult where
  status : IngestStatus
  eventId : UUID
  eventEnvelope : Option Event := none
  validation : Option (List ValidationError) := none
  message : String

def IngestResult.isSuccess (r : IngestResult) : Bool :=
  r.status = .accepted || r.status = .duplicate

def validationFailed (r : Request) (errors : List ValidationError) : IngestResult where
  status := .rejected
  eventId := r.eventId
  validation := some errors
  message := "Validation failed"

/-- The answer when the first select finds an event: its hash is compared. -/
def existingResult (r : Request) (payloadHash : String) (existing : Event) : IngestResult :=
  if existing.payloadHash ≠ payloadHash then
    { status := .rejected
      eventId := r.eventId
      message := "Payload hash mismatch - events are immutable" }
  else
    { status := .duplicate
      eventId := r.eventId
      eventEnvelope := some existing
      message := "Event already ingested" }

/-- The answer of the handler of a refused insert: no hash is compared. -/
def conflictResult (r : Request) : Option Event → IngestResult
  | some existing =>
      { status := .duplicate
        eventId := r.eventId
        eventEnvelope := some existing
        message := "Event already ingested (concurrent)" }
  | none =>
      { status := .rejected
        eventId := r.eventId
        message := "Concurrent insert conflict — event not found after retry" }

def acceptedResult (r : Request) (event : Event) : IngestResult where
  status := .accepted
  eventId := r.eventId
  eventEnvelope := some event
  message := "Event ingested successfully"

/-! ### Concurrent calls -/

/-- Where a transaction stands in `ingest`; `payloadHash` is the hash of its own payload. -/
inductive Pc where
  | ready
  | checking (request : Request) (payloadHash : String)
  | inserting (request : Request) (payloadHash : String)
  | rechecking (request : Request) (payloadHash : String)

/-- An answer, with the stored event the transaction saw when it was given. -/
structure Report (Tx : Type) where
  caller : Tx
  request : Request
  result : IngestResult
  stored : Option Event

/-- The `events` table, indexed by `event_id`, with the transactions running on it. -/
structure State (Tx : Type) where
  committed : UUID → Option Event
  /-- Rows a transaction has flushed and not committed. -/
  added : Tx → UUID → Option Event
  /-- The open transaction that has inserted an id. -/
  holder : UUID → Option Tx
  pc : Tx → Pc
  /-- Answers in the order in which they were given. -/
  reports : List (Report Tx)

/-- Statements of a transaction, and its end; `refuse` is an insert that raises
`IntegrityError` for a reason other than the id. -/
inductive Action (Tx : Type) where
  | call (t : Tx) (request : Request)
  | select (t : Tx)
  | insert (t : Tx) (now : Datetime)
  | refuse (t : Tx)
  | reselect (t : Tx)
  | commit (t : Tx)
  | rollback (t : Tx)

namespace State

variable {Tx : Type} [DecidableEq Tx]

def init (events : UUID → Option Event) : State Tx where
  committed := events
  added _ _ := none
  holder _ := none
  pc _ := .ready
  reports := []

/-- The row of `event_id` that `t` sees. -/
def visible (s : State Tx) (t : Tx) (eventId : UUID) : Option Event :=
  (s.added t eventId).or (s.committed eventId)

def moveTo (s : State Tx) (t : Tx) (pc : Pc) : State Tx :=
  { s with pc := Function.update s.pc t pc }

/-- The call returns. -/
def answer (s : State Tx) (t : Tx) (request : Request) (result : IngestResult) : State Tx :=
  { s.moveTo t .ready with
    reports := s.reports ++ [⟨t, request, result, s.visible t request.eventId⟩] }

/-- The row is flushed. -/
def put (s : State Tx) (t : Tx) (event : Event) : State Tx :=
  { s with
    added := Function.update s.added t
      (Function.update (s.added t) event.eventId (some event))
    holder := Function.update s.holder event.eventId (some t) }

/-- The uncommitted rows of `t` are gone. -/
def discard (s : State Tx) (t : Tx) : State Tx :=
  { s with
    added := Function.update s.added t fun _ => none
    holder := fun eventId => if s.holder eventId = some t then none else s.holder eventId }

/-- The rows of `t` become visible to all. -/
def publish (s : State Tx) (t : Tx) : State Tx :=
  { s.discard t with committed := s.visible t }

end State

variable {Tx : Type} [DecidableEq Tx]

/-- One statement of `ingest`, or the end of a transaction.  An exception of `hash_payload`, or of the
flush of a payload that is not plain JSON, ends the call without an answer. -/
def step (sha256 : String → String) (isCurrency : String → Bool) (s : State Tx) :
    Action Tx → Option (State Tx)
  | .call t r =>
      match s.pc t with
      | .ready =>
          if r.validate isCurrency ≠ [] then
            some (s.answer t r (validationFailed r (r.validate isCurrency)))
          else
            match r.hash sha256 with
            | .error _ => some s
            | .ok payloadHash => some (s.moveTo t (.checking r payloadHash))
      | _ => none
  | .select t =>
      match s.pc t with
      | .checking r payloadHash =>
          match s.visible t r.eventId with
          | some existing => some (s.answer t r (existingResult r payloadHash existing))
          | none => some (s.moveTo t (.inserting r payloadHash))
      | _ => none
  | .insert t now =>
      match s.pc t with
      | .inserting r payloadHash =>
          -- The parameters are bound before the row meets the index; nothing handles this exception.
          if !r.storable then some ((s.discard t).moveTo t .ready)
          else if s.committed r.eventId ≠ none ∨ s.holder r.eventId = some t then
            some ((s.discard t).moveTo t (.rechecking r payloadHash))
          else if s.holder r.eventId = none then
            let event := r.toEvent payloadHash now
            some ((s.put t event).answer t r (acceptedResult r event))
          else none
      | _ => none
  | .refuse t =>
      match s.pc t with
      | .inserting r payloadHash =>
          if r.storable then some ((s.discard t).moveTo t (.rechecking r payloadHash)) else none
      | _ => none
  | .reselect t =>
      match s.pc t with
      | .rechecking r _ => some (s.answer t r (conflictResult r (s.visible t r.eventId)))
      | _ => none
  | .commit t =>
      match s.pc t with
      | .ready => some (s.publish t)
      | _ => none
  | .rollback t => some ((s.discard t).moveTo t .ready)

/-! ### The protocol -/

/-- The answer obeys the payload-hash protocol: a DUPLICATE has the hash of the stored event,
and a call with another hash than the stored event's is rejected. -/
def Report.Sound (sha256 : String → String) (p : Report Tx) : Prop :=
  match p.stored with
  | some e =>
      (p.result.status = .duplicate → p.request.hash sha256 = .ok e.payloadHash) ∧
        (p.request.hash sha256 ≠ .ok e.payloadHash → p.result.status = .rejected)
  | none => p.result.status ≠ .duplicate

/-- The handler of a refused insert does not find an event with another hash. -/
def HandlerAgrees (s : State Tx) : Action Tx → Prop
  | .reselect t =>
      match s.pc t with
      | .rechecking r payloadHash =>
          ∀ e, s.visible t r.eventId = some e → e.payloadHash = payloadHash
      | _ => True
  | _ => True

/-- Every handler of a run agrees. -/
def HandlersAgree (sha256 : String → String) (isCurrency : String → Bool) :
    State Tx → List (Action Tx) → Prop
  | _, [] => True
  | s, a :: as =>
      HandlerAgrees s a ∧
        ∀ s', step sha256 isCurrency s a = some s' → HandlersAgree sha256 isCurrency s' as

/-- What holds in every reachable state: an uncommitted id is held and not committed, rows
stand under their own id, and a call carries the hash of its payload. -/
structure Inv (sha256 : String → String) (s : State Tx) : Prop where
  held : ∀ t eventId, s.added t eventId ≠ none → s.holder eventId = some t
  fresh : ∀ t eventId, s.holder eventId = some t → s.committed eventId = none
  hashed : ∀ t r h, s.pc t = .checking r h ∨ s.pc t = .inserting r h ∨ s.pc t = .rechecking r h →
    r.hash sha256 = .ok h

variable {sha256 : String → String} {isCurrency : String → Bool} {s s' : State Tx} {t : Tx}

omit [DecidableEq Tx] in
theorem inv_init (events : UUID → Option Event) : Inv sha256 (State.init events : State Tx) where
  held := by simp [State.init]
  fresh := by simp [State.init]
  hashed := by simp [State.init]

/-- Moving on with the hash of the payload, or with none. -/
theorem Inv.moveTo (hi : Inv sha256 s) {pc : Pc}
    (hpc : ∀ r h, pc = .checking r h ∨ pc = .inserting r h ∨ pc = .rechecking r h →
      r.hash sha256 = .ok h) : Inv sha256 (s.moveTo t pc) where
  held := hi.held
  fresh := hi.fresh
  hashed u r h hu := by
    by_cases htu : u = t
    · subst htu
      simp only [State.moveTo, Function.update_self] at hu
      exact hpc r h hu
    · simp only [State.moveTo, Function.update_of_ne htu] at hu
      exact hi.hashed u r h hu

theorem Inv.answer (hi : Inv sha256 s) (r : Request) (result : IngestResult) :
    Inv sha256 (s.answer t r result) := by
  have h : Inv sha256 (s.moveTo t .ready) := hi.moveTo (by simp)
  exact ⟨h.held, h.fresh, h.hashed⟩

theorem Inv.discard (hi : Inv sha256 s) : Inv sha256 (s.discard t) where
  held u eventId hu := by
    by_cases htu : u = t
    · subst htu
      simp [State.discard] at hu
    · simp only [State.discard, Function.update_of_ne htu] at hu
      have hh := hi.held u eventId hu
      simp only [State.discard, hh, Option.some.injEq]
      exact if_neg htu
  fresh u eventId hu := by
    simp only [State.discard] at hu
    split at hu
    · cases hu
    · exact hi.fresh u eventId hu
  hashed := hi.hashed

theorem Inv.put (hi : Inv sha256 s) {event : Event} (hc : s.committed event.eventId = none)
    (hh : s.holder event.eventId = none) : Inv sha256 (s.put t event) where
  held u eventId hu := by
    by_cases hid : eventId = event.eventId
    · subst hid
      by_cases htu : u = t
      · simp [State.put, htu]
      · simp only [State.put, Function.update_of_ne htu] at hu
        rw [hi.held u _ hu] at hh
        cases hh
    · have hadded : s.added u eventId ≠ none := by
        by_cases htu : u = t
        · subst htu
          simpa [State.put, Function.update_of_ne hid] using hu
        · simpa [State.put, Function.update_of_ne htu] using hu
      simpa [State.put, Function.update_of_ne hid] using hi.held u eventId hadded
  fresh u eventId hu := by
    by_cases hid : eventId = event.eventId
    · subst hid
      exact hc
    · simp only [State.put, Function.update_of_ne hid] at hu
      exact hi.fresh u eventId hu
  hashed := hi.hashed

omit [DecidableEq Tx] in
/-- A commit adds rows under new ids only. -/
theorem Inv.visible_of_committed (hi : Inv sha256 s) {eventId : UUID} {e : Event}
    (h : s.committed eventId = some e) (t : Tx) : s.visible t eventId = some e := by
  cases ha : s.added t eventId with
  | none => simp [State.visible, ha, h]
  | some d =>
      have hh := hi.held t eventId (by simp [ha])
      rw [hi.fresh t eventId hh] at h
      cases h

theorem Inv.publish (hi : Inv sha256 s) : Inv sha256 (s.publish t) := by
  have hd := hi.discard (t := t)
  refine ⟨hd.held, ?_, hd.hashed⟩
  intro u eventId hu
  simp only [State.publish, State.discard] at hu
  split at hu
  · cases hu
  · rename_i hne
    have hadded : s.added t eventId = none := by
      by_contra hadd
      exact hne (hi.held t eventId hadd)
    simp [State.publish, State.visible, hadded, hi.fresh u eventId hu]

/-! ### Steps and runs -/

/-- What a step does: it keeps the invariant and the committed events, and answers soundly
exactly when the handler, if it runs, agrees. -/
structure Effect (sha256 : String → String) (s : State Tx) (a : Action Tx) (s' : State Tx) :
    Prop where
  inv : Inv sha256 s'
  committed : ∀ eventId e, s.committed eventId = some e → s'.committed eventId = some e
  reports : ∃ new, s'.reports = s.reports ++ new ∧
    ((∀ p ∈ new, p.Sound sha256) ↔ HandlerAgrees s a)

omit [DecidableEq Tx] in
theorem Effect.silent {a : Action Tx} (hi : Inv sha256 s')
    (hc : ∀ eventId e, s.committed eventId = some e → s'.committed eventId = some e)
    (hr : s'.reports = s.reports) (ha : HandlerAgrees s a) : Effect sha256 s a s' where
  inv := hi
  committed := hc
  reports := ⟨[], by simp [hr], by simp [ha]⟩

/-- An answer given in state `s₁`, reached from `s` without an answer. -/
theorem Effect.answer {a : Action Tx} {s₁ : State Tx} {r : Request} {result : IngestResult}
    (hi : Inv sha256 s₁)
    (hc : ∀ eventId e, s.committed eventId = some e → s₁.committed eventId = some e)
    (hr : s₁.reports = s.reports)
    (ha : Report.Sound sha256 ⟨t, r, result, s₁.visible t r.eventId⟩ ↔ HandlerAgrees s a) :
    Effect sha256 s a (s₁.answer t r result) where
  inv := hi.answer r result
  committed := hc
  reports := ⟨[⟨t, r, result, s₁.visible t r.eventId⟩], by simp [State.answer, hr], by simpa⟩

omit [DecidableEq Tx] in
theorem sound_of_rejected {r : Request} {result : IngestResult} {stored : Option Event}
    (h : result.status = .rejected) : Report.Sound sha256 ⟨t, r, result, stored⟩ := by
  cases stored <;> simp [Report.Sound, h]

omit [DecidableEq Tx] in
/-- The first duplicate path compares the hashes. -/
theorem sound_existingResult {r : Request} {h : String} {e : Event}
    (hh : r.hash sha256 = .ok h) :
    Report.Sound sha256 ⟨t, r, existingResult r h e, some e⟩ := by
  by_cases he : e.payloadHash = h
  · simp [Report.Sound, existingResult, hh, he]
  · simp [Report.Sound, existingResult, he]

omit [DecidableEq Tx] in
theorem sound_acceptedResult {r : Request} {h : String} {now : Datetime}
    (hh : r.hash sha256 = .ok h) :
    Report.Sound sha256
      ⟨t, r, acceptedResult r (r.toEvent h now), some (r.toEvent h now)⟩ := by
  simp [Report.Sound, acceptedResult, hh, Request.toEvent]

omit [DecidableEq Tx] in
/-- The second duplicate path is right exactly when the hashes happen to agree. -/
theorem sound_conflictResult {r : Request} {h : String} {stored : Option Event}
    (hh : r.hash sha256 = .ok h) :
    Report.Sound sha256 ⟨t, r, conflictResult r stored, stored⟩ ↔
      ∀ e, stored = some e → e.payloadHash = h := by
  cases stored with
  | none => simp [Report.Sound, conflictResult]
  | some e => simp [Report.Sound, conflictResult, hh, eq_comm]

/-- **Step lemma.** -/
theorem effect_of_step (hi : Inv sha256 s) {a : Action Tx}
    (h : step sha256 isCurrency s a = some s') : Effect sha256 s a s' := by
  cases a with
  | call t r =>
      simp only [step] at h
      split at h
      · split at h
        · obtain rfl := Option.some.inj h
          exact .answer hi (fun _ _ he => he) rfl
            (iff_of_true (sound_of_rejected rfl) trivial)
        · split at h
          · obtain rfl := Option.some.inj h
            exact .silent hi (fun _ _ he => he) rfl trivial
          · rename_i payloadHash hh
            obtain rfl := Option.some.inj h
            refine .silent (hi.moveTo ?_) (fun _ _ he => he) rfl trivial
            simp [hh]
      · cases h
  | select t =>
      simp only [step] at h
      split at h
      · rename_i r payloadHash hpc
        have hh := hi.hashed t r payloadHash (Or.inl hpc)
        split at h
        · rename_i existing hv
          obtain rfl := Option.some.inj h
          refine .answer hi (fun _ _ he => he) rfl (iff_of_true ?_ trivial)
          rw [hv]
          exact sound_existingResult hh
        · obtain rfl := Option.some.inj h
          refine .silent (hi.moveTo ?_) (fun _ _ he => he) rfl trivial
          simp [hh]
      · cases h
  | insert t now =>
      simp only [step] at h
      split at h
      · rename_i r payloadHash hpc
        have hh := hi.hashed t r payloadHash (Or.inr (Or.inl hpc))
        split at h
        · obtain rfl := Option.some.inj h
          exact .silent (hi.discard.moveTo (by simp)) (fun _ _ he => he) rfl trivial
        split at h
        · obtain rfl := Option.some.inj h
          refine .silent (hi.discard.moveTo ?_) (fun _ _ he => he) rfl trivial
          simp [hh]
        · rename_i hfree
          rw [not_or, not_not] at hfree
          simp only [Option.ite_none_right_eq_some, Option.some.injEq] at h
          obtain ⟨hheld, rfl⟩ := h
          refine .answer (hi.put hfree.1 hheld) (fun _ _ he => he) rfl (iff_of_true ?_ trivial)
          have hv : (s.put t (r.toEvent payloadHash now)).visible t r.eventId =
              some (r.toEvent payloadHash now) := by
            simp [State.put, State.visible, Request.toEvent]
          rw [hv]
          exact sound_acceptedResult hh
      · cases h
  | refuse t =>
      simp only [step] at h
      split at h
      · rename_i r payloadHash hpc
        have hh := hi.hashed t r payloadHash (Or.inr (Or.inl hpc))
        simp only [Option.ite_none_right_eq_some, Option.some.injEq] at h
        obtain ⟨-, rfl⟩ := h
        refine .silent (hi.discard.moveTo ?_) (fun _ _ he => he) rfl trivial
        simp [hh]
      · cases h
  | reselect t =>
      simp only [step] at h
      split at h
      · rename_i r payloadHash hpc
        have hh := hi.hashed t r payloadHash (Or.inr (Or.inr hpc))
        obtain rfl := Option.some.inj h
        refine .answer hi (fun _ _ he => he) rfl ?_
        rw [sound_conflictResult hh]
        simp only [HandlerAgrees, hpc]
      · cases h
  | commit t =>
      simp only [step] at h
      split at h
      · obtain rfl := Option.some.inj h
        exact .silent hi.publish (fun _ _ he => hi.visible_of_committed he t) rfl trivial
      · cases h
  | rollback t =>
      simp only [step] at h
      obtain rfl := Option.some.inj h
      exact .silent (hi.discard.moveTo (by simp)) (fun _ _ he => he) rfl trivial

/-- **Run lemma**: a run keeps the invariant and the committed events, and its new answers are
sound exactly when its handlers agree. -/
theorem run_effect {sched : List (Action Tx)} (hi : Inv sha256 s)
    (h : run (step sha256 isCurrency) s sched = some s') :
    Inv sha256 s' ∧ (∀ eventId e, s.committed eventId = some e → s'.committed eventId = some e) ∧
      ∃ new, s'.reports = s.reports ++ new ∧
        ((∀ p ∈ new, p.Sound sha256) ↔ HandlersAgree sha256 isCurrency s sched) := by
  induction sched generalizing s with
  | nil =>
      obtain rfl := Option.some.inj h
      exact ⟨hi, fun _ _ he => he, [], by simp, by simp [HandlersAgree]⟩
  | cons a as ih =>
      obtain ⟨s₁, h₁, h₂⟩ := TransitionSystem.run_cons_eq_some.mp h
      obtain ⟨hinv, hc, new₁, hnew₁, hsound₁⟩ := effect_of_step hi h₁
      obtain ⟨hinv', hc', new₂, hnew₂, hsound₂⟩ := ih hinv h₂
      refine ⟨hinv', fun i e he => hc' i e (hc i e he), new₁ ++ new₂, ?_, ?_⟩
      · rw [hnew₂, hnew₁, List.append_assoc]
      · rw [List.forall_mem_append, hsound₁, hsound₂, HandlersAgree, h₁]
        simp

/-- **R2, exactly.** From any committed events and over any schedule of any transactions,
every answer of `ingest` obeys the payload-hash protocol if and only if no handler of a
refused insert finds an event with another hash; and no committed event is ever altered. -/
theorem results_sound_iff (sha256 : String → String) (isCurrency : String → Bool)
    (events : UUID → Option Event) (sched : List (Action Tx)) (s : State Tx)
    (h : run (step sha256 isCurrency) (State.init events) sched = some s) :
    ((∀ p ∈ s.reports, p.Sound sha256) ↔
        HandlersAgree sha256 isCurrency (State.init events) sched) ∧
      ∀ pre post s₁, sched = pre ++ post →
        run (step sha256 isCurrency) (State.init events) pre = some s₁ →
        ∀ eventId e, s₁.committed eventId = some e → s.committed eventId = some e := by
  obtain ⟨-, -, new, hnew, hsound⟩ := run_effect (inv_init events) h
  refine ⟨?_, ?_⟩
  · rw [hnew]
    simpa [State.init] using hsound
  · rintro pre post s₁ rfl h₁
    obtain ⟨s₂, h₁', h₂⟩ := TransitionSystem.run_prefix h
    obtain rfl := Option.some.inj (h₁.symm.trans h₁')
    exact (run_effect (run_effect (inv_init events) h₁).1 h₂).2.1

/-- The digests of two payloads. -/
def sampleTable : List (String × String) :=
  [("\x7b\x7d", "44136fa355b3678a1146ad16f7e8649e94fb4fc21fe77e8310c060f61caaff8a"),
    ("\x7b\"amount\":\"1.5\"\x7d",
      "9770a8915fb5f83babcd8b6e1de2aa57378bb2cefe988f7f76f6f8aca095c548")]

/-- A call for one event id. -/
def sampleRequest (payload : List (String × PyVal)) : Request where
  eventId := ⟨7⟩
  eventType := "inventory.receipt"
  occurredAt := sampleTime
  effectiveDate := sampleTime.date
  actorId := ⟨0xac⟩
  producer := "inventory"
  payload := payload

/-- Both calls pass the first select; `false` inserts and commits, the insert of `true` is
refused, and its handler answers. -/
def racingSchedule (first second : List (String × PyVal)) : List (Action Bool) :=
  [.call false (sampleRequest first), .call true (sampleRequest second), .select false,
    .select true, .insert false sampleTime, .commit false, .insert true sampleTime, .reselect true]

theorem results_sound_racing :
    ∃ s : State Bool,
      run (step (Digest.tableDigest sampleTable) (· == "USD")) (State.init fun _ => none)
          (racingSchedule [] []) = some s ∧
        ((∀ p ∈ s.reports, p.Sound (Digest.tableDigest sampleTable)) ↔
          HandlersAgree (Digest.tableDigest sampleTable) (· == "USD") (State.init fun _ => none)
            (racingSchedule [] [])) :=
  ⟨_, rfl, (results_sound_iff (Digest.tableDigest sampleTable) (· == "USD") (fun _ => none)
    (racingSchedule [] []) _ rfl).1⟩

/-- The insert of the second call is refused; its payload differs from the stored event's, and
it is answered DUPLICATE. -/
theorem conflict_accepts_other_payload :
    ∃ s : State Bool,
      run (step (Digest.tableDigest sampleTable) (· == "USD")) (State.init fun _ => none)
          (racingSchedule [] [("amount", .scalar (.str "1.5"))]) = some s ∧
        s.reports.map (fun p => p.result.status) = [.accepted, .duplicate] ∧
        ∃ p ∈ s.reports, p.result.status = .duplicate ∧
          ∃ e, p.stored = some e ∧
            p.request.hash (Digest.tableDigest sampleTable) ≠ .ok e.payloadHash := by
  let hash := Digest.tableDigest sampleTable
  obtain ⟨s, hs⟩ : ∃ s : State Bool, run (step hash (· == "USD")) (State.init fun _ => none)
      (racingSchedule [] [("amount", .scalar (.str "1.5"))]) = some s :=
    Option.isSome_iff_exists.mp (by decide +kernel)
  -- The answers, and whether the hash of the call is that of the stored event.
  have hanswers : (run (step hash (· == "USD")) (State.init fun _ => none)
      (racingSchedule [] [("amount", .scalar (.str "1.5"))]) : Option (State Bool)).map
        (fun s => s.reports.map fun p => (p.result.status,
          p.stored.map fun e => decide (p.request.hash hash = .ok e.payloadHash))) =
      some [(.accepted, some true), (.duplicate, some false)] := by decide +kernel
  rw [hs, Option.map_some, Option.some.injEq] at hanswers
  refine ⟨s, hs, ?_, ?_⟩
  · simpa [Function.comp_def] using congrArg (List.map Prod.fst) hanswers
  · obtain ⟨p, hp, hanswer⟩ :=
      List.mem_map.mp (hanswers ▸ List.mem_cons_of_mem _ List.mem_cons_self)
    obtain ⟨hstatus, hstored⟩ := Prod.mk.inj hanswer
    obtain ⟨e, he, hne⟩ := Option.map_eq_some_iff.mp hstored
    exact ⟨p, hp, hstatus, e, he, of_decide_eq_false hne⟩

end FinanceAccounting.Ingestor
