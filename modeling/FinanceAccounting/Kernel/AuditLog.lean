import FinanceAccounting.Kernel.Sequence
import FinanceAccounting.Kernel.Auditor

/-! # Concurrent appends to the audit log

`AuditorService._create_audit_event`, run by any set of transactions: a value of the
`audit_event` sequence is drawn, the hash of the visible row of largest `seq` is read by a
separate query, and a row pointing to it is flushed.  Draws are calls of `next_value` in the
system of `Kernel.Sequence`, whose row lock lasts until the transaction ends; transactions may
also draw from other sequences, give up an append at any point after the draw (the exception
of `hash_payload`, a refused flush), and commit or roll back between appends.

The lock is what keeps the chain: a transaction with an unfinished append or an uncommitted
row holds it, so no other transaction has either.  `validateChain_committed` says that after
any schedule the committed rows have distinct numbers, form an intact chain in the order of
these numbers, and pass `validate_chain`. -/

namespace FinanceAccounting.AuditLog

open TransitionSystem (run run_invariant)
open Auditor (AuditEvent Intact orderBySeq hashAuditEvent validateChain)
open Sequence (Statement valuesOf)
open Hashing (PyVal hashPayload)

/-- The name of the audit sequence. -/
def auditEventSequence : String := "audit_event"

/-- What an append is called with, and the values drawn for its row. -/
structure Request where
  id : UUID
  entityType : String
  entityId : UUID
  action : String
  actorId : UUID
  occurredAt : Datetime
  payload : Option (List (String × PyVal))

/-- `payload or {}`. -/
def Request.payloadData (r : Request) : PyVal := .dict (r.payload.getD [])

/-- Where a transaction stands in `_create_audit_event`. -/
inductive Pc where
  | idle
  | drawing (request : Request)
  | linking (request : Request) (seq : ℕ) (prevHash : Option String)

/-- The audit table with the transactions appending to it. -/
structure State (Tx : Type) where
  seqs : Sequence.State Tx
  committed : List AuditEvent
  /-- Rows a transaction has flushed and not committed. -/
  added : Tx → List AuditEvent
  pc : Tx → Pc

/-- Statements of a transaction, and its end. -/
inductive Action (Tx : Type) where
  | record (t : Tx) (request : Request)
  | draw (t : Tx) (name : String)
  | statement (t : Tx) (st : Statement)
  | readLast (t : Tx)
  | flush (t : Tx)
  | giveUp (t : Tx)
  | commit (t : Tx)
  | rollback (t : Tx)

namespace State

variable {Tx : Type} [DecidableEq Tx]

/-- The empty log over committed counters `c`. -/
def init (c : String → Option ℕ) : State Tx where
  seqs := Sequence.State.init c
  committed := []
  added _ := []
  pc _ := .idle

/-- The rows `t` sees. -/
def visible (s : State Tx) (t : Tx) : List AuditEvent := s.committed ++ s.added t

/-- `_get_last_hash`: `ORDER BY seq DESC LIMIT 1`. -/
def lastHash (s : State Tx) (t : Tx) : Option String :=
  (orderBySeq (s.visible t)).getLast?.map AuditEvent.hash

def moveTo (s : State Tx) (t : Tx) (pc : Pc) : State Tx :=
  { s with pc := Function.update s.pc t pc }

/-- A row with the unique `seq` or primary key is already there. -/
def conflicts (s : State Tx) (t : Tx) (request : Request) (seq : ℕ) : Bool :=
  (s.visible t).any fun e => e.seq = seq || e.id = request.id

/-- The row is flushed and the append is done. -/
def append (s : State Tx) (t : Tx) (e : AuditEvent) : State Tx :=
  { s with
    added := Function.update s.added t (s.added t ++ [e])
    pc := Function.update s.pc t .idle }

end State

variable {Tx : Type} [DecidableEq Tx]

/-- The row an append flushes. -/
def newEvent (sha256 : String → String) (r : Request) (seq : ℕ) (payloadHash : String)
    (prevHash : Option String) : AuditEvent where
  id := r.id
  seq := seq
  entityType := r.entityType
  entityId := r.entityId
  action := r.action
  actorId := r.actorId
  occurredAt := r.occurredAt
  payload := some r.payloadData
  payloadHash := payloadHash
  prevHash := prevHash
  hash := hashAuditEvent sha256 r.entityType r.entityId.str r.action payloadHash prevHash

/-- The flush of a row, or the exception that ends the append without one. -/
def flush (sha256 : String → String) (s : State Tx) (t : Tx) (r : Request) (seq : ℕ)
    (prevHash : Option String) : State Tx :=
  match hashPayload sha256 r.payloadData with
  | .error _ => s.moveTo t .idle
  | .ok payloadHash =>
      if s.conflicts t r seq then s.moveTo t .idle
      else s.append t (newEvent sha256 r seq payloadHash prevHash)

/-- One statement of a transaction, or its end. -/
def step (sha256 : String → String) (s : State Tx) : Action Tx → Option (State Tx)
  | .record t r =>
      match s.pc t with
      | .idle =>
          (Sequence.step s.seqs (.call t auditEventSequence)).map fun q =>
            { s.moveTo t (.drawing r) with seqs := q }
      | _ => none
  | .draw t name =>
      match s.pc t with
      | .idle =>
          if name = auditEventSequence then none
          else (Sequence.step s.seqs (.call t name)).map fun q => { s with seqs := q }
      | _ => none
  | .statement t st =>
      match s.pc t with
      | .linking _ _ _ => none
      | _ => (Sequence.step s.seqs (st.action t)).map fun q => { s with seqs := q }
  | .readLast t =>
      match s.pc t, s.seqs.pc t with
      | .drawing r, .returned _ v => some (s.moveTo t (.linking r v (s.lastHash t)))
      | _, _ => none
  | .flush t =>
      match s.pc t with
      | .linking r v p => some (flush sha256 s t r v p)
      | _ => none
  | .giveUp t =>
      match s.pc t with
      | .linking _ _ _ => some (s.moveTo t .idle)
      | _ => none
  | .commit t =>
      match s.pc t with
      | .idle =>
          (Sequence.step s.seqs (.commit t)).map fun q =>
            { s with
              seqs := q
              committed := s.visible t
              added := Function.update s.added t [] }
      | _ => none
  | .rollback t =>
      (Sequence.step s.seqs (.rollback t)).map fun q =>
        { s.moveTo t .idle with
          seqs := q
          added := Function.update s.added t [] }

/-! ### The invariant -/

/-- The number drawn for an append that has not flushed its row. -/
def pending (s : State Tx) (t : Tx) : List ℕ :=
  match s.pc t with
  | .linking _ v _ => [v]
  | .drawing _ =>
      match s.seqs.pc t with
      | .returned _ v => [v]
      | _ => []
  | .idle => []

/-- The audit numbers handed to an open transaction. -/
def handed (s : State Tx) (t : Tx) : List ℕ := valuesOf auditEventSequence (s.seqs.handed t)

/-- Numbers as they are stored. -/
def stored (vs : List ℕ) : List ℤ := vs.map Nat.cast

/-- What every reachable state satisfies: the rows carry numbers handed out by the sequence,
in order, and for every transaction the rows it sees form an intact chain that ends where its
unfinished append points. -/
structure Inv (sha256 : String → String) (c : String → Option ℕ) (s : State Tx) : Prop where
  sequence : Sequence.Inv c s.seqs
  committedSeqs : (s.committed.map AuditEvent.seq).Sublist
    (stored (s.seqs.committedValues auditEventSequence))
  addedSeqs : ∀ t, ((s.added t).map AuditEvent.seq ++ stored (pending s t)).Sublist
    (stored (handed s t))
  committedIntact : Intact sha256 none s.committed
  intact : ∀ t, Intact sha256 none (s.visible t)
  linking : ∀ t r v p, s.pc t = .linking r v p →
    p = HashChain.tip AuditEvent.hash none (s.visible t)
  drawing : ∀ t r, s.pc t = .drawing r →
    (s.seqs.pc t).working = some auditEventSequence ∨
      ∃ v, s.seqs.pc t = .returned auditEventSequence v

variable {sha256 : String → String} {c : String → Option ℕ} {s s' : State Tx} {t : Tx}

omit [DecidableEq Tx] in
theorem inv_init : Inv sha256 c (State.init c : State Tx) where
  sequence := Sequence.inv_init
  committedSeqs := by simp [State.init]
  addedSeqs := by simp [State.init, pending, stored]
  committedIntact := Auditor.intact_nil none
  intact _ := Auditor.intact_nil none
  linking := by simp [State.init]
  drawing := by simp [State.init]

omit [DecidableEq Tx] in
/-- The numbers of the visible rows increase. -/
theorem Inv.visible_sorted (hi : Inv sha256 c s) (t : Tx) :
    (s.visible t).Pairwise fun a b => a.seq < b.seq := by
  rw [← List.pairwise_map (f := AuditEvent.seq) (R := (· < ·)), State.visible, List.map_append]
  have hadded : ((s.added t).map AuditEvent.seq).Sublist (stored (handed s t)) :=
    (List.sublist_append_left _ _).trans (hi.addedSeqs t)
  refine List.Pairwise.sublist (List.Sublist.append hi.committedSeqs hadded) ?_
  rw [stored, stored, ← List.map_append, handed, hi.sequence.values_eq_range t,
    List.pairwise_map]
  exact List.Pairwise.imp (fun h => Int.ofNat_lt.mpr h) List.pairwise_lt_range'

omit [DecidableEq Tx] in
theorem Inv.committed_sorted (hi : Inv sha256 c s) :
    s.committed.Pairwise fun a b => a.seq < b.seq := by
  rw [← List.pairwise_map (f := AuditEvent.seq) (R := (· < ·))]
  refine List.Pairwise.sublist hi.committedSeqs ?_
  rw [stored, hi.sequence.contiguous, List.pairwise_map]
  exact List.Pairwise.imp (fun h => Int.ofNat_lt.mpr h) List.pairwise_lt_range'

omit [DecidableEq Tx] in
/-- `_get_last_hash` reads the hash of the last visible row. -/
theorem Inv.lastHash_eq (hi : Inv sha256 c s) (t : Tx) :
    s.lastHash t = HashChain.tip AuditEvent.hash none (s.visible t) := by
  rw [State.lastHash, Auditor.orderBySeq_eq (.refl _) (hi.visible_sorted t),
    HashChain.tip_eq_getLast, Option.or_none]

omit [DecidableEq Tx] in
/-- **Only the holder of the sequence lock has rows or appends in progress.** -/
theorem Inv.idle_of_unlocked (hi : Inv sha256 c s)
    (hl : s.seqs.lock auditEventSequence ≠ some t) :
    s.added t = [] ∧ ∀ r v p, s.pc t ≠ .linking r v p := by
  have hnone : handed s t = [] := (hi.sequence.unlocked t auditEventSequence hl).1
  have hsub := hi.addedSeqs t
  rw [hnone, stored, stored, List.map_nil, List.sublist_nil, List.append_eq_nil_iff] at hsub
  refine ⟨List.map_eq_nil_iff.mp hsub.1, fun r v p hpc => ?_⟩
  have := hsub.2
  simp [pending, hpc] at this

omit [DecidableEq Tx] in
/-- A transaction with rows of its own keeps all others from appending. -/
theorem Inv.alone (hi : Inv sha256 c s) (hadded : s.added t ≠ []) {u : Tx} (hu : u ≠ t) :
    s.added u = [] ∧ ∀ r v p, s.pc u ≠ .linking r v p := by
  apply hi.idle_of_unlocked
  intro hlu
  refine hadded (hi.idle_of_unlocked ?_).1
  rw [hlu]
  exact fun h => hu (Option.some.inj h)

/-! ### Steps -/

theorem pending_of_ne {pc : Pc} {u : Tx} (hu : u ≠ t) :
    pending (s.moveTo t pc) u = pending s u := by
  simp [pending, State.moveTo, Function.update_of_ne hu]

/-- Moving to a place whose draw, if any, was handed out after the rows. -/
theorem Inv.moveTo (hi : Inv sha256 c s) {pc : Pc}
    (hpend : ((s.added t).map AuditEvent.seq ++ stored (pending (s.moveTo t pc) t)).Sublist
      (stored (handed s t)))
    (hlink : ∀ r v p, pc = .linking r v p →
      p = HashChain.tip AuditEvent.hash none (s.visible t))
    (hdraw : ∀ r, pc ≠ .drawing r) : Inv sha256 c (s.moveTo t pc) where
  sequence := hi.sequence
  committedSeqs := hi.committedSeqs
  addedSeqs u := by
    by_cases hu : u = t
    · subst hu
      exact hpend
    · rw [pending_of_ne hu]
      exact hi.addedSeqs u
  committedIntact := hi.committedIntact
  intact := hi.intact
  linking u r v p hpc := by
    by_cases hu : u = t
    · subst hu
      simp only [State.moveTo, Function.update_self] at hpc
      exact hlink r v p hpc
    · simp only [State.moveTo, Function.update_of_ne hu] at hpc
      exact hi.linking u r v p hpc
  drawing u r hpc := by
    by_cases hu : u = t
    · subst hu
      simp only [State.moveTo, Function.update_self] at hpc
      exact absurd hpc (hdraw r)
    · simp only [State.moveTo, Function.update_of_ne hu] at hpc
      exact hi.drawing u r hpc

/-- An append may be given up: its number is lost, not its place in the chain. -/
theorem Inv.moveTo_idle (hi : Inv sha256 c s) : Inv sha256 c (s.moveTo t .idle) := by
  refine hi.moveTo ?_ (by simp) (by simp)
  have hnil : pending (s.moveTo t .idle) t = [] := by simp [pending, State.moveTo]
  rw [hnil, stored, List.map_nil, List.append_nil]
  exact (List.sublist_append_left _ _).trans (hi.addedSeqs t)

theorem Inv.readLast (hi : Inv sha256 c s) {r : Request} {name : String} {v : ℕ}
    (hpc : s.pc t = .drawing r) (hseq : s.seqs.pc t = .returned name v) :
    Inv sha256 c (s.moveTo t (.linking r v (s.lastHash t))) := by
  refine hi.moveTo ?_ ?_ (by simp)
  · have h := hi.addedSeqs t
    simp only [pending, hpc, hseq] at h
    simpa [pending, State.moveTo] using h
  · intro r' v' p h
    obtain ⟨-, -, rfl⟩ := Pc.linking.inj h
    exact hi.lastHash_eq t

/-- The new row points to the last visible one. -/
theorem Inv.append (hi : Inv sha256 c s) {r : Request} {v : ℕ} {p : Option String}
    (hpc : s.pc t = .linking r v p) (payloadHash : String) :
    Inv sha256 c (s.append t (newEvent sha256 r v payloadHash p)) := by
  have hidle := hi.moveTo_idle (t := t)
  have hvis : (s.append t (newEvent sha256 r v payloadHash p)).visible t =
      s.visible t ++ [newEvent sha256 r v payloadHash p] := by
    simp [State.append, State.visible]
  have hother : ∀ u, u ≠ t →
      (s.append t (newEvent sha256 r v payloadHash p)).visible u = s.visible u := by
    intro u hu
    simp [State.append, State.visible, Function.update_of_ne hu]
  refine ⟨hi.sequence, hi.committedSeqs, ?_, hi.committedIntact, ?_, ?_, hidle.drawing⟩
  · intro u
    by_cases hu : u = t
    · subst hu
      have h := hi.addedSeqs u
      simp only [pending, hpc] at h
      simpa [State.append, pending, handed, newEvent, stored] using h
    · have h := hidle.addedSeqs u
      simpa [State.append, State.moveTo, Function.update_of_ne hu, pending, handed] using h
  · intro u
    by_cases hu : u = t
    · subst hu
      rw [hvis]
      refine ⟨HashChain.linked_concat.mpr ⟨(hi.intact u).linked, hi.linking u r v p hpc⟩, ?_⟩
      intro e he
      rcases List.mem_append.mp he with he | he
      · exact (hi.intact u).recomputes e he
      · obtain rfl := List.mem_singleton.mp he
        rfl
    · rw [hother u hu]
      exact hi.intact u
  · intro u r' v' p' hpc'
    by_cases hu : u = t
    · subst hu
      simp [State.append] at hpc'
    · rw [hother u hu]
      exact hidle.linking u r' v' p' hpc'

theorem Inv.flush (hi : Inv sha256 c s) {r : Request} {v : ℕ} {p : Option String}
    (hpc : s.pc t = .linking r v p) : Inv sha256 c (flush sha256 s t r v p) := by
  unfold AuditLog.flush
  split
  · exact hi.moveTo_idle
  · split
    · exact hi.moveTo_idle
    · exact hi.append hpc _

omit [DecidableEq Tx] in
/-- The audit numbers seen through a new sequence state in which only `t` has moved. -/
theorem pending_handed_of_ne {q : Sequence.State Tx} {u : Tx}
    (hpc : q.pc u = s.seqs.pc u) (hh : q.handed u = s.seqs.handed u) :
    pending { s with seqs := q } u = pending s u ∧
      handed { s with seqs := q } u = handed s u := by
  simp [pending, handed, hpc, hh]

omit [DecidableEq Tx] in
theorem pending_eq_nil {u : Tx} (hl : ∀ r v p, s.pc u ≠ .linking r v p)
    (hr : ∀ n v, s.seqs.pc u ≠ .returned n v) : pending s u = [] := by
  unfold pending
  split
  · rename_i r v p h
    exact absurd h (hl r v p)
  · split
    · rename_i n v h
      exact absurd h (hr n v)
    · rfl
  · rfl

/-- `next_value` may begin between appends. -/
theorem Inv.call (hi : Inv sha256 c s) {name : String} {q : Sequence.State Tx} {pc : Pc}
    (hidle : s.pc t = .idle) (hq : Sequence.step s.seqs (.call t name) = some q)
    (hpc : pc = .idle ∨ name = auditEventSequence ∧ ∃ r, pc = .drawing r) :
    Inv sha256 c { s.moveTo t pc with seqs := q } := by
  have hinv := hi.sequence.step hq
  obtain rfl : q = s.seqs.moveTo t (.selecting name) := by
    simp only [Sequence.step] at hq
    split at hq
    · exact (Option.some.inj hq).symm
    · exact (Option.some.inj hq).symm
    · cases hq
  refine ⟨hinv, hi.committedSeqs, ?_, hi.committedIntact, hi.intact, ?_, ?_⟩
  · intro u
    by_cases hu : u = t
    · subst hu
      have hnil : pending ({ s.moveTo u pc with seqs := s.seqs.moveTo u (.selecting name) }) u =
          [] := by
        rcases hpc with rfl | ⟨-, r, rfl⟩ <;>
          simp [pending, State.moveTo, Sequence.State.moveTo]
      rw [hnil, stored, List.map_nil, List.append_nil]
      exact (List.sublist_append_left _ _).trans (hi.addedSeqs u)
    · have h := hi.addedSeqs u
      simpa [pending, handed, State.moveTo, Sequence.State.moveTo, Function.update_of_ne hu]
        using h
  · intro u r v p h
    by_cases hu : u = t
    · subst hu
      rcases hpc with rfl | ⟨-, r, rfl⟩ <;> simp [State.moveTo] at h
    · simp only [State.moveTo, Function.update_of_ne hu] at h
      exact hi.linking u r v p h
  · intro u r h
    by_cases hu : u = t
    · subst hu
      rcases hpc with rfl | ⟨rfl, r, rfl⟩
      · simp [State.moveTo] at h
      · exact Or.inl (by simp [Sequence.State.moveTo, Sequence.Pc.working])
    · simp only [State.moveTo, Function.update_of_ne hu] at h
      simpa [Sequence.State.moveTo, Function.update_of_ne hu] using hi.drawing u r h

/-- The statements of `next_value`: a returned audit number is the pending one. -/
theorem Inv.statement (hi : Inv sha256 c s) {st : Statement} {q : Sequence.State Tx}
    (hq : Sequence.step s.seqs (st.action t) = some q)
    (hopen : ∀ r v p, s.pc t ≠ .linking r v p) : Inv sha256 c { s with seqs := q } := by
  have hinv := hi.sequence.step hq
  obtain ⟨name, heff⟩ := Sequence.statementEffect_of_step hq
  have hcommitted : q.committedValues auditEventSequence =
      s.seqs.committedValues auditEventSequence := by
    simp [Sequence.State.committedValues, heff.log]
  have hlast : ∀ n v, s.seqs.pc t ≠ .returned n v := by
    intro n v h
    have hw := heff.working
    rw [h] at hw
    cases hw
  have hname : ∀ r, s.pc t = .drawing r → name = auditEventSequence := by
    intro r h
    rcases hi.drawing t r h with hw | ⟨v, hv⟩
    · exact Option.some.inj (heff.working.symm.trans hw)
    · exact absurd hv (hlast _ v)
  have hold : (((s.added t).map AuditEvent.seq)).Sublist (stored (handed s t)) :=
    (List.sublist_append_left _ _).trans (hi.addedSeqs t)
  refine ⟨hinv, hcommitted ▸ hi.committedSeqs, ?_, hi.committedIntact, hi.intact, hi.linking, ?_⟩
  · intro u
    by_cases hu : u = t
    · subst hu
      rcases heff.own with ⟨hh, hw⟩ | ⟨v, hh, hpc⟩
      · have hnil : pending { s with seqs := q } u = [] := by
          refine pending_eq_nil hopen fun n v h => ?_
          simp only at h
          rw [h] at hw
          rcases hw with hw | hw <;> cases hw
        rw [hnil, stored, List.map_nil, List.append_nil]
        simpa [handed, hh] using hold
      · have hhanded : stored (handed { s with seqs := q } u) =
            stored (handed s u) ++ stored (if name = auditEventSequence then [v] else []) := by
          simp [handed, hh, stored]
        rw [hhanded]
        refine hold.append (List.Sublist.map _ ?_)
        cases hs : s.pc u with
        | idle => simp [pending, hs]
        | drawing r => simp [pending, hs, hpc, hname r hs]
        | linking r v p => exact absurd hs (hopen r v p)
    · obtain ⟨hpc, hh⟩ := heff.other u hu
      obtain ⟨h₁, h₂⟩ := pending_handed_of_ne (s := s) hpc hh
      rw [h₁, h₂]
      exact hi.addedSeqs u
  · intro u r h
    by_cases hu : u = t
    · subst hu
      obtain rfl := hname r h
      rcases heff.own with ⟨-, hw | hraised⟩ | ⟨v, -, hpc⟩
      · exact Or.inl hw
      · exact absurd hraised (hinv.noRaise u)
      · exact Or.inr ⟨v, hpc⟩
    · rw [(heff.other u hu).1]
      exact hi.drawing u r h

omit [DecidableEq Tx] in
theorem stored_append (vs ws : List ℕ) : stored (vs ++ ws) = stored vs ++ stored ws := by
  simp [stored]

/-- At a commit the rows of the transaction join the log; if there are any, no other
transaction has rows or an append in progress. -/
theorem Inv.commit (hi : Inv sha256 c s) {q : Sequence.State Tx} (hidle : s.pc t = .idle)
    (hq : Sequence.step s.seqs (.commit t) = some q) :
    Inv sha256 c { s with
      seqs := q
      committed := s.visible t
      added := Function.update s.added t [] } := by
  have hinv := hi.sequence.step hq
  obtain rfl : q = s.seqs.commitTx t := by
    simp only [Sequence.step] at hq
    split at hq
    · exact (Option.some.inj hq).symm
    · exact (Option.some.inj hq).symm
    · cases hq
  have hpc : ∀ u, u ≠ t → (s.seqs.commitTx t).pc u = s.seqs.pc u ∧
      (s.seqs.commitTx t).handed u = s.seqs.handed u := by
    intro u hu
    simp [Sequence.State.commitTx, Sequence.State.release, Function.update_of_ne hu]
  -- either nothing is added, or the others are idle
  have hvis : ∀ u, u ≠ t → s.visible t ++ s.added u = s.visible t ∨
      s.visible t ++ s.added u = s.visible u := by
    intro u hu
    by_cases hadded : s.added t = []
    · exact Or.inr (by simp [State.visible, hadded])
    · exact Or.inl (by simp [(hi.alone hadded hu).1])
  refine ⟨hinv, ?_, ?_, hi.intact t, ?_, ?_, ?_⟩
  · rw [Sequence.committedValues_commitTx, stored_append]
    simp only [State.visible, List.map_append]
    exact hi.committedSeqs.append ((List.sublist_append_left _ _).trans (hi.addedSeqs t))
  · intro u
    by_cases hu : u = t
    · subst hu
      simp [pending, hidle, stored]
    · have h := hi.addedSeqs u
      simpa [pending, handed, hpc u hu, Function.update_of_ne hu] using h
  · intro u
    by_cases hu : u = t
    · subst hu
      simpa [State.visible] using hi.intact u
    · simp only [State.visible, Function.update_of_ne hu]
      rcases hvis u hu with h | h
      · exact h ▸ hi.intact t
      · exact h ▸ hi.intact u
  · intro u r v p h
    by_cases hu : u = t
    · subst hu
      rw [hidle] at h
      cases h
    · by_cases hadded : s.added t = []
      · simpa [State.visible, hadded, Function.update_of_ne hu] using hi.linking u r v p h
      · exact absurd h ((hi.alone hadded hu).2 r v p)
  · intro u r h
    by_cases hu : u = t
    · subst hu
      rw [hidle] at h
      cases h
    · simp only [hpc u hu]
      exact hi.drawing u r h

/-- A rollback removes the rows of the transaction and nothing else. -/
theorem Inv.rollback (hi : Inv sha256 c s) {q : Sequence.State Tx}
    (hq : Sequence.step s.seqs (.rollback t) = some q) :
    Inv sha256 c { s.moveTo t .idle with
      seqs := q
      added := Function.update s.added t [] } := by
  have hinv := hi.sequence.step hq
  obtain rfl : q = s.seqs.release t := by
    simp only [Sequence.step] at hq
    split at hq
    · cases hq
    · exact (Option.some.inj hq).symm
  have hpc : ∀ u, u ≠ t → (s.seqs.release t).pc u = s.seqs.pc u ∧
      (s.seqs.release t).handed u = s.seqs.handed u := by
    intro u hu
    simp [Sequence.State.release, Function.update_of_ne hu]
  refine ⟨hinv, hi.committedSeqs, ?_, hi.committedIntact, ?_, ?_, ?_⟩
  · intro u
    by_cases hu : u = t
    · subst hu
      simp [pending, State.moveTo, stored]
    · have h := hi.addedSeqs u
      simpa [pending, handed, State.moveTo, hpc u hu, Function.update_of_ne hu] using h
  · intro u
    by_cases hu : u = t
    · subst hu
      simpa [State.visible, State.moveTo] using hi.committedIntact
    · simpa [State.visible, State.moveTo, Function.update_of_ne hu] using hi.intact u
  · intro u r v p h
    by_cases hu : u = t
    · subst hu
      simp [State.moveTo] at h
    · simp only [State.moveTo, Function.update_of_ne hu] at h
      simpa [State.visible, State.moveTo, Function.update_of_ne hu] using hi.linking u r v p h
  · intro u r h
    by_cases hu : u = t
    · subst hu
      simp [State.moveTo] at h
    · simp only [State.moveTo, Function.update_of_ne hu] at h
      simp only [hpc u hu]
      exact hi.drawing u r h

/-- **Step lemma**: every statement of every transaction keeps the invariant. -/
theorem Inv.step (hi : Inv sha256 c s) {a : Action Tx} (h : step sha256 s a = some s') :
    Inv sha256 c s' := by
  cases a with
  | record t r =>
      simp only [AuditLog.step] at h
      split at h
      · rename_i hidle
        obtain ⟨q, hq, rfl⟩ := Option.map_eq_some_iff.mp h
        exact hi.call hidle hq (Or.inr ⟨rfl, r, rfl⟩)
      · cases h
  | draw t name =>
      simp only [AuditLog.step] at h
      split at h
      · rename_i hidle
        split at h
        · cases h
        · obtain ⟨q, hq, rfl⟩ := Option.map_eq_some_iff.mp h
          have hsame : s.moveTo t .idle = s := by
            rw [State.moveTo, ← hidle, Function.update_eq_self]
          have := hi.call hidle hq (Or.inl rfl)
          rwa [hsame] at this
      · cases h
  | statement t st =>
      simp only [AuditLog.step] at h
      split at h
      · cases h
      · rename_i hopen
        obtain ⟨q, hq, rfl⟩ := Option.map_eq_some_iff.mp h
        exact hi.statement hq hopen
  | readLast t =>
      simp only [AuditLog.step] at h
      split at h
      · rename_i r name v hpc hseq
        obtain rfl := Option.some.inj h
        exact hi.readLast hpc hseq
      · cases h
  | flush t =>
      simp only [AuditLog.step] at h
      split at h
      · rename_i r v p hpc
        obtain rfl := Option.some.inj h
        exact hi.flush hpc
      · cases h
  | giveUp t =>
      simp only [AuditLog.step] at h
      split at h
      · obtain rfl := Option.some.inj h
        exact hi.moveTo_idle
      · cases h
  | commit t =>
      simp only [AuditLog.step] at h
      split at h
      · rename_i hidle
        obtain ⟨q, hq, rfl⟩ := Option.map_eq_some_iff.mp h
        exact hi.commit hidle hq
      · cases h
  | rollback t =>
      simp only [AuditLog.step] at h
      obtain ⟨q, hq, rfl⟩ := Option.map_eq_some_iff.mp h
      exact hi.rollback hq

/-- **Run lemma**: the invariant holds after every schedule. -/
theorem inv_of_run {sched : List (Action Tx)}
    (h : run (step sha256) (State.init c) sched = some s) : Inv sha256 c s :=
  run_invariant (fun _ _ _ hi hs => hi.step hs) inv_init h

/-- **R11, concurrently.** After any schedule of any transactions, the committed audit rows
have distinct numbers, each points to its predecessor in their order and recomputes, and
`validate_chain` returns true. -/
theorem validateChain_committed (sha256 : String → String) (c : String → Option ℕ)
    (sched : List (Action Tx)) (s : State Tx)
    (h : run (step sha256) (State.init c) sched = some s) :
    (s.committed.map AuditEvent.seq).Nodup ∧ Intact sha256 none (orderBySeq s.committed) ∧
      validateChain sha256 s.committed = .ok true := by
  have hi := inv_of_run h
  have hsorted := hi.committed_sorted
  have hintact : Intact sha256 none (orderBySeq s.committed) := by
    rw [Auditor.orderBySeq_eq (.refl _) hsorted]
    exact hi.committedIntact
  exact ⟨List.pairwise_map.mpr (hsorted.imp fun h => ne_of_lt h), hintact,
    Auditor.validateChain_eq_ok_iff.mpr hintact⟩

/-- What the first row of the sample log was recorded with. -/
def ingested : Request where
  id := ⟨0xa1⟩
  entityType := "Event"
  entityId := ⟨1⟩
  action := "event_ingested"
  actorId := ⟨0xac⟩
  occurredAt := sampleTime
  payload := none

def posted : Request where
  id := ⟨0xa2⟩
  entityType := "JournalEntry"
  entityId := ⟨2⟩
  action := "journal_posted"
  actorId := ⟨0xac⟩
  occurredAt := sampleTime
  payload := none

/-- Two transactions race for the empty log: `false` appends and rolls back while `true`
waits, then `true` appends twice and commits. -/
def racingSchedule : List (Action Bool) :=
  [.record false posted, .record true ingested, .statement false .select, .statement true .select,
    .statement false .insert, .readLast false, .flush false, .rollback false,
    .statement true .insert, .readLast true, .flush true, .record true posted,
    .statement true .select, .statement true .increment, .readLast true, .flush true,
    .commit true]

theorem validateChain_committed_racing :
    ∃ s : State Bool,
      run (step (Digest.tableDigest Auditor.sampleTable)) (State.init fun _ => none)
          racingSchedule = some s ∧
        s.committed.map AuditEvent.seq = [1, 2] ∧
        validateChain (Digest.tableDigest Auditor.sampleTable) s.committed = .ok true :=
  ⟨_, rfl, by decide +kernel,
    (validateChain_committed (Digest.tableDigest Auditor.sampleTable) (fun _ => none)
      racingSchedule _ rfl).2.2⟩

end FinanceAccounting.AuditLog
