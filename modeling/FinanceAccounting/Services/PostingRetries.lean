import FinanceAccounting.Ingestion.IntentBuilding
import FinanceAccounting.Kernel.UndisturbedWrite
import FinanceAccounting.Kernel.WrittenEntries
import FinanceAccounting.Library.TransitionSystem

/-! # Posting a source event again

A posting builds the accounting intent of a source event and writes it.  The writer does not write
a ledger again whose idempotency key is in the journal, and the key holds the econ event id, which
every attempt draws anew, and the version of the policy.

`postedOnce_throughout`: along every run of attempts, commits and rollbacks the journal has at most
one POSTED entry of the event for each ledger, as long as an attempt that gets as far as the journal
is given the econ event id under which the POSTED entries of the event stand. -/

namespace FinanceAccounting.PostingRetries

open UnitOfWork (Session Table)
open TransitionSystem (Along Throughout run)
open Journal (JournalEntry)
open JournalWriter (Every Interleaving Services Turn ledgerOf)
open Ingestion (Builtins ModulePolicyEntry IntentRequest Raised buildAccountingIntent)

variable {σ : Type} (tbl : Table σ Journal)

/-! ### Attempts -/

/-- What the attempts to post a source event share; the econ event id of the request is not among
it. -/
structure Posting (σ : Type) where
  builtins : Builtins
  ctx : Decimal.Context
  registry : String → Option ModulePolicyEntry
  request : IntentRequest
  services : Services σ
  actorId : UUID
  eventType : String

/-- The intent of an attempt that has drawn an econ event id. -/
def Posting.intent (p : Posting σ) (econEventId : UUID) : Except Raised AccountingIntent :=
  buildAccountingIntent p.builtins p.ctx p.registry { p.request with econEventId := econEventId }

inductive Action where
  | attempt (econEventId : UUID) (env : ℕ → Interleaving)
  | commit
  | rollback

/-- An attempt builds the intent and writes it. -/
def step (p : Posting σ) (s : Session σ) : Action → Option (Session σ)
  | .attempt econEventId env =>
      match p.intent econEventId with
      | .error _ => some s
      | .ok i => some (JournalWriter.write tbl p.services i p.actorId p.eventType env s).2
  | .commit => some s.commit
  | .rollback => some s.rollback

/-- A POSTED entry of a source event for a ledger. -/
structure PostedOn (sourceEventId : UUID) (ledgerId : String) (e : JournalEntry) : Prop where
  source : e.sourceEventId = sourceEventId
  posted : e.status = .posted
  ledger : ledgerOf e = some ledgerId

/-- At most one POSTED entry of the source event for each ledger. -/
def PostedOnce (sourceEventId : UUID) (j : Journal) : Prop :=
  ∀ ledgerId, ∀ e ∈ j.entries, ∀ d ∈ j.entries,
    PostedOn sourceEventId ledgerId e → PostedOn sourceEventId ledgerId d → e = d

/-! ### Conditions of attempts -/

/-- The key of a ledger under a policy and an econ event id. -/
def keyOf (entry : ModulePolicyEntry) (econEventId : UUID) (ledgerId : String) : String :=
  econEventId.str ++ ":" ++ ledgerId ++ ":" ++ toString entry.version

/-- Entries that the session has, or that other transactions commit meanwhile. -/
def Around (env : ℕ → Interleaving) (s : Session σ) (e : JournalEntry) : Prop :=
  e ∈ (s.seen tbl).entries ∨ e ∈ (s.stored tbl).entries ∨
    ∃ n, e ∈ (env n).beforeSelect ++ (env n).beforeInsert ++ (env n).afterRollback

/-- The attempt ends before it looks at the journal: no intent is built, or a ledger of it is not
balanced, or a role has no account. -/
def Stops (p : Posting σ) (econEventId : UUID) : Prop :=
  ∀ i, p.intent econEventId = .ok i → JournalWriter.checkBalances i.ledgerIntents ≠ .ok none ∨
    ∃ e, JournalWriter.resolveAllRoles p.services i = .error e

/-- The POSTED entries of the event stand under the keys of the attempt. -/
def Reuses (p : Posting σ) (econEventId : UUID) (env : ℕ → Interleaving) (s : Session σ) : Prop :=
  ∀ entry, p.registry p.request.profileName = some entry → ∀ e, Around tbl env s e →
    ∀ ledgerId, PostedOn p.request.sourceEventId ledgerId e →
      e.idempotencyKey = keyOf entry econEventId ledgerId

def SafeStep (p : Posting σ) (s : Session σ) : Action → Prop
  | .attempt econEventId env => Stops p econEventId ∨ Reuses tbl p econEventId env s
  | _ => True

/-! ### Runs -/

section Runs

variable {tbl} {p : Posting σ} {s : Session σ} {econEventId : UUID} {env : ℕ → Interleaving}
variable {i : AccountingIntent}

theorem idempotencyKey_of_intent (h : p.intent econEventId = .ok i) :
    i.sourceEventId = p.request.sourceEventId ∧
      ∃ entry, p.registry p.request.profileName = some entry ∧
        ∀ ledgerId, i.idempotencyKey ledgerId = keyOf entry econEventId ledgerId := by
  obtain ⟨hecon, hsource, entry, hentry, hversion⟩ := Ingestion.identifiers_of_build h
  refine ⟨hsource, entry, hentry, fun ledgerId => ?_⟩
  unfold AccountingIntent.idempotencyKey keyOf
  rw [hecon, hversion]

/-- An attempt that stops leaves the session alone. -/
theorem write_of_stops (hstops : Stops p econEventId) (h : p.intent econEventId = .ok i) :
    (JournalWriter.write tbl p.services i p.actorId p.eventType env s).2 = s := by
  unfold JournalWriter.write
  rcases hstops i h with hbalance | ⟨e, he⟩
  · split
    · rfl
    · rfl
    · rename_i hnone
      exact absurd hnone hbalance
  · split
    · rfl
    · rfl
    · rw [he]

/-- The POSTED entries of the event stand under the keys of one econ event id. -/
def Keyed (tbl : Table σ Journal) (p : Posting σ) (entry : ModulePolicyEntry)
    (econEventId : UUID) (s : Session σ) : Prop :=
  Every tbl (fun e => ∀ ledgerId, PostedOn p.request.sourceEventId ledgerId e →
    e.idempotencyKey = keyOf entry econEventId ledgerId) s

variable {entry : ModulePolicyEntry}

/-- Entries under the keys of one attempt are one for each ledger. -/
theorem Keyed.postedOnce (h : Keyed tbl p entry econEventId s) :
    s.Both fun tables => PostedOnce p.request.sourceEventId (tbl.read tables) where
  committed ledgerId e he d hd hpe hpd := Journal.eq_of_key he hd
    ((h.committed e he ledgerId hpe).trans (h.committed d hd ledgerId hpd).symm)
  current ledgerId e he d hd hpe hpd := Journal.eq_of_key he hd
    ((h.current e he ledgerId hpe).trans (h.current d hd ledgerId hpd).symm)

/-- **An attempt under the same keys** leaves entries under these keys. -/
theorem Reuses.keyed (hreuses : Reuses tbl p econEventId env s)
    (hentry : p.registry p.request.profileName = some entry) (h : p.intent econEventId = .ok i) :
    Keyed tbl p entry econEventId
      (JournalWriter.write tbl p.services i p.actorId p.eventType env s).2 := by
  obtain ⟨-, entry', hentry', hkey⟩ := idempotencyKey_of_intent h
  obtain rfl := Option.some.inj (hentry.symm.trans hentry')
  refine Every.write ⟨?_, ?_⟩ ?_ ?_
  · exact fun e he => hreuses entry hentry e (.inr (.inl he))
  · exact fun e he => hreuses entry hentry e (.inl he)
  · intro n e he
    rw [Interleaving.foreign, ← List.append_assoc] at he
    exact hreuses entry hentry e (.inr (.inr ⟨n, he⟩))
  · intro _ _ _ t _ e hours _ ledgerId hposted
    obtain rfl := Option.some.inj (hours.ledger.symm.trans hposted.ledger)
    rw [hours.key, Turn.key, hkey]

theorem postedOnce_of_step {a : Action} {s' : Session σ} (hsafe : SafeStep tbl p s a)
    (h : s.Both fun tables => PostedOnce p.request.sourceEventId (tbl.read tables))
    (hstep : step tbl p s a = some s') :
    s'.Both fun tables => PostedOnce p.request.sourceEventId (tbl.read tables) := by
  cases a with
  | attempt econEventId env =>
      simp only [step] at hstep
      split at hstep
      · obtain rfl := Option.some.inj hstep
        exact h
      · rename_i i hintent
        obtain rfl := Option.some.inj hstep
        rcases hsafe with hstops | hreuses
        · rw [write_of_stops hstops hintent]
          exact h
        · obtain ⟨-, entry, hentry, -⟩ := idempotencyKey_of_intent hintent
          exact (hreuses.keyed hentry hintent).postedOnce
  | commit =>
      obtain rfl := Option.some.inj hstep
      exact h.commit
  | rollback =>
      obtain rfl := Option.some.inj hstep
      exact h.rollback

/-- The attempts are given one econ event id, and nobody disturbs them. -/
def SameId (econEventId : UUID) : Action → Prop
  | .attempt id env => id = econEventId ∧ ∀ n, (env n).Quiet
  | _ => True

theorem Keyed.reuses (h : Keyed tbl p entry econEventId s)
    (hentry : p.registry p.request.profileName = some entry) (hquiet : ∀ n, (env n).Quiet) :
    Reuses tbl p econEventId env s := by
  intro entry' hentry' e haround
  obtain rfl := Option.some.inj (hentry.symm.trans hentry')
  rcases haround with he | he | ⟨n, he⟩
  · exact h.current e he
  · exact h.committed e he
  · rw [(hquiet n).beforeSelect, (hquiet n).beforeInsert, (hquiet n).afterRollback] at he
    exact absurd he List.not_mem_nil

/-- **Attempts that share one id are safe**, from a journal whose POSTED entries of the event stand
under its keys. -/
theorem along_of_sameId (hentry : p.registry p.request.profileName = some entry)
    (h : Keyed tbl p entry econEventId s) {actions : List Action}
    (hactions : ∀ a ∈ actions, SameId econEventId a) :
    Along (step tbl p) (SafeStep tbl p) s actions := by
  induction actions generalizing s with
  | nil => exact TransitionSystem.along_nil
  | cons a actions ih =>
      obtain ⟨ha, htail⟩ := List.forall_mem_cons.1 hactions
      rw [TransitionSystem.along_cons]
      cases a with
      | attempt id env =>
          obtain ⟨rfl, hquiet⟩ := ha
          have hreuses := h.reuses hentry hquiet
          refine ⟨.inr hreuses, fun s' hstep => ih ?_ htail⟩
          simp only [step] at hstep
          split at hstep
          · obtain rfl := Option.some.inj hstep
            exact h
          · rename_i i hintent
            obtain rfl := Option.some.inj hstep
            exact hreuses.keyed hentry hintent
      | commit =>
          refine ⟨trivial, fun s' hstep => ih ?_ htail⟩
          obtain rfl := Option.some.inj hstep
          exact Session.Both.commit h
      | rollback =>
          refine ⟨trivial, fun s' hstep => ih ?_ htail⟩
          obtain rfl := Option.some.inj hstep
          exact Session.Both.rollback h

theorem keyed_empty (p : Posting Journal) (entry : ModulePolicyEntry) (econEventId : UUID) :
    Keyed (Table.self Journal) p entry econEventId (Session.start Journal.empty) where
  committed _ he := absurd he List.not_mem_nil
  current _ he := absurd he List.not_mem_nil

end Runs

/-- **Posted once.**  From a journal with at most one POSTED entry of the source event for each
ledger there is never a second one, in any run in which each attempt ends before it looks at the
journal or is given the econ event id and the policy version of the entries that are POSTED. -/
theorem postedOnce_throughout (p : Posting σ) (s : Session σ) (actions : List Action)
    (hstart : s.Both fun tables => PostedOnce p.request.sourceEventId (tbl.read tables))
    (hsteps : Along (step tbl p) (SafeStep tbl p) s actions) :
    Throughout (step tbl p)
      (fun s => s.Both fun tables => PostedOnce p.request.sourceEventId (tbl.read tables)) s
      actions :=
  hsteps.throughout (fun _ _ _ h hsafe hstep => postedOnce_of_step hsafe h hstep) hstart

/-- A policy without line mappings. -/
def samplePolicy : ModulePolicyEntry :=
  { Ingestion.expensePolicy [⟨"GL", "Expense", "Payable"⟩] with lineMappings := [] }

/-- An expense on the general ledger. -/
def samplePosting : Posting Journal where
  builtins := Ingestion.intentBuiltins
  ctx := Hashing.defaultContext
  registry _ := some samplePolicy
  request := Ingestion.expenseRequest none
  services := JournalWriter.sampleServices
  actorId := ⟨0xac⟩
  eventType := "economic.posting"

/-- Ids from `n` on, and no other transaction. -/
def retryEnv (n k : ℕ) : Interleaving :=
  { JournalWriter.sampleEnv false k with newId := ⟨BitVec.ofNat 128 (n + k)⟩ }

/-- The first attempt is committed, and the caller tries again. -/
def retry (first second : UUID) : List Action :=
  [.attempt first (retryEnv 100), .commit, .attempt second (retryEnv 200), .commit]

theorem postedOnce_retry :
    Throughout (step (Table.self Journal) samplePosting)
      (fun s => s.Both fun tables =>
        PostedOnce samplePosting.request.sourceEventId ((Table.self Journal).read tables))
      (Session.start Journal.empty) (retry ⟨1⟩ ⟨1⟩) :=
  postedOnce_throughout (Table.self Journal) samplePosting (Session.start Journal.empty)
    (retry ⟨1⟩ ⟨1⟩) (keyed_empty samplePosting samplePolicy ⟨1⟩).postedOnce
    (along_of_sameId rfl (keyed_empty samplePosting samplePolicy ⟨1⟩) (by
      simp only [retry, List.forall_mem_cons, List.not_mem_nil, false_implies, implies_true,
        and_true]
      exact ⟨⟨rfl, fun _ => ⟨rfl, rfl, rfl⟩⟩, trivial, ⟨rfl, fun _ => ⟨rfl, rfl, rfl⟩⟩, trivial⟩))

/-- With an id for each attempt the retry posts the expense a second time. -/
theorem not_postedOnce_retry :
    ¬Throughout (step (Table.self Journal) samplePosting)
      (fun s => s.Both fun tables =>
        PostedOnce samplePosting.request.sourceEventId ((Table.self Journal).read tables))
      (Session.start Journal.empty) (retry ⟨1⟩ ⟨2⟩) := by
  intro h
  have hentries : (run (step (Table.self Journal) samplePosting) (Session.start Journal.empty)
      (retry ⟨1⟩ ⟨2⟩)).map (fun s => s.current.entries.map fun e =>
        (e.id, e.sourceEventId, e.status, ledgerOf e)) =
      some [(⟨100⟩, ⟨22⟩, .posted, some "GL"), (⟨200⟩, ⟨22⟩, .posted, some "GL")] := by
    decide +kernel
  obtain ⟨s, hrun, hs⟩ := Option.map_eq_some_iff.1 hentries
  obtain ⟨e, rest, hsplit, he, hrest⟩ := List.map_eq_cons_iff.1 hs
  obtain ⟨d, rest', rfl, hd, -⟩ := List.map_eq_cons_iff.1 hrest
  simp only [Prod.mk.injEq] at he hd
  have honce := (h (retry ⟨1⟩ ⟨2⟩) [] s (by simp) hrun).current "GL" e
    (by simp [Table.self, hsplit]) d (by simp [Table.self, hsplit])
    ⟨he.2.1, he.2.2.1, he.2.2.2⟩ ⟨hd.2.1, hd.2.2.1, hd.2.2.2⟩
  rw [← honce, he.1] at hd
  exact absurd hd.1 (by decide)

end FinanceAccounting.PostingRetries
