import Mathlib.Data.List.Sort
import FinanceAccounting.Library.TransitionSystem
import FinanceAccounting.Kernel.JournalWriter

/-! # Reversals

`JournalWriter.write_reversal` inverts an entry line by line.  The reversal has the key
`reversal:{entry}:{ledger}`, so a repeated attempt finds it and returns it; the link
`reversal_of_id` is unique, so an attempt under any other circumstances is refused.
`ReversalService` locks the entry, checks its status and the link, and calls the writer with
the entry's own ledger.

`reversal_chains` is about every run of such calls on one session, with commits, rollbacks and
the entries of other transactions between them: an entry is the target of one reversal at
most, no entry changes, and a reversal cancels its target in every account, currency and
dimensions.  A call adds one row or none (`writeReversal_cases`); the sums are those of a list
and its mirror image (`signedSum_reversalLines`). -/

namespace FinanceAccounting.Reversal

open UnitOfWork (Session Table Result)
open TransitionSystem (run run_prefix)
open Hashing (defaultContext)
open Journal
open JournalWriter (WriteError FlushPoint finalizePosting finalizePosting_eq)

/-! ### Lines -/

/-- What a line is summed by: account, currency and dimensions. -/
abbrev Key := UUID × String × Option Dimensions

def key (line : JournalLine) : Key := (line.accountId, line.currency, line.dimensions)

/-- Debits are positive, credits negative. -/
def signedAmount (line : JournalLine) : ℚ :=
  match line.side with
  | .debit => line.amount.toRat
  | .credit => -line.amount.toRat

/-- Sum of the signed amounts of the lines with a key in `p`. -/
def signedSum (p : Key → Prop) [DecidablePred p] (lines : List JournalLine) : ℚ :=
  ((lines.filter fun line => p (key line)).map signedAmount).sum

/-- R4: debits and credits of a currency agree. -/
def BalancedIn (currency : String) (lines : List JournalLine) : Prop :=
  signedSum (fun k => k.2.1 = currency) lines = 0

/-- The line with the other side. -/
def mirror (line : JournalLine) : JournalLine where
  accountId := line.accountId
  side := line.side.flip
  amount := line.amount
  currency := line.currency
  dimensions := line.dimensions
  isRounding := false
  lineMemo := some ("Reversal of line " ++ toString line.lineSeq)
  exchangeRateId := line.exchangeRateId
  lineSeq := line.lineSeq

/-- The lines of an entry in the order of `line_seq`. -/
def originalLines (original : JournalEntry) : List JournalLine :=
  original.lines.insertionSort fun a b => a.lineSeq ≤ b.lineSeq

def reversalLines (original : JournalEntry) : List JournalLine := (originalLines original).map mirror

section sums

variable {p : Key → Prop} [DecidablePred p]

theorem signedAmount_mirror (line : JournalLine) :
    signedAmount (mirror line) = -signedAmount line := by
  cases h : line.side <;> simp [signedAmount, mirror, LineSide.flip, h]

theorem signedSum_cons (line : JournalLine) (lines : List JournalLine) :
    signedSum p (line :: lines) =
      (if p (key line) then signedAmount line else 0) + signedSum p lines := by
  by_cases h : p (key line) <;> simp [signedSum, h]

theorem signedSum_mirror : ∀ lines : List JournalLine,
    signedSum p (lines.map mirror) = -signedSum p lines
  | [] => by simp [signedSum]
  | line :: lines => by
      have hkey : key (mirror line) = key line := rfl
      rw [List.map_cons, signedSum_cons, signedSum_cons, signedSum_mirror lines, hkey,
        signedAmount_mirror]
      split_ifs <;> ring

theorem signedSum_perm {l₁ l₂ : List JournalLine} (h : l₁.Perm l₂) :
    signedSum p l₁ = signedSum p l₂ :=
  ((h.filter _).map _).sum_eq

/-- A reversal cancels its target under every key. -/
theorem signedSum_reversalLines (original : JournalEntry) :
    signedSum p original.lines + signedSum p (reversalLines original) = 0 := by
  have hperm : (originalLines original).Perm original.lines := List.perm_insertionSort _ _
  rw [reversalLines, signedSum_mirror, signedSum_perm hperm, add_neg_cancel]

theorem balancedIn_reversalLines {original : JournalEntry} {currency : String}
    (h : BalancedIn currency original.lines) : BalancedIn currency (reversalLines original) := by
  have hsum := signedSum_reversalLines (p := fun k => k.2.1 = currency) original
  rwa [h, zero_add] at hsum

end sums

/-! ### Writing a reversal -/

/-- The ledger of an entry; `GL` unless its metadata names one. -/
def ledgerId (original : JournalEntry) : String :=
  ((original.entryMetadata.getD []).lookup "ledger_id").getD "GL"

def reversalKey (original : JournalEntry) : String :=
  "reversal:" ++ original.id.str ++ ":" ++ ledgerId original

/-- The arguments of a call besides the entry, with the id and times it draws and a flush that
a constraint of another table or a trigger refuses. -/
structure Call where
  sourceEventId : UUID
  actorId : UUID
  effectiveDate : Date
  reason : String
  eventType : String := "system.reversal"
  expectedLedgerId : Option String := none
  newId : UUID
  now : Datetime
  postedAt : Datetime
  refusal : Option FlushPoint := none

def draftReversal (original : JournalEntry) (c : Call) : JournalEntry where
  id := c.newId
  sourceEventId := c.sourceEventId
  sourceEventType := c.eventType
  occurredAt := c.now
  effectiveDate := c.effectiveDate
  actorId := c.actorId
  reversalOfId := some original.id
  idempotencyKey := reversalKey original
  postingRuleVersion := original.postingRuleVersion
  coaVersion := original.coaVersion
  dimensionSchemaVersion := original.dimensionSchemaVersion
  roundingPolicyVersion := original.roundingPolicyVersion
  currencyRegistryVersion := original.currencyRegistryVersion
  entryMetadata := some
    [("ledger_id", ledgerId original), ("reversal_reason", c.reason),
      ("original_entry_id", original.id.str)]
  description := some ("Reversal of entry seq " ++ original.seq.elim "None" toString ++ ": " ++
    c.reason)

/-- Sum of the original lines of one side in a currency. -/
def sideSum (lines : List JournalLine) (side : LineSide) (currency : String) :
    Except Decimal.Signal Decimal :=
  Decimal.sum defaultContext
    ((lines.filter fun line => line.side = side ∧ line.currency = currency).map (·.amount))

/-- For each currency the debits and the credits of the reversal. -/
def currencySums (lines : List JournalLine) :
    List String → Except Decimal.Signal (List (String × Decimal × Decimal))
  | [] => .ok []
  | currency :: currencies => do
      let debits ← sideSum lines .credit currency
      let credits ← sideSum lines .debit currency
      let sums ← currencySums lines currencies
      return (currency, debits, credits) :: sums

/-- R4 for the reversal. -/
def checkBalance (original : JournalEntry) : Except WriteError Unit :=
  let lines := originalLines original
  match currencySums lines (lines.map (·.currency)).dedup with
  | .error signal => .error (.decimalSignal signal)
  | .ok sums =>
      match sums.find? fun sum => !sum.2.1.numEq sum.2.2 with
      | none => .ok ()
      | some (currency, debits, credits) =>
          .error (.valueError ("R4 violation: reversal of entry " ++ original.id.str ++
            " is unbalanced for " ++ currency ++ ": debits=" ++ String.ofList debits.toChars ++
            ", credits=" ++ String.ofList credits.toChars))

variable {σ : Type} (tbl : Table σ Journal)

def writeReversal (original : JournalEntry) (c : Call) (s : Session σ) :
    Result WriteError σ JournalEntry :=
  if originalLines original = [] then
    (.error (.valueError ("Cannot reverse entry " ++ original.id.str ++ ": no lines found")), s)
  else if c.expectedLedgerId.any (· ≠ ledgerId original) then
    (.error (.crossLedgerReversal original.id (ledgerId original) (c.expectedLedgerId.getD "")), s)
  else
    match ((s.seen tbl).getExistingEntry (reversalKey original)).filter (·.isFinal) with
    | some existing => (.ok existing, s)
    | none =>
        let draft := draftReversal original c
        match if c.refusal = some .entry then none else (s.seen tbl).insert draft with
        | none => (.error .integrityError, s.rollback)
        | some j =>
            if c.refusal = some .lines then (.error .integrityError, s.rollback)
            else
              let s := s.save tbl (j.addLines draft.id (reversalLines original))
              match checkBalance original with
              | .error e => (.error e, s)
              | .ok () =>
                  finalizePosting tbl c.refusal c.postedAt
                    (draft.withLines (reversalLines original)) s

/-! ### The reversal service -/

inductive ReversalError where
  | entryNotPosted (journalEntryId : UUID) (status : String)
  | entryAlreadyReversed (journalEntryId : UUID)
  | periodError
  | writeError (e : WriteError)

def statusValue : JournalEntryStatus → String
  | .draft => "draft"
  | .posted => "posted"
  | .reversed => "reversed"

/-- `_load_and_validate`. -/
def loadAndValidate (j : Journal) (originalEntryId : UUID) : Except ReversalError JournalEntry :=
  match j.getEntry originalEntryId with
  | none => .error (.entryNotPosted originalEntryId "NOT_FOUND")
  | some original =>
      if original.status ≠ .posted then
        .error (.entryNotPosted originalEntryId (statusValue original.status))
      else if j.entries.any (·.reversalOfId = some originalEntryId) then
        .error (.entryAlreadyReversed originalEntryId)
      else .ok original

/-- The journal side of `reverse_in_same_period` and `reverse_in_current_period`: the period
check, the flush of the reversal event, and the writer under the entry's own ledger. -/
def reverse (originalEntryId : UUID) (periodOpen eventRefused : Bool) (c : Call) (s : Session σ) :
    Result ReversalError σ JournalEntry :=
  match loadAndValidate (s.seen tbl) originalEntryId with
  | .error e => (.error e, s)
  | .ok original =>
      if !periodOpen then (.error .periodError, s)
      else if eventRefused then (.error (.writeError .integrityError), s.rollback)
      else
        let r := writeReversal tbl original { c with expectedLedgerId := some (ledgerId original) } s
        (r.1.mapError .writeError, r.2)

/-! ### One call -/

variable {tbl} {s : Session σ} {original : JournalEntry} {c : Call}

/-- The row a call adds: a mirror image under the id it drew, linked to the original. -/
structure Reverses (original : JournalEntry) (c : Call) (r : JournalEntry) : Prop where
  id : r.id = c.newId
  reversalOfId : r.reversalOfId = some original.id
  key : r.idempotencyKey = reversalKey original
  lines : r.lines = reversalLines original

/-- A call leaves the session alone and can only return a final entry under the key; or it
rolls the session back; or it adds one reversal, which it returns posted when it succeeds. -/
theorem writeReversal_cases (tbl : Table σ Journal) (original : JournalEntry) (c : Call)
    (s : Session σ) :
    ((writeReversal tbl original c s).2 = s ∧
        ∀ e, (writeReversal tbl original c s).1 = .ok e →
          e ∈ (s.seen tbl).entries ∧ e.idempotencyKey = reversalKey original ∧ e.isFinal = true) ∨
      writeReversal tbl original c s = (.error .integrityError, s.rollback) ∨
      ∃ r j, (writeReversal tbl original c s).2 = s.save tbl j ∧
        j.entries = (s.seen tbl).entries ++ [r] ∧ Reverses original c r ∧
        ∀ e, (writeReversal tbl original c s).1 = .ok e → e = r ∧ r.status = .posted := by
  unfold writeReversal
  split
  · exact Or.inl ⟨rfl, by simp⟩
  split
  · exact Or.inl ⟨rfl, by simp⟩
  split
  · rename_i existing hexisting
    obtain ⟨hfound, hfinal⟩ := Option.filter_eq_some_iff.mp hexisting
    obtain ⟨hmem, hkey⟩ := getExistingEntry_eq_some.mp hfound
    refine Or.inl ⟨rfl, fun e he => ?_⟩
    obtain rfl := Except.ok.inj he
    exact ⟨hmem, hkey, hfinal⟩
  by_cases hentry : c.refusal = some .entry
  · exact Or.inr (Or.inl (by simp [hentry]))
  by_cases hadm : (s.seen tbl).Admits (draftReversal original c)
  swap
  · exact Or.inr (Or.inl (by simp [Journal.insert, hadm]))
  simp only [if_neg hentry, insert_of_admits hadm]
  by_cases hlines : c.refusal = some .lines
  · exact Or.inr (Or.inl (if_pos hlines))
  have hlast := entries_addLines_last (entries_append (j := s.seen tbl) hadm)
    (reversalLines original)
  simp only [if_neg hlines]
  split
  · exact Or.inr (Or.inr ⟨_, _, rfl, hlast, ⟨rfl, rfl, rfl, rfl⟩, by simp⟩)
  · by_cases hmissing : ((draftReversal original c).withLines (reversalLines original)).missingFields
        = []
    · rw [finalizePosting_eq hmissing, Session.seen_save, Session.save_save]
      split
      · exact Or.inr (Or.inl rfl)
      · have hpost := entries_post_last hlast c.postedAt
        refine Or.inr (Or.inr ⟨_, _, rfl, hpost, ⟨rfl, rfl, rfl, rfl⟩, fun e he => ?_⟩)
        exact ⟨(Except.ok.inj he).symm, rfl⟩
    · refine Or.inr (Or.inr ⟨_, _, ?_, hlast, ⟨rfl, rfl, rfl, rfl⟩, ?_⟩)
      · simp [finalizePosting, hmissing]
      · simp [finalizePosting, hmissing]

/-! ### Runs -/

/-- Calls, the ends of transactions, and entries other transactions commit. -/
inductive Action where
  | writeReversal (entryId : UUID) (c : Call)
  | reverse (entryId : UUID) (periodOpen eventRefused : Bool) (c : Call)
  | observe (e : JournalEntry)
  | commit
  | rollback

/-- `writeReversal` is called with an entry of the journal. -/
def step (tbl : Table σ Journal) (s : Session σ) : Action → Option (Session σ)
  | .writeReversal entryId c =>
      ((s.seen tbl).getEntry entryId).map fun original => (Reversal.writeReversal tbl original c s).2
  | .reverse entryId periodOpen eventRefused c =>
      some (Reversal.reverse tbl entryId periodOpen eventRefused c s).2
  | .observe e => some (Journal.observe tbl s e)
  | .commit => some s.commit
  | .rollback => some s.rollback

/-- The id an action draws. -/
def Action.ids : Action → List UUID
  | .writeReversal _ c => [c.newId]
  | .reverse _ _ _ c => [c.newId]
  | .observe e => [e.id]
  | .commit => []
  | .rollback => []

/-- The reversal cancels its target. -/
structure Cancels (original r : JournalEntry) : Prop where
  sum : ∀ k, signedSum (· = k) original.lines + signedSum (· = k) r.lines = 0
  balanced : ∀ currency, BalancedIn currency original.lines → BalancedIn currency r.lines

/-- Every reversal cancels its target, but for the `others`. -/
def Mirrored (others : JournalEntry → Prop) (j : Journal) : Prop :=
  ∀ r ∈ j.entries, ∀ id, r.reversalOfId = some id →
    others r ∨ ∃ original ∈ j.entries, original.id = id ∧ Cancels original r

theorem Reverses.cancels {r : JournalEntry} (h : Reverses original c r) : Cancels original r where
  sum k := by
    rw [h.lines]
    exact signedSum_reversalLines original
  balanced currency hb := by
    rw [h.lines]
    exact balancedIn_reversalLines hb

variable {others : JournalEntry → Prop} {j j' : Journal} {r : JournalEntry}

/-- A row that is one of the others or cancels its target is added. -/
theorem Mirrored.append (h : Mirrored others j) (hj : j'.entries = j.entries ++ [r])
    (hr : ∀ id, r.reversalOfId = some id →
      others r ∨ ∃ original ∈ j.entries, original.id = id ∧ Cancels original r) :
    Mirrored others j' := by
  have hsub : ∀ d ∈ j.entries, d ∈ j'.entries := fun d hd => by simp [hj, hd]
  intro d hd id hid
  rw [hj, List.mem_append, List.mem_singleton] at hd
  rcases hd with hd | rfl
  · exact (h d hd id hid).imp_right fun ⟨o, ho, hrest⟩ => ⟨o, hsub o ho, hrest⟩
  · exact (hr id hid).imp_right fun ⟨o, ho, hrest⟩ => ⟨o, hsub o ho, hrest⟩

/-- What holds of the session between the actions. -/
structure Inv (tbl : Table σ Journal) (others : JournalEntry → Prop) (s : Session σ) : Prop where
  sub : ∀ e ∈ (s.stored tbl).entries, e ∈ (s.seen tbl).entries
  seen : Mirrored others (s.seen tbl)
  stored : Mirrored others (s.stored tbl)

/-- What an action does: committed rows stay, and every other row was there or is new. -/
structure Effect (tbl : Table σ Journal) (others : JournalEntry → Prop) (s : Session σ)
    (ids : List UUID) (s' : Session σ) : Prop where
  inv : Inv tbl others s'
  kept : ∀ e ∈ (s.stored tbl).entries, e ∈ (s'.stored tbl).entries
  origin : ∀ e ∈ (s'.seen tbl).entries, e ∈ (s.seen tbl).entries ∨ e.id ∈ ids

variable {s' : Session σ} {ids : List UUID}

theorem Inv.refl_effect (h : Inv tbl others s) : Effect tbl others s ids s :=
  ⟨h, fun _ he => he, fun _ he => Or.inl he⟩

theorem Inv.rollback_effect (h : Inv tbl others s) : Effect tbl others s ids s.rollback :=
  ⟨⟨fun _ he => he, h.stored, h.stored⟩, fun _ he => he, fun e he => Or.inl (h.sub e he)⟩

theorem Inv.commit_effect (h : Inv tbl others s) : Effect tbl others s ids s.commit :=
  ⟨⟨fun _ he => he, h.seen, h.seen⟩, h.sub, fun _ he => Or.inl he⟩

theorem writeReversal_effect (h : Inv tbl others s) (ho : original ∈ (s.seen tbl).entries)
    (c : Call) :
    Effect tbl others s [c.newId] (Reversal.writeReversal tbl original c s).2 := by
  rcases writeReversal_cases tbl original c s with ⟨hs, -⟩ | hs | ⟨r, j, hs, hj, hr, -⟩
  · rw [hs]
    exact h.refl_effect
  · rw [hs]
    exact h.rollback_effect
  · rw [hs]
    refine ⟨⟨fun e he => ?_, ?_, h.stored⟩, fun _ he => he, fun e he => ?_⟩
    · rw [Session.seen_save, hj]
      exact List.mem_append_left _ (h.sub e he)
    · rw [Session.seen_save]
      refine h.seen.append hj fun id hid => Or.inr ⟨original, ho, ?_, hr.cancels⟩
      exact Option.some.inj (hr.reversalOfId.symm.trans hid)
    · rw [Session.seen_save, hj, List.mem_append, List.mem_singleton] at he
      rcases he with he | rfl
      · exact Or.inl he
      · exact Or.inr (by simp [hr.id])

theorem observe_effect (h : Inv tbl others s) {e : JournalEntry} (he : others e) :
    Effect tbl others s [e.id] (Journal.observe tbl s e) := by
  rcases observe_cases tbl s e with ⟨hseen, hstored⟩ | ⟨hseen, hstored⟩
  · refine ⟨⟨?_, ?_, ?_⟩, ?_, ?_⟩
    · rw [hseen, hstored]
      exact h.sub
    · rw [hseen]
      exact h.seen
    · rw [hstored]
      exact h.stored
    · rw [hstored]
      exact fun _ hd => hd
    · rw [hseen]
      exact fun _ hd => Or.inl hd
  · refine ⟨⟨?_, ?_, ?_⟩, ?_, ?_⟩
    · rw [hseen, hstored]
      intro d hd
      rcases List.mem_append.mp hd with hd | hd
      · exact List.mem_append_left _ (h.sub d hd)
      · exact List.mem_append_right _ hd
    · exact h.seen.append hseen fun _ _ => Or.inl he
    · exact h.stored.append hstored fun _ _ => Or.inl he
    · rw [hstored]
      exact fun _ hd => List.mem_append_left _ hd
    · rw [hseen]
      intro d hd
      rcases List.mem_append.mp hd with hd | hd
      · exact Or.inl hd
      · exact Or.inr (by simp [List.mem_singleton.mp hd])

theorem loadAndValidate_mem {j : Journal} {id : UUID}
    (h : loadAndValidate j id = .ok original) :
    original ∈ j.entries ∧ original.id = id ∧ original.status = .posted ∧
      ∀ e ∈ j.entries, e.reversalOfId ≠ some id := by
  unfold loadAndValidate at h
  split at h
  · cases h
  · rename_i o ho
    split at h
    · cases h
    · rename_i hposted
      split at h
      · cases h
      · rename_i hnone
        obtain rfl := Except.ok.inj h
        obtain ⟨hmem, hid⟩ := getEntry_eq_some.mp ho
        exact ⟨hmem, hid, not_not.mp hposted, by simpa using hnone⟩

/-- **Step lemma.** -/
theorem effect_of_step {a : Action} (h : Inv tbl others s) (ha : ∀ e, a = .observe e → others e)
    (hstep : step tbl s a = some s') : Effect tbl others s a.ids s' := by
  cases a with
  | writeReversal id c =>
      simp only [step, Option.map_eq_some_iff] at hstep
      obtain ⟨original, ho, rfl⟩ := hstep
      exact writeReversal_effect h (getEntry_eq_some.mp ho).1 c
  | reverse id periodOpen eventRefused c =>
      simp only [step, Option.some.injEq, reverse] at hstep
      subst hstep
      split
      · exact h.refl_effect
      · rename_i original ho
        split
        · exact h.refl_effect
        · split
          · exact h.rollback_effect
          · exact writeReversal_effect h (loadAndValidate_mem ho).1
              { c with expectedLedgerId := some (ledgerId original) }
  | observe e =>
      obtain rfl := Option.some.inj hstep
      exact observe_effect h (ha e rfl)
  | commit =>
      obtain rfl := Option.some.inj hstep
      exact h.commit_effect
  | rollback =>
      obtain rfl := Option.some.inj hstep
      exact h.rollback_effect

/-- The ids a run draws. -/
def drawn (sched : List Action) : List UUID := sched.flatMap Action.ids

theorem Effect.fresh {rest : List UUID} (h : Effect tbl others s ids s')
    (hfresh : Fresh tbl s (ids ++ rest)) : Fresh tbl s' rest := by
  have hnodup := List.nodup_append'.mp hfresh.nodup
  have hseen : ∀ e ∈ (s'.seen tbl).entries, e.id ∉ rest := by
    intro e he hid
    rcases h.origin e he with he | he
    · exact hfresh.seen e he (List.mem_append_right _ hid)
    · exact hnodup.2.2 he hid
  exact ⟨hnodup.2.1, hseen, fun e he => hseen e (h.inv.sub e he)⟩

/-- **Run lemma.** -/
theorem effect_of_run {sched : List Action} (h : Inv tbl others s)
    (ha : ∀ e, .observe e ∈ sched → others e) (hrun : run (step tbl) s sched = some s') :
    Effect tbl others s (drawn sched) s' := by
  induction sched generalizing s with
  | nil =>
      obtain rfl := Option.some.inj hrun
      exact h.refl_effect
  | cons a as ih =>
      obtain ⟨s₁, h₁, h₂⟩ := TransitionSystem.run_cons_eq_some.mp hrun
      have hfirst := effect_of_step h (fun e he => ha e (by simp [he])) h₁
      have hrest := ih hfirst.inv (fun e he => ha e (List.mem_cons_of_mem a he)) h₂
      refine ⟨hrest.inv, fun e he => hrest.kept e (hfirst.kept e he), fun e he => ?_⟩
      rw [drawn, List.flatMap_cons, List.mem_append]
      rcases hrest.origin e he with he | he
      · exact (hfirst.origin e he).imp_right Or.inl
      · exact Or.inr (Or.inr he)

/-- A run keeps the ids of the rest fresh. -/
theorem fresh_of_run {pre post : List Action} (h : Inv tbl others s)
    (ha : ∀ e, .observe e ∈ pre → others e) (hfresh : Fresh tbl s (drawn (pre ++ post)))
    (hrun : run (step tbl) s pre = some s') : Fresh tbl s' (drawn post) := by
  rw [drawn, List.flatMap_append] at hfresh
  exact (effect_of_run h ha hrun).fresh hfresh

/-- **Reversal chains.** In every run of reversals on a session that begins with a
transaction: an entry is the target of at most one reversal; a committed entry stays as it is,
and no entry is seen changed; and every reversal the run has added cancels its target under
every key, and is balanced in every currency in which the target is. -/
theorem reversal_chains (tbl : Table σ Journal) (tables : σ) (sched : List Action) (s' : Session σ)
    (hfresh : Fresh tbl (Session.start tables) (drawn sched))
    (hrun : run (step tbl) (Session.start tables) sched = some s') :
    (∀ d ∈ (s'.seen tbl).entries, ∀ e ∈ (s'.seen tbl).entries,
        d.reversalOfId ≠ none → d.reversalOfId = e.reversalOfId → d = e) ∧
      (∀ pre post s, sched = pre ++ post → run (step tbl) (Session.start tables) pre = some s →
        (∀ e ∈ (s.stored tbl).entries,
            e ∈ (s'.stored tbl).entries ∧ e ∈ (s'.seen tbl).entries) ∧
          ∀ e ∈ (s.seen tbl).entries, ∀ d ∈ (s'.seen tbl).entries, d.id = e.id → d = e) ∧
      ∀ r ∈ (s'.seen tbl).entries, ∀ id, r.reversalOfId = some id →
        (r ∈ (tbl.read tables).entries ∨ .observe r ∈ sched) ∨
          ∃ original ∈ (s'.seen tbl).entries, original.id = id ∧ Cancels original r := by
  set others : JournalEntry → Prop := fun r =>
    r ∈ (tbl.read tables).entries ∨ .observe r ∈ sched with hothers
  have hstart : Inv tbl others (Session.start tables) :=
    ⟨fun _ he => he, fun r hr _ _ => Or.inl (Or.inl hr), fun r hr _ _ => Or.inl (Or.inl hr)⟩
  have hend := effect_of_run hstart (fun e he => Or.inr he) hrun
  refine ⟨fun d hd e he hne heq => ?_, ?_, hend.inv.seen⟩
  · obtain ⟨r, hr⟩ := Option.ne_none_iff_exists'.mp hne
    exact eq_of_reversalOfId hd he hr (heq ▸ hr)
  · rintro pre post s rfl hpre
    have hobs : ∀ e, .observe e ∈ pre → others e := fun e he =>
      Or.inr (List.mem_append_left _ he)
    have hmid := effect_of_run hstart hobs hpre
    obtain ⟨s₁, h₁, hpost⟩ := TransitionSystem.run_prefix hrun
    obtain rfl := Option.some.inj (hpre.symm.trans h₁)
    have hlast := effect_of_run hmid.inv
      (fun e he => Or.inr (List.mem_append_right _ he)) hpost
    refine ⟨fun e he => ?_, fun e he d hd hid => ?_⟩
    · exact ⟨hlast.kept e he, hlast.inv.sub e (hlast.kept e he)⟩
    · rcases hlast.origin d hd with hd | hd
      · exact eq_of_id hd he hid
      · exact absurd (hid ▸ hd) ((fresh_of_run hstart hobs hfresh hpre).seen e he)

/-- Two lines of 1.50 USD, in an entry that is posted. -/
def sampleEntry : JournalEntry where
  id := ⟨0xe0⟩
  sourceEventId := ⟨0xe⟩
  sourceEventType := "economic.posting"
  occurredAt := sampleTime
  effectiveDate := sampleTime.date
  postedAt := some sampleTime
  actorId := ⟨0xac⟩
  status := .posted
  idempotencyKey := "sample:GL:1"
  postingRuleVersion := 1
  coaVersion := some 1
  dimensionSchemaVersion := some 1
  roundingPolicyVersion := some 1
  currencyRegistryVersion := some 1
  seq := some 1
  entryMetadata := some [("ledger_id", "GL")]
  description := none
  lines :=
    [⟨⟨0xa1⟩, .debit, .finite false 150 (-2), "USD", none, false, none, none, 0⟩,
      ⟨⟨0xa2⟩, .credit, .finite false 150 (-2), "USD", none, false, none, none, 1⟩]

def sampleJournal : Journal := (Journal.empty.insert sampleEntry).getD Journal.empty

def sampleCall (n : ℕ) : Call where
  sourceEventId := ⟨BitVec.ofNat 128 (0x200 + n)⟩
  actorId := ⟨0xac⟩
  effectiveDate := sampleTime.date
  reason := "wrong account"
  newId := ⟨BitVec.ofNat 128 (0x300 + n)⟩
  now := sampleTime
  postedAt := sampleTime

/-- The entry is reversed twice, and its reversal once. -/
def sampleSchedule : List Action :=
  [.reverse ⟨0xe0⟩ true false (sampleCall 0), .writeReversal ⟨0xe0⟩ (sampleCall 1), .commit,
    .writeReversal ⟨0x300⟩ (sampleCall 2)]

theorem reversal_chains_sample :
    ∃ s', run (step (Table.self Journal)) (Session.start sampleJournal) sampleSchedule = some s' ∧
      s'.current.entries.map (·.reversalOfId) = [none, some ⟨0xe0⟩, some ⟨0x300⟩] ∧
      ∀ d ∈ (s'.seen (Table.self Journal)).entries, ∀ e ∈ (s'.seen (Table.self Journal)).entries,
        d.reversalOfId ≠ none → d.reversalOfId = e.reversalOfId → d = e := by
  have hfresh : Fresh (Table.self Journal) (Session.start sampleJournal) (drawn sampleSchedule) :=
    ⟨by decide +kernel, by decide +kernel, by decide +kernel⟩
  have hrows : (run (step (Table.self Journal)) (Session.start sampleJournal) sampleSchedule).map
      (·.current.entries.map (·.reversalOfId)) = some [none, some ⟨0xe0⟩, some ⟨0x300⟩] := by
    decide +kernel
  obtain ⟨s', hrun, hids⟩ := Option.map_eq_some_iff.mp hrows
  exact ⟨s', hrun, hids,
    (reversal_chains (Table.self Journal) sampleJournal sampleSchedule s' hfresh hrun).1⟩

end FinanceAccounting.Reversal
