import FinanceAccounting.Kernel.Atomicity

/-! # Calls nobody disturbs

Calls of `JournalWriter.write` while no other transaction commits an entry.  Such a call does
two things to the journal, whatever its end: it adds entries, and it may roll the session back.
What survives both survives the call (`Stable.write`).  When besides no entry is stored under a
key of the intent, a success means that the call has posted an entry (`write_posted`): one for
every ledger of the intent, and no other (`write_success`). -/

namespace FinanceAccounting.JournalWriter

open UnitOfWork (Session Table Result)
open Journal

variable {σ : Type} {tbl : Table σ Journal} {w : Services σ} {i : AccountingIntent}
variable {actorId : UUID} {eventType : String} {t : Turn} {ts : List Turn} {s s' : Session σ}
variable {counted : List (Turn × JournalEntry)} {result : JournalWriteResult}
variable {env : ℕ → Interleaving}

/-- No other transaction commits an entry during the turn. -/
structure Interleaving.Quiet (env : Interleaving) : Prop where
  beforeSelect : env.beforeSelect = []
  beforeInsert : env.beforeInsert = []
  afterRollback : env.afterRollback = []

variable (tbl) in
/-- **A turn nobody disturbs** posts its entry, is rolled back, or raises with a draft left
behind. -/
theorem writeLedger_of_quiet (i : AccountingIntent) (actorId : UUID) (eventType : String)
    (s : Session σ) (hquiet : t.env.Quiet) :
    (∃ e j, writeLedger tbl i actorId eventType t s = .counted e (s.save tbl j) ∧
        j.entries = (s.seen tbl).entries ++ [e] ∧ e.sourceEventId = i.sourceEventId ∧
        e.status = .posted) ∨
      (∃ e ∈ (s.stored tbl).entries, e.idempotencyKey = t.key i ∧
        writeLedger tbl i actorId eventType t s = .counted e s.rollback) ∨
      writeLedger tbl i actorId eventType t s = .conflict s.rollback ∨
      ∃ err j d, writeLedger tbl i actorId eventType t s = .raised err (s.save tbl j) ∧
        j.entries = (s.seen tbl).entries ++ [d] := by
  have hbefore : observeAll tbl s t.env.beforeInsert = s := by rw [hquiet.beforeInsert]; rfl
  have hafter : afterConflict tbl t s = s.rollback := by
    rw [afterConflict, hbefore, hquiet.afterRollback]
    rfl
  have hcases := writeLedger_cases tbl i actorId eventType t s
  rw [hbefore, hafter] at hcases
  rcases hcases with ⟨-, -, e, j, hw, hj, -, hours, hcomplete⟩ |
    ⟨-, -, ⟨e, hfound, hw⟩ | ⟨-, hw⟩⟩ | ⟨-, err, j, d, hw, hj, -⟩
  · exact Or.inl ⟨e, j, hw, hj, hours.source, hcomplete.posted⟩
  · obtain ⟨he, hkey⟩ := getExistingEntry_eq_some.mp hfound
    exact Or.inr (Or.inl ⟨e, he, hkey, hw⟩)
  · exact Or.inr (Or.inr (Or.inl hw))
  · exact Or.inr (Or.inr (Or.inr ⟨err, j, d, hw, hj⟩))

variable (tbl i s) in
theorem session_selectExisting (hquiet : ∀ t ∈ ts, t.env.Quiet) :
    (selectExisting tbl i ts s).2.2 = s := by
  induction ts with
  | nil => rfl
  | cons u us ih =>
      have hrest := ih fun t ht => hquiet t (List.mem_cons_of_mem u ht)
      simp only [selectExisting, (hquiet u List.mem_cons_self).beforeSelect, observeAll,
        List.foldl_nil]
      split
      · split <;> exact hrest
      · exact hrest

theorem quiet_toTurns (hquiet : ∀ n, (env n).Quiet)
    (resolved : List (LedgerIntent × List ResolvedIntentLine)) :
    ∀ t ∈ toTurns resolved env, t.env.Quiet := by
  intro t ht
  obtain ⟨p, -, rfl⟩ := List.mem_map.mp ht
  exact hquiet p.2

/-! ### What a call preserves -/

/-- What survives a rollback and new entries. -/
structure Stable (tbl : Table σ Journal) (Q : Session σ → Prop) : Prop where
  rollback : ∀ s, Q s → Q s.rollback
  save : ∀ s j, (∀ e ∈ (s.seen tbl).entries, e ∈ j.entries) → Q s → Q (s.save tbl j)

variable {Q : Session σ → Prop}

theorem Stable.append (hQ : Stable tbl Q) {j : Journal} {e : JournalEntry}
    (hj : j.entries = (s.seen tbl).entries ++ [e]) (h : Q s) : Q (s.save tbl j) :=
  hQ.save s j (fun _ hd => hj ▸ List.mem_append_left _ hd) h

theorem Stable.writeLedgers (hQ : Stable tbl Q) (hquiet : ∀ t ∈ ts, t.env.Quiet) (h : Q s) :
    Q (writeLedgers tbl w i actorId eventType counted ts s).2 := by
  induction ts generalizing counted s with
  | nil =>
      simp only [JournalWriter.writeLedgers]
      split <;> exact h
  | cons t ts ih =>
      have hquiet' : ∀ u ∈ ts, u.env.Quiet := fun u hu => hquiet u (List.mem_cons_of_mem t hu)
      rcases writeLedger_of_quiet tbl i actorId eventType s (hquiet t List.mem_cons_self) with
        ⟨e, j, hw, hj, -⟩ | ⟨e, -, -, hw⟩ | hw | ⟨err, j, d, hw, hj⟩
      · simp only [JournalWriter.writeLedgers, hw]
        exact ih (s := s.save tbl j) hquiet' (hQ.append hj h)
      · simp only [JournalWriter.writeLedgers, hw]
        exact ih hquiet' (hQ.rollback s h)
      · simp only [JournalWriter.writeLedgers, hw]
        exact hQ.rollback s h
      · simp only [JournalWriter.writeLedgers, hw]
        exact hQ.append hj h

/-- **A call preserves what new entries and a rollback preserve.** -/
theorem Stable.write (hQ : Stable tbl Q) (hquiet : ∀ n, (env n).Quiet) (h : Q s) :
    Q (write tbl w i actorId eventType env s).2 := by
  unfold JournalWriter.write
  rcases checkBalances i.ledgerIntents with signal | (_ | failed)
  · exact h
  · simp only []
    cases resolveAllRoles w i with
    | error e => exact h
    | ok resolved =>
        have hturns := quiet_toTurns hquiet resolved
        have hsession := session_selectExisting tbl i s hturns
        have hsub := selectExisting_sublist tbl (toTurns resolved env) i s
        rcases hselect : selectExisting tbl i (toTurns resolved env) s with ⟨existing, ts, s₁⟩
        rw [hselect] at hsession hsub
        obtain rfl : s₁ = s := hsession
        cases ts with
        | nil => simpa only [hselect] using h
        | cons t ts =>
            simp only [hselect]
            exact hQ.writeLedgers (fun u hu => hturns u (hsub.subset hu)) h
  · exact h

/-! ### Fresh keys -/

/-- No entry of the journal has a key of the intent. -/
def FreshKeys (i : AccountingIntent) (j : Journal) : Prop :=
  ∀ e ∈ j.entries, ∀ ledgerId, e.idempotencyKey ≠ i.idempotencyKey ledgerId

theorem selectExisting_of_fresh (hquiet : ∀ t ∈ ts, t.env.Quiet)
    (hseen : FreshKeys i (s.seen tbl)) : selectExisting tbl i ts s = ([], ts, s) := by
  induction ts with
  | nil => rfl
  | cons u us ih =>
      have hnone : (s.seen tbl).getExistingEntry (u.key i) = none :=
        getExistingEntry_eq_none.mpr fun e he => hseen e he _
      simp only [selectExisting, (hquiet u List.mem_cons_self).beforeSelect, observeAll,
        List.foldl_nil, hnone, ih fun t ht => hquiet t (List.mem_cons_of_mem u ht)]

/-- The journal has a POSTED entry for the event. -/
def PostedFor (j : Journal) (sourceEventId : UUID) : Prop :=
  ∃ e ∈ j.entries, e.sourceEventId = sourceEventId ∧ e.status = .posted

/-! ### What a success adds -/

/-- The entry is the one the turn writes. -/
structure WrittenFor (i : AccountingIntent) (t : Turn) (e : JournalEntry) : Prop
    extends Complete t e where
  id : e.id = t.env.newId
  key : e.idempotencyKey = t.key i
  effectiveDate : e.effectiveDate = i.effectiveDate

theorem createEntry_effectiveDate {e : JournalEntry}
    (h : createEntry tbl i actorId eventType t s = (.ok e, s')) :
    e.effectiveDate = i.effectiveDate := by
  simp only [createEntry] at h
  split at h
  · cases h
  · split at h
    · cases h
    · split at h
      · cases h
      · unfold finalizePosting at h
        split at h
        · cases h
        · split at h
          · cases h
          · cases h
            rfl

theorem writeLedger_effectiveDate {e : JournalEntry} (hquiet : t.env.Quiet)
    (hstored : FreshKeys i (s.stored tbl))
    (h : writeLedger tbl i actorId eventType t s = .counted e s') :
    e.effectiveDate = i.effectiveDate := by
  simp only [writeLedger, hquiet.beforeInsert, hquiet.afterRollback, observeAll,
    List.foldl_nil] at h
  rcases hcreate : createEntry tbl i actorId eventType t s with ⟨err | d, s₁⟩
  · rw [hcreate] at h
    have hcommitted : s₁.committed = s.committed := by
      rcases createEntry_cases tbl i actorId eventType t s with ⟨_, _, hc, -⟩ | ⟨hc, -⟩ |
        ⟨_, _, hc, -⟩ <;> rw [hc] at hcreate <;> cases hcreate <;> rfl
    split at h
    · rename_i heq
      cases heq
    · rename_i heq
      obtain ⟨-, rfl⟩ := Prod.mk.inj heq
      split at h
      · rename_i existing hfound
        obtain ⟨he, hkey⟩ := getExistingEntry_eq_some.mp hfound
        refine absurd hkey (hstored existing ?_ _)
        rwa [Session.seen, Session.current_rollback, hcommitted] at he
      · cases h
    · cases h
  · rw [hcreate] at h
    cases h
    exact createEntry_effectiveDate hcreate

/-- **What the loop adds.** With fresh keys a success has written an entry for every turn. -/
theorem writeLedgers_success (hquiet : ∀ t ∈ ts, t.env.Quiet)
    (hstored : FreshKeys i (s.stored tbl))
    (h : writeLedgers tbl w i actorId eventType counted ts s = (.ok result, s'))
    (hsuccess : result.isSuccess = true) :
    ∃ es j, List.Forall₂ (WrittenFor i) ts es ∧
      j.entries = (s.seen tbl).entries ++ es ∧ s' = (if ts = [] then s else s.save tbl j) ∧
      result = .success ((counted ++ ts.zip es).map (written i)) ∧
      postChecks w i s' = .ok () ∧ ∀ e ∈ es, e.sourceEventId = i.sourceEventId := by
  induction ts generalizing counted s with
  | nil =>
      simp only [writeLedgers] at h
      cases hchecks : postChecks w i s with
      | error e => simp [hchecks] at h
      | ok =>
          simp only [hchecks, Prod.mk.injEq, Except.ok.injEq] at h
          obtain ⟨rfl, rfl⟩ := h
          exact ⟨[], s.seen tbl, .nil, by simp, by simp, by simp, hchecks, by simp⟩
  | cons t ts ih =>
      have ht := hquiet t List.mem_cons_self
      have hts : ∀ u ∈ ts, u.env.Quiet := fun u hu => hquiet u (List.mem_cons_of_mem t hu)
      have hbefore : observeAll tbl s t.env.beforeInsert = s := by rw [ht.beforeInsert]; rfl
      have hafter : afterConflict tbl t s = s.rollback := by
        rw [afterConflict, hbefore, ht.afterRollback]
        rfl
      have hcases := writeLedger_cases tbl i actorId eventType t s
      rw [hbefore, hafter] at hcases
      rcases hcases with ⟨-, -, e, j, hw, hj, hid, hours, hcomplete⟩ |
        ⟨-, -, ⟨e, hfound, -⟩ | ⟨-, hw⟩⟩ | ⟨-, err, j, d, hw, -⟩
      · have hdate := writeLedger_effectiveDate ht hstored hw
        simp only [writeLedgers, hw] at h
        obtain ⟨es, j', hwritten, hj', hs', hresult, hchecks, hsources⟩ :=
          ih (s := s.save tbl j) hts hstored h
        refine ⟨e :: es, if ts = [] then j else j', .cons ⟨hcomplete, hid, hours.key, hdate⟩ hwritten,
          ?_, ?_, ?_, hchecks, List.forall_mem_cons.mpr ⟨hours.source, hsources⟩⟩
        · rw [Session.seen_save] at hj'
          split
          · rename_i hnil
            subst hnil
            obtain rfl := List.forall₂_nil_left_iff.mp hwritten
            exact hj
          · rw [hj', hj, List.append_assoc, List.singleton_append]
        · rw [if_neg (List.cons_ne_nil t ts), hs']
          split
          · rfl
          · rw [Session.save_save]
        · rw [hresult, List.append_assoc, List.singleton_append, List.zip_cons_cons]
      · obtain ⟨he, hkey⟩ := getExistingEntry_eq_some.mp hfound
        exact absurd hkey (hstored e he _)
      · simp only [writeLedgers, hw, Prod.mk.injEq, Except.ok.injEq] at h
        rw [← h.1] at hsuccess
        cases hsuccess
      · simp [writeLedgers, hw] at h

/-- A ledger that passes the balance check has equal totals in each of its currencies. -/
theorem totals_of_checkCurrencies {l : LedgerIntent} : ∀ {currencies : List String},
    checkCurrencies l currencies = .ok none → ∀ currency ∈ currencies, ∃ debit credit,
      l.totalDebits currency = .ok debit ∧ l.totalCredits currency = .ok credit ∧
        debit.numEq credit = true
  | [], _ => by simp
  | c :: cs, h => by
      simp only [checkCurrencies, bind, Except.bind] at h
      split at h
      · cases h
      · rename_i debit hdebit
        split at h
        · cases h
        · rename_i credit hcredit
          split at h
          · rename_i heq
            exact List.forall_mem_cons.mpr
              ⟨⟨debit, credit, hdebit, hcredit, heq⟩, totals_of_checkCurrencies h⟩
          · split at h <;> cases h

theorem totals_of_checkBalances {currency : String} : ∀ {ls : List LedgerIntent},
    checkBalances ls = .ok none → ∀ l ∈ ls, currency ∈ l.currencies → ∃ debit credit,
      l.totalDebits currency = .ok debit ∧ l.totalCredits currency = .ok credit ∧
        debit.numEq credit = true
  | [], _ => by simp
  | l :: ls, h => by
      simp only [checkBalances, bind, Except.bind] at h
      split at h
      · cases h
      · rename_i checked hchecked
        cases checked with
        | some failed => cases h
        | none =>
            exact List.forall_mem_cons.mpr ⟨fun hcurrency =>
              totals_of_checkCurrencies hchecked currency hcurrency, totals_of_checkBalances h⟩

/-- **What a write adds.** With fresh keys a success has written an entry for every ledger of
the intent, and the checks have passed on the journal with them. -/
theorem write_success (hquiet : ∀ n, (env n).Quiet) (hseen : FreshKeys i (s.seen tbl))
    (hstored : FreshKeys i (s.stored tbl))
    (h : write tbl w i actorId eventType env s = (.ok result, s'))
    (hsuccess : result.isSuccess = true) :
    ∃ resolved es j, checkBalances i.ledgerIntents = .ok none ∧
      resolveAllRoles w i = .ok resolved ∧
      List.Forall₂ (WrittenFor i) (toTurns resolved env) es ∧
      j.entries = (s.seen tbl).entries ++ es ∧ s' = s.save tbl j ∧
      result = .success (((toTurns resolved env).zip es).map (written i)) ∧
      postChecks w i s' = .ok () ∧ es ≠ [] ∧ ∀ e ∈ es, e.sourceEventId = i.sourceEventId := by
  unfold write at h
  rcases hbal : checkBalances i.ledgerIntents with signal | (_ | failed)
  · simp [hbal] at h
  · cases hres : resolveAllRoles w i with
    | error e =>
        simp only [hbal, hres, Prod.mk.injEq, Except.ok.injEq] at h
        rw [← h.1] at hsuccess
        cases hsuccess
    | ok resolved =>
        have hturns := quiet_toTurns hquiet resolved
        obtain ⟨l, hl⟩ := List.exists_mem_of_ne_nil _ i.ledgerIntents_ne_nil
        obtain ⟨t, ht, -⟩ := exists_turn hres env hl
        have hne : toTurns resolved env ≠ [] := List.ne_nil_of_mem ht
        simp only [hbal, hres, selectExisting_of_fresh hturns hseen] at h
        generalize hts : toTurns resolved env = turns at h hturns hne
        cases turns with
        | nil => exact absurd rfl hne
        | cons u us =>
            obtain ⟨es, j, hwritten, hj, hs', hresult, hchecks, hsources⟩ :=
              writeLedgers_success hturns hstored h hsuccess
            rw [if_neg hne] at hs'
            refine ⟨resolved, es, j, rfl, rfl, hts ▸ hwritten, hj, hs', by rw [hresult, hts]; rfl,
              hchecks, ?_, hsources⟩
            rintro rfl
            cases hwritten
  · simp only [hbal, Prod.mk.injEq, Except.ok.injEq] at h
    rw [← h.1, isSuccess_checkBalances hbal] at hsuccess
    cases hsuccess

/-- **A success of a call with fresh keys has posted an entry.** -/
theorem write_posted (hquiet : ∀ n, (env n).Quiet) (hseen : FreshKeys i (s.seen tbl))
    (hstored : FreshKeys i (s.stored tbl))
    (h : write tbl w i actorId eventType env s = (.ok result, s')) (hsuccess : result.isSuccess) :
    PostedFor (s'.seen tbl) i.sourceEventId := by
  obtain ⟨_, es, j, -, -, hwritten, hj, rfl, -, -, hne, hsources⟩ :=
    write_success hquiet hseen hstored h hsuccess
  obtain ⟨e, rest, rfl⟩ := List.exists_cons_of_ne_nil hne
  obtain ⟨t, _, ht, -⟩ := List.forall₂_cons_right_iff.mp hwritten
  rw [Session.seen_save, PostedFor, hj]
  exact ⟨e, by simp, hsources e List.mem_cons_self, ht.posted⟩

end FinanceAccounting.JournalWriter
