import FinanceAccounting.Kernel.Atomicity

/-! # The entries a call leaves

`Every.write`: a property of the stored and the seen entries outlasts a call of the writer, when
what other transactions commit meanwhile has it, and what the call itself creates.  What a call
creates stands under the key of its ledger, and is complete unless the call raises. -/

namespace FinanceAccounting.JournalWriter

open UnitOfWork (Session Table)
open Journal

variable {σ : Type} {tbl : Table σ Journal} {P : JournalEntry → Prop} {s : Session σ}
variable {es : List JournalEntry} {w : Services σ} {i : AccountingIntent} {actorId : UUID}
variable {eventType : String} {t : Turn} {ts : List Turn} {counted : List (Turn × JournalEntry)}
variable {env : ℕ → Interleaving}

/-- The property holds of the stored entries and of those that the session sees. -/
def Every (tbl : Table σ Journal) (P : JournalEntry → Prop) (s : Session σ) : Prop :=
  s.Both fun tables => ∀ e ∈ (tbl.read tables).entries, P e

/-- What is committed around a turn. -/
def Interleaved (P : JournalEntry → Prop) (env : Interleaving) : Prop :=
  ∀ e ∈ env.beforeSelect ++ env.foreign, P e

theorem Every.observeAll (h : Every tbl P s) (hes : ∀ e ∈ es, P e) :
    Every tbl P (observeAll tbl s es) where
  committed e he := (mem_or_mem_of_observeAll.2 he).elim (h.committed e) (hes e)
  current e he := (mem_or_mem_of_observeAll.1 he).elim (h.current e) (hes e)

theorem Every.save (h : Every tbl P s) {j : Journal} {d : JournalEntry}
    (hj : j.entries = (s.seen tbl).entries ++ [d]) (hd : P d) : Every tbl P (s.save tbl j) := by
  refine ⟨h.committed, fun e he => ?_⟩
  have hmem : e ∈ j.entries := by rwa [← Session.seen_save tbl s j]
  rw [hj, List.mem_append, List.mem_singleton] at hmem
  exact hmem.elim (h.current e) fun heq => heq ▸ hd

theorem Every.selectExisting (h : Every tbl P s) (henv : ∀ t ∈ ts, Interleaved P t.env) :
    Every tbl P (selectExisting tbl i ts s).2.2 := by
  induction ts generalizing s with
  | nil => exact h
  | cons t ts ih =>
      have hrest := ih (s := Journal.observeAll tbl s t.env.beforeSelect)
        (h.observeAll fun e he => henv t List.mem_cons_self e (List.mem_append_left _ he))
        fun u hu => henv u (List.mem_cons_of_mem t hu)
      simp only [JournalWriter.selectExisting]
      split
      · split
        · exact hrest
        · exact hrest
      · exact hrest

/-- **The loop** leaves entries of its ledgers, complete ones unless it raises. -/
theorem Every.writeLedgers (h : Every tbl P s) (henv : ∀ t ∈ ts, Interleaved P t.env)
    (hours : ∀ t ∈ ts, ∀ e, Ours i t e →
      ((∃ result, (writeLedgers tbl w i actorId eventType counted ts s).1 = .ok result) →
        Complete t e) → P e) :
    Every tbl P (writeLedgers tbl w i actorId eventType counted ts s).2 := by
  induction ts generalizing counted s with
  | nil =>
      simp only [JournalWriter.writeLedgers]
      split
      · exact h
      · exact h
  | cons t ts ih =>
      have henv' : ∀ u ∈ ts, Interleaved P u.env := fun u hu => henv u (List.mem_cons_of_mem t hu)
      have hforeign : ∀ e ∈ t.env.foreign, P e := fun e he =>
        henv t List.mem_cons_self e (List.mem_append_right _ he)
      have hbefore : Every tbl P (Journal.observeAll tbl s t.env.beforeInsert) :=
        h.observeAll fun e he => hforeign e (List.mem_append_left _ he)
      have hafter : Every tbl P (afterConflict tbl t s) :=
        Every.observeAll hbefore.rollback fun e he => hforeign e (List.mem_append_right _ he)
      rcases writeLedger_cases tbl i actorId eventType t s with
        ⟨-, -, e, j, hw, hj, -, hmine, hdone⟩ | ⟨-, -, ⟨e, -, hw⟩ | ⟨-, hw⟩⟩ |
        ⟨-, err, j, d, hw, hj, -, hmine⟩
      · simp only [JournalWriter.writeLedgers, hw] at hours ⊢
        exact ih (hbefore.save hj (hours t List.mem_cons_self e hmine fun _ => hdone)) henv'
          fun u hu => hours u (List.mem_cons_of_mem t hu)
      · simp only [JournalWriter.writeLedgers, hw] at hours ⊢
        exact ih hafter henv' fun u hu => hours u (List.mem_cons_of_mem t hu)
      · simp only [JournalWriter.writeLedgers, hw]
        exact hafter
      · simp only [JournalWriter.writeLedgers, hw] at hours ⊢
        refine hbefore.save hj (hours t List.mem_cons_self d hmine ?_)
        rintro ⟨result, hresult⟩
        cases hresult

/-- **A call** leaves entries that were there, that others commit, and that are ours. -/
theorem Every.write (h : Every tbl P s) (henv : ∀ n, Interleaved P (env n))
    (hours : ∀ resolved, checkBalances i.ledgerIntents = .ok none →
      resolveAllRoles w i = .ok resolved → ∀ t ∈ toTurns resolved env, ∀ e, Ours i t e →
        ((∃ result, (write tbl w i actorId eventType env s).1 = .ok result) → Complete t e) →
          P e) :
    Every tbl P (write tbl w i actorId eventType env s).2 := by
  unfold JournalWriter.write at hours ⊢
  split
  · exact h
  · exact h
  · rename_i hbal
    cases hres : resolveAllRoles w i with
    | error e => exact h
    | ok resolved =>
        simp only [hbal, hres] at hours
        have hturns : ∀ t ∈ toTurns resolved env, Interleaved P t.env := by
          intro t ht
          obtain ⟨q, -, rfl⟩ := List.mem_map.1 ht
          exact henv q.2
        have hselect := h.selectExisting (i := i) hturns
        have hsub := selectExisting_sublist tbl (toTurns resolved env) i s
        rcases hrun : JournalWriter.selectExisting tbl i (toTurns resolved env) s with
          ⟨existing, us, s₁⟩
        rw [hrun] at hselect hsub
        cases us with
        | nil =>
            simp only [hrun]
            exact hselect
        | cons u us =>
            simp only [hrun] at hours ⊢
            exact hselect.writeLedgers (fun t ht => hturns t (hsub.subset ht)) fun t ht =>
              hours resolved trivial rfl t (hsub.subset ht)

end FinanceAccounting.JournalWriter
