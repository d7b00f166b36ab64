import Mathlib.Data.List.Flatten
import FinanceAccounting.Kernel.JournalWriter

/-! # Atomicity over ledgers

When is a call of `JournalWriter.write` atomic over the ledgers of its intent: a success names
a POSTED entry with all its lines for every ledger, and after any other end no entry of the
call is in the journal?  `write_atomic_iff` gives the exact condition, for every store and
every interleaving with other transactions.  The invariant `Counted` relates what the loop has
counted to the two sides of the session: a posted entry stands until a rollback
(`Counted.written`), and a refused flush leaves what is committed (`Counted.refound`).

`write_loses_ledger` is the race the code misses: the second ledger loses, the rollback takes
the first ledger's entry with it, and the call reports success for both. -/

namespace FinanceAccounting.JournalWriter

open UnitOfWork (Session Table Result)
open Journal

variable {σ : Type} {tbl : Table σ Journal} {w : Services σ} {i : AccountingIntent}
variable {actorId : UUID} {eventType : String} {t : Turn} {s : Session σ}

/-! ### Fresh ids -/

/-- Entries other transactions commit once the ledger's turn has come. -/
def Interleaving.foreign (env : Interleaving) : List JournalEntry :=
  env.beforeInsert ++ env.afterRollback

/-- The ids drawn in the ledger's turn. -/
def Interleaving.laterIds (env : Interleaving) : List UUID := env.newId :: env.foreign.map (·.id)

/-- All ids drawn for the ledger. -/
def Interleaving.ids (env : Interleaving) : List UUID :=
  env.beforeSelect.map (·.id) ++ env.laterIds

variable {ids ids' : List UUID} {es : List JournalEntry} {e : JournalEntry} {ts : List Turn}

/-- No foreign entry has the id of an entry of the call. -/
theorem foreign_ne_newId (h : (ts.flatMap (·.env.laterIds)).Nodup) (ht : t ∈ ts)
    (he : e ∈ t.env.foreign) : e.id ∉ ts.map (·.env.newId) := by
  induction ts with
  | nil => cases ht
  | cons u us ih =>
      rw [List.flatMap_cons, List.nodup_append'] at h
      have hlater : ∀ v ∈ us, v.env.newId ∈ us.flatMap (·.env.laterIds) := fun v hv =>
        List.mem_flatMap.mpr ⟨v, hv, List.mem_cons_self⟩
      rw [List.map_cons, List.mem_cons, not_or]
      rcases List.mem_cons.mp ht with rfl | ht
      · have hmem : e.id ∈ t.env.foreign.map (·.id) := List.mem_map_of_mem he
        refine ⟨fun hid => (List.nodup_cons.mp h.1).1 (hid ▸ hmem), fun hid => ?_⟩
        obtain ⟨v, hv, hid⟩ := List.mem_map.mp hid
        exact h.2.2 (List.mem_cons_of_mem _ hmem) (hid ▸ hlater v hv)
      · have hmem : e.id ∈ us.flatMap (·.env.laterIds) :=
          List.mem_flatMap.mpr ⟨t, ht, List.mem_cons_of_mem _ (List.mem_map_of_mem he)⟩
        exact ⟨fun hid => h.2.2 List.mem_cons_self (hid ▸ hmem), ih h.2.1 ht⟩

/-! ### The ledgers that exist already -/

variable (tbl ts) in
theorem mem_selectExisting (i : AccountingIntent) (s : Session σ) :
    t ∈ ts ↔ t ∈ (selectExisting tbl i ts s).1.map Prod.fst ∨
      t ∈ (selectExisting tbl i ts s).2.1 := by
  induction ts generalizing s with
  | nil => simp [selectExisting]
  | cons u us ih =>
      rw [List.mem_cons, ih (observeAll tbl s u.env.beforeSelect)]
      simp only [selectExisting]
      split
      · split
        · simp [or_assoc]
        · simp [or_left_comm]
      · simp [or_left_comm]

variable (tbl ts) in
theorem selectExisting_sublist (i : AccountingIntent) (s : Session σ) :
    (selectExisting tbl i ts s).2.1.Sublist ts := by
  induction ts generalizing s with
  | nil => exact List.Sublist.refl []
  | cons u us ih =>
      have h := ih (observeAll tbl s u.env.beforeSelect)
      simp only [selectExisting]
      split
      · split
        · exact h.cons u
        · exact h.cons_cons u
      · exact h.cons_cons u

/-- The ids drawn after the selects are fresh for the session and the entries found. -/
theorem selectExisting_fresh (i : AccountingIntent)
    (h : Fresh tbl s (ids ++ ts.flatMap (·.env.ids))) :
    Fresh tbl (selectExisting tbl i ts s).2.2 (ids ++ ts.flatMap (·.env.laterIds)) ∧
      ∀ p ∈ (selectExisting tbl i ts s).1, p.2.id ∉ ids ++ ts.flatMap (·.env.laterIds) := by
  induction ts generalizing s ids with
  | nil => exact ⟨h, by simp [selectExisting]⟩
  | cons u us ih =>
      have hu : Fresh tbl (observeAll tbl s u.env.beforeSelect)
          ((ids ++ u.env.laterIds) ++ us.flatMap (·.env.ids)) := by
        refine Fresh.observeAll (h.of_perm ?_)
        rw [List.flatMap_cons, Interleaving.ids, List.append_assoc, List.append_assoc]
        exact List.perm_append_comm_assoc _ _ _
      obtain ⟨hfresh, hknown⟩ := ih hu
      have hhead : ∀ e ∈ ((observeAll tbl s u.env.beforeSelect).seen tbl).entries,
          e.id ∉ (ids ++ u.env.laterIds) ++ us.flatMap (·.env.laterIds) := by
        intro e he hid
        refine hu.seen e he ?_
        rcases List.mem_append.mp hid with hid | hid
        · exact List.mem_append_left _ hid
        · obtain ⟨v, hv, hid⟩ := List.mem_flatMap.mp hid
          exact List.mem_append_right _
            (List.mem_flatMap.mpr ⟨v, hv, List.mem_append_right _ hid⟩)
      rw [List.flatMap_cons, ← List.append_assoc]
      simp only [selectExisting]
      split
      · rename_i e hfound
        have he := (getExistingEntry_eq_some.mp hfound).1
        split
        · refine ⟨hfresh, fun p hp => ?_⟩
          rcases List.mem_cons.mp hp with rfl | hp
          · exact hhead e he
          · exact hknown p hp
        · exact ⟨hfresh, hknown⟩
      · exact ⟨hfresh, hknown⟩

/-! ### What is counted -/

/-- The counted entry is in the journal under the key of its ledger, complete. -/
def Stands (i : AccountingIntent) (j : Journal) (p : Turn × JournalEntry) : Prop :=
  ∃ e ∈ j.entries, e.id = p.2.id ∧ e.idempotencyKey = p.1.key i ∧ Complete p.1 e

/-- The journal has one entry for the ledger, complete, and the result names it. -/
structure Named (i : AccountingIntent) (j : Journal) (entries : List WrittenEntry) (t : Turn)
    (e : JournalEntry) : Prop where
  mem : e ∈ j.entries
  key : e.idempotencyKey = t.key i
  only : ∀ d ∈ j.entries, d.idempotencyKey = t.key i → d = e
  complete : Complete t e
  named : ∃ w ∈ entries, w.idempotencyKey = t.key i
  entryId : ∀ w ∈ entries, w.idempotencyKey = t.key i → w.entryId = e.id

variable {j j' : Journal} {counted : List (Turn × JournalEntry)} {p : Turn × JournalEntry}

/-- Every ledger has its entry, and the result names it, when all that is counted stands. -/
theorem named_iff :
    (∀ t ∈ counted.map Prod.fst, ∃ e, Named i j (counted.map (written i)) t e) ↔
      ∀ p ∈ counted, Stands i j p := by
  constructor
  · intro h p hp
    obtain ⟨e, he⟩ := h p.1 (List.mem_map_of_mem hp)
    exact ⟨e, he.mem, (he.entryId _ (List.mem_map_of_mem hp) rfl).symm, he.key, he.complete⟩
  · intro h t ht
    obtain ⟨p, hp, rfl⟩ := List.mem_map.mp ht
    obtain ⟨e, he, hid, hkey, hcomplete⟩ := h p hp
    refine ⟨e, he, hkey, fun d hd hdk => eq_of_key hd he (hdk.trans hkey.symm), hcomplete,
      ⟨_, List.mem_map_of_mem hp, rfl⟩, fun w hw hwk => ?_⟩
    obtain ⟨q, hq, rfl⟩ := List.mem_map.mp hw
    obtain ⟨d, hd, hdid, hdk, -⟩ := h q hq
    have hkeys : d.idempotencyKey = e.idempotencyKey := hdk.trans (Eq.trans hwk hkey.symm)
    rw [← eq_of_key hd he hkeys, hdid]
    rfl

theorem stands_congr (h : ∀ e, e.id = p.2.id → (e ∈ j.entries ↔ e ∈ j'.entries)) :
    Stands i j p ↔ Stands i j' p := by
  constructor
  · rintro ⟨e, he, hid, hrest⟩
    exact ⟨e, (h e hid).mp he, hid, hrest⟩
  · rintro ⟨e, he, hid, hrest⟩
    exact ⟨e, (h e hid).mpr he, hid, hrest⟩

/-- A stored entry with the counted id and key stands exactly if it is complete. -/
theorem stands_iff_complete (he : e ∈ j.entries) (hkey : e.idempotencyKey = t.key i) :
    Stands i j (t, e) ↔ Complete t e := by
  constructor
  · rintro ⟨d, hd, hid, -, hcomplete⟩
    rwa [← eq_of_id hd he hid]
  · exact fun h => ⟨e, he, rfl, hkey, h⟩

/-- What the loop knows before the turns `ts`.  `stands`: what is counted is in the journal.
`survives`: it would be after a rollback.  `own`: the journal holds an entry of the call, which
has an id of `mine`. -/
structure Counted (tbl : Table σ Journal) (i : AccountingIntent) (mine : List UUID)
    (counted : List (Turn × JournalEntry)) (ts : List Turn) (stands survives own : Prop)
    (s : Session σ) : Prop where
  stands_iff : stands ↔ ∀ p ∈ counted, Stands i (s.seen tbl) p
  survives_iff : survives ↔ ∀ p ∈ counted, Stands i (s.stored tbl) p
  own_iff : own ↔ ∃ e ∈ (s.seen tbl).entries, e.id ∈ mine
  clean : ∀ e ∈ (s.stored tbl).entries, e.id ∉ mine
  known : ∀ p ∈ counted, p.2.id ∉ ts.flatMap (·.env.laterIds)
  fresh : Fresh tbl s (ts.flatMap (·.env.laterIds))

variable {mine : List UUID} {stands survives own : Prop}

/-- The ids of a turn, in the order in which it draws them. -/
theorem fresh_turn (h : Fresh tbl s ((t :: ts).flatMap (·.env.laterIds))) :
    Fresh tbl (observeAll tbl s t.env.beforeInsert)
      (t.env.newId :: (t.env.afterRollback.map (·.id) ++ ts.flatMap (·.env.laterIds))) := by
  refine Fresh.observeAll (h.of_perm ?_)
  simp only [List.flatMap_cons, Interleaving.laterIds, Interleaving.foreign, List.map_append,
    List.cons_append, List.append_assoc]
  exact List.perm_middle.symm

theorem fresh_afterConflict (h : Fresh tbl s ((t :: ts).flatMap (·.env.laterIds))) :
    Fresh tbl (afterConflict tbl t s) (ts.flatMap (·.env.laterIds)) :=
  ((fresh_turn h).of_sublist (List.sublist_cons_self _ _)).rollback.observeAll

/-- Entries with an id that is drawn later are none of the foreign entries of the turn. -/
theorem Counted.ne_of_known (h : Counted tbl i mine counted (t :: ts) stands survives own s)
    (hp : p ∈ counted) (he : e.id = p.2.id) :
    e.id ≠ t.env.newId ∧ ∀ d ∈ t.env.foreign, e.id ≠ d.id := by
  have hknown := h.known p hp
  rw [← he, List.flatMap_cons, List.mem_append, not_or, Interleaving.laterIds, List.mem_cons,
    not_or] at hknown
  exact ⟨hknown.1.1, fun d hd heq => hknown.1.2 (heq ▸ List.mem_map_of_mem hd)⟩

theorem Counted.known_tail (h : Counted tbl i mine counted (t :: ts) stands survives own s) :
    ∀ p ∈ counted, p.2.id ∉ ts.flatMap (·.env.laterIds) := by
  intro p hp hid
  refine h.known p hp ?_
  rw [List.flatMap_cons]
  exact List.mem_append_right _ hid

/-- The turn posts an entry. -/
theorem Counted.written (h : Counted tbl i mine counted (t :: ts) stands survives own s)
    (hmine : t.env.newId ∈ mine) (hforeign : ∀ d ∈ t.env.foreign, d.id ∉ mine)
    (hj : j.entries =
      ((observeAll tbl s t.env.beforeInsert).seen tbl).entries ++ [e])
    (hid : e.id = t.env.newId) (hkey : e.idempotencyKey = t.key i) (hcomplete : Complete t e) :
    Counted tbl i mine (counted ++ [(t, e)]) ts stands False True
      ((observeAll tbl s t.env.beforeInsert).save tbl j) := by
  have hturn := fresh_turn h.fresh
  have hnodup := List.nodup_cons.mp hturn.nodup
  have hmem : e ∈ j.entries := by simp [hj]
  refine ⟨?_, ?_, ?_, ?_, ?_, ?_⟩
  · rw [h.stands_iff, List.forall_mem_append, Session.seen_save]
    have hnew : ∀ p ∈ [(t, e)], Stands i j p := by
      simpa using (stands_iff_complete hmem hkey).mpr hcomplete
    rw [and_iff_left hnew]
    refine forall₂_congr fun p hp => stands_congr fun d hd => ?_
    obtain ⟨hne, hnf⟩ := h.ne_of_known hp hd
    have hde : d ≠ e := fun hde => hne (hde ▸ hid)
    rw [hj, List.mem_append, List.mem_singleton, or_iff_left hde]
    exact (mem_observeAll fun d' hd' => hnf d' (List.mem_append_left _ hd')).1.symm
  · rw [false_iff]
    intro hall
    obtain ⟨d, hd, hdid, -⟩ := hall (t, e) (by simp)
    exact hturn.stored d hd (by simp [hdid, hid])
  · rw [true_iff, Session.seen_save]
    exact ⟨e, hmem, hid ▸ hmine⟩
  · intro d hd
    rcases mem_or_mem_of_observeAll.2 hd with hd | hd
    · exact h.clean d hd
    · exact hforeign d (List.mem_append_left _ hd)
  · intro p hp
    rcases List.mem_append.mp hp with hp | hp
    · exact h.known_tail p hp
    · obtain rfl := List.mem_singleton.mp hp
      exact fun hmem => hnodup.1 (List.mem_append_right _ (hid ▸ hmem))
  · have htail := hturn.of_sublist (List.sublist_cons_self _ _)
    have hlast := htail.of_sublist (List.sublist_append_right _ _)
    refine ⟨hlast.nodup, fun d hd => ?_, hlast.stored⟩
    rw [Session.seen_save, hj, List.mem_append, List.mem_singleton] at hd
    rcases hd with hd | rfl
    · exact hlast.seen d hd
    · exact fun hmem => hnodup.1 (List.mem_append_right _ (hid ▸ hmem))

variable (tbl) in
theorem seen_afterConflict :
    (afterConflict tbl t s).seen tbl = (afterConflict tbl t s).stored tbl :=
  seen_observeAll_rollback

/-- A rollback takes the entries of the call with it. -/
theorem Counted.clean_afterConflict
    (h : Counted tbl i mine counted (t :: ts) stands survives own s)
    (hforeign : ∀ d ∈ t.env.foreign, d.id ∉ mine) :
    ∀ d ∈ ((afterConflict tbl t s).seen tbl).entries, d.id ∉ mine := by
  rw [seen_afterConflict]
  intro d hd
  rcases mem_or_mem_of_observeAll.2 hd with hd | hd
  · rcases mem_or_mem_of_observeAll.2 hd with hd | hd
    · exact h.clean d hd
    · exact hforeign d (List.mem_append_left _ hd)
  · exact hforeign d (List.mem_append_right _ hd)

/-- The turn is rolled back, and counts the entry it then finds. -/
theorem Counted.refound (h : Counted tbl i mine counted (t :: ts) stands survives own s)
    (hforeign : ∀ d ∈ t.env.foreign, d.id ∉ mine)
    (he : e ∈ ((afterConflict tbl t s).seen tbl).entries) (hkey : e.idempotencyKey = t.key i) :
    Counted tbl i mine (counted ++ [(t, e)]) ts (survives ∧ Complete t e)
      (survives ∧ Complete t e) False (afterConflict tbl t s) := by
  have hclean := h.clean_afterConflict hforeign
  have hstands : survives ∧ Complete t e ↔
      ∀ p ∈ counted ++ [(t, e)], Stands i ((afterConflict tbl t s).seen tbl) p := by
    rw [List.forall_mem_append, h.survives_iff]
    refine and_congr (forall₂_congr fun p hp => stands_congr fun d hd => ?_) ?_
    · have hnf := (h.ne_of_known hp hd).2
      rw [seen_afterConflict, afterConflict,
        (mem_observeAll fun d' hd' => hnf d' (List.mem_append_right _ hd')).2,
        Session.stored_rollback,
        (mem_observeAll fun d' hd' => hnf d' (List.mem_append_left _ hd')).2]
    · simp [stands_iff_complete he hkey]
  refine ⟨hstands, seen_afterConflict tbl ▸ hstands, ?_,
    seen_afterConflict tbl ▸ hclean, ?_, fresh_afterConflict h.fresh⟩
  · rw [false_iff]
    rintro ⟨d, hd, hdm⟩
    exact hclean d hd hdm
  · intro p hp
    rcases List.mem_append.mp hp with hp | hp
    · exact h.known_tail p hp
    · obtain rfl := List.mem_singleton.mp hp
      exact (fresh_afterConflict h.fresh).seen e he

/-! ### Atomicity -/

/-- No entry of a call that draws ids for `n` ledgers is in the journal. -/
def Untouched (env : ℕ → Interleaving) (n : ℕ) (j : Journal) : Prop :=
  ∀ k < n, ∀ e ∈ j.entries, e.id ≠ (env k).newId

/-- P11: a success names a complete entry for every ledger of the intent, the only one under
its key; after any other end no entry of the call is in the journal. -/
def Atomic (tbl : Table σ Journal) (w : Services σ) (i : AccountingIntent)
    (env : ℕ → Interleaving) (r : Result WriteError σ JournalWriteResult) : Prop :=
  match r.1 with
  | .ok result =>
      if result.isSuccess then
        ∃ resolved, resolveAllRoles w i = .ok resolved ∧
          ∀ t ∈ toTurns resolved env, ∃ e, Named i (r.2.seen tbl) result.entries t e
      else Untouched env i.ledgerIntents.length (r.2.seen tbl)
  | .error _ => Untouched env i.ledgerIntents.length (r.2.seen tbl)

/-- The condition on the ledgers still to write, given whether what is counted `stands` in the
journal, whether it `survives` a rollback, and whether the journal holds an `own` entry of the
call: no turn raises; after a refused flush nothing is found under the key, or a complete entry
while all that is counted is committed; and the final checks pass, or the journal holds no own
entry. -/
def AtomicFrom (tbl : Table σ Journal) (w : Services σ) (i : AccountingIntent) (actorId : UUID)
    (eventType : String) : Prop → Prop → Prop → List Turn → Session σ → Prop
  | stands, _, own, [], s =>
      match postChecks w i s with
      | .error _ => ¬own
      | .ok () => stands
  | stands, survives, _, t :: ts, s =>
      ¬Raises tbl i actorId eventType t s ∧
        (Refused tbl i actorId eventType t s → ∀ e,
          ((afterConflict tbl t s).seen tbl).getExistingEntry (t.key i) = some e →
            AtomicFrom tbl w i actorId eventType (survives ∧ Complete t e)
              (survives ∧ Complete t e) False ts (afterConflict tbl t s)) ∧
        (¬Refused tbl i actorId eventType t s →
          AtomicFrom tbl w i actorId eventType stands False True ts
            (writeLedger tbl i actorId eventType t s).session)

/-- The condition on a call: it fails before it selects anything, or the entries it finds are
complete and the ledgers to write meet theirs. -/
def AtomicWhen (tbl : Table σ Journal) (w : Services σ) (i : AccountingIntent) (actorId : UUID)
    (eventType : String) (env : ℕ → Interleaving) (s : Session σ) : Prop :=
  ∀ resolved, checkBalances i.ledgerIntents = .ok none → resolveAllRoles w i = .ok resolved →
    match selectExisting tbl i (toTurns resolved env) s with
    | (existing, [], s) => ∀ p ∈ existing, Stands i (s.seen tbl) p
    | (existing, t :: ts, s) =>
        AtomicFrom tbl w i actorId eventType (∀ p ∈ existing, Stands i (s.seen tbl) p)
          (∀ p ∈ existing, Stands i (s.stored tbl) p) False (t :: ts) s

/-- What atomicity says about the rest of the loop. -/
def LoopAtomic (tbl : Table σ Journal) (i : AccountingIntent) (mine : List UUID) (ts : List Turn)
    (r : Result WriteError σ JournalWriteResult) : Prop :=
  match r.1 with
  | .ok result =>
      if result.isSuccess then ∀ t ∈ ts, ∃ e, Named i (r.2.seen tbl) result.entries t e
      else ¬∃ e ∈ (r.2.seen tbl).entries, e.id ∈ mine
  | .error _ => ¬∃ e ∈ (r.2.seen tbl).entries, e.id ∈ mine

theorem loopAtomic_congr {ts us : List Turn} {r : Result WriteError σ JournalWriteResult}
    (h : ∀ t, t ∈ ts ↔ t ∈ us) : LoopAtomic tbl i mine ts r ↔ LoopAtomic tbl i mine us r := by
  simp only [LoopAtomic, h]

/-- **The loop lemma.** -/
theorem loopAtomic_writeLedgers (hinv : Counted tbl i mine counted ts stands survives own s)
    (hmine : ∀ t ∈ ts, t.env.newId ∈ mine)
    (hforeign : ∀ t ∈ ts, ∀ d ∈ t.env.foreign, d.id ∉ mine) :
    LoopAtomic tbl i mine (counted.map Prod.fst ++ ts)
        (writeLedgers tbl w i actorId eventType counted ts s) ↔
      AtomicFrom tbl w i actorId eventType stands survives own ts s := by
  induction ts generalizing counted stands survives own s with
  | nil =>
      cases hchecks : postChecks w i s with
      | error e =>
          simp only [writeLedgers, AtomicFrom, hchecks]
          exact not_congr hinv.own_iff.symm
      | ok =>
          simp only [writeLedgers, AtomicFrom, hchecks]
          rw [List.append_nil, hinv.stands_iff]
          exact named_iff
  | cons t ts ih =>
      have hmine' : ∀ u ∈ ts, u.env.newId ∈ mine := fun u hu => hmine u (List.mem_cons_of_mem t hu)
      have hforeign' : ∀ u ∈ ts, ∀ d ∈ u.env.foreign, d.id ∉ mine := fun u hu =>
        hforeign u (List.mem_cons_of_mem t hu)
      have hcounted : ∀ e, counted.map Prod.fst ++ t :: ts =
          (counted ++ [(t, e)]).map Prod.fst ++ ts := by simp
      rcases writeLedger_cases tbl i actorId eventType t s with
        ⟨hcalm, hfree, e, j, hw, hj, hid, hours, hcomplete⟩ |
        ⟨hcalm, hrefused, ⟨e, hfound, hw⟩ | ⟨hnone, hw⟩⟩ | ⟨hraises, err, j, d, hw, hj, hid, -⟩
      · have hnext := hinv.written (hmine t List.mem_cons_self) (hforeign t List.mem_cons_self)
          hj hid hours.key hcomplete
        simp only [writeLedgers, AtomicFrom, hw, Outcome.session, hcalm, hfree,
          not_false_eq_true, false_implies, true_implies, true_and]
        rw [hcounted e]
        exact ih hnext hmine' hforeign'
      · obtain ⟨he, hkey⟩ := getExistingEntry_eq_some.mp hfound
        have hnext := hinv.refound (hforeign t List.mem_cons_self) he hkey
        simp only [writeLedgers, AtomicFrom, hw, hcalm, hrefused, hfound, Option.some.injEq,
          forall_eq', not_true_eq_false, not_false_eq_true, false_implies, true_implies, and_true,
          true_and]
        rw [hcounted e]
        exact ih hnext hmine' hforeign'
      · simp only [writeLedgers, AtomicFrom, hw, hcalm, hrefused, hnone, reduceCtorEq,
          not_true_eq_false, not_false_eq_true, false_implies, implies_true, and_true, iff_true]
        rintro ⟨d, hd, hdm⟩
        exact hinv.clean_afterConflict (hforeign t List.mem_cons_self) d hd hdm
      · simp only [writeLedgers, AtomicFrom, hw, hraises, not_true_eq_false, false_and, iff_false,
          LoopAtomic, not_not]
        exact ⟨d, by simp [hj], hid ▸ hmine t List.mem_cons_self⟩

theorem map_fst_resolveLedgers {coaVersion : ℤ} :
    ∀ {ls : List LedgerIntent} {resolved : List (LedgerIntent × List ResolvedIntentLine)},
      resolveLedgers w coaVersion ls = .ok resolved → resolved.map Prod.fst = ls
  | [], resolved, h => by
      obtain rfl := Except.ok.inj h
      rfl
  | l :: ls, resolved, h => by
      simp only [resolveLedgers] at h
      cases hl : resolveLines w l.ledgerId coaVersion 0 l.lines with
      | error e => simp [hl, bind, Except.bind] at h
      | ok lines =>
          cases hls : resolveLedgers w coaVersion ls with
          | error e => simp [hl, hls, bind, Except.bind] at h
          | ok rest =>
              obtain rfl : (l, lines) :: rest = resolved := by
                simpa [hl, hls, pure, Except.pure, bind, Except.bind] using h
              rw [List.map_cons, map_fst_resolveLedgers hls]

/-- The turns are the ledgers of the intent. -/
theorem map_ledgerIntent_toTurns {resolved : List (LedgerIntent × List ResolvedIntentLine)}
    (h : resolveAllRoles w i = .ok resolved) (env : ℕ → Interleaving) :
    (toTurns resolved env).map (·.ledgerIntent) = i.ledgerIntents := by
  rw [← map_fst_resolveLedgers h, ← List.zipIdx_map_fst 0 resolved, List.map_map,
    List.zipIdx_map_fst]
  simp [toTurns]

/-- Every ledger of the intent has a turn. -/
theorem exists_turn {resolved : List (LedgerIntent × List ResolvedIntentLine)}
    (h : resolveAllRoles w i = .ok resolved) (env : ℕ → Interleaving) {l : LedgerIntent}
    (hl : l ∈ i.ledgerIntents) : ∃ t ∈ toTurns resolved env, t.ledgerIntent = l := by
  rw [← map_ledgerIntent_toTurns h env] at hl
  exact List.mem_map.mp hl

theorem map_env_toTurns (resolved : List (LedgerIntent × List ResolvedIntentLine))
    (env : ℕ → Interleaving) :
    (toTurns resolved env).map (·.env) = (List.range resolved.length).map env := by
  rw [List.range_eq_range', ← List.zipIdx_map_snd, List.map_map]
  simp [toTurns]

theorem flatMap_toTurns (resolved : List (LedgerIntent × List ResolvedIntentLine))
    (env : ℕ → Interleaving) (f : Interleaving → List UUID) :
    (toTurns resolved env).flatMap (fun t => f t.env) =
      (List.range resolved.length).flatMap fun k => f (env k) := by
  calc (toTurns resolved env).flatMap (fun t => f t.env)
      = ((toTurns resolved env).map (·.env)).flatMap f := (List.flatMap_map _ _ _).symm
    _ = ((List.range resolved.length).map env).flatMap f := by rw [map_env_toTurns]
    _ = (List.range resolved.length).flatMap fun k => f (env k) :=
        List.flatMap_map _ _ _

/-- The ids drawn by a call for `n` ledgers, and by the transactions around it. -/
def drawn (env : ℕ → Interleaving) (n : ℕ) : List UUID :=
  (List.range n).flatMap fun k => (env k).ids

theorem untouched_iff {resolved : List (LedgerIntent × List ResolvedIntentLine)}
    {env : ℕ → Interleaving} :
    Untouched env resolved.length j ↔
      ¬∃ e ∈ j.entries, e.id ∈ (toTurns resolved env).map (·.env.newId) := by
  have h : (toTurns resolved env).map (·.env.newId) =
      (List.range resolved.length).map fun k => (env k).newId := by
    have hmap := congrArg (List.map (·.newId)) (map_env_toTurns resolved env)
    rwa [List.map_map, List.map_map] at hmap
  rw [h]
  simp only [Untouched, List.mem_map, List.mem_range, not_exists, not_and]
  exact ⟨fun hu e he k hk hid => hu k hk e he hid.symm, fun hu k hk e he hid => hu e he k hk hid.symm⟩

/-- A call that ends before it selects leaves the session alone. -/
theorem untouched_of_fresh {env : ℕ → Interleaving} {n : ℕ} (h : Fresh tbl s (drawn env n)) :
    Untouched env n (s.seen tbl) := by
  intro k hk e he hid
  refine h.seen e he (List.mem_flatMap.mpr ⟨k, List.mem_range.mpr hk, ?_⟩)
  rw [hid]
  exact List.mem_append_right _ List.mem_cons_self

theorem isSuccess_checkCurrencies {l : LedgerIntent} {failed : JournalWriteResult} :
    ∀ {cs : List String}, checkCurrencies l cs = .ok (some failed) → failed.isSuccess = false
  | [], h => by cases h
  | c :: cs, h => by
      simp only [checkCurrencies, bind, Except.bind] at h
      split at h
      · cases h
      · split at h
        · cases h
        · split at h
          · exact isSuccess_checkCurrencies h
          · split at h
            · cases h
            · obtain rfl := Option.some.inj (Except.ok.inj h)
              rfl

theorem isSuccess_checkBalances {failed : JournalWriteResult} :
    ∀ {ls : List LedgerIntent}, checkBalances ls = .ok (some failed) → failed.isSuccess = false
  | [], h => by cases h
  | l :: ls, h => by
      simp only [checkBalances, bind, Except.bind] at h
      split at h
      · cases h
      · rename_i first hfirst
        cases first with
        | none => exact isSuccess_checkBalances h
        | some f =>
            obtain rfl := Option.some.inj (Except.ok.inj h)
            exact isSuccess_checkCurrencies hfirst

/-- **P11, exactly.** For every intent, every store and every interleaving, a call of `write`
is atomic over the ledgers of the intent if and only if it meets `AtomicWhen`. -/
theorem write_atomic_iff (tbl : Table σ Journal) (w : Services σ) (i : AccountingIntent)
    (actorId : UUID) (eventType : String) (env : ℕ → Interleaving) (s : Session σ)
    (h : Fresh tbl s (drawn env i.ledgerIntents.length)) :
    Atomic tbl w i env (write tbl w i actorId eventType env s) ↔
      AtomicWhen tbl w i actorId eventType env s := by
  unfold write AtomicWhen
  rcases hbal : checkBalances i.ledgerIntents with signal | (_ | failed)
  · simpa [Atomic] using untouched_of_fresh h
  · cases hres : resolveAllRoles w i with
    | error e =>
        simpa [Atomic, JournalWriteResult.roleResolutionFailed, JournalWriteResult.isSuccess]
          using untouched_of_fresh h
    | ok resolved =>
        have hlen : resolved.length = i.ledgerIntents.length := by
          rw [← map_fst_resolveLedgers hres, List.length_map]
        set turns := toTurns resolved env with hturns
        have hfresh : Fresh tbl s ([] ++ turns.flatMap (·.env.ids)) := by
          rw [List.nil_append, hturns, flatMap_toTurns resolved env Interleaving.ids, hlen]
          exact h
        obtain ⟨hsel, hknown⟩ := selectExisting_fresh i hfresh
        have hmem := fun t => mem_selectExisting tbl turns (t := t) i s
        have hsub := selectExisting_sublist tbl turns i s
        have hatomic : ∀ r : Result WriteError σ JournalWriteResult,
            Atomic tbl w i env r ↔ LoopAtomic tbl i (turns.map (·.env.newId)) turns r := by
          rintro ⟨_ | result, s'⟩
          · simp only [Atomic, LoopAtomic, ← hlen]
            exact untouched_iff
          · simp only [Atomic, LoopAtomic, ← hlen, hres, Except.ok.injEq, exists_eq_left']
            split
            · rfl
            · exact untouched_iff
        simp only [Except.ok.injEq, forall_eq', true_implies]
        rw [hatomic, ← hturns]
        rcases hsplit : selectExisting tbl i turns s with ⟨existing, new, s'⟩
        simp only [hsplit, List.nil_append] at hsel hknown hmem hsub
        have hcover : ∀ t, t ∈ turns ↔ t ∈ existing.map Prod.fst ++ new := by simpa using hmem
        rw [loopAtomic_congr hcover]
        cases new with
        | nil =>
            rw [List.append_nil]
            exact named_iff
        | cons t ts =>
            have hids : ∀ x, x ∈ turns.map (·.env.newId) → x ∈ turns.flatMap (·.env.laterIds) := by
              intro x hx
              obtain ⟨u, hu, rfl⟩ := List.mem_map.mp hx
              exact List.mem_flatMap.mpr ⟨u, hu, List.mem_cons_self⟩
            refine loopAtomic_writeLedgers ⟨Iff.rfl, Iff.rfl, ?_, ?_, ?_, ?_⟩ ?_ ?_
            · simpa using fun e he hid => hsel.seen e he (hids _ (List.mem_map.mpr hid))
            · exact fun e he hid => hsel.stored e he (hids _ hid)
            · exact fun p hp hid => hknown p hp ((hsub.flatMap _).subset hid)
            · exact hsel.of_sublist (hsub.flatMap _)
            · exact fun u hu => List.mem_map_of_mem (hsub.subset hu)
            · exact fun u hu d hd => foreign_ne_newId hsel.nodup (hsub.subset hu) hd
  · simpa [Atomic, isSuccess_checkBalances hbal] using untouched_of_fresh h

/-- After an atomic success every ledger has its entry. -/
theorem Atomic.exists_entry {env : ℕ → Interleaving} {result : JournalWriteResult}
    (h : Atomic tbl w i env (.ok result, s)) (hsuccess : result.isSuccess) {l : LedgerIntent}
    (hl : l ∈ i.ledgerIntents) :
    ∃ e ∈ (s.seen tbl).entries, e.idempotencyKey = i.idempotencyKey l.ledgerId ∧
      e.status = .posted := by
  simp only [Atomic, hsuccess, if_true] at h
  obtain ⟨resolved, hres, hall⟩ := h
  obtain ⟨t, ht, rfl⟩ := exists_turn hres env hl
  obtain ⟨e, he⟩ := hall t ht
  exact ⟨e, he.mem, he.key, he.complete.posted⟩

/-! ### A race over two ledgers -/

def sampleLine (role : String) (side : LineSide) : IntentLine where
  accountRole := role
  side := side
  amount := .finite false 10000 (-2)
  currency := "USD"
  amount_nonneg := by decide

def sampleLedger (ledgerId : String) : LedgerIntent where
  ledgerId := ledgerId
  lines := [sampleLine "Expense" .debit, sampleLine "Payable" .credit]
  lines_ne_nil := by simp

def sampleIntent : AccountingIntent where
  econEventId := ⟨0xec⟩
  sourceEventId := ⟨0xe⟩
  profileId := "ap.invoice"
  profileVersion := 1
  effectiveDate := sampleTime.date
  ledgerIntents := [sampleLedger "GL", sampleLedger "AP"]
  ledgerIntents_ne_nil := by simp
  snapshot := { coaVersion := 1, dimensionSchemaVersion := 1 }

def sampleServices : Services Journal where
  bindings role := if role = "Expense" then some ⟨⟨0xa1⟩, "5000"⟩ else some ⟨⟨0xa2⟩, "2000"⟩

/-- The entry another transaction commits for the AP ledger. -/
def sampleRival : JournalEntry where
  id := ⟨0xb1⟩
  sourceEventId := ⟨0xe⟩
  sourceEventType := "economic.posting"
  occurredAt := sampleTime
  effectiveDate := sampleTime.date
  actorId := ⟨0xac⟩
  status := .posted
  idempotencyKey := sampleIntent.idempotencyKey "AP"
  postingRuleVersion := 1
  coaVersion := some 1
  dimensionSchemaVersion := some 1
  roundingPolicyVersion := some 1
  currencyRegistryVersion := some 1
  seq := some 1
  entryMetadata := none
  description := none

/-- The AP ledger, the second one, loses the race when there is one. -/
def sampleEnv (race : Bool) (n : ℕ) : Interleaving where
  newId := ⟨BitVec.ofNat 128 (100 + n)⟩
  now := sampleTime
  postedAt := sampleTime
  beforeInsert := if race && n = 1 then [sampleRival] else []

theorem fresh_empty {ids : List UUID} (h : ids.Nodup) :
    Fresh (Table.self Journal) (Session.start Journal.empty) ids where
  nodup := h
  seen e he := by cases he
  stored e he := by cases he

theorem write_atomic_sample :
    Atomic (Table.self Journal) sampleServices sampleIntent (sampleEnv false)
        (write (Table.self Journal) sampleServices sampleIntent ⟨0xac⟩ "economic.posting"
          (sampleEnv false) (Session.start Journal.empty)) ↔
      AtomicWhen (Table.self Journal) sampleServices sampleIntent ⟨0xac⟩ "economic.posting"
        (sampleEnv false) (Session.start Journal.empty) :=
  write_atomic_iff (Table.self Journal) sampleServices sampleIntent ⟨0xac⟩ "economic.posting"
    (sampleEnv false) (Session.start Journal.empty) (fresh_empty (by decide +kernel))

/-- The GL entry is written, the AP entry is refused, and the rollback takes the GL entry with
it: the call reports success for both ledgers. -/
theorem write_loses_ledger :
    let r := write (Table.self Journal) sampleServices sampleIntent ⟨0xac⟩ "economic.posting"
      (sampleEnv true) (Session.start Journal.empty)
    r.1.toOption.map (fun result => (result.isSuccess, result.entries.map (·.ledgerId))) =
        some (true, ["GL", "AP"]) ∧
      r.2.current.getExistingEntry (sampleIntent.idempotencyKey "GL") = none ∧
      ¬Atomic (Table.self Journal) sampleServices sampleIntent (sampleEnv true) r := by
  intro r
  have hok : r.1.toOption.map (fun result => (result.isSuccess, result.entries.map (·.ledgerId))) =
      some (true, ["GL", "AP"]) := by decide +kernel
  have hnone : r.2.current.getExistingEntry (sampleIntent.idempotencyKey "GL") = none := by
    decide +kernel
  refine ⟨hok, hnone, fun h => ?_⟩
  rcases hr : r with ⟨e | result, s⟩
  · simp [hr, Except.toOption] at hok
  · rw [hr] at h hok hnone
    have hsuccess : result.isSuccess = true := (Prod.mk.inj (Option.some.inj hok)).1
    obtain ⟨e, he, hkey, -⟩ := h.exists_entry hsuccess (l := sampleLedger "GL") List.mem_cons_self
    exact getExistingEntry_eq_none.mp hnone e he hkey

end FinanceAccounting.JournalWriter
