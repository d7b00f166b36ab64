import FinanceAccounting.Kernel.PostingLaws
import FinanceAccounting.Services.SubledgerPosting

/-! # A row for every line

`post_subledger_entries` posts a row for every line of a ledger that has a service, a journal entry
and an entity; a ledger without an entry or an entity is passed over.  When it returns, the lines of
all other ledgers have exactly one row each, and the journal entries are still there
(`all_lines_posted`).  The rows may be there before the call: it is enough that with a committed row the
rows before it are committed, and the journal entries too, because the handler of a refused insert
goes back to what is committed. -/

namespace FinanceAccounting.SubledgerPosting

open JournalWriter (WrittenEntry)
open ModulePosting (Call)
open Subledger
open UnitOfWork (Session Result)

/-- The rows of an intent. -/
def intentRows (b : Builtins) (c : Call) (i : AccountingIntent) (written : List WrittenEntry) :
    List SubledgerEntry :=
  (i.ledgerIntents.flatMap (ledgerRows b c i written)).map (·.2)

/-- The journal entries of the result are in the journal. -/
def Journaled (written : List WrittenEntry) (books : Books) : Prop :=
  ∀ w ∈ written, w.entryId ∈ books.tables.journal.entries.map (·.id)

/-- A row with the same key is there. -/
def HasRow (books : Books) (row : SubledgerEntry) : Prop :=
  ∃ existing ∈ books.subledger, rowKey existing = rowKey row

/-- Every line of the ledger has exactly one row, linked to the entry of the ledger. -/
def LinesPosted (written : List WrittenEntry) (books : Books) (l : LedgerIntent)
    (t : SubledgerType) : Prop :=
  ∃ id, entryIdByLedger written l.ledgerId = some id ∧ ∀ n < l.lines.length,
    books.subledger.countP (fun row => rowKey row = some (id, t.value, toString n)) = 1

/-- With a committed row, the rows before it and the journal entries are committed. -/
def CommittedInOrder (written : List WrittenEntry) (rows : List SubledgerEntry)
    (committed : Books) : Prop :=
  ∀ before row after, rows = before ++ row :: after → HasRow committed row →
    (∀ r ∈ before, HasRow committed r) ∧ Journaled written committed

section Rows

variable {b : Builtins} {c : Call} {i : AccountingIntent} {written : List WrittenEntry}
variable {s s' : Session Books} {row : SubledgerEntry} {svc : SubledgerService}
variable {ps : List (SubledgerService × SubledgerEntry)} {l : LedgerIntent} {t : SubledgerType}

/-! ### One row -/

/-- **Step lemma**: the row is inserted, or it is committed already. -/
theorem post_cases (h : svc.post row s = (.ok (), s')) :
    s'.committed = s.committed ∧
      ((s'.current.tables = s.current.tables ∧
          s'.current.subledger = s.current.subledger ++ [row]) ∨
        (s'.current = s.committed ∧ HasRow s.committed row)) := by
  unfold SubledgerService.post at h
  simp only [] at h
  split at h
  · cases h
  · split at h
    · cases h
    · unfold postEntry at h
      split at h
      · rename_i books hinsert
        cases h
        unfold Books.insert at hinsert
        split at hinsert
        · cases hinsert
          exact ⟨rfl, Or.inl ⟨rfl, rfl⟩⟩
        · cases hinsert
      · simp only [] at h
        split at h
        · rename_i hany
          cases h
          obtain ⟨existing, hmem, hkey⟩ := List.any_eq_true.mp hany
          simp only [Bool.and_eq_true, decide_eq_true_eq] at hkey
          obtain ⟨⟨hentry, htype⟩, hline⟩ := hkey
          refine ⟨rfl, Or.inr ⟨rfl, existing, hmem, ?_⟩⟩
          unfold rowKey
          rw [hentry, htype, hline]
        · cases h

/-! ### All rows -/

/-- **The loop**: what has been posted stays, and what is there was there or has been posted. -/
theorem postRows_posted {done : List SubledgerEntry}
    (horder : CommittedInOrder written (done ++ ps.map (·.2)) s.committed)
    (hdone : ∀ r ∈ done, HasRow s.current r) (hjournal : Journaled written s.current)
    (h : postRows ps s = (.ok (), s')) :
    (∀ r ∈ done ++ ps.map (·.2), HasRow s'.current r) ∧ Journaled written s'.current ∧
      ∀ r ∈ s'.current.subledger, r ∈ s.current.subledger ∨ r ∈ s.committed.subledger ∨
        r ∈ ps.map (·.2) := by
  induction ps generalizing done s with
  | nil =>
      cases h
      rw [List.map_nil, List.append_nil]
      exact ⟨hdone, hjournal, fun r hr => Or.inl hr⟩
  | cons p ps ih =>
      obtain ⟨_, s₁, hpost, hrest⟩ := Result.andThen_eq_ok.mp h
      obtain ⟨hcommitted, hcases⟩ := post_cases hpost
      have hsplit : done ++ (p :: ps).map (·.2) = (done ++ [p.2]) ++ ps.map (·.2) := by
        rw [List.map_cons, List.append_assoc, List.singleton_append]
      rw [hsplit] at horder ⊢
      rw [← hcommitted] at horder
      have hstep : (∀ r ∈ done ++ [p.2], HasRow s₁.current r) ∧ Journaled written s₁.current ∧
          ∀ r ∈ s₁.current.subledger, r ∈ s.current.subledger ∨ r ∈ s.committed.subledger ∨
            r = p.2 := by
        rcases hcases with ⟨htables, hrows⟩ | ⟨hback, hrow⟩
        · refine ⟨fun r hr => ?_, ?_, fun r hr => ?_⟩
          · unfold HasRow
            rw [hrows]
            rcases List.mem_append.mp hr with hr | hr
            · obtain ⟨existing, hmem, hkey⟩ := hdone r hr
              exact ⟨existing, List.mem_append_left _ hmem, hkey⟩
            · exact ⟨r, List.mem_append_right _ hr, rfl⟩
          · unfold Journaled
            rw [htables]
            exact hjournal
          · rw [hrows] at hr
            rcases List.mem_append.mp hr with hr | hr
            · exact Or.inl hr
            · exact Or.inr (Or.inr (List.mem_singleton.mp hr))
        · obtain ⟨hbefore, hentries⟩ := horder done p.2 (ps.map (·.2))
            (by rw [List.append_assoc, List.singleton_append]) (hcommitted ▸ hrow)
          rw [hcommitted] at hbefore hentries
          rw [hback]
          refine ⟨fun r hr => ?_, hentries, fun r hr => Or.inr (Or.inl hr)⟩
          rcases List.mem_append.mp hr with hr | hr
          · exact hbefore r hr
          · exact List.mem_singleton.mp hr ▸ hrow
      obtain ⟨hdone', hjournal', hsource⟩ := hstep
      obtain ⟨hall, hentries, hsource'⟩ := ih horder hdone' hjournal' hrest
      refine ⟨hall, hentries, fun r hr => ?_⟩
      rcases hsource' r hr with hr | hr | hr
      · rcases hsource r hr with hr | hr | hr
        · exact Or.inl hr
        · exact Or.inr (Or.inl hr)
        · exact Or.inr (Or.inr (hr ▸ List.mem_cons_self))
      · exact Or.inr (Or.inl (hcommitted ▸ hr))
      · exact Or.inr (Or.inr (List.mem_cons_of_mem _ hr))

/-- No key is there twice. -/
theorem countP_rowKey (books : Books) {key : UUID × String × String}
    (h : ∃ r ∈ books.subledger, rowKey r = some key) :
    books.subledger.countP (fun r => rowKey r = some key) = 1 := by
  obtain ⟨r, hr, hkey⟩ := h
  have hcount := List.count_eq_one_of_mem books.keys_nodup (List.mem_filterMap.mpr ⟨r, hr, hkey⟩)
  rw [List.count, List.countP_filterMap] at hcount
  rw [← hcount]
  refine List.countP_congr fun r _ => ?_
  cases rowKey r <;> simp

/-- A line of a ledger that is not passed over has a row to post. -/
theorem exists_row {id : UUID} {entityId : String} (hl : l ∈ i.ledgerIntents)
    (ht : SubledgerType.ofValue l.ledgerId = some t) (hsvc : subledgerServices t = some svc)
    (hid : entryIdByLedger written l.ledgerId = some id)
    (hentity : resolveEntityId b t c.payload = some entityId) {n : ℕ} (hn : n < l.lines.length) :
    ∃ r ∈ intentRows b c i written, rowKey r = some (id, t.value, toString n) := by
  have hline : (l.lines[n], n) ∈ l.lines.zipIdx := List.mk_mem_zipIdx_iff_getElem?.mpr (by simp [hn])
  refine ⟨toRow b c i t entityId id l.lines[n] n, List.mem_map.mpr ⟨(svc, _), ?_, rfl⟩, rfl⟩
  refine List.mem_flatMap.mpr ⟨l, hl, ?_⟩
  unfold ledgerRows
  simp only [ht, hsvc, hid, hentity]
  exact List.mem_map.mpr ⟨_, hline, rfl⟩

end Rows

/-- **All or nothing**: when the call returns, the journal entries are still there, every line of a
ledger that is not passed over has exactly one row, and no other rows have been added. -/
theorem all_lines_posted {b : Builtins} {c : Call} {i : AccountingIntent} {written : List WrittenEntry}
    {s s' : Session Books} (hjournal : Journaled written s.current)
    (horder : CommittedInOrder written (intentRows b c i written) s.committed)
    (h : postSubledgerEntries b c i written s = (.ok (), s')) :
    Journaled written s'.current ∧
      (∀ l ∈ i.ledgerIntents, ∀ t, SubledgerType.ofValue l.ledgerId = some t →
        (subledgerServices t).isSome → (entryIdByLedger written l.ledgerId).isSome →
          (resolveEntityId b t c.payload).isSome → LinesPosted written s'.current l t) ∧
      ∀ r ∈ s'.current.subledger, r ∈ s.current.subledger ∨ r ∈ s.committed.subledger ∨
        r ∈ intentRows b c i written := by
  obtain ⟨hall, hentries, hsource⟩ := @postRows_posted written s s' _ [] horder
    (fun r hr => nomatch hr) hjournal h
  refine ⟨hentries, fun l hl t ht hsvc hid hentity => ?_, hsource⟩
  obtain ⟨svc, hsvc⟩ := Option.isSome_iff_exists.mp hsvc
  obtain ⟨id, hid⟩ := Option.isSome_iff_exists.mp hid
  obtain ⟨entityId, hentity⟩ := Option.isSome_iff_exists.mp hentity
  refine ⟨id, hid, fun n hn => countP_rowKey s'.current ?_⟩
  obtain ⟨r, hr, hkey⟩ := exists_row hl ht hsvc hid hentity hn
  obtain ⟨existing, hmem, hsame⟩ := hall r hr
  exact ⟨existing, hmem, hsame.trans hkey⟩

/-! ### A receipt in the inventory ledger -/

/-- The journal has the entry of the inventory ledger. -/
def journaledBooks : Books where
  tables := { ModulePosting.Tables.empty with
    journal := {
      entries := [JournalWriter.sampleRival]
      counter := 1
      ids_nodup := by simp
      keys_nodup := by simp
      reversals_nodup := by decide
      reversal_keys := by simp [JournalWriter.sampleRival] } }
  subledger := []
  linked := by simp
  keys_nodup := List.nodup_nil

def inventoryIntent : AccountingIntent :=
  { JournalWriter.sampleIntent with
    ledgerIntents := [JournalWriter.sampleLedger "INVENTORY"]
    ledgerIntents_ne_nil := by simp }

def inventoryEntries : List WrittenEntry :=
  [{ entryId := JournalWriter.sampleRival.id
     ledgerId := "INVENTORY"
     seq := 1
     idempotencyKey := JournalWriter.sampleRival.idempotencyKey }]

/-- A receipt with a payload. -/
def receiptCall (payload : List (String × Hashing.PyVal)) : Call :=
  { ModulePosting.sampleCall true 0 with
    request := { event := Ingestor.sampleRequest payload, amount := .finite false 10000 (-2) } }

/-- The type of the document is that of `inventory.receipt`. -/
def receiptBuiltins : Builtins where
  str _ := ""
  upper _ := "RECEIPT"

theorem journaled_journaledBooks : Journaled inventoryEntries journaledBooks := by
  intro w hw
  rw [List.mem_singleton.mp hw]
  exact List.mem_singleton.mpr rfl

/-- With an item, both lines are posted. -/
theorem all_lines_posted_receipt :
    ∃ s', postSubledgerEntries receiptBuiltins (receiptCall [("item_id", .scalar (.str "I-1"))])
        inventoryIntent inventoryEntries (Session.start journaledBooks) = (.ok (), s') ∧
      LinesPosted inventoryEntries s'.current (JournalWriter.sampleLedger "INVENTORY")
        .inventory := by
  have hok : (postSubledgerEntries receiptBuiltins
      (receiptCall [("item_id", .scalar (.str "I-1"))]) inventoryIntent inventoryEntries
        (Session.start journaledBooks)).1.isOk = true := by decide +kernel
  rcases hrun : postSubledgerEntries receiptBuiltins
      (receiptCall [("item_id", .scalar (.str "I-1"))]) inventoryIntent inventoryEntries
        (Session.start journaledBooks) with ⟨e | _, s'⟩
  · rw [hrun] at hok
    cases hok
  · refine ⟨s', rfl, (all_lines_posted journaled_journaledBooks ?_ hrun).2.1 _
      List.mem_cons_self _ (by decide) (by decide) (by decide) (by decide)⟩
    rintro _ _ _ _ ⟨existing, hmem, -⟩
    cases hmem

/-- Without an item the call returns, and the lines have no row. -/
theorem lines_without_rows : ¬ ∀ (b : Builtins) (c : Call) (i : AccountingIntent)
    (written : List WrittenEntry) (s s' : Session Books), Journaled written s.current →
    postSubledgerEntries b c i written s = (.ok (), s') →
      Journaled written s'.current ∧ ∀ l ∈ i.ledgerIntents, ∀ t,
        SubledgerType.ofValue l.ledgerId = some t → (subledgerServices t).isSome →
          LinesPosted written s'.current l t := by
  intro h
  have hposted := (h receiptBuiltins (receiptCall []) inventoryIntent inventoryEntries
    (Session.start journaledBooks) _ journaled_journaledBooks rfl).2 _ List.mem_cons_self
    .inventory (by decide) (by decide)
  obtain ⟨id, -, hrows⟩ := hposted
  have hnone := hrows 0 (by decide)
  revert hnone
  exact (by decide : (0 : ℕ) ≠ 1)

end FinanceAccounting.SubledgerPosting
