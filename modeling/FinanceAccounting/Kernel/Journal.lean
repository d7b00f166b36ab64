import Mathlib.Data.List.Nodup
import Mathlib.Data.List.Pairwise
import FinanceAccounting.Library.Decimal
import FinanceAccounting.Library.UnitOfWork
import FinanceAccounting.Kernel.Values

/-! # The journal

Journal entries with their lines, and the table that holds them.  A `Journal` carries the
constraints of the table as fields, so rows that break one cannot be stored: entry ids and
idempotency keys are unique, an entry is the target of at most one reversal, and only keys of
the form `reversal:…` belong to reversals.  `insert` is refused by the same constraints.

A row changes only by its id, in the columns no constraint reads (`modify`); on a row that has
just been inserted this is an update of the last row (`entries_modify_last`).  Rows of other
transactions appear in an open session by `observe`. -/

namespace FinanceAccounting.Journal

/-! ### Rows -/

inductive JournalEntryStatus where
  | draft
  | posted
  | reversed
deriving DecidableEq, Repr

inductive LineSide where
  | debit
  | credit
deriving DecidableEq, Repr

def LineSide.flip : LineSide → LineSide
  | debit => credit
  | credit => debit

/-- Dimension values; JSON text in the table. -/
abbrev Dimensions := List (String × String)

structure JournalLine where
  accountId : UUID
  side : LineSide
  amount : Decimal
  currency : String
  dimensions : Option Dimensions
  isRounding : Bool
  lineMemo : Option String
  exchangeRateId : Option UUID
  lineSeq : ℤ
deriving DecidableEq

/-- An entry with its lines in the order of the inserts. -/
structure JournalEntry where
  id : UUID
  sourceEventId : UUID
  sourceEventType : String
  occurredAt : Datetime
  effectiveDate : Date
  postedAt : Option Datetime := none
  actorId : UUID
  status : JournalEntryStatus := .draft
  reversalOfId : Option UUID := none
  idempotencyKey : String
  postingRuleVersion : ℤ
  coaVersion : Option ℤ
  dimensionSchemaVersion : Option ℤ
  roundingPolicyVersion : Option ℤ
  currencyRegistryVersion : Option ℤ
  seq : Option ℕ := none
  entryMetadata : Option (List (String × String))
  description : Option String
  lines : List JournalLine := []
deriving DecidableEq

/-- The entry counts as written: it is POSTED or REVERSED. -/
def JournalEntry.isFinal (e : JournalEntry) : Bool :=
  e.status = .posted || e.status = .reversed

/-- The versions R21 wants on a posted entry and that the entry lacks. -/
def JournalEntry.missingFields (e : JournalEntry) : List String :=
  (if e.coaVersion = none then ["coa_version"] else []) ++
    (if e.dimensionSchemaVersion = none then ["dimension_schema_version"] else []) ++
    (if e.roundingPolicyVersion = none then ["rounding_policy_version"] else []) ++
    (if e.currencyRegistryVersion = none then ["currency_registry_version"] else [])

def JournalEntry.withLines (e : JournalEntry) (lines : List JournalLine) : JournalEntry :=
  { e with lines := lines }

/-- The entry as posting leaves it. -/
def JournalEntry.posted (e : JournalEntry) (seq : ℕ) (postedAt : Datetime) : JournalEntry :=
  { e with seq := some seq, postedAt := some postedAt, status := .posted }

/-! ### The table -/

/-- `LIKE 'reversal:%'`. -/
def isReversalKey (key : String) : Bool := "reversal:".toList.isPrefixOf key.toList

end Journal

open Journal in
/-- The rows of `journal_entries`, with the counter of their sequence. -/
structure Journal where
  entries : List JournalEntry
  counter : ℕ
  ids_nodup : (entries.map (·.id)).Nodup
  keys_nodup : (entries.map (·.idempotencyKey)).Nodup
  reversals_nodup : (entries.filterMap (·.reversalOfId)).Nodup
  reversal_keys : ∀ e ∈ entries, e.reversalOfId ≠ none → isReversalKey e.idempotencyKey

namespace Journal

open UnitOfWork (Session Table)

def empty : Journal where
  entries := []
  counter := 0
  ids_nodup := List.nodup_nil
  keys_nodup := List.nodup_nil
  reversals_nodup := List.nodup_nil
  reversal_keys := by simp

/-- No constraint refuses the row. -/
def Admits (j : Journal) (e : JournalEntry) : Prop :=
  e.id ∉ j.entries.map (·.id) ∧ e.idempotencyKey ∉ j.entries.map (·.idempotencyKey) ∧
    ∀ r ∈ e.reversalOfId, r ∈ j.entries.map (·.id) ∧
      r ∉ j.entries.filterMap (·.reversalOfId) ∧ isReversalKey e.idempotencyKey

instance (j : Journal) (e : JournalEntry) : Decidable (j.Admits e) := by
  unfold Admits
  infer_instance

variable {j : Journal} {e : JournalEntry}

theorem Admits.reversals_nodup (h : j.Admits e) :
    ((j.entries ++ [e]).filterMap (·.reversalOfId)).Nodup := by
  rw [List.filterMap_append, List.nodup_append']
  refine ⟨j.reversals_nodup, ?_, ?_⟩
  · cases hr : e.reversalOfId <;> simp [hr]
  · intro r hr he
    simp only [List.filterMap_cons, List.filterMap_nil] at he
    cases hre : e.reversalOfId with
    | none => simp [hre] at he
    | some r' =>
        obtain rfl : r = r' := by simpa [hre] using he
        exact (h.2.2 r hre).2.1 hr

/-- The table with one more row. -/
def append (j : Journal) (e : JournalEntry) (h : j.Admits e) : Journal where
  entries := j.entries ++ [e]
  counter := max j.counter (e.seq.getD 0)
  ids_nodup := by
    rw [List.map_append]
    exact j.ids_nodup.append (by simp) (by simpa using h.1)
  keys_nodup := by
    rw [List.map_append]
    exact j.keys_nodup.append (by simp) (by simpa using h.2.1)
  reversals_nodup := h.reversals_nodup
  reversal_keys d hd hr := by
    rcases List.mem_append.mp hd with hd | hd
    · exact j.reversal_keys d hd hr
    · obtain rfl := List.mem_singleton.mp hd
      obtain ⟨r, hr'⟩ := Option.ne_none_iff_exists'.mp hr
      exact (h.2.2 r hr').2.2

/-- `INSERT`; `none` is an `IntegrityError`. -/
def insert (j : Journal) (e : JournalEntry) : Option Journal :=
  if h : j.Admits e then some (j.append e h) else none

/-- Changed columns no constraint reads. -/
structure KeepsKeys (f : JournalEntry → JournalEntry) : Prop where
  id : ∀ e, (f e).id = e.id
  key : ∀ e, (f e).idempotencyKey = e.idempotencyKey
  reversal : ∀ e, (f e).reversalOfId = e.reversalOfId

/-- `UPDATE` of the row with an id. -/
def modify (j : Journal) (id : UUID) (f : JournalEntry → JournalEntry) (hf : KeepsKeys f)
    (counter : ℕ) : Journal :=
  let g := fun e => if e.id = id then f e else e
  have hid : ∀ e, (g e).id = e.id := fun e => by grind [hf.id e]
  have hkey : ∀ e, (g e).idempotencyKey = e.idempotencyKey := fun e => by grind [hf.key e]
  have hrev : ∀ e, (g e).reversalOfId = e.reversalOfId := fun e => by grind [hf.reversal e]
  { entries := j.entries.map g
    counter := counter
    ids_nodup := by simpa [Function.comp_def, hid] using j.ids_nodup
    keys_nodup := by simpa [Function.comp_def, hkey] using j.keys_nodup
    reversals_nodup := by simpa [List.filterMap_map, Function.comp_def, hrev] using j.reversals_nodup
    reversal_keys := by
      intro e he
      obtain ⟨d, hd, rfl⟩ := List.mem_map.mp he
      rw [hrev, hkey]
      exact j.reversal_keys d hd }

/-- The lines of an entry are inserted. -/
def addLines (j : Journal) (id : UUID) (lines : List JournalLine) : Journal :=
  j.modify id (fun e => e.withLines (e.lines ++ lines)) ⟨fun _ => rfl, fun _ => rfl, fun _ => rfl⟩
    j.counter

/-- The entry takes the next value of the sequence and is posted. -/
def post (j : Journal) (id : UUID) (postedAt : Datetime) : Journal :=
  j.modify id (·.posted (j.counter + 1) postedAt) ⟨fun _ => rfl, fun _ => rfl, fun _ => rfl⟩
    (j.counter + 1)

/-- `_get_existing_entry`. -/
def getExistingEntry (j : Journal) (key : String) : Option JournalEntry :=
  j.entries.find? (·.idempotencyKey = key)

/-- `get_entry`. -/
def getEntry (j : Journal) (id : UUID) : Option JournalEntry := j.entries.find? (·.id = id)

/-! ### Facts about the table -/

variable {d : JournalEntry} {j' : Journal}

theorem eq_of_id (hd : d ∈ j.entries) (he : e ∈ j.entries) (h : d.id = e.id) : d = e :=
  List.inj_on_of_nodup_map j.ids_nodup hd he h

theorem eq_of_key (hd : d ∈ j.entries) (he : e ∈ j.entries)
    (h : d.idempotencyKey = e.idempotencyKey) : d = e :=
  List.inj_on_of_nodup_map j.keys_nodup hd he h

/-- An entry is the target of one reversal at most. -/
theorem eq_of_reversalOfId (hd : d ∈ j.entries) (he : e ∈ j.entries) {r : UUID}
    (hdr : d.reversalOfId = some r) (her : e.reversalOfId = some r) : d = e := by
  have hpairs := List.pairwise_filterMap.mp j.reversals_nodup
  by_contra hne
  have hsymm : Std.Symm fun a b : JournalEntry =>
      ∀ x, a.reversalOfId = some x → ∀ y, b.reversalOfId = some y → x ≠ y :=
    ⟨fun a b h x hx y hy hxy => h y hy x hx hxy.symm⟩
  exact hpairs.forall hd he hne r hdr r her rfl

/-- Lookup by a unique column. -/
theorem find_eq_some {κ : Type} [DecidableEq κ] {column : JournalEntry → κ} {k : κ}
    (h : (j.entries.map column).Nodup) :
    j.entries.find? (column · = k) = some e ↔ e ∈ j.entries ∧ column e = k := by
  constructor
  · intro he
    exact ⟨List.mem_of_find?_eq_some he, by simpa using List.find?_some he⟩
  · rintro ⟨he, rfl⟩
    cases hf : j.entries.find? (column · = column e) with
    | none => simpa using List.find?_eq_none.mp hf e he
    | some d =>
        have hd : column d = column e := by simpa using List.find?_some hf
        rw [List.inj_on_of_nodup_map h (List.mem_of_find?_eq_some hf) he hd]

theorem getExistingEntry_eq_some {key : String} :
    j.getExistingEntry key = some e ↔ e ∈ j.entries ∧ e.idempotencyKey = key :=
  find_eq_some j.keys_nodup

theorem getExistingEntry_eq_none {key : String} :
    j.getExistingEntry key = none ↔ ∀ e ∈ j.entries, e.idempotencyKey ≠ key := by
  simp [getExistingEntry]

theorem getEntry_eq_some {id : UUID} : j.getEntry id = some e ↔ e ∈ j.entries ∧ e.id = id :=
  find_eq_some j.ids_nodup

theorem insert_of_admits (h : j.Admits e) : j.insert e = some (j.append e h) := dif_pos h

theorem insert_eq_some : j.insert e = some j' ↔ ∃ h : j.Admits e, j' = j.append e h := by
  unfold insert
  split
  · rename_i h
    simp [h, eq_comm]
  · rename_i h
    simp [h]

@[simp] theorem entries_append (h : j.Admits e) : (j.append e h).entries = j.entries ++ [e] := rfl

/-- An update of the last row. -/
theorem entries_modify_last {l : List JournalEntry} (hj : j.entries = l ++ [e])
    {f : JournalEntry → JournalEntry} (hf : KeepsKeys f) (counter : ℕ) :
    (j.modify e.id f hf counter).entries = l ++ [f e] := by
  have hids := j.ids_nodup
  rw [hj, List.map_append, List.nodup_append'] at hids
  have hold : ∀ d ∈ l, (if d.id = e.id then f d else d) = d := by
    intro d hd
    refine if_neg fun hde => hids.2.2 (List.mem_map_of_mem hd) ?_
    simp [hde]
  simp only [modify, hj, List.map_append, List.map_cons, List.map_nil, if_true]
  rw [List.map_congr_left hold, List.map_id']

theorem entries_addLines_last {l : List JournalEntry} (hj : j.entries = l ++ [e])
    (lines : List JournalLine) :
    (j.addLines e.id lines).entries = l ++ [e.withLines (e.lines ++ lines)] :=
  entries_modify_last hj _ _

theorem entries_post_last {l : List JournalEntry} (hj : j.entries = l ++ [e])
    (postedAt : Datetime) :
    (j.post e.id postedAt).entries = l ++ [e.posted (j.counter + 1) postedAt] :=
  entries_modify_last hj _ _

/-! ### Rows of other transactions -/

variable {σ : Type} (tbl : Table σ Journal)

/-- Another transaction inserts an entry and commits. -/
def observe (s : Session σ) (e : JournalEntry) : Session σ := s.share tbl (·.insert e)

/-- Other transactions insert entries and commit. -/
def observeAll (s : Session σ) (es : List JournalEntry) : Session σ := es.foldl (observe tbl) s

variable {tbl} {s : Session σ} {es : List JournalEntry}

/-- The two sides an observation changes: by the same row, or not at all. -/
theorem observe_cases (tbl : Table σ Journal) (s : Session σ) (e : JournalEntry) :
    ((observe tbl s e).seen tbl = s.seen tbl ∧ (observe tbl s e).stored tbl = s.stored tbl) ∨
      ((observe tbl s e).seen tbl).entries = (s.seen tbl).entries ++ [e] ∧
        ((observe tbl s e).stored tbl).entries = (s.stored tbl).entries ++ [e] := by
  rcases Session.share_cases tbl s (·.insert e) with h | ⟨t, u, ht, hu, hst, hse⟩
  · exact Or.inl ⟨by rw [observe, h], by rw [observe, h]⟩
  · obtain ⟨h₁, rfl⟩ := insert_eq_some.mp ht
    obtain ⟨h₂, rfl⟩ := insert_eq_some.mp hu
    exact Or.inr ⟨by rw [observe, hse, entries_append], by rw [observe, hst, entries_append]⟩

/-- Rows other than the observed ones stay as they were. -/
theorem mem_observeAll (hd : ∀ e ∈ es, d.id ≠ e.id) :
    (d ∈ ((observeAll tbl s es).seen tbl).entries ↔ d ∈ (s.seen tbl).entries) ∧
      (d ∈ ((observeAll tbl s es).stored tbl).entries ↔ d ∈ (s.stored tbl).entries) := by
  induction es generalizing s with
  | nil => exact ⟨Iff.rfl, Iff.rfl⟩
  | cons e es ih =>
      have hne : d ≠ e := fun h => hd e List.mem_cons_self (h ▸ rfl)
      obtain ⟨h₁, h₂⟩ := ih (s := observe tbl s e) fun d hd' => hd d (List.mem_cons_of_mem e hd')
      rw [observeAll, List.foldl_cons, ← observeAll, h₁, h₂]
      rcases observe_cases tbl s e with ⟨hseen, hstored⟩ | ⟨hseen, hstored⟩
      · rw [hseen, hstored]
        exact ⟨Iff.rfl, Iff.rfl⟩
      · simp [hseen, hstored, hne]

theorem mem_append_or {l : List JournalEntry} (h : d ∈ l ++ [e] ∨ d ∈ es) :
    d ∈ l ∨ d ∈ e :: es := by
  rcases h with h | h
  · rcases List.mem_append.mp h with h | h
    · exact Or.inl h
    · exact Or.inr (List.mem_cons.mpr (Or.inl (List.mem_singleton.mp h)))
  · exact Or.inr (List.mem_cons_of_mem e h)

/-- Every row was there or is observed. -/
theorem mem_or_mem_of_observeAll :
    (d ∈ ((observeAll tbl s es).seen tbl).entries → d ∈ (s.seen tbl).entries ∨ d ∈ es) ∧
      (d ∈ ((observeAll tbl s es).stored tbl).entries → d ∈ (s.stored tbl).entries ∨ d ∈ es) := by
  induction es generalizing s with
  | nil => exact ⟨Or.inl, Or.inl⟩
  | cons e es ih =>
      obtain ⟨h₁, h₂⟩ := ih (s := observe tbl s e)
      rw [observeAll, List.foldl_cons, ← observeAll]
      rcases observe_cases tbl s e with ⟨hseen, hstored⟩ | ⟨hseen, hstored⟩
      · rw [hseen] at h₁
        rw [hstored] at h₂
        exact ⟨fun h => (h₁ h).imp_right (List.mem_cons_of_mem e),
          fun h => (h₂ h).imp_right (List.mem_cons_of_mem e)⟩
      · rw [hseen] at h₁
        rw [hstored] at h₂
        constructor
        · exact fun h => mem_append_or (h₁ h)
        · exact fun h => mem_append_or (h₂ h)

/-- After a rollback the open transaction sees what is committed, also with new rows. -/
theorem seen_observeAll_rollback :
    (observeAll tbl s.rollback es).seen tbl = (observeAll tbl s.rollback es).stored tbl := by
  have key : ∀ (es : List JournalEntry) (s : Session σ), s.current = s.committed →
      (observeAll tbl s es).current = (observeAll tbl s es).committed := by
    intro es
    induction es with
    | nil => exact fun _ h => h
    | cons e es ih =>
        intro s h
        refine ih (observe tbl s e) ?_
        simp only [observe, Session.share, Session.stored, Session.seen, h]
        split
        · rename_i t u ht hu
          rw [ht] at hu
          rw [Option.some.inj hu]
        · exact h
  rw [Session.seen, key es s.rollback rfl, Session.stored]

/-! ### Fresh ids -/

/-- The ids are distinct, and no entry of the session has one. -/
structure Fresh (tbl : Table σ Journal) (s : Session σ) (ids : List UUID) : Prop where
  nodup : ids.Nodup
  seen : ∀ e ∈ (s.seen tbl).entries, e.id ∉ ids
  stored : ∀ e ∈ (s.stored tbl).entries, e.id ∉ ids

variable {ids ids' : List UUID}

theorem Fresh.of_sublist (h : Fresh tbl s ids) (hs : ids'.Sublist ids) : Fresh tbl s ids' where
  nodup := h.nodup.sublist hs
  seen e he hid := h.seen e he (hs.subset hid)
  stored e he hid := h.stored e he (hs.subset hid)

theorem Fresh.of_perm (h : Fresh tbl s ids) (hp : ids.Perm ids') : Fresh tbl s ids' where
  nodup := hp.nodup_iff.mp h.nodup
  seen e he hid := h.seen e he (hp.mem_iff.mpr hid)
  stored e he hid := h.stored e he (hp.mem_iff.mpr hid)

/-- Ids that are drawn later stay fresh. -/
theorem Fresh.observeAll (h : Fresh tbl s (es.map (·.id) ++ ids)) :
    Fresh tbl (Journal.observeAll tbl s es) ids where
  nodup := (List.nodup_append'.mp h.nodup).2.1
  seen e he hid := by
    rcases mem_or_mem_of_observeAll.1 he with he | he
    · exact h.seen e he (List.mem_append_right _ hid)
    · exact (List.nodup_append'.mp h.nodup).2.2 (List.mem_map_of_mem he) hid
  stored e he hid := by
    rcases mem_or_mem_of_observeAll.2 he with he | he
    · exact h.stored e he (List.mem_append_right _ hid)
    · exact (List.nodup_append'.mp h.nodup).2.2 (List.mem_map_of_mem he) hid

theorem Fresh.rollback (h : Fresh tbl s ids) : Fresh tbl s.rollback ids :=
  ⟨h.nodup, h.stored, h.stored⟩

end Journal

end FinanceAccounting
