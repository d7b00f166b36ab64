import FinanceAccounting.Library.HashChain
import FinanceAccounting.Kernel.Hashing

/-! # The audit hash chain

Rows of `audit_events`, the hash of a row, and `AuditorService.validate_chain`, which reads
the table in sequence order and raises at the first row whose stored hash does not recompute
or whose `prev_hash` is not its predecessor's hash.

The row hash covers `entity_type`, `entity_id`, `action`, `payload_hash` and `prev_hash`.
`tamper_detected_iff` says which changes of one stored field of a valid log make
`validate_chain` raise: those of the five covered fields and of `hash` itself, and a change of
`seq` that moves the row past another one.  The stored `payload`, `actor_id` and `occurred_at`
enter no hash. -/

namespace FinanceAccounting.Auditor

open Hashing (PyVal)
open HashChain (Linked)

/-- A row of `audit_events`. -/
structure AuditEvent where
  id : UUID
  seq : ℤ
  entityType : String
  entityId : UUID
  action : String
  actorId : UUID
  occurredAt : Datetime
  payload : Option PyVal
  payloadHash : String
  prevHash : Option String
  hash : String

/-- Python's `a or b` on optional strings: the empty string is as false as `None`. -/
def orElse (a : Option String) (b : String) : String :=
  match a with
  | some s => if s = "" then b else s
  | none => b

/-- The fields of an audit event, joined by bars. -/
def auditComponents (entityType entityId action payloadHash : String) (prevHash : Option String) :
    String :=
  entityType ++ "|" ++ entityId ++ "|" ++ action ++ "|" ++ payloadHash ++ "|" ++
    orElse prevHash "GENESIS"

def hashAuditEvent (sha256 : String → String) (entityType entityId action payloadHash : String)
    (prevHash : Option String) : String :=
  sha256 (auditComponents entityType entityId action payloadHash prevHash)

/-- The hash of a row, recomputed from its other columns. -/
def AuditEvent.recompute (sha256 : String → String) (e : AuditEvent) : String :=
  hashAuditEvent sha256 e.entityType e.entityId.str e.action e.payloadHash e.prevHash

structure AuditChainBrokenError where
  auditEventId : String
  expectedHash : String
  actualHash : String
deriving DecidableEq, Repr

/-- `ORDER BY seq`. -/
def orderBySeq (events : List AuditEvent) : List AuditEvent :=
  events.insertionSort fun a b => a.seq ≤ b.seq

/-- The loop of `validate_chain`, after the event `previous`. -/
def validateEvents (sha256 : String → String) :
    Option AuditEvent → List AuditEvent → Except AuditChainBrokenError Bool
  | _, [] => .ok true
  | previous, e :: es =>
      if e.hash ≠ e.recompute sha256 then .error ⟨e.id.str, e.recompute sha256, e.hash⟩
      else
        match previous with
        | none => validateEvents sha256 (some e) es
        | some d =>
            if e.prevHash ≠ some d.hash then
              .error ⟨e.id.str, d.hash, orElse e.prevHash "None"⟩
            else validateEvents sha256 (some e) es

def validateChain (sha256 : String → String) (table : List AuditEvent) :
    Except AuditChainBrokenError Bool :=
  match orderBySeq table with
  | [] => .ok true
  | first :: rest =>
      match first.prevHash with
      | some h => .error ⟨first.id.str, "None", h⟩
      | none => validateEvents sha256 none (first :: rest)

/-! ### What `validate_chain` checks -/

/-- Stored hashes recompute, and every event points to its predecessor. -/
structure Intact (sha256 : String → String) (p : Option String) (events : List AuditEvent) :
    Prop where
  linked : Linked AuditEvent.prevHash AuditEvent.hash p events
  recomputes : ∀ e ∈ events, e.hash = e.recompute sha256

variable {sha256 : String → String}

@[simp] theorem intact_nil (p : Option String) : Intact sha256 p [] :=
  ⟨trivial, fun e he => by cases he⟩

theorem intact_cons {p : Option String} {e : AuditEvent} {es : List AuditEvent} :
    Intact sha256 p (e :: es) ↔
      e.prevHash = p ∧ e.hash = e.recompute sha256 ∧ Intact sha256 (some e.hash) es := by
  constructor
  · rintro ⟨⟨hp, hl⟩, hr⟩
    exact ⟨hp, hr e List.mem_cons_self, hl, fun d hd => hr d (List.mem_cons_of_mem _ hd)⟩
  · rintro ⟨hp, he, hl, hr⟩
    refine ⟨⟨hp, hl⟩, fun d hd => ?_⟩
    rcases List.mem_cons.mp hd with rfl | hd
    · exact he
    · exact hr d hd

/-- The loop succeeds exactly on events that continue the chain. -/
theorem validateEvents_some_eq_ok {d : AuditEvent} {es : List AuditEvent} :
    validateEvents sha256 (some d) es = .ok true ↔ Intact sha256 (some d.hash) es := by
  induction es generalizing d with
  | nil => simp [validateEvents]
  | cons e es ih =>
      rw [intact_cons, ← ih, validateEvents]
      by_cases he : e.hash = e.recompute sha256
      · by_cases hp : e.prevHash = some d.hash <;> simp [he, hp]
      · simp [he]

theorem validateEvents_none_eq_ok {e : AuditEvent} {es : List AuditEvent}
    (he : e.prevHash = none) :
    validateEvents sha256 none (e :: es) = .ok true ↔ Intact sha256 none (e :: es) := by
  rw [intact_cons, ← validateEvents_some_eq_ok, validateEvents]
  by_cases hr : e.hash = e.recompute sha256 <;> simp [he, hr]

/-- **`validate_chain` returns true exactly on intact chains.** -/
theorem validateChain_eq_ok_iff {table : List AuditEvent} :
    validateChain sha256 table = .ok true ↔ Intact sha256 none (orderBySeq table) := by
  unfold validateChain
  cases hl : orderBySeq table with
  | nil => simp
  | cons first rest =>
      cases hp : first.prevHash with
      | none =>
          simp only [hp]
          exact validateEvents_none_eq_ok hp
      | some h => simp [intact_cons, hp]

theorem validateEvents_ok_or_error (previous : Option AuditEvent) (es : List AuditEvent) :
    validateEvents sha256 previous es = .ok true ∨
      ∃ err, validateEvents sha256 previous es = .error err := by
  induction es generalizing previous with
  | nil => exact Or.inl rfl
  | cons e es ih =>
      unfold validateEvents
      split
      · exact Or.inr ⟨_, rfl⟩
      · cases previous with
        | none => exact ih (some e)
        | some d =>
            dsimp only
            split
            · exact Or.inr ⟨_, rfl⟩
            · exact ih (some e)

/-- It raises on all others; it never returns false. -/
theorem validateChain_eq_error_iff {table : List AuditEvent} :
    (∃ err, validateChain sha256 table = .error err) ↔
      ¬ Intact sha256 none (orderBySeq table) := by
  rw [← validateChain_eq_ok_iff]
  have h : validateChain sha256 table = .ok true ∨
      ∃ err, validateChain sha256 table = .error err := by
    unfold validateChain
    split
    · exact Or.inl rfl
    · split
      · exact Or.inr ⟨_, rfl⟩
      · exact validateEvents_ok_or_error _ _
  rcases h with h | ⟨err, h⟩ <;> simp [h]

/-! ### The order of the rows -/

/-- A list in strictly increasing sequence order is the order of any table of its rows. -/
theorem orderBySeq_eq {table events : List AuditEvent} (hperm : events.Perm table)
    (hsorted : events.Pairwise fun a b => a.seq < b.seq) : orderBySeq table = events := by
  have hle : events.Pairwise fun a b => a.seq ≤ b.seq := hsorted.imp fun h => le_of_lt h
  have hsort := List.pairwise_insertionSort (fun a b : AuditEvent => a.seq ≤ b.seq) table
  have hnodup : (events.map AuditEvent.seq).Nodup :=
    List.pairwise_map.mpr (hsorted.imp fun h => ne_of_lt h)
  have hp : (orderBySeq table).Perm events := (List.perm_insertionSort _ _).trans hperm.symm
  refine hp.eq_of_pairwise ?_ hsort hle
  intro a b ha hb hab hba
  exact List.inj_on_of_nodup_map hnodup (hp.mem_iff.mp ha) hb (le_antisymm hab hba)

theorem orderBySeq_sorted {table : List AuditEvent}
    (hnodup : (table.map AuditEvent.seq).Nodup) :
    (orderBySeq table).Pairwise fun a b => a.seq < b.seq := by
  have hsort := List.pairwise_insertionSort (fun a b : AuditEvent => a.seq ≤ b.seq) table
  have hn : ((orderBySeq table).map AuditEvent.seq).Nodup :=
    ((List.perm_insertionSort _ table).map AuditEvent.seq).nodup_iff.mpr hnodup
  exact (hsort.and (List.pairwise_map.mp hn)).imp fun h => lt_of_le_of_ne h.1 h.2

/-! ### What the row hash determines -/

theorem last_component_eq {l₁ l₂ x y : List Char} (hx : '|' ∉ x) (hy : '|' ∉ y)
    (h : l₁ ++ '|' :: x = l₂ ++ '|' :: y) : x = y := by
  have key : ∀ l z : List Char, '|' ∉ z →
      (l ++ '|' :: z).reverse.takeWhile (· ≠ '|') = z.reverse := by
    intro l z hz
    rw [List.reverse_append, List.reverse_cons, List.append_assoc, List.takeWhile_append_of_pos]
    · simp
    · intro c hc
      have : c ∈ z := List.mem_reverse.mp hc
      simpa using fun h : c = '|' => hz (h ▸ this)
  have hr := congrArg (fun l : List Char => l.reverse.takeWhile (· ≠ '|')) h
  simp only [key l₁ x hx, key l₂ y hy] at hr
  exact List.reverse_inj.mp hr

/-- A pointer that `_create_audit_event` may have stored: missing, or some digest. -/
def Genuine (sha256 : String → String) (p : Option String) : Prop :=
  p = none ∨ ∃ s, p = some (sha256 s)

theorem Intact.genuine {p : Option String} {events : List AuditEvent}
    (h : Intact sha256 p events) (hp : Genuine sha256 p) :
    ∀ e ∈ events, Genuine sha256 e.prevHash := by
  induction events generalizing p with
  | nil => simp
  | cons e es ih =>
      obtain ⟨he, hr, hes⟩ := intact_cons.mp h
      rw [List.forall_mem_cons]
      exact ⟨he ▸ hp, ih hes (Or.inr ⟨_, congrArg some hr⟩)⟩

theorem bar_not_mem_digest (hsha : Digest.CollisionFree sha256) (s : String) :
    '|' ∉ (sha256 s).toList := by
  intro h
  have := List.all_eq_true.mp (hsha.hex s) _ h
  revert this
  decide

theorem digest_ne_genesis (hsha : Digest.CollisionFree sha256) (s : String) :
    sha256 s ≠ "GENESIS" := by
  intro h
  have := hsha.hex s
  rw [h] at this
  revert this
  decide

theorem orElse_genesis_digest (hsha : Digest.CollisionFree sha256) (s : String) :
    orElse (some (sha256 s)) "GENESIS" = sha256 s := if_neg (hsha.nonempty s)

/-- On genuine pointers the fallback text loses nothing. -/
theorem Genuine.eq_of_orElse_eq (hsha : Digest.CollisionFree sha256) {p q : Option String}
    (hp : Genuine sha256 p) (hq : Genuine sha256 q)
    (h : orElse p "GENESIS" = orElse q "GENESIS") : p = q := by
  rcases hp with rfl | ⟨s, rfl⟩ <;> rcases hq with rfl | ⟨t, rfl⟩
  · rfl
  · rw [orElse_genesis_digest hsha] at h
    exact absurd h.symm (digest_ne_genesis hsha t)
  · rw [orElse_genesis_digest hsha] at h
    exact absurd h (digest_ne_genesis hsha s)
  · rw [orElse_genesis_digest hsha, orElse_genesis_digest hsha] at h
    rw [h]

theorem Genuine.bar_not_mem (hsha : Digest.CollisionFree sha256) {p : Option String}
    (hp : Genuine sha256 p) : '|' ∉ (orElse p "GENESIS").toList := by
  rcases hp with rfl | ⟨s, rfl⟩
  · decide
  · rw [orElse_genesis_digest hsha]
    exact bar_not_mem_digest hsha s

/-- **The hash of a row determines its pointer.** -/
theorem prevHash_eq_of_recompute_eq (hsha : Digest.CollisionFree sha256) {a b : AuditEvent}
    (ha : Genuine sha256 a.prevHash) (hb : Genuine sha256 b.prevHash)
    (h : a.recompute sha256 = b.recompute sha256) : a.prevHash = b.prevHash := by
  have hc := congrArg String.toList (hsha.injective h)
  simp only [auditComponents, String.toList_append, show "|".toList = ['|'] from rfl,
    List.append_assoc] at hc
  refine ha.eq_of_orElse_eq hsha hb (String.toList_inj.mp ?_)
  have hfront (e : AuditEvent) (l : List Char) : e.entityType.toList ++ '|' ::
      (e.entityId.str.toList ++ '|' :: (e.action.toList ++ '|' :: (e.payloadHash.toList ++ l))) =
      (e.entityType.toList ++ '|' :: (e.entityId.str.toList ++
        '|' :: (e.action.toList ++ '|' :: e.payloadHash.toList))) ++ l := by simp
  simp only [List.cons_append, List.nil_append, hfront] at hc
  exact last_component_eq (ha.bar_not_mem hsha) (hb.bar_not_mem hsha) hc

/-- The pointers of an intact chain are distinct. -/
theorem Intact.nodup_prevHash (hsha : Digest.CollisionFree sha256) {events : List AuditEvent}
    (h : Intact sha256 none events) : (events.map AuditEvent.prevHash).Nodup := by
  refine h.linked.nodup_prev (h.linked.nodup_hashes fun a ha b hb hab => ?_)
  have hg := h.genuine (Or.inl rfl)
  rw [h.recomputes a ha, h.recomputes b hb] at hab
  exact prevHash_eq_of_recompute_eq hsha (hg a ha) (hg b hb) hab

/-! ### Tampering -/

/-- The table as the database keeps it: `seq` is unique. -/
structure AuditTable where
  rows : List AuditEvent
  seq_unique : (rows.map AuditEvent.seq).Nodup

/-- A new value for one stored field of a row. -/
inductive Tamper where
  | entityType (v : String)
  | entityId (v : UUID)
  | action (v : String)
  | payload (v : Option PyVal)
  | payloadHash (v : String)
  | actorId (v : UUID)
  | occurredAt (v : Datetime)
  | seq (v : ℤ)
  | prevHash (v : Option String)
  | hash (v : String)

namespace Tamper

def apply : Tamper → AuditEvent → AuditEvent
  | entityType v, e => { e with entityType := v }
  | entityId v, e => { e with entityId := v }
  | action v, e => { e with action := v }
  | payload v, e => { e with payload := v }
  | payloadHash v, e => { e with payloadHash := v }
  | actorId v, e => { e with actorId := v }
  | occurredAt v, e => { e with occurredAt := v }
  | seq v, e => { e with seq := v }
  | prevHash v, e => { e with prevHash := v }
  | hash v, e => { e with hash := v }

/-- Is the change detectable, in a table where `others` are the other rows?  The stored
payload, actor and time enter no hash, and `seq` matters only through the order it gives. -/
def Covered (others : List AuditEvent) (e : AuditEvent) : Tamper → Prop
  | payload _ | actorId _ | occurredAt _ => False
  | seq v => ∃ r ∈ others, (e.seq < r.seq ∧ r.seq < v) ∨ (v < r.seq ∧ r.seq < e.seq)
  | _ => True

end Tamper

/-- Rows that agree on what `validate_chain` reads besides the order. -/
structure SameLink (sha256 : String → String) (e d : AuditEvent) : Prop where
  prevHash : d.prevHash = e.prevHash
  hash : d.hash = e.hash
  recompute : d.recompute sha256 = e.recompute sha256

theorem Intact.replace {p : Option String} {as bs : List AuditEvent} {e d : AuditEvent}
    (h : Intact sha256 p (as ++ e :: bs)) (hd : SameLink sha256 e d) :
    Intact sha256 p (as ++ d :: bs) := by
  induction as generalizing p with
  | nil =>
      obtain ⟨he, hr, hbs⟩ := intact_cons.mp h
      refine intact_cons.mpr ⟨hd.prevHash.trans he, ?_, ?_⟩
      · rw [hd.hash, hd.recompute, hr]
      · rw [hd.hash]
        exact hbs
  | cons a as ih =>
      obtain ⟨ha, hr, has⟩ := intact_cons.mp h
      exact intact_cons.mpr ⟨ha, hr, ih has⟩

theorem Intact.of_append_cons {p : Option String} {as bs : List AuditEvent} {e : AuditEvent}
    (h : Intact sha256 p (as ++ e :: bs)) :
    e.prevHash = HashChain.tip AuditEvent.hash p as ∧ e.hash = e.recompute sha256 :=
  ⟨(HashChain.linked_append.mp h.linked).2.1, h.recomputes e (by simp)⟩

/-- Changing a hashed field changes the recomputed hash. -/
theorem recompute_ne (hinj : Function.Injective sha256) {e : AuditEvent} {c : Tamper}
    (hc : (∃ v, c = .entityType v) ∨ (∃ v, c = .entityId v) ∨ (∃ v, c = .action v) ∨
      ∃ v, c = .payloadHash v)
    (hne : c.apply e ≠ e) : (c.apply e).recompute sha256 ≠ e.recompute sha256 := by
  intro h
  have hs := congrArg String.toList (hinj h)
  simp only [auditComponents, String.toList_append] at hs
  rcases hc with ⟨v, rfl⟩ | ⟨v, rfl⟩ | ⟨v, rfl⟩ | ⟨v, rfl⟩
  · simp only [Tamper.apply, List.append_assoc, List.append_cancel_right_eq,
      String.toList_inj] at hs
    exact hne (by simp [Tamper.apply, hs])
  · simp only [Tamper.apply, List.append_assoc, List.append_cancel_left_eq,
      List.append_cancel_right_eq, String.toList_inj] at hs
    exact hne (by simp [Tamper.apply, UUID.str_injective hs])
  · simp only [Tamper.apply, List.append_assoc, List.append_cancel_left_eq,
      List.append_cancel_right_eq, String.toList_inj] at hs
    exact hne (by simp [Tamper.apply, hs])
  · simp only [Tamper.apply, List.append_assoc, List.append_cancel_left_eq,
      List.append_cancel_right_eq, String.toList_inj] at hs
    exact hne (by simp [Tamper.apply, hs])

/-- A changed row that no longer fits its place in the chain. -/
theorem not_intact_of_tamper (hinj : Function.Injective sha256) {as bs : List AuditEvent}
    {e : AuditEvent} {c : Tamper} (h : Intact sha256 none (as ++ e :: bs)) (hne : c.apply e ≠ e)
    (hc : (∃ v, c = .entityType v) ∨ (∃ v, c = .entityId v) ∨ (∃ v, c = .action v) ∨
      (∃ v, c = .payloadHash v) ∨ (∃ v, c = .prevHash v) ∨ ∃ v, c = .hash v) :
    ¬ Intact sha256 none (as ++ c.apply e :: bs) := by
  intro h'
  obtain ⟨hp, hr⟩ := h.of_append_cons
  obtain ⟨hp', hr'⟩ := h'.of_append_cons
  rcases hc with ⟨v, rfl⟩ | ⟨v, rfl⟩ | ⟨v, rfl⟩ | ⟨v, rfl⟩ | ⟨v, rfl⟩ | ⟨v, rfl⟩
  · exact recompute_ne hinj (.inl ⟨v, rfl⟩) hne (hr'.symm.trans hr)
  · exact recompute_ne hinj (.inr (.inl ⟨v, rfl⟩)) hne (hr'.symm.trans hr)
  · exact recompute_ne hinj (.inr (.inr (.inl ⟨v, rfl⟩))) hne (hr'.symm.trans hr)
  · exact recompute_ne hinj (.inr (.inr (.inr ⟨v, rfl⟩))) hne (hr'.symm.trans hr)
  · exact hne (by simp [Tamper.apply, show v = e.prevHash from hp'.trans hp.symm])
  · exact hne (by simp [Tamper.apply, show v = e.hash from hr'.trans hr.symm])

/-- The sequence order with the changed row in the old place. -/
theorem exists_place {log : AuditTable} {pre post : List AuditEvent} {e d : AuditEvent}
    (hlog : log.rows = pre ++ e :: post) :
    ∃ as bs, orderBySeq log.rows = as ++ e :: bs ∧ (as ++ bs).Perm (pre ++ post) ∧
      (as ++ d :: bs).Perm (pre ++ d :: post) := by
  have hperm : (orderBySeq log.rows).Perm log.rows := List.perm_insertionSort _ _
  have hmem : e ∈ orderBySeq log.rows := hperm.mem_iff.mpr (by simp [hlog])
  obtain ⟨as, bs, hab⟩ := List.append_of_mem hmem
  have hrest : (as ++ bs).Perm (pre ++ post) := by
    rw [hab, hlog] at hperm
    exact (List.perm_middle.symm.trans (hperm.trans List.perm_middle)).cons_inv
  exact ⟨as, bs, hab, hrest,
    List.perm_middle.trans ((hrest.cons d).trans List.perm_middle.symm)⟩

/-- A change that leaves `seq` alone leaves the order alone. -/
theorem orderBySeq_replace {table : List AuditEvent} {as bs : List AuditEvent}
    {e d : AuditEvent} (hsorted : (as ++ e :: bs).Pairwise fun a b => a.seq < b.seq)
    (hseq : d.seq = e.seq) (hperm : (as ++ d :: bs).Perm table) :
    orderBySeq table = as ++ d :: bs := by
  refine orderBySeq_eq hperm ?_
  rw [← List.pairwise_map (f := AuditEvent.seq) (R := (· < ·))] at hsorted ⊢
  simpa [hseq] using hsorted

/-- A sequence number that no other row separates from the old one leaves the order alone. -/
theorem pairwise_of_not_covered {as bs : List AuditEvent} {e : AuditEvent} {v : ℤ}
    (hsorted : (as ++ e :: bs).Pairwise fun a b => a.seq < b.seq)
    (hfresh : ∀ r ∈ as ++ bs, r.seq ≠ v)
    (hc : ¬ (Tamper.seq v).Covered (as ++ bs) e) :
    (as ++ (Tamper.seq v).apply e :: bs).Pairwise fun a b => a.seq < b.seq := by
  rw [List.pairwise_append, List.pairwise_cons] at hsorted ⊢
  obtain ⟨has, ⟨heb, hbs⟩, hcross⟩ := hsorted
  have hbetween : ∀ r ∈ as ++ bs,
      ¬ ((e.seq < r.seq ∧ r.seq < v) ∨ (v < r.seq ∧ r.seq < e.seq)) :=
    fun r hr h => hc ⟨r, hr, h⟩
  refine ⟨has, ⟨fun b hb => ?_, hbs⟩, fun a ha b hb => ?_⟩
  · have h₁ := heb b hb
    have h₂ := hbetween b (List.mem_append_right _ hb)
    have h₃ := hfresh b (List.mem_append_right _ hb)
    simp only [Tamper.apply]
    omega
  · rcases List.mem_cons.mp hb with rfl | hb
    · have h₁ := hcross a ha e List.mem_cons_self
      have h₂ := hbetween a (List.mem_append_left _ ha)
      have h₃ := hfresh a (List.mem_append_left _ ha)
      simp only [Tamper.apply]
      omega
    · exact hcross a ha b (List.mem_cons_of_mem _ hb)

/-- A row moved past another one breaks the chain: the rows have only one order. -/
theorem not_intact_of_moved (hsha : Digest.CollisionFree sha256) {table : AuditTable}
    {as bs : List AuditEvent} {e : AuditEvent} {v : ℤ}
    (hsorted : (as ++ e :: bs).Pairwise fun a b => a.seq < b.seq)
    (hintact : Intact sha256 none (as ++ e :: bs))
    (hperm : (as ++ (Tamper.seq v).apply e :: bs).Perm table.rows)
    (hc : (Tamper.seq v).Covered (as ++ bs) e) : ¬ Intact sha256 none (orderBySeq table.rows) := by
  intro h
  have hsame : Intact sha256 none (as ++ (Tamper.seq v).apply e :: bs) :=
    hintact.replace ⟨rfl, rfl, rfl⟩
  have horder : as ++ (Tamper.seq v).apply e :: bs = orderBySeq table.rows :=
    hsame.linked.eq_of_perm h.linked (hsame.nodup_prevHash hsha)
      (hperm.trans (List.perm_insertionSort _ _).symm)
  have hs := orderBySeq_sorted table.seq_unique
  rw [← horder, List.pairwise_append, List.pairwise_cons] at hs
  rw [List.pairwise_append, List.pairwise_cons] at hsorted
  obtain ⟨r, hr, hbetween⟩ := hc
  rcases List.mem_append.mp hr with hr | hr
  · have h₁ : r.seq < e.seq := hsorted.2.2 r hr e List.mem_cons_self
    have h₂ : r.seq < v := hs.2.2 r hr _ List.mem_cons_self
    omega
  · have h₁ : e.seq < r.seq := hsorted.2.1.1 r hr
    have h₂ : v < r.seq := hs.2.1.1 r hr
    omega

/-- **R11, exactly.** In a log that `validate_chain` accepts, changing one stored field of one
row makes it raise exactly when the field is hashed or is the hash, or when a new sequence
number moves the row past another one. -/
theorem tamper_detected_iff (sha256 : String → String) (hsha : Digest.CollisionFree sha256)
    (log changed : AuditTable) (hvalid : validateChain sha256 log.rows = .ok true)
    (pre post : List AuditEvent) (e : AuditEvent) (c : Tamper)
    (hlog : log.rows = pre ++ e :: post) (hne : c.apply e ≠ e)
    (hchanged : changed.rows = pre ++ c.apply e :: post) :
    (∃ err, validateChain sha256 changed.rows = .error err) ↔ c.Covered (pre ++ post) e := by
  obtain ⟨as, bs, horder, hrest, hperm⟩ := exists_place (d := c.apply e) hlog
  rw [← hchanged] at hperm
  have hsorted := orderBySeq_sorted log.seq_unique
  have hintact := validateChain_eq_ok_iff.mp hvalid
  rw [horder] at hsorted hintact
  rw [validateChain_eq_error_iff]
  have hkeep : (c.apply e).seq = e.seq → orderBySeq changed.rows = as ++ c.apply e :: bs :=
    fun hseq => orderBySeq_replace hsorted hseq hperm
  cases c with
  | payload v | actorId v | occurredAt v =>
      rw [hkeep rfl]
      exact iff_of_false (fun h => h (hintact.replace ⟨rfl, rfl, rfl⟩)) id
  | entityType v | entityId v | action v | payloadHash v | prevHash v | hash v =>
      rw [hkeep rfl]
      exact iff_of_true (not_intact_of_tamper hsha.injective hintact hne (by simp)) trivial
  | seq v =>
      have hcov : (Tamper.seq v).Covered (pre ++ post) e ↔
          (Tamper.seq v).Covered (as ++ bs) e := by
        simp only [Tamper.Covered, hrest.mem_iff]
      rw [hcov]
      refine ⟨fun h => ?_, fun h => not_intact_of_moved hsha hsorted hintact hperm h⟩
      by_contra hc
      refine h ?_
      have hfresh : ∀ r ∈ as ++ bs, r.seq ≠ v := by
        have hn := (hperm.map AuditEvent.seq).nodup_iff.mpr changed.seq_unique
        rw [(List.perm_middle.map AuditEvent.seq).nodup_iff, List.map_cons,
          List.nodup_cons] at hn
        intro r hr hrv
        exact hn.1 (List.mem_map.mpr ⟨r, hr, hrv⟩)
      rw [orderBySeq_eq hperm (pairwise_of_not_covered hsorted hfresh hc)]
      exact hintact.replace ⟨rfl, rfl, rfl⟩

/-- The digests of an empty payload, of a log of two rows and of a forged second row. -/
def sampleTable : List (String × String) :=
  [("\x7b\x7d", "44136fa355b3678a1146ad16f7e8649e94fb4fc21fe77e8310c060f61caaff8a"),
    ("Event|00000000-0000-0000-0000-000000000001|event_ingested|44136fa355b3678a1146ad16f7e8649e94fb4fc21fe77e8310c060f61caaff8a|GENESIS",
      "679cd1042779a5eeae6e46619136e97050a31b9ace5c05421d122b4dffa53aea"),
    ("JournalEntry|00000000-0000-0000-0000-000000000002|journal_posted|44136fa355b3678a1146ad16f7e8649e94fb4fc21fe77e8310c060f61caaff8a|679cd1042779a5eeae6e46619136e97050a31b9ace5c05421d122b4dffa53aea",
      "188084d835d7076b04a802d21125313674f9f9ba03f6067d6cd94c19c8a633a0"),
    ("JournalEntry|00000000-0000-0000-0000-000000000002|journal_reversed|44136fa355b3678a1146ad16f7e8649e94fb4fc21fe77e8310c060f61caaff8a|679cd1042779a5eeae6e46619136e97050a31b9ace5c05421d122b4dffa53aea",
      "6e0546d7e3d7c28a57e8007ad272f1aa724bbb46ae4894e43f60d11ee6235900")]

theorem isTable_sampleTable : Digest.IsTable sampleTable where
  values := by decide
  hex := by decide
  length := by decide

def sampleFirst : AuditEvent where
  id := ⟨0xa1⟩
  seq := 1
  entityType := "Event"
  entityId := ⟨1⟩
  action := "event_ingested"
  actorId := ⟨0xac⟩
  occurredAt := sampleTime
  payload := some (.dict [])
  payloadHash := "44136fa355b3678a1146ad16f7e8649e94fb4fc21fe77e8310c060f61caaff8a"
  prevHash := none
  hash := "679cd1042779a5eeae6e46619136e97050a31b9ace5c05421d122b4dffa53aea"

def sampleSecond : AuditEvent :=
  { sampleFirst with
    id := ⟨0xa2⟩
    seq := 2
    entityType := "JournalEntry"
    entityId := ⟨2⟩
    action := "journal_posted"
    prevHash := some "679cd1042779a5eeae6e46619136e97050a31b9ace5c05421d122b4dffa53aea"
    hash := "188084d835d7076b04a802d21125313674f9f9ba03f6067d6cd94c19c8a633a0" }

/-- Two rows in the second of which one field is changed. -/
def sampleLog (c : Tamper) (hseq : (c.apply sampleSecond).seq = 2) : AuditTable where
  rows := [sampleFirst, c.apply sampleSecond]
  seq_unique := by simp [hseq, sampleFirst]

theorem tamper_detected_action :
    ∃ err, validateChain (Digest.tableDigest sampleTable)
      (sampleLog (.action "journal_reversed") rfl).rows = .error err :=
  (tamper_detected_iff (Digest.tableDigest sampleTable)
    (Digest.collisionFree_tableDigest isTable_sampleTable)
    (sampleLog (.action "journal_posted") rfl) (sampleLog (.action "journal_reversed") rfl)
    (by decide +kernel) [sampleFirst] [] sampleSecond (.action "journal_reversed") rfl
    (fun h => absurd (congrArg AuditEvent.action h) (by decide)) rfl).mpr trivial

/-- Whoever acted can be replaced without `validate_chain` noticing. -/
theorem tampered_actor_accepted :
    Digest.CollisionFree (Digest.tableDigest sampleTable) ∧
      validateChain (Digest.tableDigest sampleTable) [sampleFirst, sampleSecond] = .ok true ∧
      (Tamper.actorId ⟨0xbad⟩).apply sampleSecond ≠ sampleSecond ∧
      validateChain (Digest.tableDigest sampleTable)
        [sampleFirst, (Tamper.actorId ⟨0xbad⟩).apply sampleSecond] = .ok true :=
  ⟨Digest.collisionFree_tableDigest isTable_sampleTable, by decide +kernel,
    fun h => absurd (congrArg AuditEvent.actorId h) (by decide), by decide +kernel⟩

end FinanceAccounting.Auditor
