import FinanceAccounting.Library.Traversals
import FinanceAccounting.Modules.Posting

/-! # What an event posts to one role

The balance of a role after an event is the sum of what the line mappings of the policy contribute
that name the role.  `balance_posted` says so for the lines of any posted event whose policy has
mappings for each of its ledgers, and `contribution_plain` what a mapping without a context field
and without a collection contributes: the amount of the event. -/

namespace FinanceAccounting.Modules

open Journal (LineSide)
open PolicyBridge (AccountingPolicy LedgerEffect ModuleLineMapping createIntentLine findForEvent
  mappingLines)

/-! ### Lines of one role -/

/-- Debits less credits of a role among the lines of an intent, as they are stored. -/
def roleBalance (role currency : String) (ls : List PolicyBridge.IntentLine) : ℚ :=
  balance "" role currency (ls.map (toLedgerLine ""))

section Role

variable {ledger role currency : String} {ls ls' : List PolicyBridge.IntentLine} {l : PolicyBridge.IntentLine}

@[simp] theorem roleBalance_nil : roleBalance role currency [] = 0 := rfl

@[simp] theorem roleBalance_append : roleBalance role currency (ls ++ ls') =
    roleBalance role currency ls + roleBalance role currency ls' := by
  simp [roleBalance]

theorem roleBalance_cons : roleBalance role currency (l :: ls) =
    (if l.accountRole = role ∧ l.currency = currency then (toLedgerLine "" l).signed else 0) +
      roleBalance role currency ls := by
  simp [roleBalance, toLedgerLine]

theorem roleBalance_of_ne (h : ∀ l ∈ ls, l.accountRole ≠ role) :
    roleBalance role currency ls = 0 := by
  induction ls with
  | nil => rfl
  | cons l ls ih =>
      have hl : l.accountRole ≠ role := h l List.mem_cons_self
      rw [roleBalance_cons, ih fun l' hl' => h l' (List.mem_cons_of_mem l hl'), add_zero,
        if_neg fun hboth => hl hboth.1]

/-- In its own ledger a role has the balance of its lines, in another none. -/
theorem balance_toLedgerLine (ledger' : String) :
    balance ledger role currency (ls.map (toLedgerLine ledger')) =
      if ledger' = ledger then roleBalance role currency ls else 0 := by
  induction ls with
  | nil => simp
  | cons l ls ih =>
      rw [List.map_cons, balance_cons, ih, roleBalance_cons]
      by_cases hledger : ledger' = ledger
      · simp [hledger, toLedgerLine, LedgerLine.signed]
      · simp [hledger, toLedgerLine]

end Role

/-! ### What a mapping contributes -/

section Mapping

variable (ctx : Decimal.Context) (e : Event)

/-- An amount on a side. -/
def signedOn (side : LineSide) (x : ℚ) : ℚ :=
  match side with
  | .debit => x
  | .credit => -x

/-- What a mapping contributes to the balance of its role. -/
def contribution (currency : String) (m : ModuleLineMapping) : ℚ :=
  match mappingLines ctx m e.amount e.currency e.payload with
  | .ok ls => roleBalance m.role currency ls
  | .error _ => 0

variable {ctx e} {role currency : String} {m : ModuleLineMapping} {ls : List PolicyBridge.IntentLine}

theorem createIntentLine_eq_ok {side : LineSide} {amount : ℚ} {l : PolicyBridge.IntentLine}
    (h : createIntentLine role side amount currency = .ok l) :
    l = ⟨role, side, amount, currency⟩ ∧ 0 ≤ amount := by
  rcases lt_or_ge amount 0 with hneg | hnonneg
  · rw [createIntentLine_of_neg hneg] at h
    cases h
  · rw [createIntentLine_of_nonneg hnonneg] at h
    exact ⟨(Except.ok.inj h).symm, hnonneg⟩

theorem role_of_single {side : LineSide} {amount : ℚ}
    (h : (createIntentLine role side amount currency).map ([·]) = .ok ls) :
    ∀ l ∈ ls, l.accountRole = role := by
  obtain ⟨l, hl, rfl⟩ := Traversals.map_eq_ok.mp h
  obtain ⟨rfl, -⟩ := createIntentLine_eq_ok hl
  intro l' hl'
  rw [List.mem_singleton.mp hl']

/-- All lines of a mapping are on its role. -/
theorem role_of_mappingLines
    (h : mappingLines ctx m e.amount e.currency e.payload = .ok ls) :
    ∀ l ∈ ls, l.accountRole = m.role := by
  unfold mappingLines at h
  dsimp only at h
  split at h
  · split at h
    · exact role_of_single h
    · intro l hl
      obtain ⟨item, -, hitem⟩ := (Traversals.mem_of_mapM h).2 l hl
      obtain ⟨x, -, hline⟩ := Traversals.bind_eq_ok.mp hitem
      obtain ⟨rfl, -⟩ := createIntentLine_eq_ok hline
      rfl
    · split at h
      · exact role_of_single h
      · intro l hl
        obtain ⟨c, -, hline⟩ := (Traversals.mem_of_mapM h).2 l hl
        obtain ⟨rfl, -⟩ := createIntentLine_eq_ok hline
        rfl
    · cases h
  · split at h
    · obtain rfl := Except.ok.inj h
      exact fun l hl => by cases hl
    · split at h
      · exact role_of_single h
      · split at h
        · exact role_of_single h
        · obtain rfl := Except.ok.inj h
          exact fun l hl => by cases hl
    · cases h
  · exact role_of_single h

/-- **A plain mapping** contributes the amount of the event, in the currency of the event. -/
theorem contribution_plain (hforeach : m.foreach = none) (hcontext : m.fromContext = none)
    (hnonneg : 0 ≤ e.amount) : contribution ctx e currency m =
      if e.currency = currency then signedOn m.side (stored e.amount) else 0 := by
  unfold contribution mappingLines
  simp only [hforeach, hcontext, createIntentLine_of_nonneg hnonneg, Except.map]
  by_cases hcurrency : e.currency = currency
  · cases hside : m.side with
    | debit => simp [roleBalance, toLedgerLine, LedgerLine.signed, hcurrency, signedOn]
    | credit => simp [roleBalance, toLedgerLine, LedgerLine.signed, hcurrency, signedOn]
  · simp [roleBalance, toLedgerLine, hcurrency]

/-- The lines of several mappings, role by role. -/
theorem roleBalance_of_mapM {mappings : List ModuleLineMapping} {lss : List (List PolicyBridge.IntentLine)}
    (h : mappings.mapM (fun m => mappingLines ctx m e.amount e.currency e.payload) = .ok lss) :
    roleBalance role currency lss.flatten =
      ((mappings.filter (·.role = role)).map (contribution ctx e currency)).sum := by
  have hall := Traversals.mapM_eq_ok_iff.mp h
  clear h
  induction hall with
  | nil => rfl
  | @cons m ls mappings lss hlines _ ih =>
      have hrole := role_of_mappingLines hlines
      rw [List.flatten_cons, roleBalance_append, ih, List.filter_cons]
      by_cases hm : m.role = role
      · have hown : contribution ctx e currency m = roleBalance role currency ls := by
          unfold contribution
          rw [hlines, hm]
        rw [if_pos (decide_eq_true hm), List.map_cons, List.sum_cons, hown]
      · have hzero : roleBalance role currency ls = 0 :=
          roleBalance_of_ne fun l hl => by
            rw [hrole l hl]
            exact hm
        rw [if_neg (by simpa using hm), hzero, zero_add]

end Mapping

/-! ### What an event contributes -/

section Event

variable {ctx : Decimal.Context} {policies : List AccountingPolicy} {p : AccountingPolicy}
variable {e : Event} {lines : List LedgerLine} {ledger role currency : String}

/-- Every ledger of the policy has line mappings. -/
def Mapped (p : AccountingPolicy) : Prop :=
  ∀ effect ∈ p.ledgerEffects, p.lineMappings.filter (·.ledger = effect.ledger) ≠ []

instance : Decidable (Mapped p) := by
  unfold Mapped
  infer_instance

/-- A posted event went past the guards of its policy, and the policy made the lines. -/
theorem posted_of_interpret (h : interpret ctx policies e = .posted lines) :
    ∃ p intents, findForEvent policies e.eventType e.payload = some p ∧
      p.firedGuard e.payload = none ∧ ledgerIntents ctx p e = .ok intents ∧
        lines = intents.flatMap fun i => i.lines.map (toLedgerLine i.ledgerId) := by
  unfold interpret at h
  split at h
  · cases h
  · rename_i p hfound
    split at h
    · cases h
    · rename_i hguard
      split at h
      · cases h
      · cases h
      · cases h
      · rename_i intents _ hintents
        split at h
        · exact ⟨p, intents, hfound, hguard, hintents, (Posting.posted.inj h).symm⟩
        · cases h

/-- What the mappings of a ledger contribute to a role of it. -/
def mappedTotal (ctx : Decimal.Context) (p : AccountingPolicy) (e : Event)
    (ledger role currency : String) : ℚ :=
  ((p.lineMappings.filter fun m => m.ledger = ledger ∧ m.role = role).map
    (contribution ctx e currency)).sum

theorem balance_effect {effect : LedgerEffect} {ls : List PolicyBridge.IntentLine}
    (hmapped : p.lineMappings.filter (·.ledger = effect.ledger) ≠ [])
    (h : effectLines ctx p e effect = .ok ls) :
    balance ledger role currency (ls.map (toLedgerLine effect.ledger)) =
      if effect.ledger = ledger then mappedTotal ctx p e ledger role currency else 0 := by
  rw [balance_toLedgerLine]
  by_cases hledger : effect.ledger = ledger
  · subst hledger
    rw [if_pos rfl, if_pos rfl]
    unfold effectLines at h
    split at h
    · rename_i hnone
      exact absurd hnone hmapped
    · rename_i mappings _
      obtain ⟨lss, hlss, rfl⟩ := Traversals.map_eq_ok.mp h
      rw [roleBalance_of_mapM hlss, mappedTotal, List.filter_filter]
      congr 3
      funext m
      simp [and_comm]
  · rw [if_neg hledger, if_neg hledger]

/-- **The balance of a role after an event** is what the mappings of the role contribute, once for
each effect on the ledger. -/
theorem balance_posted (h : interpret ctx policies e = .posted lines)
    (hfound : findForEvent policies e.eventType e.payload = some p) (hmapped : Mapped p) :
    balance ledger role currency lines =
      (p.ledgerEffects.countP (·.ledger = ledger)) * mappedTotal ctx p e ledger role currency := by
  obtain ⟨p', intents, hfound', -, hintents, rfl⟩ := posted_of_interpret h
  obtain rfl := Option.some.inj (hfound'.symm.trans hfound)
  obtain ⟨raw, hraw, rfl⟩ := Traversals.map_eq_ok.mp hintents
  have hfilter : ∀ intents : List PolicyBridge.LedgerIntent,
      balance ledger role currency ((intents.filter (·.lines ≠ [])).flatMap fun i =>
        i.lines.map (toLedgerLine i.ledgerId)) =
      balance ledger role currency (intents.flatMap fun i =>
        i.lines.map (toLedgerLine i.ledgerId)) := by
    intro intents
    induction intents with
    | nil => rfl
    | cons i intents ih =>
        rw [List.filter_cons, List.flatMap_cons, balance_append]
        split
        · rw [List.flatMap_cons, balance_append, ih]
        · rename_i hempty
          have hnone : i.lines = [] := by simpa using hempty
          rw [hnone, List.map_nil, balance_nil, zero_add, ih]
  rw [hfilter]
  have hall := Traversals.mapM_eq_ok_iff.mp hraw
  have heffects : ∀ effect ∈ p'.ledgerEffects, _ := hmapped
  clear h hraw hintents hfilter
  generalize p'.ledgerEffects = effects at hall heffects
  induction hall with
  | nil => simp
  | @cons effect intent effects raw hintent _ ih =>
      obtain ⟨ls, hls, rfl⟩ := Traversals.map_eq_ok.mp hintent
      have hrest := ih fun x hx => heffects x (List.mem_cons_of_mem effect hx)
      rw [List.flatMap_cons, balance_append, hrest, List.countP_cons,
        balance_effect (heffects effect List.mem_cons_self) hls]
      by_cases hledger : effect.ledger = ledger
      · simp only [hledger, if_true, decide_true, Nat.cast_add, Nat.cast_one]
        ring
      · simp [hledger]

/-- The policy has one effect on the ledger, and for the role in it one plain mapping. -/
def Plainly (p : AccountingPolicy) (ledger role : String) (side : LineSide) : Prop :=
  Mapped p ∧ p.ledgerEffects.countP (·.ledger = ledger) = 1 ∧
    p.lineMappings.filter (fun m => m.ledger = ledger ∧ m.role = role) =
      [{ role := role, side := side, ledger := ledger }]

/-- The policy does not touch the role. -/
def Silent (p : AccountingPolicy) (ledger role : String) : Prop :=
  Mapped p ∧ p.lineMappings.filter (fun m => m.ledger = ledger ∧ m.role = role) = []

instance {side : LineSide} : Decidable (Plainly p ledger role side) := by
  unfold Plainly
  infer_instance

instance : Decidable (Silent p ledger role) := by
  unfold Silent
  infer_instance

/-- The amount of a posted event is not negative, where a plain mapping uses it. -/
theorem nonneg_of_posted (h : interpret ctx policies e = .posted lines)
    (hfound : findForEvent policies e.eventType e.payload = some p) {effect : LedgerEffect}
    (heffect : effect ∈ p.ledgerEffects) {m : ModuleLineMapping} (hm : m ∈ p.lineMappings)
    (hledger : m.ledger = effect.ledger) (hforeach : m.foreach = none)
    (hcontext : m.fromContext = none) : 0 ≤ e.amount := by
  obtain ⟨p', intents, hfound', -, hintents, rfl⟩ := posted_of_interpret h
  obtain rfl := Option.some.inj (hfound'.symm.trans hfound)
  obtain ⟨raw, hraw, -⟩ := Traversals.map_eq_ok.mp hintents
  obtain ⟨intent, -, hintent⟩ := (Traversals.mem_of_mapM hraw).1 effect heffect
  obtain ⟨ls, hls, -⟩ := Traversals.map_eq_ok.mp hintent
  have hmem : m ∈ p'.lineMappings.filter (·.ledger = effect.ledger) :=
    List.mem_filter.mpr ⟨hm, decide_eq_true hledger⟩
  unfold effectLines at hls
  split at hls
  · rename_i hnone
    rw [hnone] at hmem
    cases hmem
  · obtain ⟨lss, hlss, -⟩ := Traversals.map_eq_ok.mp hls
    obtain ⟨ls', -, hlines⟩ := (Traversals.mem_of_mapM hlss).1 m hmem
    unfold mappingLines at hlines
    simp only [hforeach, hcontext] at hlines
    obtain ⟨l, hl, -⟩ := Traversals.map_eq_ok.mp hlines
    exact (createIntentLine_eq_ok hl).2

/-- **One plain mapping** posts the amount of the event, which is not negative. -/
theorem balance_plainly {side : LineSide} (h : interpret ctx policies e = .posted lines)
    (hfound : findForEvent policies e.eventType e.payload = some p)
    (hplainly : Plainly p ledger role side) (currency : String) :
    0 ≤ e.amount ∧ balance ledger role currency lines =
      if e.currency = currency then signedOn side (stored e.amount) else 0 := by
  obtain ⟨hmapped, hcount, hmapping⟩ := hplainly
  have hmem : ({ role := role, side := side, ledger := ledger } : ModuleLineMapping) ∈
      p.lineMappings.filter (fun m => m.ledger = ledger ∧ m.role = role) := by
    rw [hmapping]
    exact List.mem_cons_self
  obtain ⟨effect, heffect, hledger⟩ : ∃ effect ∈ p.ledgerEffects, effect.ledger = ledger := by
    have hpos : 0 < p.ledgerEffects.countP (·.ledger = ledger) := by
      rw [hcount]
      exact Nat.one_pos
    obtain ⟨effect, heffect, hdecide⟩ := List.countP_pos_iff.mp hpos
    exact ⟨effect, heffect, of_decide_eq_true hdecide⟩
  have hnonneg : 0 ≤ e.amount :=
    nonneg_of_posted h hfound heffect (List.mem_filter.mp hmem).1 hledger.symm rfl rfl
  refine ⟨hnonneg, ?_⟩
  rw [balance_posted h hfound hmapped, hcount, mappedTotal, hmapping, List.map_singleton,
    List.sum_singleton, contribution_plain rfl rfl hnonneg, Nat.cast_one, one_mul]

theorem balance_silent (h : interpret ctx policies e = .posted lines)
    (hfound : findForEvent policies e.eventType e.payload = some p)
    (hsilent : Silent p ledger role) (currency : String) :
    balance ledger role currency lines = 0 := by
  obtain ⟨hmapped, hmapping⟩ := hsilent
  rw [balance_posted h hfound hmapped, mappedTotal, hmapping, List.map_nil, List.sum_nil, mul_zero]

/-- The policy of an event is one of the policies of its type. -/
theorem mem_of_findForEvent {eventType : String} {payload : PolicyBridge.Payload}
    (h : findForEvent policies eventType payload = some p) :
    p ∈ policies.filter (·.eventType = eventType) := by
  unfold findForEvent at h
  dsimp only at h
  split at h
  · rename_i hfind
    rw [← Option.some.inj h]
    exact List.mem_of_find?_eq_some hfind
  · exact List.mem_of_find?_eq_some h

end Event

end FinanceAccounting.Modules
