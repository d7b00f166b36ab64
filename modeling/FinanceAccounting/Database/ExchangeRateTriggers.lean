import Mathlib.Algebra.Order.Field.Basic
import Mathlib.Algebra.Order.Ring.Rat
import Mathlib.Algebra.Order.Group.Unbundled.Abs
import FinanceAccounting.Library.RowStatements

/-! # The guards of `exchange_rates`

The row triggers check the value of a rate, freeze rates that journal lines refer to, and compare
a new rate with an inverse rate of the same instant.  There may be several inverse rates, of which
the trigger compares the one the database returns first; and what is frozen is the value of the
rate, not the pair of currencies or the instant.

`table_sound_iff` is the law of all runs: the table stays sound if and only if every statement
that is executed is consistent with the inverse rates that the trigger passes over and leaves a
referenced rate at its pair and its instant. -/

namespace FinanceAccounting.ExchangeRateTriggers

open RowStatements (Rules Statement Table)
open TransitionSystem (run Along Between Steps Throughout)

/-- A row of `exchange_rates`; a `NULL` rate does not pass the triggers. -/
structure ExchangeRate where
  id : String
  fromCurrency : String
  toCurrency : String
  rate : Option ℚ
  /-- The instant, in microseconds. -/
  effectiveAt : ℤ
  source : String
  reference : Option String := none
  createdAt : ℤ
  updatedAt : ℤ
  createdById : String
  updatedById : Option String := none
deriving DecidableEq

abbrev RateTable := Table ExchangeRate.id

/-- The row that `LIMIT 1` without an order returns. -/
structure Pick where
  choose : List ExchangeRate → Option ExchangeRate
  mem : ∀ rows row, choose rows = some row → row ∈ rows
  isSome : ∀ rows, rows ≠ [] → (choose rows).isSome

/-- The first row. -/
def Pick.first : Pick where
  choose := List.head?
  mem _ _ h := List.mem_of_head? h
  isSome rows h := by
    cases rows with
    | nil => exact absurd rfl h
    | cons row rows => rfl

/-! ### The triggers -/

/-- A trigger that lets the statement pass returns `true`. -/
def validateExchangeRateValue (new : ExchangeRate) : Bool :=
  match new.rate with
  | none => false
  | some rate => if rate ≤ 0 then false else if rate > 1000000 then false else true

/-- The journal lines with the rate.  `lines` are the `exchange_rate_id` of all journal lines. -/
def referenceCount (lines : List (Option String)) (id : String) : ℕ :=
  (lines.filter (· = some id)).length

def preventReferencedExchangeRateModification (lines : List (Option String))
    (old new : ExchangeRate) : Bool :=
  if old.rate.isSome && old.rate = new.rate then true
  else if referenceCount lines old.id > 0 then false
  else true

def preventReferencedExchangeRateDeletion (lines : List (Option String))
    (old : ExchangeRate) : Bool :=
  if referenceCount lines old.id > 0 then false else true

/-- The row is an inverse rate of the other one, at the same instant. -/
def inverseOf (new row : ExchangeRate) : Bool :=
  row.fromCurrency = new.toCurrency && row.toCurrency = new.fromCurrency &&
    row.effectiveAt = new.effectiveAt && row.id ≠ new.id

def tolerance : ℚ := 1 / 10000

def checkExchangeRateArbitrage (pick : Pick) (rows : List ExchangeRate) (new : ExchangeRate) :
    Bool :=
  match new.rate with
  | none => true
  | some rate =>
      if rate ≤ 0 then true
      else
        match (pick.choose (rows.filter (inverseOf new))).bind (·.rate) with
        | none => true
        | some inverseRate => if |rate * inverseRate - 1| > tolerance then false else true

/-! ### Statements -/

/-- A statement, with the inverse rate that the trigger sees. -/
structure Action where
  pick : Pick
  statement : Statement String ExchangeRate

/-- The triggers of a kind run in the order of their names, and `exchange_rate_id` is a foreign
key. -/
def rules (lines : List (Option String)) (pick : Pick) (t : RateTable) : Rules ExchangeRate where
  insert new := checkExchangeRateArbitrage pick t.rows new && validateExchangeRateValue new
  update old new :=
    checkExchangeRateArbitrage pick t.rows new &&
      preventReferencedExchangeRateModification lines old new && validateExchangeRateValue new
  delete old := preventReferencedExchangeRateDeletion lines old
  constraints rows := lines.all fun line => line.all fun id => rows.any (·.id = id)

def execute (lines : List (Option String)) (t : RateTable) (a : Action) : Option RateTable :=
  t.execute (rules lines a.pick t) a.statement

/-- Execute a statement, and drop it if it is refused. -/
def step (lines : List (Option String)) (t : RateTable) (a : Action) : Option RateTable :=
  some (t.attempt (rules lines a.pick t) a.statement)

/-! ### The law -/

/-- The rate is positive and at most a million. -/
def ValidRate (r : ExchangeRate) : Prop := ∃ rate, r.rate = some rate ∧ 0 < rate ∧ rate ≤ 1000000

/-- The product of the rates is within the tolerance of one. -/
def Consistent (a b : ExchangeRate) : Prop :=
  ∀ rate inverseRate, a.rate = some rate → b.rate = some inverseRate →
    |rate * inverseRate - 1| ≤ tolerance

structure Sound (t : RateTable) : Prop where
  valid : ∀ r ∈ t.rows, ValidRate r
  consistent : ∀ a ∈ t.rows, ∀ b ∈ t.rows, inverseOf a b → Consistent a b

/-- Rates that journal lines refer to are still there, with their value, pair and instant. -/
def Frozen (lines : List (Option String)) (t t' : RateTable) : Prop :=
  ∀ r ∈ t.rows, some r.id ∈ lines → ∃ r' ∈ t'.rows, r'.id = r.id ∧ r'.rate = r.rate ∧
    r'.fromCurrency = r.fromCurrency ∧ r'.toCurrency = r.toCurrency ∧
      r'.effectiveAt = r.effectiveAt

/-- A statement writes a row in the place of the one with a key, or in no place. -/
def Writes (t : RateTable) (statement : Statement String ExchangeRate) (row : ExchangeRate)
    (k : Option String) : Prop :=
  (statement = .insert row ∧ k = none) ∨
    ∃ old ∈ t.rows, statement = .update old.id row ∧ k = some old.id

/-- The new rate is consistent with the inverse rates that the trigger passes over. -/
def MeetsInverses (lines : List (Option String)) (t : RateTable) (a : Action) : Prop :=
  ∀ row k, Writes t a.statement row k → (execute lines t a).isSome →
    ∀ r ∈ t.rows, some r.id ≠ k → inverseOf row r →
      a.pick.choose (t.rows.filter (inverseOf row)) ≠ some r → Consistent row r

/-- A referenced rate that keeps its value keeps its pair and its instant. -/
def KeepsPair (lines : List (Option String)) (t : RateTable) (a : Action) : Prop :=
  ∀ old ∈ t.rows, ∀ row, a.statement = .update old.id row → some old.id ∈ lines →
    row.rate = old.rate → (execute lines t a).isSome →
      row.fromCurrency = old.fromCurrency ∧ row.toCurrency = old.toCurrency ∧
        row.effectiveAt = old.effectiveAt

section Law

variable {lines : List (Option String)} {t t' : RateTable} {a : Action} {pick : Pick}
variable {r x y old new row : ExchangeRate}

theorem valid_of_validated (h : validateExchangeRateValue new = true) : ValidRate new := by
  unfold validateExchangeRateValue at h
  cases hrate : new.rate with
  | none => simp [hrate] at h
  | some rate =>
      simp only [hrate] at h
      split at h
      · cases h
      · split at h
        · cases h
        · exact ⟨rate, hrate, not_le.mp ‹_›, not_lt.mp ‹_›⟩

theorem Consistent.symm (h : Consistent x y) : Consistent y x := by
  intro rate inverseRate hy hx
  rw [mul_comm]
  exact h inverseRate rate hx hy

theorem inverseOf_symm (h : inverseOf x y = true) : inverseOf y x = true := by
  simp only [inverseOf, Bool.and_eq_true, decide_eq_true_eq, ne_eq] at h ⊢
  obtain ⟨⟨⟨hfrom, hto⟩, hat⟩, hid⟩ := h
  exact ⟨⟨⟨hto.symm, hfrom.symm⟩, hat.symm⟩, fun hsame => hid hsame.symm⟩

/-- What the trigger compares. -/
theorem consistent_of_picked (h : checkExchangeRateArbitrage pick t.rows new = true)
    (hvalid : ValidRate new) (hpick : pick.choose (t.rows.filter (inverseOf new)) = some r) :
    Consistent new r := by
  obtain ⟨rate, hrate, hpos, -⟩ := hvalid
  intro rate' inverseRate hnew hr
  obtain rfl := Option.some.inj (hrate.symm.trans hnew)
  unfold checkExchangeRateArbitrage at h
  simp only [hrate, if_neg (not_le.mpr hpos), hpick, Option.bind_some, hr] at h
  by_contra hout
  rw [if_pos (not_le.mp hout)] at h
  cases h

/-- A row that is written passes the triggers on values. -/
theorem passed_of_writes {k : Option String} (hwrites : Writes t a.statement row k)
    (hexecute : execute lines t a = some t') :
    checkExchangeRateArbitrage a.pick t.rows row = true ∧ ValidRate row ∧ row ∈ t'.rows ∧
      ∀ x ∈ t'.rows, x = row ∨ x ∈ t.rows ∧ some x.id ≠ k := by
  unfold execute at hexecute
  rcases hwrites with ⟨hstatement, rfl⟩ | ⟨old, hold, hstatement, rfl⟩
  · rw [hstatement] at hexecute
    obtain ⟨hpasses, hrows⟩ := Table.rows_of_insert hexecute
    obtain ⟨harbitrage, hvalue⟩ := (Bool.and_eq_true _ _).mp hpasses
    refine ⟨harbitrage, valid_of_validated hvalue, ?_, fun x hx => ?_⟩
    · rw [hrows]
      exact List.mem_append_right _ (List.mem_singleton_self row)
    · rw [hrows] at hx
      rcases List.mem_append.mp hx with hx | hx
      · exact Or.inr ⟨hx, Option.some_ne_none _⟩
      · exact Or.inl (List.mem_singleton.mp hx)
  · rw [hstatement] at hexecute
    obtain ⟨hpasses, hrows⟩ := Table.rows_of_update hold hexecute
    obtain ⟨hpasses, hvalue⟩ := (Bool.and_eq_true _ _).mp hpasses
    obtain ⟨harbitrage, -⟩ := (Bool.and_eq_true _ _).mp hpasses
    refine ⟨harbitrage, valid_of_validated hvalue, ?_, fun x hx => ?_⟩
    · rw [hrows]
      exact KeyedTable.mem_replaceAt_self hold
    · rw [hrows] at hx
      rcases KeyedTable.mem_replaceAt hx with hx | ⟨hx, hid⟩
      · exact Or.inl hx
      · exact Or.inr ⟨hx, fun h => hid (Option.some.inj h)⟩

/-- A new row that is consistent with the rows that stay. -/
theorem Sound.of_written {k : Option String} (h : Sound t) (hvalid : ValidRate row)
    (hmem : ∀ x ∈ t'.rows, x = row ∨ x ∈ t.rows ∧ some x.id ≠ k)
    (hnew : ∀ r ∈ t.rows, some r.id ≠ k → inverseOf row r → Consistent row r) : Sound t' := by
  constructor
  · intro r hr
    rcases hmem r hr with rfl | ⟨hr, -⟩
    · exact hvalid
    · exact h.valid r hr
  · intro x hx y hy hinverse
    rcases hmem x hx with rfl | ⟨hx, hxk⟩
    · rcases hmem y hy with rfl | ⟨hy, hyk⟩
      · simp [inverseOf] at hinverse
      · exact hnew y hy hyk hinverse
    · rcases hmem y hy with rfl | ⟨hy, -⟩
      · exact (hnew x hx hxk (inverseOf_symm hinverse)).symm
      · exact h.consistent x hx y hy hinverse

theorem Sound.of_subset (h : Sound t) (hmem : ∀ x ∈ t'.rows, x ∈ t.rows) : Sound t' :=
  ⟨fun r hr => h.valid r (hmem r hr),
    fun x hx y hy => h.consistent x (hmem x hx) y (hmem y hy)⟩

/-- Every inverse rate is consistent with a new rate: the one that is compared, and the others. -/
theorem Sound.of_executed (h : Sound t) (hmeets : MeetsInverses lines t a)
    (hexecute : execute lines t a = some t') : Sound t' := by
  have hsome : (execute lines t a).isSome := by rw [hexecute, Option.isSome_some]
  have hwritten : ∀ row k, Writes t a.statement row k → Sound t' := by
    intro row k hwrites
    obtain ⟨harbitrage, hvalid, -, hmem⟩ := passed_of_writes hwrites hexecute
    refine h.of_written hvalid hmem fun r hr hk hinverse => ?_
    by_cases hpick : a.pick.choose (t.rows.filter (inverseOf row)) = some r
    · exact consistent_of_picked harbitrage hvalid hpick
    · exact hmeets row k hwrites hsome r hr hk hinverse hpick
  have heffect := Table.execute_effect hexecute
  cases hstatement : a.statement with
  | insert row => exact hwritten row none (Or.inl ⟨hstatement, rfl⟩)
  | update k row =>
      rw [hstatement] at heffect
      cases heffect with
      | same => exact h
      | updated old _ hold _ _ _ =>
          exact hwritten row (some old.id) (Or.inr ⟨old, hold, hstatement, rfl⟩)
  | delete k =>
      refine h.of_subset fun x hx => ?_
      rcases heffect.origin hx with hx | ⟨hinsert, -⟩ | ⟨old, -, hupdate, -⟩
      · exact hx
      · rw [hstatement] at hinsert
        cases hinsert
      · rw [hstatement] at hupdate
        cases hupdate

/-- **The step lemma for the rates**: a statement leaves a sound table sound if and only if it
meets the inverse rates that the trigger passes over. -/
theorem sound_step_iff (h : Sound t) (hstep : step lines t a = some t') :
    Sound t' ↔ MeetsInverses lines t a := by
  obtain rfl := Option.some.inj hstep
  cases hexecute : execute lines t a with
  | none =>
      have hsame : t.attempt (rules lines a.pick t) a.statement = t := by
        unfold execute at hexecute
        rw [Table.attempt, hexecute, Option.getD_none]
      rw [hsame]
      refine iff_of_true h fun row k _ hsome => ?_
      rw [hexecute] at hsome
      cases hsome
  | some t' =>
      rw [Table.attempt_of_execute hexecute]
      refine ⟨fun hsound row k hwrites _ r hr hk hinverse _ => ?_, fun hmeets =>
        h.of_executed hmeets hexecute⟩
      obtain ⟨-, -, hrow, -⟩ := passed_of_writes hwrites hexecute
      refine hsound.consistent row hrow r ?_ hinverse
      rcases (Table.execute_effect hexecute).kept hr with hkept | ⟨_, _, hupdate, -⟩ | ⟨hdelete, -⟩
      · exact hkept
      · rcases hwrites with ⟨hstatement, -⟩ | ⟨old, -, hstatement, rfl⟩
        · rw [hstatement] at hupdate
          cases hupdate
        · rw [hstatement, Statement.update.injEq] at hupdate
          exact absurd (congrArg some hupdate.1.symm) hk
      · rcases hwrites with ⟨hstatement, -⟩ | ⟨old, -, hstatement, -⟩
        · rw [hstatement] at hdelete
          cases hdelete
        · rw [hstatement] at hdelete
          cases hdelete

/-! ### Referenced rates -/

theorem frozen_refl (t : RateTable) : Frozen lines t t :=
  fun r hr _ => ⟨r, hr, rfl, rfl, rfl, rfl, rfl⟩

theorem frozen_trans (t₁ t₂ t₃ : RateTable) (h : Frozen lines t₁ t₂) (h' : Frozen lines t₂ t₃) :
    Frozen lines t₁ t₃ := by
  intro r hr href
  obtain ⟨r', hr', hid, hrate, hfrom, hto, hat⟩ := h r hr href
  obtain ⟨r'', hr'', hid', hrate', hfrom', hto', hat'⟩ := h' r' hr' (hid ▸ href)
  exact ⟨r'', hr'', hid'.trans hid, hrate'.trans hrate, hfrom'.trans hfrom, hto'.trans hto,
    hat'.trans hat⟩

theorem referenceCount_pos {id : String} (h : some id ∈ lines) : referenceCount lines id > 0 := by
  unfold referenceCount
  refine List.length_pos_of_mem (List.mem_filter.mpr ⟨h, ?_⟩)
  simp

theorem rate_eq_of_passed (href : some old.id ∈ lines)
    (h : preventReferencedExchangeRateModification lines old new = true) : new.rate = old.rate := by
  unfold preventReferencedExchangeRateModification at h
  rw [if_pos (referenceCount_pos href)] at h
  split at h
  · rename_i hsame
    exact (of_decide_eq_true ((Bool.and_eq_true _ _).mp hsame).2).symm
  · cases h

/-- The foreign key keeps the id of a referenced rate. -/
theorem id_of_executed (hold : old ∈ t.rows) (href : some old.id ∈ lines)
    (hstatement : a.statement = .update old.id row) (hexecute : execute lines t a = some t') :
    row.id = old.id := by
  unfold execute at hexecute
  rw [hstatement] at hexecute
  have hrows := (Table.rows_of_update hold hexecute).2
  have hkeys := List.all_eq_true.mp (Table.constraints_of_update hold hexecute) _ href
  obtain ⟨x, hx, hid⟩ := List.any_eq_true.mp hkeys
  rw [decide_eq_true_eq] at hid
  rw [hrows] at hx
  rcases KeyedTable.mem_replaceAt hx with rfl | ⟨-, hne⟩
  · exact hid
  · exact absurd hid hne

/-- **The step lemma for the freeze**: referenced rates stay if and only if an update that leaves
the value of one leaves its pair and its instant. -/
theorem frozen_step_iff (t : RateTable) (a : Action) :
    Steps (step lines) (Frozen lines) t a ↔ KeepsPair lines t a := by
  constructor
  · intro h old hold row hstatement href _ hexecutes
    obtain ⟨t', hexecute⟩ := Option.isSome_iff_exists.mp hexecutes
    have hstep : step lines t a = some t' := by
      unfold step
      rw [Table.attempt_of_execute hexecute]
    obtain ⟨r', hr', hid, -, hpair⟩ := h t' hstep old hold href
    unfold execute at hexecute
    rw [hstatement] at hexecute
    rw [(Table.rows_of_update hold hexecute).2] at hr'
    rcases KeyedTable.mem_replaceAt hr' with rfl | ⟨-, hne⟩
    · exact hpair
    · exact absurd hid hne
  · intro h t' hstep r hr href
    obtain rfl := Option.some.inj hstep
    cases hexecute : execute lines t a with
    | none =>
        refine ⟨r, ?_, rfl, rfl, rfl, rfl, rfl⟩
        unfold execute at hexecute
        rwa [Table.attempt, hexecute, Option.getD_none]
    | some t' =>
        rw [Table.attempt_of_execute hexecute]
        rcases (Table.execute_effect hexecute).kept hr with
          hkept | ⟨row, hrow, hstatement, hpasses⟩ | ⟨-, hpasses⟩
        · exact ⟨r, hkept, rfl, rfl, rfl, rfl, rfl⟩
        · have htriggers := ((Bool.and_eq_true _ _).mp hpasses).1
          have hrate := rate_eq_of_passed href ((Bool.and_eq_true _ _).mp htriggers).2
          have hexecutes : (execute lines t a).isSome := by rw [hexecute, Option.isSome_some]
          have hpair := h r hr row hstatement href hrate hexecutes
          exact ⟨row, hrow, id_of_executed hr href hstatement hexecute, hrate, hpair⟩
        · have hcount : preventReferencedExchangeRateDeletion lines r = true := hpasses
          unfold preventReferencedExchangeRateDeletion at hcount
          rw [if_pos (referenceCount_pos href)] at hcount
          cases hcount

/-- **The table stays sound** in a run of statements, and what journal lines refer to stays
frozen, if and only if every statement that is executed meets the inverse rates that the trigger
passes over and leaves a referenced rate that keeps its value at its pair and its instant. -/
theorem table_sound_iff (lines : List (Option String)) (t : RateTable) (actions : List Action)
    (ht : Sound t) :
    (Throughout (step lines) Sound t actions ∧ Between (step lines) (Frozen lines) t actions) ↔
      Along (step lines) (fun t a => MeetsInverses lines t a ∧ KeepsPair lines t a) t actions := by
  have hrates : Throughout (step lines) Sound t actions ↔
      Along (step lines) (MeetsInverses lines) t actions :=
    TransitionSystem.throughout_iff_along_of_step (fun _ _ => rfl)
      (fun _ _ _ hs hstep => sound_step_iff hs hstep) ht actions
  have hfrozen : Between (step lines) (Frozen lines) t actions ↔
      Along (step lines) (KeepsPair lines) t actions := by
    rw [TransitionSystem.between_iff_along frozen_refl frozen_trans]
    exact TransitionSystem.along_iff frozen_step_iff
  rw [hrates, hfrozen, TransitionSystem.along_and]

/-! ### A referenced rate that changes sides -/

def sampleRate (id source target : String) (rate : ℚ) : ExchangeRate where
  id := id
  fromCurrency := source
  toCurrency := target
  rate := some rate
  effectiveAt := 0
  source := "ECB"
  createdAt := 0
  updatedAt := 0
  createdById := "u1"

def insertRate (row : ExchangeRate) : Action := ⟨.first, .insert row⟩

def sampleTable : RateTable := ⟨[sampleRate "r1" "EUR" "USD" 2], by decide⟩

/-- The rate of two dollars for a euro becomes one for a pound. -/
def sampleRelabel : Action := ⟨.first, .update "r1" (sampleRate "r1" "GBP" "USD" 2)⟩

/-- Two inverse rates, and a rate that agrees with the first of them only. -/
def sampleInverses : List Action :=
  [insertRate (sampleRate "r2" "USD" "EUR" (1 / 2)),
    insertRate (sampleRate "r3" "USD" "EUR" (50004 / 100000)),
    insertRate (sampleRate "r1" "EUR" "USD" (20001 / 10000))]

theorem sound_sampleTable : Sound sampleTable := by
  constructor
  · intro r hr
    obtain rfl := List.mem_singleton.mp hr
    exact ⟨2, rfl, by decide, by decide⟩
  · intro x hx y hy hinverse
    obtain rfl := List.mem_singleton.mp hx
    obtain rfl := List.mem_singleton.mp hy
    simp [inverseOf] at hinverse

theorem sound_empty : Sound (Table.empty ExchangeRate.id) := by
  constructor
  · intro r hr
    cases hr
  · intro x hx
    cases hx

/-- An inverse rate is added. -/
theorem sample_table_sound :
    Throughout (step [some "r1"]) Sound sampleTable
        [insertRate (sampleRate "r2" "USD" "EUR" (1 / 2))] ∧
      Between (step [some "r1"]) (Frozen [some "r1"]) sampleTable
        [insertRate (sampleRate "r2" "USD" "EUR" (1 / 2))] := by
  refine (table_sound_iff [some "r1"] sampleTable _ sound_sampleTable).mpr ?_
  refine TransitionSystem.along_cons.mpr ⟨⟨?_, ?_⟩, fun _ _ => TransitionSystem.along_nil⟩
  · rintro row k (⟨hstatement, -⟩ | ⟨old, -, hstatement, -⟩) _ r hr _ hinverse hpassed
    · obtain rfl := Statement.insert.inj hstatement
      obtain rfl := List.mem_singleton.mp hr
      exact absurd rfl hpassed
    · cases hstatement
  · intro old _ row hstatement
    cases hstatement

/-- **A referenced rate changes its pair, and a rate is stored that an inverse rate contradicts**:
the freeze looks at the value alone, and the comparison at one inverse rate. -/
theorem rate_table_unsound :
    Sound sampleTable ∧
      ¬Between (step [some "r1"]) (Frozen [some "r1"]) sampleTable [sampleRelabel] ∧
      Sound (Table.empty ExchangeRate.id) ∧
      ¬Throughout (step []) Sound (Table.empty ExchangeRate.id) sampleInverses := by
  refine ⟨sound_sampleTable, fun h => ?_, sound_empty, fun h => ?_⟩
  · obtain ⟨r', hr', -, -, hpair, -⟩ :=
      h [] [sampleRelabel] [] sampleTable _ rfl rfl rfl (sampleRate "r1" "EUR" "USD" 2)
        (by decide +kernel) (by decide)
    revert r'
    decide +kernel
  · have hsound := h sampleInverses [] _ rfl rfl
    have hconsistent := hsound.consistent (sampleRate "r1" "EUR" "USD" (20001 / 10000))
      (by decide +kernel) (sampleRate "r3" "USD" "EUR" (50004 / 100000)) (by decide +kernel)
      (by decide +kernel) _ _ rfl rfl
    revert hconsistent
    decide +kernel

end Law

end FinanceAccounting.ExchangeRateTriggers
