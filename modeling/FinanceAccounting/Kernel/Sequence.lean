import Mathlib.Data.List.Range
import Mathlib.Logic.Function.Basic
import FinanceAccounting.Library.TransitionSystem

/-! # Sequence allocation under row locks

`SequenceService.next_value` at the grain of its database statements, run by any set of
concurrent transactions (type `Tx`) at isolation level READ COMMITTED.  One call is the walk

* `selecting`: `SELECT … FOR UPDATE` on the counter row.  A visible row is locked, which
  waits while another transaction holds it, and read at the moment the lock is granted; when
  no row is visible the statement locks nothing and returns at once;
* `inserting`: inside a savepoint, flush the new row with value `1`.  The unique index makes
  the flush wait while another transaction has inserted the name and not ended; a committed
  row raises `IntegrityError`, after which the savepoint is rolled back;
* `reselecting`: the second `SELECT … FOR UPDATE`, read with `scalar_one()`;
* `incrementing`: write `current_value + 1`, flush and return it.

Row locks and uncommitted rows last until the transaction commits or rolls back, which it may
do at any point of its program; a transaction that waits is simply not enabled.
`committedValues s n` lists the values of sequence `n` handed to transactions that committed,
in commit order: it is always an initial segment of the numbers after the counter's first
value (`committedValues_contiguous`). -/

namespace FinanceAccounting.Sequence

open TransitionSystem (run run_invariant)

/-- Where a transaction stands in `next_value`. -/
inductive Pc where
  | ready
  | selecting (name : String)
  | inserting (name : String)
  | reselecting (name : String)
  | incrementing (name : String) (currentValue : ℕ)
  | returned (name : String) (value : ℕ)
  | raised
  | finished
deriving DecidableEq, Repr

/-- The counter table with the transactions running on it. -/
structure State (Tx : Type) where
  /-- Committed rows of `sequence_counters`. -/
  committed : String → Option ℕ
  /-- Row versions a transaction has flushed and not committed. -/
  written : Tx → String → Option ℕ
  /-- Holder of a row lock, or of an uncommitted inserted row. -/
  lock : String → Option Tx
  pc : Tx → Pc
  /-- Values returned to a transaction that is still open, oldest first. -/
  handed : Tx → List (String × ℕ)
  /-- Committed transactions in commit order, with the values returned to them. -/
  log : List (Tx × List (String × ℕ))

/-- Statements of a transaction, and its end. -/
inductive Action (Tx : Type) where
  | call (t : Tx) (name : String)
  | select (t : Tx)
  | insert (t : Tx)
  | reselect (t : Tx)
  | increment (t : Tx)
  | commit (t : Tx)
  | rollback (t : Tx)
deriving DecidableEq, Repr

/-- The values of sequence `name` among the values returned to a transaction. -/
def valuesOf (name : String) (vs : List (String × ℕ)) : List ℕ :=
  vs.filterMap fun p => if p.1 = name then some p.2 else none

@[simp] theorem valuesOf_nil (name : String) : valuesOf name [] = [] := rfl

theorem valuesOf_append (name : String) (vs ws : List (String × ℕ)) :
    valuesOf name (vs ++ ws) = valuesOf name vs ++ valuesOf name ws := by
  simp [valuesOf]

@[simp] theorem valuesOf_concat (name n : String) (vs : List (String × ℕ)) (v : ℕ) :
    valuesOf name (vs ++ [(n, v)]) = valuesOf name vs ++ if n = name then [v] else [] := by
  rw [valuesOf_append]
  by_cases h : n = name <;> simp [valuesOf, h]

namespace State

variable {Tx : Type} [DecidableEq Tx]

/-- The system before any transaction has started, over committed counters `c`. -/
def init (c : String → Option ℕ) : State Tx where
  committed := c
  written _ _ := none
  lock _ := none
  pc _ := .ready
  handed _ := []
  log := []

/-- The row of `name` that `t` sees: its own version, or the committed one. -/
def visible (s : State Tx) (t : Tx) (name : String) : Option ℕ :=
  (s.written t name).or (s.committed name)

/-- Values of `name` handed to committed transactions, in commit order. -/
def committedValues (s : State Tx) (name : String) : List ℕ :=
  s.log.flatMap fun e => valuesOf name e.2

def moveTo (s : State Tx) (t : Tx) (pc : Pc) : State Tx :=
  { s with pc := Function.update s.pc t pc }

/-- The lock on an existing row is granted and the row is read. -/
def acquire (s : State Tx) (t : Tx) (name : String) (v : ℕ) : State Tx :=
  { s with
    lock := Function.update s.lock name (some t)
    pc := Function.update s.pc t (.incrementing name v) }

/-- Flush `value` into the row of `name` and return it to the caller. -/
def hand (s : State Tx) (t : Tx) (name : String) (value : ℕ) : State Tx :=
  { s with
    written := Function.update s.written t (Function.update (s.written t) name (some value))
    lock := Function.update s.lock name (some t)
    handed := Function.update s.handed t (s.handed t ++ [(name, value)])
    pc := Function.update s.pc t (.returned name value) }

/-- The transaction ends: its locks are released and its private state is gone. -/
def release (s : State Tx) (t : Tx) : State Tx :=
  { s with
    written := Function.update s.written t fun _ => none
    lock := fun name => if s.lock name = some t then none else s.lock name
    handed := Function.update s.handed t []
    pc := Function.update s.pc t .finished }

def commitTx (s : State Tx) (t : Tx) : State Tx :=
  { s.release t with
    committed := s.visible t
    log := s.log ++ [(t, s.handed t)] }

/-- The lock on `name` can be granted to `t`. -/
def free (s : State Tx) (t : Tx) (name : String) : Bool :=
  s.lock name = none || s.lock name = some t

/-- `SELECT … FOR UPDATE`: wait for the lock of a visible row, then read it; `missing` is
where the program continues when no row is visible. -/
def selectForUpdate (s : State Tx) (t : Tx) (name : String) (missing : Pc) : Option (State Tx) :=
  match s.visible t name with
  | none => some (s.moveTo t missing)
  | some v => if s.free t name then some (s.acquire t name v) else none

end State

variable {Tx : Type} [DecidableEq Tx]

/-- One database statement of `next_value`, or the end of a transaction. -/
def step (s : State Tx) : Action Tx → Option (State Tx)
  | .call t name =>
      match s.pc t with
      | .ready | .returned _ _ => some (s.moveTo t (.selecting name))
      | _ => none
  | .select t =>
      match s.pc t with
      | .selecting name => s.selectForUpdate t name (.inserting name)
      | _ => none
  | .insert t =>
      match s.pc t with
      | .inserting name =>
          match s.committed name with
          | some _ => some (s.moveTo t (.reselecting name))
          | none => if s.lock name = none then some (s.hand t name 1) else none
      | _ => none
  | .reselect t =>
      match s.pc t with
      | .reselecting name => s.selectForUpdate t name .raised
      | _ => none
  | .increment t =>
      match s.pc t with
      | .incrementing name v => some (s.hand t name (v + 1))
      | _ => none
  | .commit t =>
      match s.pc t with
      | .ready | .returned _ _ => some (s.commitTx t)
      | _ => none
  | .rollback t => if s.pc t = .finished then none else some (s.release t)

/-- What one step can do, with the guards under which it does it. -/
inductive Move (s : State Tx) : State Tx → Prop where
  | call (t : Tx) (name : String) : Move s (s.moveTo t (.selecting name))
  | miss (t : Tx) (name : String) :
      s.pc t = .selecting name → s.visible t name = none → Move s (s.moveTo t (.inserting name))
  | acquire (t : Tx) (name : String) (v : ℕ) :
      s.visible t name = some v → s.lock name = none ∨ s.lock name = some t →
      Move s (s.acquire t name v)
  | conflict (t : Tx) (name : String) (v : ℕ) :
      s.committed name = some v → Move s (s.moveTo t (.reselecting name))
  | create (t : Tx) (name : String) :
      s.committed name = none → s.lock name = none → Move s (s.hand t name 1)
  | gone (t : Tx) (name : String) :
      s.pc t = .reselecting name → s.visible t name = none → Move s (s.moveTo t .raised)
  | increment (t : Tx) (name : String) (v : ℕ) :
      s.pc t = .incrementing name v → Move s (s.hand t name (v + 1))
  | commit (t : Tx) : Move s (s.commitTx t)
  | rollback (t : Tx) : Move s (s.release t)

theorem selectForUpdate_eq_some {s s' : State Tx} {t : Tx} {name : String} {missing : Pc}
    (h : s.selectForUpdate t name missing = some s') :
    (s.visible t name = none ∧ s' = s.moveTo t missing) ∨
      ∃ v, s.visible t name = some v ∧ (s.lock name = none ∨ s.lock name = some t) ∧
        s' = s.acquire t name v := by
  unfold State.selectForUpdate at h
  cases hv : s.visible t name with
  | none =>
      rw [hv] at h
      exact Or.inl ⟨rfl, (Option.some.inj h).symm⟩
  | some v =>
      rw [hv] at h
      simp only [State.free, Bool.or_eq_true, decide_eq_true_eq, Option.ite_none_right_eq_some,
        Option.some.injEq] at h
      exact Or.inr ⟨v, rfl, h.1, h.2.symm⟩

theorem move_of_step {s s' : State Tx} {a : Action Tx} (h : step s a = some s') : Move s s' := by
  cases a with
  | call t name =>
      simp only [step] at h
      split at h
      · obtain rfl := Option.some.inj h
        exact .call t name
      · obtain rfl := Option.some.inj h
        exact .call t name
      · cases h
  | select t =>
      simp only [step] at h
      split at h
      · rename_i name hpc
        rcases selectForUpdate_eq_some h with ⟨hv, rfl⟩ | ⟨v, hv, hl, rfl⟩
        · exact .miss t name hpc hv
        · exact .acquire t name v hv hl
      · cases h
  | insert t =>
      simp only [step] at h
      split at h
      · rename_i name hpc
        split at h
        · rename_i v hc
          obtain rfl := Option.some.inj h
          exact .conflict t name v hc
        · rename_i hc
          simp only [Option.ite_none_right_eq_some, Option.some.injEq] at h
          obtain ⟨hl, rfl⟩ := h
          exact .create t name hc hl
      · cases h
  | reselect t =>
      simp only [step] at h
      split at h
      · rename_i name hpc
        rcases selectForUpdate_eq_some h with ⟨hv, rfl⟩ | ⟨v, hv, hl, rfl⟩
        · exact .gone t name hpc hv
        · exact .acquire t name v hv hl
      · cases h
  | increment t =>
      simp only [step] at h
      split at h
      · rename_i name v hpc
        obtain rfl := Option.some.inj h
        exact .increment t name v hpc
      · cases h
  | commit t =>
      simp only [step] at h
      split at h
      · obtain rfl := Option.some.inj h
        exact .commit t
      · obtain rfl := Option.some.inj h
        exact .commit t
      · cases h
  | rollback t =>
      simp only [step] at h
      split at h
      · cases h
      · obtain rfl := Option.some.inj h
        exact .rollback t

/-! ### The invariant -/

/-- What every reachable state satisfies, from committed counters `c` at the start: the
committed values continue `c` without a gap, a transaction that does not hold the lock on a
name has neither written nor been handed anything of it, and the holder's values continue the
committed ones up to the row it sees. -/
structure Inv (c : String → Option ℕ) (s : State Tx) : Prop where
  counter : ∀ name,
    (s.committed name).getD 0 = (c name).getD 0 + (s.committedValues name).length
  contiguous : ∀ name,
    s.committedValues name =
      List.range' ((c name).getD 0 + 1) (s.committedValues name).length
  unlocked : ∀ t name, s.lock name ≠ some t →
    valuesOf name (s.handed t) = [] ∧ s.written t name = none
  locked : ∀ t name, s.lock name = some t →
    valuesOf name (s.handed t) =
        List.range' ((s.committed name).getD 0 + 1) (valuesOf name (s.handed t)).length ∧
      s.visible t name =
        some ((s.committed name).getD 0 + (valuesOf name (s.handed t)).length)
  reading : ∀ t name v, s.pc t = .incrementing name v →
    s.lock name = some t ∧ s.visible t name = some v
  present : ∀ t name, s.pc t = .reselecting name → s.committed name ≠ none
  noRaise : ∀ t, s.pc t ≠ .raised

variable {c : String → Option ℕ} {s s' : State Tx} {t : Tx} {name : String}

omit [DecidableEq Tx] in
theorem inv_init : Inv c (State.init c : State Tx) where
  counter := by simp [State.init, State.committedValues]
  contiguous := by simp [State.init, State.committedValues]
  unlocked := by simp [State.init]
  locked := by simp [State.init]
  reading := by simp [State.init]
  present := by simp [State.init]
  noRaise := by simp [State.init]

/-- Walking on in the program, to a place that claims nothing about the rows. -/
theorem Inv.moveTo (hi : Inv c s) {pc : Pc} (hinc : ∀ n v, pc ≠ .incrementing n v)
    (hre : ∀ n, pc = .reselecting n → s.committed n ≠ none) (hraise : pc ≠ .raised) :
    Inv c (s.moveTo t pc) where
  counter := hi.counter
  contiguous := hi.contiguous
  unlocked := hi.unlocked
  locked := hi.locked
  reading u n v hu := by
    by_cases htu : u = t
    · subst htu
      simp only [State.moveTo, Function.update_self] at hu
      exact absurd hu (hinc n v)
    · simp only [State.moveTo, Function.update_of_ne htu] at hu
      exact hi.reading u n v hu
  present u n hu := by
    by_cases htu : u = t
    · subst htu
      simp only [State.moveTo, Function.update_self] at hu
      exact hre n hu
    · simp only [State.moveTo, Function.update_of_ne htu] at hu
      exact hi.present u n hu
  noRaise u := by
    by_cases htu : u = t
    · subst htu
      simpa only [State.moveTo, Function.update_self] using hraise
    · simpa only [State.moveTo, Function.update_of_ne htu] using hi.noRaise u

omit [DecidableEq Tx] in
/-- A transaction that may lock a visible row reads the row the lock protects. -/
theorem Inv.visible_of_free (hi : Inv c s) {v : ℕ} (hv : s.visible t name = some v)
    (hl : s.lock name = none ∨ s.lock name = some t) :
    valuesOf name (s.handed t) =
        List.range' ((s.committed name).getD 0 + 1) (valuesOf name (s.handed t)).length ∧
      v = (s.committed name).getD 0 + (valuesOf name (s.handed t)).length := by
  rcases hl with hl | hl
  · obtain ⟨hh, hw⟩ := hi.unlocked t name (by simp [hl])
    simp only [State.visible, hw, Option.none_or] at hv
    simp [hh, hv]
  · obtain ⟨hh, hvis⟩ := hi.locked t name hl
    rw [hvis] at hv
    exact ⟨hh, (Option.some.inj hv).symm⟩

theorem Inv.acquire (hi : Inv c s) {v : ℕ} (hv : s.visible t name = some v)
    (hl : s.lock name = none ∨ s.lock name = some t) : Inv c (s.acquire t name v) where
  counter := hi.counter
  contiguous := hi.contiguous
  unlocked u n hu := by
    by_cases hn : n = name
    · subst hn
      simp only [State.acquire, Function.update_self] at hu
      refine hi.unlocked u n fun h => hu ?_
      rcases hl with hl | hl
      · rw [hl] at h
        cases h
      · rw [← h, hl]
    · simp only [State.acquire, Function.update_of_ne hn] at hu
      exact hi.unlocked u n hu
  locked u n hu := by
    by_cases hn : n = name
    · subst hn
      simp only [State.acquire, Function.update_self, Option.some.injEq] at hu
      subst hu
      obtain ⟨hh, rfl⟩ := hi.visible_of_free hv hl
      exact ⟨hh, hv⟩
    · simp only [State.acquire, Function.update_of_ne hn] at hu
      exact hi.locked u n hu
  reading u n w hu := by
    by_cases htu : u = t
    · subst htu
      simp only [State.acquire, Function.update_self, Pc.incrementing.injEq] at hu
      obtain ⟨rfl, rfl⟩ := hu
      exact ⟨by simp [State.acquire], hv⟩
    · simp only [State.acquire, Function.update_of_ne htu] at hu
      obtain ⟨hlock, hvis⟩ := hi.reading u n w hu
      have hn : n ≠ name := by
        rintro rfl
        rcases hl with hl | hl
        · rw [hl] at hlock
          cases hlock
        · rw [hl] at hlock
          exact htu (Option.some.inj hlock).symm
      exact ⟨by simp [State.acquire, Function.update_of_ne hn, hlock], hvis⟩
  present u n hu := by
    by_cases htu : u = t
    · subst htu
      simp [State.acquire] at hu
    · simp only [State.acquire, Function.update_of_ne htu] at hu
      exact hi.present u n hu
  noRaise u := by
    by_cases htu : u = t
    · subst htu
      simp [State.acquire]
    · simpa only [State.acquire, Function.update_of_ne htu] using hi.noRaise u

omit [DecidableEq Tx] in
/-- Only the holder of a name can be waited for on it. -/
theorem lock_of_free {u : Tx} (hl : s.lock name = none ∨ s.lock name = some t)
    (hu : s.lock name = some u) : u = t := by
  rcases hl with hl | hl
  · rw [hl] at hu
    cases hu
  · rw [hl] at hu
    exact (Option.some.inj hu).symm

/-- Handing out the successor of the last value of a name. -/
theorem Inv.hand (hi : Inv c s) (hl : s.lock name = none ∨ s.lock name = some t)
    (hh : valuesOf name (s.handed t) =
      List.range' ((s.committed name).getD 0 + 1) (valuesOf name (s.handed t)).length) :
    Inv c (s.hand t name
      ((s.committed name).getD 0 + (valuesOf name (s.handed t)).length + 1)) where
  counter := hi.counter
  contiguous := hi.contiguous
  unlocked u n hu := by
    have hfree : s.lock n ≠ some u := by
      by_cases hn : n = name
      · subst hn
        intro h
        obtain rfl := lock_of_free hl h
        exact hu (by simp [State.hand])
      · simpa only [State.hand, Function.update_of_ne hn] using hu
    obtain ⟨hhu, hwu⟩ := hi.unlocked u n hfree
    by_cases htu : u = t
    · subst htu
      have hn : n ≠ name := by
        rintro rfl
        exact hu (by simp [State.hand])
      simp [State.hand, hhu, hwu, Function.update_of_ne hn, hn.symm]
    · simpa only [State.hand, Function.update_of_ne htu] using ⟨hhu, hwu⟩
  locked u n hu := by
    by_cases hn : n = name
    · subst hn
      simp only [State.hand, Function.update_self, Option.some.injEq] at hu
      subst hu
      constructor
      · simp only [State.hand, Function.update_self, valuesOf_concat, if_true,
          List.length_append, List.length_singleton, List.range'_1_concat]
        rw [← hh]
        congr 2
        omega
      · simp [State.hand, State.visible, Nat.add_assoc]
    · simp only [State.hand, Function.update_of_ne hn] at hu
      obtain ⟨hhu, hvis⟩ := hi.locked u n hu
      by_cases htu : u = t
      · subst htu
        simp only [State.hand, Function.update_self, valuesOf_concat, if_neg (Ne.symm hn),
          List.append_nil, State.visible, Function.update_of_ne hn]
        exact ⟨hhu, hvis⟩
      · simp only [State.hand, State.visible, Function.update_of_ne htu]
        exact ⟨hhu, hvis⟩
  reading u n w hu := by
    by_cases htu : u = t
    · subst htu
      simp [State.hand] at hu
    · simp only [State.hand, Function.update_of_ne htu] at hu
      obtain ⟨hlock, hvis⟩ := hi.reading u n w hu
      have hn : n ≠ name := by
        rintro rfl
        exact htu (lock_of_free hl hlock)
      simp only [State.hand, State.visible, Function.update_of_ne htu, Function.update_of_ne hn]
      exact ⟨hlock, hvis⟩
  present u n hu := by
    by_cases htu : u = t
    · subst htu
      simp [State.hand] at hu
    · simp only [State.hand, Function.update_of_ne htu] at hu
      exact hi.present u n hu
  noRaise u := by
    by_cases htu : u = t
    · subst htu
      simp [State.hand]
    · simpa only [State.hand, Function.update_of_ne htu] using hi.noRaise u

theorem Inv.release (hi : Inv c s) : Inv c (s.release t) where
  counter := hi.counter
  contiguous := hi.contiguous
  unlocked u n hu := by
    by_cases htu : u = t
    · subst htu
      simp [State.release]
    · have hfree : s.lock n ≠ some u := by
        intro h
        refine hu ?_
        simp only [State.release, h, Option.some.injEq]
        exact if_neg htu
      simpa only [State.release, Function.update_of_ne htu] using hi.unlocked u n hfree
  locked u n hu := by
    simp only [State.release] at hu
    split at hu
    · cases hu
    · rename_i hne
      have htu : u ≠ t := fun h => hne (h ▸ hu)
      simpa only [State.release, State.visible, Function.update_of_ne htu] using hi.locked u n hu
  reading u n w hu := by
    by_cases htu : u = t
    · subst htu
      simp [State.release] at hu
    · simp only [State.release, Function.update_of_ne htu] at hu
      obtain ⟨hlock, hvis⟩ := hi.reading u n w hu
      simp only [State.release, State.visible, Function.update_of_ne htu, hlock,
        Option.some.injEq, if_neg htu]
      exact ⟨trivial, hvis⟩
  present u n hu := by
    by_cases htu : u = t
    · subst htu
      simp [State.release] at hu
    · simp only [State.release, Function.update_of_ne htu] at hu
      exact hi.present u n hu
  noRaise u := by
    by_cases htu : u = t
    · subst htu
      simp [State.release]
    · simpa only [State.release, Function.update_of_ne htu] using hi.noRaise u

omit [DecidableEq Tx] in
/-- The row a transaction sees is the committed one advanced by its own values. -/
theorem Inv.visible_getD (hi : Inv c s) (t : Tx) (name : String) :
    (s.visible t name).getD 0 =
      (s.committed name).getD 0 + (valuesOf name (s.handed t)).length := by
  by_cases hl : s.lock name = some t
  · simp [(hi.locked t name hl).2]
  · obtain ⟨hh, hw⟩ := hi.unlocked t name hl
    simp [State.visible, hh, hw]

omit [DecidableEq Tx] in
theorem Inv.handed_eq_range (hi : Inv c s) (t : Tx) (name : String) :
    valuesOf name (s.handed t) =
      List.range' ((s.committed name).getD 0 + 1) (valuesOf name (s.handed t)).length := by
  by_cases hl : s.lock name = some t
  · exact (hi.locked t name hl).1
  · simp [(hi.unlocked t name hl).1]

theorem committedValues_commitTx (s : State Tx) (t : Tx) (name : String) :
    (s.commitTx t).committedValues name =
      s.committedValues name ++ valuesOf name (s.handed t) := by
  simp [State.commitTx, State.committedValues]

omit [DecidableEq Tx] in
/-- The values of a transaction continue the committed ones. -/
theorem Inv.values_eq_range (hi : Inv c s) (t : Tx) (name : String) :
    s.committedValues name ++ valuesOf name (s.handed t) =
      List.range' ((c name).getD 0 + 1)
        ((s.committedValues name).length + (valuesOf name (s.handed t)).length) := by
  rw [← List.range'_append_1, ← hi.contiguous name]
  congr 1
  have hstart : (c name).getD 0 + 1 + (s.committedValues name).length =
      (s.committed name).getD 0 + 1 := by
    have := hi.counter name
    omega
  rw [hstart]
  exact hi.handed_eq_range t name

theorem Inv.commitTx (hi : Inv c s) : Inv c (s.commitTx t) := by
  have hrel : Inv c (s.release t) := hi.release
  have hvis : ∀ u n, s.lock n = some u → u ≠ t → s.visible t n = s.committed n := by
    intro u n hu htu
    have hne : s.lock n ≠ some t := by
      rw [hu]
      exact fun h => htu (Option.some.inj h)
    simp [State.visible, (hi.unlocked t n hne).2]
  have hlock : ∀ u n, (s.commitTx t).lock n = some u → s.lock n = some u ∧ u ≠ t := by
    intro u n hu
    simp only [State.commitTx, State.release] at hu
    split at hu
    · cases hu
    · rename_i hne
      exact ⟨hu, fun h => hne (h ▸ hu)⟩
  have hsee : ∀ u n, s.lock n = some u → u ≠ t →
      (s.commitTx t).visible u n = (s.release t).visible u n := by
    intro u n hu htu
    have hv := hvis u n hu htu
    simp only [State.visible] at hv
    simp [State.commitTx, State.visible, State.release, htu, hv]
  refine ⟨?_, ?_, hrel.unlocked, ?_, ?_, ?_, hrel.noRaise⟩
  · intro n
    rw [committedValues_commitTx, List.length_append]
    have := hi.counter n
    have := hi.visible_getD t n
    simp only [State.commitTx]
    omega
  · intro n
    rw [committedValues_commitTx, List.length_append]
    exact hi.values_eq_range t n
  · intro u n hu
    obtain ⟨hsu, htu⟩ := hlock u n hu
    have hl := hrel.locked u n hu
    have hc : (s.commitTx t).committed n = s.committed n := hvis u n hsu htu
    rw [hc, hsee u n hsu htu]
    exact hl
  · intro u n w hu
    obtain ⟨hl, hv⟩ := hrel.reading u n w hu
    obtain ⟨hsu, htu⟩ := hlock u n hl
    exact ⟨hl, (hsee u n hsu htu).trans hv⟩
  · intro u n hu hnone
    have hc := hrel.present u n hu
    simp only [State.commitTx, State.visible] at hnone
    exact hc (Option.or_eq_none_iff.mp hnone).2

/-- **Step lemma**: every statement of every transaction keeps the invariant. -/
theorem Inv.step (hi : Inv c s) {a : Action Tx} (h : Sequence.step s a = some s') :
    Inv c s' := by
  cases move_of_step h with
  | call t name => exact hi.moveTo (by simp) (by simp) (by simp)
  | miss t name hpc hv => exact hi.moveTo (by simp) (by simp) (by simp)
  | acquire t name v hv hl => exact hi.acquire hv hl
  | conflict t name v hc =>
      refine hi.moveTo (by simp) ?_ (by simp)
      rintro n hn
      obtain rfl := Pc.reselecting.inj hn
      simp [hc]
  | create t name hc hl =>
      have hh := (hi.unlocked t name (by simp [hl])).1
      simpa [hh, hc] using hi.hand (t := t) (Or.inl hl) (hi.handed_eq_range t name)
  | gone t name hpc hv =>
      -- the row that refused the insert is committed, and rows are never deleted
      have hc := hi.present t name hpc
      exact absurd (Option.or_eq_none_iff.mp hv).2 hc
  | increment t name v hpc =>
      obtain ⟨hl, hv⟩ := hi.reading t name v hpc
      obtain ⟨hh, hvis⟩ := hi.locked t name hl
      rw [hvis] at hv
      obtain rfl := Option.some.inj hv
      exact hi.hand (Or.inr hl) hh
  | commit t => exact hi.commitTx
  | rollback t => exact hi.release

/-- **Run lemma**: the invariant holds after every schedule. -/
theorem inv_of_run {sched : List (Action Tx)} (h : run step (State.init c) sched = some s) :
    Inv c s :=
  run_invariant (fun _ _ _ hi hs => hi.step hs) inv_init h

/-! ### Statements of a running call -/

/-- The name a running call allocates from. -/
def Pc.working : Pc → Option String
  | .selecting name | .inserting name | .reselecting name | .incrementing name _ => some name
  | _ => none

/-- A statement inside `next_value`. -/
inductive Statement where
  | select
  | insert
  | reselect
  | increment
deriving DecidableEq, Repr

def Statement.action (t : Tx) : Statement → Action Tx
  | .select => .select t
  | .insert => .insert t
  | .reselect => .reselect t
  | .increment => .increment t

/-- A statement of `t` leaves the committed values and the other transactions alone, and
either walks on in the call or returns a value from it. -/
structure StatementEffect (s s' : State Tx) (t : Tx) (name : String) : Prop where
  working : (s.pc t).working = some name
  log : s'.log = s.log
  other : ∀ u, u ≠ t → s'.pc u = s.pc u ∧ s'.handed u = s.handed u
  own : (s'.handed t = s.handed t ∧ ((s'.pc t).working = some name ∨ s'.pc t = .raised)) ∨
    ∃ v, s'.handed t = s.handed t ++ [(name, v)] ∧ s'.pc t = .returned name v

theorem statementEffect_moveTo {pc : Pc} (hw : (s.pc t).working = some name)
    (hpc : pc.working = some name ∨ pc = .raised) :
    StatementEffect s (s.moveTo t pc) t name where
  working := hw
  log := rfl
  other u hu := ⟨Function.update_of_ne hu _ _, rfl⟩
  own := Or.inl ⟨rfl, by simpa [State.moveTo] using hpc⟩

theorem statementEffect_acquire {v : ℕ} (hw : (s.pc t).working = some name) :
    StatementEffect s (s.acquire t name v) t name where
  working := hw
  log := rfl
  other u hu := ⟨Function.update_of_ne hu _ _, rfl⟩
  own := Or.inl ⟨rfl, Or.inl (by simp [State.acquire, Pc.working])⟩

theorem statementEffect_hand {v : ℕ} (hw : (s.pc t).working = some name) :
    StatementEffect s (s.hand t name v) t name where
  working := hw
  log := rfl
  other u hu := ⟨Function.update_of_ne hu _ _, Function.update_of_ne hu _ _⟩
  own := Or.inr ⟨v, by simp [State.hand], by simp [State.hand]⟩

theorem statementEffect_selectForUpdate {missing : Pc} (hw : (s.pc t).working = some name)
    (hmiss : missing.working = some name ∨ missing = .raised)
    (h : s.selectForUpdate t name missing = some s') : StatementEffect s s' t name := by
  rcases selectForUpdate_eq_some h with ⟨-, rfl⟩ | ⟨v, -, -, rfl⟩
  · exact statementEffect_moveTo hw hmiss
  · exact statementEffect_acquire hw

theorem statementEffect_of_step {st : Statement} (h : step s (st.action t) = some s') :
    ∃ name, StatementEffect s s' t name := by
  cases st with
  | select =>
      simp only [Statement.action, step] at h
      split at h
      · rename_i name hpc
        exact ⟨name, statementEffect_selectForUpdate (by rw [hpc]; rfl) (Or.inl rfl) h⟩
      · cases h
  | insert =>
      simp only [Statement.action, step] at h
      split at h
      · rename_i name hpc
        have hw : (s.pc t).working = some name := by rw [hpc]; rfl
        split at h
        · obtain rfl := Option.some.inj h
          exact ⟨name, statementEffect_moveTo hw (Or.inl rfl)⟩
        · simp only [Option.ite_none_right_eq_some, Option.some.injEq] at h
          obtain ⟨-, rfl⟩ := h
          exact ⟨name, statementEffect_hand hw⟩
      · cases h
  | reselect =>
      simp only [Statement.action, step] at h
      split at h
      · rename_i name hpc
        exact ⟨name, statementEffect_selectForUpdate (by rw [hpc]; rfl) (Or.inr rfl) h⟩
      · cases h
  | increment =>
      simp only [Statement.action, step] at h
      split at h
      · rename_i name v hpc
        obtain rfl := Option.some.inj h
        exact ⟨name, statementEffect_hand (by rw [hpc]; rfl)⟩
      · cases h

/-- **R9.** After any schedule of any transactions, the values of a sequence handed to
committed transactions are pairwise distinct, increase in commit order, and are exactly the
numbers that follow the counter's first value. -/
theorem committedValues_contiguous (c : String → Option ℕ) (sched : List (Action Tx))
    (s : State Tx) (h : run step (State.init c) sched = some s) (name : String) :
    (s.committedValues name).Nodup ∧
      (s.committedValues name).Pairwise (· < ·) ∧
      s.committedValues name =
        List.range' ((c name).getD 0 + 1) (s.committedValues name).length := by
  have hr := (inv_of_run h).contiguous name
  refine ⟨?_, ?_, hr⟩
  · rw [hr]
    exact List.nodup_range'
  · rw [hr]
    exact List.pairwise_lt_range'

/-- Two creators race, one rolls back after the other waited, and a third transaction
continues: `false` allocates `1` and gives it back, `true` is handed `1` and then `2`. -/
def racingSchedule : List (Action Bool) :=
  [.call false "journal_entry", .call true "journal_entry", .select false, .select true,
    .insert false, .rollback false, .insert true, .call true "journal_entry", .select true,
    .increment true, .commit true]

theorem committedValues_contiguous_racing :
    ∃ s : State Bool, run step (State.init fun _ => none) racingSchedule = some s ∧
      s.committedValues "journal_entry" = [1, 2] ∧
      (s.committedValues "journal_entry").Nodup :=
  ⟨_, rfl, by decide, (committedValues_contiguous (fun _ => none) racingSchedule _ rfl _).1⟩

end FinanceAccounting.Sequence
