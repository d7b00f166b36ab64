import FinanceAccounting.Library.KeyedTable
import FinanceAccounting.Library.TransitionSystem

/-! # Statements on the rows of a table

A table with a primary key, and INSERT, UPDATE and DELETE of one row as a database executes
them.  The row triggers see the old and the new row and refuse the statement or let it pass; the
constraints are checked on the rows that result.  A statement on a key that no row has passes
and does nothing.

`attempt` drops a statement that is refused.  `attempt_effect` says once what a statement can
do; `origin` says where a row of the resulting table comes from, `kept` what becomes of a row, and
`filter_attempt` when a selection of the rows stays as it is. -/

namespace RowStatements

open KeyedTable

variable {κ ρ : Type*}

/-- The rows of a table, with their keys. -/
structure Table (key : ρ → κ) where
  rows : List ρ
  keys_nodup : (rows.map key).Nodup

/-- The row of an update is the row after it. -/
inductive Statement (κ ρ : Type*) where
  | insert (row : ρ)
  | update (k : κ) (row : ρ)
  | delete (k : κ)

/-- What the triggers let pass, and the constraints on the rows. -/
structure Rules (ρ : Type*) where
  insert : ρ → Bool
  update : ρ → ρ → Bool
  delete : ρ → Bool
  constraints : List ρ → Bool

def Table.empty (key : ρ → κ) : Table key := ⟨[], List.nodup_nil⟩

variable [DecidableEq κ] {key : ρ → κ}

/-- A table of the rows, if they meet the constraints. -/
def checked (key : ρ → κ) (constraints : List ρ → Bool) (rows : List ρ) : Option (Table key) :=
  if h : (rows.map key).Nodup ∧ constraints rows = true then some ⟨rows, h.1⟩ else none

namespace Table

/-- Execute a statement; `none` is an error. -/
def execute (rules : Rules ρ) (t : Table key) : Statement κ ρ → Option (Table key)
  | .insert row =>
      if rules.insert row then checked key rules.constraints (t.rows ++ [row]) else none
  | .update k row =>
      match KeyedTable.get? key t.rows k with
      | none => some t
      | some old =>
          if rules.update old row then
            checked key rules.constraints (replaceAt key t.rows k row)
          else none
  | .delete k =>
      match KeyedTable.get? key t.rows k with
      | none => some t
      | some old =>
          if rules.delete old then checked key rules.constraints (removeAt key t.rows k) else none

/-- Execute a statement, and drop it if it is refused. -/
def attempt (rules : Rules ρ) (t : Table key) (statement : Statement κ ρ) : Table key :=
  (t.execute rules statement).getD t

/-- What a statement does. -/
inductive Effect (rules : Rules ρ) (t : Table key) : Statement κ ρ → Table key → Prop where
  | same (statement : Statement κ ρ) : Effect rules t statement t
  | inserted {t' : Table key} (row : ρ) (hpasses : rules.insert row = true)
      (hrows : t'.rows = t.rows ++ [row]) (hchecked : rules.constraints t'.rows = true) :
      Effect rules t (.insert row) t'
  | updated {t' : Table key} (old row : ρ) (hold : old ∈ t.rows)
      (hpasses : rules.update old row = true)
      (hrows : t'.rows = replaceAt key t.rows (key old) row)
      (hchecked : rules.constraints t'.rows = true) : Effect rules t (.update (key old) row) t'
  | deleted {t' : Table key} (old : ρ) (hold : old ∈ t.rows) (hpasses : rules.delete old = true)
      (hrows : t'.rows = removeAt key t.rows (key old))
      (hchecked : rules.constraints t'.rows = true) : Effect rules t (.delete (key old)) t'

variable {rules : Rules ρ} {t t' : Table key} {statement : Statement κ ρ} {r old row : ρ}

theorem rows_of_checked {constraints : List ρ → Bool} {rows : List ρ}
    (h : checked key constraints rows = some t) : t.rows = rows ∧ constraints t.rows = true := by
  unfold checked at h
  split at h
  · rename_i hrows
    obtain rfl := Option.some.inj h
    exact ⟨rfl, hrows.2⟩
  · cases h

theorem execute_effect (h : t.execute rules statement = some t') : Effect rules t statement t' := by
  cases statement with
  | insert row =>
      simp only [execute] at h
      split at h
      · obtain ⟨hrows, hchecked⟩ := rows_of_checked h
        exact .inserted row ‹_› hrows hchecked
      · cases h
  | update k row =>
      cases hget : KeyedTable.get? key t.rows k with
      | none =>
          simp only [execute, hget, Option.some.injEq] at h
          exact h ▸ .same _
      | some old =>
          obtain ⟨hold, rfl⟩ := KeyedTable.mem_of_get? hget
          simp only [execute, hget] at h
          split at h
          · obtain ⟨hrows, hchecked⟩ := rows_of_checked h
            exact .updated old row hold ‹_› hrows hchecked
          · cases h
  | delete k =>
      cases hget : KeyedTable.get? key t.rows k with
      | none =>
          simp only [execute, hget, Option.some.injEq] at h
          exact h ▸ .same _
      | some old =>
          obtain ⟨hold, rfl⟩ := KeyedTable.mem_of_get? hget
          simp only [execute, hget] at h
          split at h
          · obtain ⟨hrows, hchecked⟩ := rows_of_checked h
            exact .deleted old hold ‹_› hrows hchecked
          · cases h

theorem attempt_effect (rules : Rules ρ) (t : Table key) (statement : Statement κ ρ) :
    Effect rules t statement (t.attempt rules statement) := by
  unfold attempt
  cases hexecute : t.execute rules statement with
  | none => exact .same _
  | some t' => exact execute_effect hexecute

theorem attempt_of_execute (h : t.execute rules statement = some t') :
    t.attempt rules statement = t' := by
  rw [attempt, h, Option.getD_some]

omit [DecidableEq κ] in
/-- Rows are determined by their keys. -/
theorem eq_of_key_eq (hr : r ∈ t.rows) (hold : old ∈ t.rows) (hkey : key r = key old) : r = old :=
  KeyedTable.eq_of_key_eq t.keys_nodup hr hold hkey

theorem get?_of_mem (hr : r ∈ t.rows) : KeyedTable.get? key t.rows (key r) = some r := by
  cases hget : KeyedTable.get? key t.rows (key r) with
  | none =>
      have hnone := List.find?_eq_none.mp hget r hr
      simp at hnone
  | some r' =>
      obtain ⟨hr', hkey⟩ := KeyedTable.mem_of_get? hget
      rw [eq_of_key_eq hr' hr hkey]

end Table

/-! ### The rows of the result -/

section Rows

variable {rules : Rules ρ} {t t' : Table key} {statement : Statement κ ρ} {r old row : ρ}
namespace Table

/-- **Where a row comes from**: it was there, or the statement wrote it. -/
theorem Effect.origin (h : Effect rules t statement t') (hr : r ∈ t'.rows) :
    r ∈ t.rows ∨ (statement = .insert r ∧ rules.insert r = true) ∨
      ∃ old ∈ t.rows, statement = .update (key old) r ∧ rules.update old r = true := by
  cases h with
  | same => exact Or.inl hr
  | inserted row hpasses hrows _ =>
      rw [hrows] at hr
      rcases List.mem_append.mp hr with hr | hr
      · exact Or.inl hr
      · obtain rfl := List.mem_singleton.mp hr
        exact Or.inr (Or.inl ⟨rfl, hpasses⟩)
  | updated old row hold hpasses hrows _ =>
      rw [hrows] at hr
      rcases mem_replaceAt hr with rfl | ⟨hr, -⟩
      · exact Or.inr (Or.inr ⟨old, hold, rfl, hpasses⟩)
      · exact Or.inl hr
  | deleted old hold hpasses hrows _ =>
      rw [hrows] at hr
      exact Or.inl (List.mem_filter.mp hr).1

/-- **What becomes of a row**: it stays, or the statement replaces or deletes it. -/
theorem Effect.kept (h : Effect rules t statement t') (hr : r ∈ t.rows) :
    r ∈ t'.rows ∨
      (∃ row ∈ t'.rows, statement = .update (key r) row ∧ rules.update r row = true) ∨
      (statement = .delete (key r) ∧ rules.delete r = true) := by
  cases h with
  | same => exact Or.inl hr
  | inserted row hpasses hrows _ =>
      rw [hrows]
      exact Or.inl (List.mem_append_left _ hr)
  | updated old row hold hpasses hrows _ =>
      rw [hrows]
      by_cases hkey : key r = key old
      · obtain rfl := eq_of_key_eq hr hold hkey
        exact Or.inr (Or.inl ⟨row, mem_replaceAt_self hold, rfl, hpasses⟩)
      · exact Or.inl (mem_replaceAt_of_ne hr hkey)
  | deleted old hold hpasses hrows _ =>
      rw [hrows]
      by_cases hkey : key r = key old
      · obtain rfl := eq_of_key_eq hr hold hkey
        exact Or.inr (Or.inr ⟨rfl, hpasses⟩)
      · refine Or.inl (List.mem_filter.mpr ⟨hr, ?_⟩)
        simpa using hkey

/-- A selection to which the statement adds nothing and of which it takes nothing stays as it
is. -/
theorem Effect.filter_eq {p : ρ → Bool} (h : Effect rules t statement t')
    (hinsert : ∀ row, statement = .insert row → rules.insert row = true → p row = false)
    (hupdate : ∀ old ∈ t.rows, ∀ row, statement = .update (key old) row →
      rules.update old row = true → p old = false ∧ p row = false)
    (hdelete : ∀ old ∈ t.rows, statement = .delete (key old) → rules.delete old = true →
      p old = false) : t'.rows.filter p = t.rows.filter p := by
  cases h with
  | same => rfl
  | inserted row hpasses hrows _ =>
      rw [hrows, List.filter_append, List.filter_cons, hinsert row rfl hpasses]
      simp
  | updated old row hold hpasses hrows _ =>
      obtain ⟨hp, hprow⟩ := hupdate old hold row rfl hpasses
      rw [hrows]
      refine filter_replaceAt (fun r hr hkey => ?_) hprow
      rw [eq_of_key_eq hr hold hkey, hp]
  | deleted old hold hpasses hrows _ =>
      rw [hrows]
      refine filter_removeAt fun r hr hkey => ?_
      rw [eq_of_key_eq hr hold hkey, hdelete old hold rfl hpasses]

/-- The constraints hold after every statement. -/
theorem Effect.constraints (h : Effect rules t statement t') (ht : rules.constraints t.rows = true) :
    rules.constraints t'.rows = true := by
  cases h with
  | same => exact ht
  | inserted _ _ _ hchecked => exact hchecked
  | updated _ _ _ _ _ hchecked => exact hchecked
  | deleted _ _ _ _ hchecked => exact hchecked

/-- An insert that passes leaves the new row after the others. -/
theorem rows_of_insert (h : t.execute rules (.insert row) = some t') :
    rules.insert row = true ∧ t'.rows = t.rows ++ [row] := by
  simp only [execute] at h
  split at h
  · exact ⟨‹_›, (rows_of_checked h).1⟩
  · cases h

/-- An update of a row that passes leaves the new row in the place of the old one. -/
theorem rows_of_update (hold : old ∈ t.rows)
    (h : t.execute rules (.update (key old) row) = some t') :
    rules.update old row = true ∧ t'.rows = replaceAt key t.rows (key old) row := by
  simp only [execute, get?_of_mem hold] at h
  split at h
  · exact ⟨‹_›, (rows_of_checked h).1⟩
  · cases h

theorem constraints_of_update (hold : old ∈ t.rows)
    (h : t.execute rules (.update (key old) row) = some t') : rules.constraints t'.rows = true := by
  simp only [execute, get?_of_mem hold] at h
  split at h
  · exact (rows_of_checked h).2
  · cases h

end Table

end Rows

end RowStatements
