import Mathlib.Data.List.Basic
import Mathlib.Data.List.Nodup

/-! # Tables of rows with keys

A table is a list of rows, and every row has a key.  `replaceAt` writes a row in the place of the
row with a key, and `put` in the place of the row with its own key.  Where the keys differ from
row to row, the row that is replaced is determined, and `countP_replaceAt` says how the number of
rows with a property changes. -/

namespace KeyedTable

variable {κ ρ : Type*} [DecidableEq κ] (key : ρ → κ)

/-- The rows with another row in the place of the one with the key. -/
def replaceAt (rows : List ρ) (k : κ) (row : ρ) : List ρ :=
  rows.map fun r => if key r = k then row else r

/-- The rows without the one with the key. -/
def removeAt (rows : List ρ) (k : κ) : List ρ := rows.filter fun r => key r ≠ k

/-- The rows, with a new row in the place of the one that has its key. -/
def put (rows : List ρ) (row : ρ) : List ρ := rows.map fun r => if key r = key row then row else r

/-- The row with a key. -/
def get? (rows : List ρ) (k : κ) : Option ρ := rows.find? fun r => key r = k

variable {key} {rows : List ρ} {row old r : ρ} {k : κ}

/-! ### The row with a key -/

theorem mem_replaceAt (h : r ∈ replaceAt key rows k row) : r = row ∨ r ∈ rows ∧ key r ≠ k := by
  obtain ⟨r', hr', heq⟩ := List.mem_map.mp h
  by_cases hkey : key r' = k
  · rw [if_pos hkey] at heq
    exact Or.inl heq.symm
  · rw [if_neg hkey] at heq
    exact Or.inr ⟨heq ▸ hr', heq ▸ hkey⟩

theorem mem_replaceAt_self (h : old ∈ rows) : row ∈ replaceAt key rows (key old) row :=
  List.mem_map.mpr ⟨old, h, if_pos rfl⟩

theorem mem_replaceAt_of_ne (h : r ∈ rows) (hkey : key r ≠ k) : r ∈ replaceAt key rows k row :=
  List.mem_map.mpr ⟨r, h, if_neg hkey⟩

theorem filter_replaceAt {p : ρ → Bool} (hold : ∀ r ∈ rows, key r = k → p r = false)
    (hrow : p row = false) : (replaceAt key rows k row).filter p = rows.filter p := by
  induction rows with
  | nil => rfl
  | cons r rows ih =>
      have hrest := ih fun r' hr' => hold r' (List.mem_cons_of_mem r hr')
      unfold replaceAt at hrest ⊢
      rw [List.map_cons, List.filter_cons, List.filter_cons, hrest]
      by_cases hr : key r = k
      · rw [if_pos hr, hrow, hold r List.mem_cons_self hr, if_neg Bool.false_ne_true,
          if_neg Bool.false_ne_true]
      · rw [if_neg hr]

theorem filter_removeAt {p : ρ → Bool} (hold : ∀ r ∈ rows, key r = k → p r = false) :
    (removeAt key rows k).filter p = rows.filter p := by
  unfold removeAt
  rw [List.filter_filter]
  refine List.filter_congr fun r hr => ?_
  by_cases hkey : key r = k
  · rw [hold r hr hkey, Bool.false_and]
  · simp [hkey]

/-- **The number of rows with a property** changes by the row that is replaced. -/
theorem countP_replaceAt (p : ρ → Bool) (hnodup : (rows.map key).Nodup) (hold : old ∈ rows) :
    (replaceAt key rows (key old) row).countP p + (if p old then 1 else 0) =
      rows.countP p + (if p row then 1 else 0) := by
  induction rows with
  | nil => cases hold
  | cons r rows ih =>
      rw [List.map_cons, List.nodup_cons] at hnodup
      rw [replaceAt, List.map_cons, List.countP_cons, List.countP_cons]
      by_cases hr : key r = key old
      · have hrest : replaceAt key rows (key old) row = rows := by
          refine (List.map_congr_left fun r' hr' => if_neg fun h => hnodup.1 ?_).trans
            (List.map_id rows)
          rw [hr, ← h]
          exact List.mem_map_of_mem hr'
        have heq : old = r := by
          rcases List.mem_cons.mp hold with h | h
          · exact h
          · refine absurd ?_ hnodup.1
            rw [hr]
            exact List.mem_map_of_mem h
        rw [replaceAt] at hrest
        rw [hrest, if_pos hr, heq]
        omega
      · have hmem : old ∈ rows := by
          rcases List.mem_cons.mp hold with h | h
          · exact absurd (congrArg key h.symm) hr
          · exact h
        have hstep := ih hnodup.2 hmem
        rw [replaceAt] at hstep
        rw [if_neg hr]
        omega

/-! ### The row with the key of another -/

/-- What the new row has in common with the old one is in common to the tables. -/
theorem map_put {β : Type*} {f : ρ → β} (h : ∀ r ∈ rows, key r = key row → f r = f row) :
    (put key rows row).map f = rows.map f := by
  rw [put, List.map_map]
  refine List.map_congr_left fun r hr => ?_
  show f (if key r = key row then row else r) = f r
  split
  · exact (h r hr ‹_›).symm
  · rfl

theorem mem_put (h : r ∈ put key rows row) : r = row ∨ r ∈ rows ∧ key r ≠ key row :=
  mem_replaceAt h

theorem mem_put_of_ne (h : r ∈ rows) (hkey : key r ≠ key row) : r ∈ put key rows row :=
  mem_replaceAt_of_ne h hkey

theorem mem_put_self (h : old ∈ rows) (hkey : key old = key row) : row ∈ put key rows row :=
  List.mem_map.mpr ⟨old, h, if_pos hkey⟩

omit [DecidableEq κ] in
/-- Rows with different keys are determined by their keys. -/
theorem eq_of_key_eq (hnodup : (rows.map key).Nodup) (hr : r ∈ rows) (hold : old ∈ rows)
    (hkey : key r = key old) : r = old :=
  List.inj_on_of_nodup_map hnodup hr hold hkey

theorem mem_of_get? {k : κ} (h : get? key rows k = some r) : r ∈ rows ∧ key r = k :=
  ⟨List.mem_of_find?_eq_some h, by simpa using List.find?_some h⟩

/-- Where the keys differ, every row is the one with its key. -/
theorem get?_of_mem (hnodup : (rows.map key).Nodup) (hr : r ∈ rows) :
    get? key rows (key r) = some r := by
  cases h : get? key rows (key r) with
  | none => exact absurd (List.find?_eq_none.mp h r hr) (by simp)
  | some other =>
      obtain ⟨hmem, hkey⟩ := mem_of_get? h
      exact congrArg some (eq_of_key_eq hnodup hmem hr hkey)

/-- The rows, with new rows put in one after another. -/
def putAll (key : ρ → κ) (rows news : List ρ) : List ρ := news.foldl (put key) rows

variable {news : List ρ}

theorem mem_putAll_of_ne (h : r ∈ rows) (hkey : ∀ n ∈ news, key r ≠ key n) :
    r ∈ putAll key rows news := by
  induction news generalizing rows with
  | nil => exact h
  | cons m news ih =>
      exact ih (mem_put_of_ne h (hkey m List.mem_cons_self))
        fun n hn => hkey n (List.mem_cons_of_mem m hn)

/-- Every new row is there when its key was. -/
theorem mem_putAll_self (hnodup : (news.map key).Nodup) (hrow : row ∈ news) (h : old ∈ rows)
    (hkey : key old = key row) : row ∈ putAll key rows news := by
  induction news generalizing rows old with
  | nil => cases hrow
  | cons m news ih =>
      rw [List.map_cons, List.nodup_cons] at hnodup
      rcases List.mem_cons.mp hrow with rfl | hrow
      · show row ∈ putAll key (put key rows row) news
        refine mem_putAll_of_ne (mem_put_self h hkey) fun n hn hsame => hnodup.1 ?_
        rw [hsame]
        exact List.mem_map_of_mem hn
      · refine ih hnodup.2 hrow (mem_put_of_ne h fun hsame => hnodup.1 ?_) hkey
        rw [← hsame, hkey]
        exact List.mem_map_of_mem hrow

/-- What every new row has in common with the old one of its key is common to the tables. -/
theorem map_putAll {β : Type*} {f : ρ → β} (hnodup : (news.map key).Nodup)
    (h : ∀ n ∈ news, ∀ r ∈ rows, key r = key n → f r = f n) :
    (putAll key rows news).map f = rows.map f := by
  induction news generalizing rows with
  | nil => rfl
  | cons m news ih =>
      rw [List.map_cons, List.nodup_cons] at hnodup
      have hput : (put key rows m).map f = rows.map f := map_put (h m List.mem_cons_self)
      refine (ih hnodup.2 fun n hn r hr hkey => ?_).trans hput
      rcases mem_put hr with rfl | ⟨hr, -⟩
      · exact absurd (hkey ▸ List.mem_map_of_mem hn) hnodup.1
      · exact h n (List.mem_cons_of_mem m hn) r hr hkey

end KeyedTable
