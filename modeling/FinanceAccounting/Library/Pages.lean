import Mathlib.Data.List.Basic
import Mathlib.Data.List.Nodup

/-! # Pages of a list

`LIMIT` and `OFFSET` cut a page out of a list.  A page of the elements that satisfy a predicate is
the part of the page that satisfies it only where the cut is in the same place for both
(`filter_page_eq_iff`). -/

namespace Pages

variable {α : Type*}

/-- The page from an offset on, of at most as many elements as the limit says. -/
def page (limit : Option ℕ) (offset : ℕ) (xs : List α) : List α :=
  match limit with
  | none => xs.drop offset
  | some n => (xs.drop offset).take n

/-- What comes after the page. -/
def after (limit : Option ℕ) (offset : ℕ) (xs : List α) : List α :=
  match limit with
  | none => []
  | some n => (xs.drop offset).drop n

variable (p : α → Bool) (limit : Option ℕ) (offset : ℕ) (xs : List α)

/-- The cut is in the same place: all that is skipped satisfies the predicate, and the page is full
of such elements or none comes later; or there is none in the page, and what comes later does not
make up for what was skipped without satisfying it. -/
def SameCut : Prop :=
  let skipped := (xs.take offset).filter p
  let shown := (page limit offset xs).filter p
  let later := (after limit offset xs).filter p
  (skipped.length = offset ∧ (limit = some shown.length ∨ later = [])) ∨
    (shown = [] ∧ (limit = some 0 ∨ later.length ≤ offset - skipped.length))

variable {p limit offset xs}

theorem page_append_after : page limit offset xs ++ after limit offset xs = xs.drop offset := by
  cases limit with
  | none => exact List.append_nil _
  | some n => exact List.take_append_drop n _

theorem length_page_le {n : ℕ} : (page (some n) offset xs).length ≤ n := by
  simp only [page, List.length_take]
  omega

/-- A page of the elements that satisfy the predicate. -/
theorem page_filter (p : α → Bool) (limit : Option ℕ) (offset : ℕ) (xs : List α) :
    page limit offset (xs.filter p) =
      page limit (offset - ((xs.take offset).filter p).length)
        ((page limit offset xs).filter p ++ (after limit offset xs).filter p) := by
  have hdrop : (xs.filter p).drop offset =
      ((page limit offset xs).filter p ++ (after limit offset xs).filter p).drop
        (offset - ((xs.take offset).filter p).length) := by
    have hlength : ((xs.take offset).filter p).length ≤ offset :=
      Nat.le_trans (List.length_filter_le _ _) (List.length_take_le _ _)
    conv_lhs => rw [← List.take_append_drop offset xs]
    rw [List.filter_append, List.drop_append, List.drop_of_length_le hlength, List.nil_append,
      ← List.filter_append, page_append_after]
  cases limit with
  | none => exact hdrop
  | some n => exact congrArg (List.take n) hdrop

/-- **A page and a predicate** may change places only where the cut is the same. -/
theorem filter_page_eq_iff (hxs : xs.Nodup) :
    (page limit offset xs).filter p = page limit offset (xs.filter p) ↔
      SameCut p limit offset xs := by
  rw [page_filter]
  unfold SameCut
  dsimp only
  have hnodup : ((page limit offset xs).filter p ++ (after limit offset xs).filter p).Nodup := by
    rw [← List.filter_append, page_append_after]
    exact (hxs.sublist (List.drop_sublist _ _)).filter _
  have hle : ∀ n, limit = some n → ((page limit offset xs).filter p).length ≤ n := by
    rintro n rfl
    exact Nat.le_trans (List.length_filter_le _ _) length_page_le
  have hskip : ((xs.take offset).filter p).length ≤ offset :=
    Nat.le_trans (List.length_filter_le _ _) (List.length_take_le _ _)
  have hlast : limit = none → (after limit offset xs).filter p = [] := by
    rintro rfl
    rfl
  generalize (page limit offset xs).filter p = shown at *
  generalize (after limit offset xs).filter p = later at *
  generalize ((xs.take offset).filter p).length = skipped at *
  rcases Nat.lt_or_ge skipped offset with hlt | hge
  · -- something was skipped that does not count, so the first of the page is not shown
    have hne : skipped ≠ offset := Nat.ne_of_lt hlt
    simp only [hne, false_and, false_or]
    cases shown with
    | nil =>
        rw [List.nil_append]
        cases limit with
        | none => simp [page, hlast rfl]
        | some n =>
            simp only [page, Option.some.injEq, true_and]
            rw [eq_comm, List.take_eq_nil_iff, List.drop_eq_nil_iff]
    | cons x shown =>
        refine iff_of_false (fun h => ?_) fun h => List.cons_ne_nil _ _ h.1
        have hmem : x ∈ (x :: shown ++ later).drop (offset - skipped) := by
          have : x ∈ page limit (offset - skipped) (x :: shown ++ later) := h ▸ List.mem_cons_self
          rw [← page_append_after]
          exact List.mem_append_left _ this
        obtain ⟨k, hk⟩ : ∃ k, offset - skipped = k + 1 := ⟨offset - skipped - 1, by omega⟩
        rw [hk, List.cons_append, List.drop_succ_cons] at hmem
        exact (List.nodup_cons.mp hnodup).1 (List.mem_of_mem_drop hmem)
  · obtain rfl : skipped = offset := Nat.le_antisymm hskip hge
    rw [Nat.sub_self]
    cases limit with
    | none => simp [page, hlast rfl]
    | some n =>
        have hn := hle n rfl
        simp only [page, List.drop_zero, List.take_append, List.take_of_length_le hn,
          Option.some.injEq, true_and]
        rw [eq_comm, List.append_right_eq_self, List.take_eq_nil_iff]
        constructor
        · rintro (h | h)
          · exact .inl (.inl (by omega))
          · exact .inl (.inr h)
        · rintro ((h | h) | ⟨h, h' | h'⟩)
          · exact .inl (by omega)
          · exact .inr h
          · exact .inl (by omega)
          · exact .inr (List.length_eq_zero_iff.mp (by omega))

end Pages
