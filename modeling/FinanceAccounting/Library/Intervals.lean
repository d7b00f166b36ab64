import Mathlib.Data.List.Basic
import Mathlib.Algebra.Order.Ring.Int

/-! # Contiguous intervals

Intervals of integers that start one after the other, each where the one before it ends, cover every
number from the first lower bound to the end of the last (`exists_contains`), and no number twice
(`pairwise_disjoint`).  The last one may be open. -/

namespace Intervals

/-- The integers from a lower bound, up to an upper one if there is one. -/
structure Interval where
  lower : ℤ
  upper : Option ℤ
deriving DecidableEq, Repr

def Interval.Contains (i : Interval) (x : ℤ) : Prop := i.lower ≤ x ∧ ∀ m ∈ i.upper, x ≤ m

/-- Each starts where the one before it ends. -/
def Contiguous : ℤ → List Interval → Prop
  | _, [] => False
  | start, [i] => i.lower = start
  | start, i :: next :: rest =>
      i.lower = start ∧ ∃ m, i.upper = some m ∧ Contiguous (m + 1) (next :: rest)

/-- The last interval is open, or ends after the number. -/
def Reaches (is : List Interval) (x : ℤ) : Prop := ∀ i ∈ is.getLast?, ∀ m ∈ i.upper, x ≤ m

variable {is : List Interval} {start x : ℤ}

/-- **Every number is covered.** -/
theorem exists_contains (h : Contiguous start is) (hx : start ≤ x) (hreaches : Reaches is x) :
    ∃ i ∈ is, i.Contains x := by
  induction is generalizing start with
  | nil => exact h.elim
  | cons i is ih =>
      cases is with
      | nil =>
          obtain rfl := h
          exact ⟨i, List.mem_cons_self, hx, fun m hm => hreaches i rfl m hm⟩
      | cons next is =>
          obtain ⟨rfl, m, hupper, hrest⟩ := h
          by_cases hm : x ≤ m
          · refine ⟨i, List.mem_cons_self, hx, fun n hn => ?_⟩
            rw [hupper] at hn
            exact Option.some.inj hn ▸ hm
          · obtain ⟨j, hj, hcontains⟩ := ih hrest (by omega) hreaches
            exact ⟨j, List.mem_cons_of_mem i hj, hcontains⟩

/-- No interval starts before the first. -/
theorem le_lower (h : Contiguous start is) (hbounds : ∀ i ∈ is, ∀ m ∈ i.upper, i.lower ≤ m) :
    ∀ i ∈ is, start ≤ i.lower := by
  induction is generalizing start with
  | nil => exact fun i hi => absurd hi List.not_mem_nil
  | cons i is ih =>
      intro j hj
      cases is with
      | nil =>
          obtain rfl := h
          obtain rfl := List.mem_singleton.mp hj
          exact le_rfl
      | cons next is =>
          obtain ⟨rfl, m, hupper, hrest⟩ := h
          have hle := hbounds i List.mem_cons_self m hupper
          rcases List.mem_cons.mp hj with rfl | hj
          · exact le_rfl
          · have := ih hrest (fun k hk => hbounds k (List.mem_cons_of_mem i hk)) j hj
            omega

/-- **No number is covered twice.** -/
theorem pairwise_disjoint (h : Contiguous start is)
    (hbounds : ∀ i ∈ is, ∀ m ∈ i.upper, i.lower ≤ m) :
    is.Pairwise fun i j => ∀ x, i.Contains x → ¬j.Contains x := by
  induction is generalizing start with
  | nil => exact .nil
  | cons i is ih =>
      cases is with
      | nil => exact List.pairwise_singleton _ i
      | cons next is =>
          obtain ⟨rfl, m, hupper, hrest⟩ := h
          have hothers := fun k hk => hbounds k (List.mem_cons_of_mem i hk)
          refine List.pairwise_cons.mpr ⟨fun j hj x hi hx => ?_, ih hrest hothers⟩
          have hbefore := hi.2 m hupper
          have hafter := le_lower hrest hothers j hj
          have := hx.1
          omega

end Intervals
