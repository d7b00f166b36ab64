import Mathlib.Algebra.BigOperators.Group.Finset.Piecewise
import Mathlib.Algebra.BigOperators.Ring.List
import Mathlib.Tactic.Abel

/-! # Sums by key

The sum of a quantity over the elements of a list whose keys have a property is the sum of its
sums for each key (`sum_filter_eq_sum`, `sum_mul_by_key`); where the keys differ from row to row, a
change for one key is a change of one summand (`sum_update`). -/

namespace KeyedSums

variable {α κ M : Type*} [DecidableEq κ] [AddCommMonoid M] {key : α → κ} {f : α → M} {p : κ → Bool}

theorem sum_filter_cons (q : α → Bool) (x : α) (l : List α) :
    (((x :: l).filter q).map f).sum = (if q x then f x else 0) + ((l.filter q).map f).sum := by
  rw [List.filter_cons]
  split
  · rw [List.map_cons, List.sum_cons]
  · rw [zero_add]

/-- A sum over keys is the sum of the sums for each key. -/
theorem sum_filter_eq_sum (s : Finset κ) (l : List α) (h : ∀ x ∈ l, key x ∈ s) :
    ((l.filter fun x => p (key x)).map f).sum =
      ∑ k ∈ s, if p k then ((l.filter fun x => key x = k).map f).sum else 0 := by
  induction l with
  | nil => simp
  | cons x l ih =>
      have hrest := ih fun y hy => h y (List.mem_cons_of_mem x hy)
      have hsplit : ∀ k, (if p k then (((x :: l).filter fun y => key y = k).map f).sum else 0) =
          (if k = key x then if p k then f x else 0 else 0) +
            if p k then ((l.filter fun y => key y = k).map f).sum else 0 := by
        intro k
        rw [sum_filter_cons]
        by_cases hk : k = key x
        · subst hk
          simp only [decide_true, if_true]
          split <;> simp
        · simp [hk, Ne.symm hk]
      simp only [hsplit]
      rw [sum_filter_cons, Finset.sum_add_distrib, Finset.sum_ite_eq', hrest,
        if_pos (h x List.mem_cons_self)]

/-- Where the sum of every key is zero, so is the sum over keys. -/
theorem sum_filter_eq_zero {l : List α}
    (h : ∀ k, p k = true → ((l.filter fun x => key x = k).map f).sum = 0) :
    ((l.filter fun x => p (key x)).map f).sum = 0 := by
  rw [sum_filter_eq_sum (l.map key).toFinset l fun x hx =>
    List.mem_toFinset.mpr (List.mem_map_of_mem hx)]
  refine Finset.sum_eq_zero fun k _ => ?_
  split
  · rename_i hk
    exact h k hk
  · rfl

/-- Where the whole sum is zero and the sum of every other key is, so is the sum of a key. -/
theorem sum_filter_of_others {l : List α} (k : κ) (hall : (l.map f).sum = 0)
    (h : ∀ k', k' ≠ k → ((l.filter fun x => key x = k').map f).sum = 0) :
    ((l.filter fun x => key x = k).map f).sum = 0 := by
  have hothers : ((l.filter fun x => !(decide (key x = k))).map f).sum = 0 :=
    sum_filter_eq_zero (p := fun k' => !(decide (k' = k))) fun k' hk' => h k' (by simpa using hk')
  have hsplit : ((l.filter fun x => key x = k).map f).sum +
      ((l.filter fun x => !(decide (key x = k))).map f).sum = (l.map f).sum := by
    rw [← List.sum_append, ← List.map_append]
    exact (List.filter_append_perm _ l |>.map f).sum_eq
  rw [hothers, add_zero, hall] at hsplit
  exact hsplit

/-- A sum over different keys of what the elements of each key have, with weights for the keys. -/
theorem sum_mul_by_key {R : Type*} [Semiring R] {ks : List κ} (hnodup : ks.Nodup) (l : List α)
    (c : κ → R) (g : α → R) :
    (ks.map fun k => c k * ((l.filter fun x => key x = k).map g).sum).sum =
      (l.map fun x => if key x ∈ ks then c (key x) * g x else 0).sum := by
  induction l with
  | nil => simp
  | cons x l ih =>
      rw [List.map_cons, List.sum_cons, ← ih]
      simp only [sum_filter_cons, mul_add, decide_eq_true_eq]
      rw [List.sum_map_add]
      congr 1
      clear ih
      induction ks with
      | nil => simp
      | cons k ks ih =>
          rw [List.nodup_cons] at hnodup
          rw [List.map_cons, List.sum_cons, ih hnodup.2]
          by_cases hkey : key x = k
          · subst hkey
            simp [hnodup.1]
          · simp [hkey]

omit [DecidableEq κ] in
/-- A sum in which the quantity changes for one key only, of rows with different keys. -/
theorem sum_update {M : Type*} [AddCommGroup M] {f f' : α → M} {l : List α} {x : α}
    (hnodup : (l.map key).Nodup) (hx : x ∈ l) (hothers : ∀ y ∈ l, key y ≠ key x → f' y = f y) :
    (l.map f').sum = (l.map f).sum - f x + f' x := by
  induction l with
  | nil => cases hx
  | cons y l ih =>
      rw [List.map_cons, List.nodup_cons] at hnodup
      rw [List.map_cons, List.sum_cons, List.map_cons, List.sum_cons]
      rcases List.mem_cons.mp hx with rfl | hmem
      · have hrest : l.map f' = l.map f := by
          refine List.map_congr_left fun z hz => hothers z (List.mem_cons_of_mem x hz) fun heq => ?_
          exact hnodup.1 (heq ▸ List.mem_map_of_mem hz)
        rw [hrest]
        abel
      · have hne : key y ≠ key x := fun heq => hnodup.1 (heq ▸ List.mem_map_of_mem hmem)
        rw [ih hnodup.2 hmem fun z hz => hothers z (List.mem_cons_of_mem y hz),
          hothers y List.mem_cons_self hne]
        abel

omit [DecidableEq κ] in
/-- What is made of elements whose keys differ, with their keys. -/
theorem nodup_keys_filterMap {β : Type*} {g : α → Option β} {key' : β → κ} {l : List α}
    (h : ∀ x y, g x = some y → key' y = key x) (hnodup : (l.map key).Nodup) :
    ((l.filterMap g).map key').Nodup := by
  refine List.Nodup.sublist ?_ hnodup
  clear hnodup
  induction l with
  | nil => exact .slnil
  | cons x l ih =>
      cases hx : g x with
      | none =>
          rw [List.filterMap_cons_none hx]
          exact ih.cons _
      | some y =>
          rw [List.filterMap_cons_some hx, List.map_cons, List.map_cons, h x y hx]
          exact ih.cons_cons _

/-- The elements with a key, key after key, and then those without one, are all elements. -/
theorem perm_flatMap_filter (g : α → Option κ) :
    ∀ (ks : List κ) (l : List α), ks.Nodup → (∀ x ∈ l, ∀ k ∈ g x, k ∈ ks) →
      (ks.flatMap (fun k => l.filter fun x => g x = some k) ++ l.filter fun x => g x = none).Perm l
  | [], l, _, hall => by
      have hnone : l.filter (fun x => g x = none) = l := List.filter_eq_self.mpr fun x hx =>
        decide_eq_true (Option.eq_none_iff_forall_not_mem.mpr fun k hk =>
          List.not_mem_nil (hall x hx k hk))
      rw [List.flatMap_nil, List.nil_append, hnone]
  | k :: ks, l, hnodup, hall => by
      rw [List.nodup_cons] at hnodup
      have hrest : ∀ o : Option κ, o ≠ some k →
          l.filter (fun x => g x = o) =
            (l.filter fun x => !decide (g x = some k)).filter fun x => g x = o := by
        intro o ho
        rw [List.filter_filter]
        refine List.filter_congr fun x _ => ?_
        by_cases hx : g x = o
        · simp [hx, ho]
        · simp [hx]
      have hothers : ks.flatMap (fun k' => l.filter fun x => g x = some k') = ks.flatMap fun k' =>
          (l.filter fun x => !decide (g x = some k)).filter fun x => g x = some k' :=
        List.flatMap_congr fun k' hk' => hrest (some k') fun h =>
          hnodup.1 (Option.some.inj h ▸ hk')
      have ih := perm_flatMap_filter g ks (l.filter fun x => !decide (g x = some k)) hnodup.2
        fun x hx k' hk' => by
          obtain ⟨hmem, hne⟩ := List.mem_filter.mp hx
          refine (List.mem_cons.mp (hall x hmem k' hk')).resolve_left fun heq => ?_
          subst heq
          simp [Option.mem_def.mp hk'] at hne
      rw [List.flatMap_cons, hothers, hrest none (by simp), List.append_assoc]
      exact (ih.append_left _).trans (List.filter_append_perm _ l)

end KeyedSums
