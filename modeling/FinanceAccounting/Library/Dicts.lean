import Mathlib.Data.List.Basic
import Mathlib.Data.List.Induction
import Mathlib.Data.List.Nodup

/-! # Dictionaries

A dictionary is the list of its entries in the order in which the keys were first set.  Setting an
item writes over the entry of the key or appends a new one, so what is stored under a key is what was
set last (`get?_setItem`), and setting items under distinct new keys appends them
(`foldl_setItem_of_nodup`).  A loop that adds each element to what is stored under its key stores
under a key what the elements of that key add up to (`get?_collect`). -/

namespace Dicts

variable {α κ ν : Type*} [DecidableEq κ]

/-- `d[k] = v`. -/
def setItem : List (κ × ν) → κ → ν → List (κ × ν)
  | [], k, v => [(k, v)]
  | (k', v') :: d, k, v => if k' = k then (k, v) :: d else (k', v') :: setItem d k v

/-- `d.get(k)`. -/
def get? : List (κ × ν) → κ → Option ν
  | [], _ => none
  | (k', v') :: d, k => if k' = k then some v' else get? d k

variable {d : List (κ × ν)} {k k' : κ} {v : ν}

/-- **What is under a key is what was set last.** -/
theorem get?_setItem : get? (setItem d k v) k' = if k = k' then some v else get? d k' := by
  induction d with
  | nil => rfl
  | cons entry d ih =>
      obtain ⟨k₀, v₀⟩ := entry
      rw [setItem]
      by_cases hk : k₀ = k
      · subst hk
        rw [if_pos rfl, get?, get?]
        split
        · rfl
        · rfl
      · rw [if_neg hk, get?, get?, ih]
        by_cases hk₀ : k₀ = k'
        · rw [if_pos hk₀, if_pos hk₀, if_neg fun h => hk (hk₀.trans h.symm)]
        · rw [if_neg hk₀, if_neg hk₀]

/-- A new key is appended. -/
theorem setItem_of_notMem (h : k ∉ d.map Prod.fst) : setItem d k v = d ++ [(k, v)] := by
  induction d with
  | nil => rfl
  | cons entry d ih =>
      obtain ⟨k₀, v₀⟩ := entry
      rw [List.map_cons, List.mem_cons, not_or] at h
      rw [setItem, if_neg (Ne.symm h.1), ih h.2, List.cons_append]

/-- **Items under distinct new keys are appended in their order.** -/
theorem foldl_setItem_of_nodup {key : α → κ} {value : α → ν} {as : List α}
    (hnodup : (as.map key).Nodup) (hnew : ∀ a ∈ as, key a ∉ d.map Prod.fst) :
    as.foldl (fun d a => setItem d (key a) (value a)) d = d ++ as.map fun a => (key a, value a) := by
  induction as generalizing d with
  | nil => exact (List.append_nil d).symm
  | cons a as ih =>
      rw [List.map_cons, List.nodup_cons] at hnodup
      rw [List.foldl_cons, setItem_of_notMem (hnew a List.mem_cons_self), ih hnodup.2, List.map_cons,
        List.append_assoc, List.singleton_append]
      intro b hb hmem
      rw [List.map_append, List.mem_append] at hmem
      rcases hmem with hmem | hmem
      · exact hnew b (List.mem_cons_of_mem a hb) hmem
      · obtain hkey : key b = key a := List.mem_singleton.mp hmem
        exact hnodup.1 (hkey ▸ List.mem_map_of_mem hb)

/-- The entry of a key of distinct ones. -/
theorem get?_of_mem (hnodup : (d.map Prod.fst).Nodup) (h : (k, v) ∈ d) : get? d k = some v := by
  induction d with
  | nil => exact absurd h List.not_mem_nil
  | cons entry d ih =>
      obtain ⟨k₀, v₀⟩ := entry
      rw [List.map_cons, List.nodup_cons] at hnodup
      rw [get?]
      rcases List.mem_cons.mp h with heq | hmem
      · obtain ⟨rfl, rfl⟩ := Prod.mk.inj heq
        rw [if_pos rfl]
      · have hne : k₀ ≠ k := by
          rintro rfl
          exact hnodup.1 (List.mem_map.mpr ⟨_, hmem, rfl⟩)
        rw [if_neg hne, ih hnodup.2 hmem]

/-- Setting an item whose key is there changes its value. -/
theorem setItem_map {key : α → κ} {value : α → ν} {as : List α} {a : α}
    (hnodup : (as.map key).Nodup) (ha : a ∈ as) :
    setItem (as.map fun b => (key b, value b)) (key a) v =
      as.map fun b => (key b, if key b = key a then v else value b) := by
  induction as with
  | nil => exact absurd ha List.not_mem_nil
  | cons b as ih =>
      rw [List.map_cons, List.nodup_cons] at hnodup
      rw [List.map_cons, setItem, List.map_cons]
      by_cases hkey : key b = key a
      · have hothers : ∀ c ∈ as, key c ≠ key a := fun c hc h =>
          hnodup.1 (hkey ▸ h ▸ List.mem_map_of_mem hc)
        rw [if_pos hkey, if_pos hkey, hkey]
        refine congrArg _ (List.map_congr_left fun c hc => ?_)
        rw [if_neg (hothers c hc)]
      · have hmem : a ∈ as := (List.mem_cons.mp ha).resolve_left fun h => hkey (congrArg key h).symm
        rw [if_neg hkey, if_neg hkey, ih hnodup.2 hmem]

theorem mem_map_fst_setItem : k' ∈ (setItem d k v).map Prod.fst ↔ k' = k ∨ k' ∈ d.map Prod.fst := by
  induction d with
  | nil => simp [setItem]
  | cons entry d ih =>
      obtain ⟨k₀, v₀⟩ := entry
      rw [setItem]
      split
      · rename_i hk
        simp [hk]
      · simp only [List.map_cons, List.mem_cons, ih]
        tauto

theorem nodup_setItem (hnodup : (d.map Prod.fst).Nodup) : ((setItem d k v).map Prod.fst).Nodup := by
  induction d with
  | nil => exact List.nodup_singleton k
  | cons entry d ih =>
      obtain ⟨k₀, v₀⟩ := entry
      rw [List.map_cons, List.nodup_cons] at hnodup
      rw [setItem]
      split
      · rename_i hk
        rw [List.map_cons, List.nodup_cons]
        exact ⟨hk ▸ hnodup.1, hnodup.2⟩
      · rename_i hk
        rw [List.map_cons, List.nodup_cons, mem_map_fst_setItem, not_or]
        exact ⟨⟨hk, hnodup.1⟩, ih hnodup.2⟩

/-! ### Collecting by key -/

section Collect

variable {key : α → κ} {add : ν → α → ν} {zero : ν} {as : List α}

/-- What is under the key of an element, with the element added. -/
def collect (key : α → κ) (add : ν → α → ν) (zero : ν) (d : List (κ × ν)) (a : α) : List (κ × ν) :=
  setItem d (key a) (add ((get? d (key a)).getD zero) a)

theorem nodup_collect (hnodup : (d.map Prod.fst).Nodup) :
    ((as.foldl (collect key add zero) d).map Prod.fst).Nodup := by
  induction as generalizing d with
  | nil => exact hnodup
  | cons a as ih => exact ih (nodup_setItem hnodup)

/-- **Under a key is what its elements add up to**, and nothing when there are none. -/
theorem get?_collect : get? (as.foldl (collect key add zero) []) k =
    if k ∈ as.map key then some ((as.filter (key · = k)).foldl add zero) else none := by
  induction as using List.reverseRecOn with
  | nil => rfl
  | append_singleton as a ih =>
      rw [List.foldl_append, List.foldl_cons, List.foldl_nil, collect, get?_setItem]
      by_cases hk : key a = k
      · subst hk
        have hstored : ((get? (as.foldl (collect key add zero) []) (key a)).getD zero) =
            (as.filter (key · = key a)).foldl add zero := by
          rw [ih]
          split
          · rfl
          · rename_i hnew
            have hnone : as.filter (key · = key a) = [] := List.filter_eq_nil_iff.mpr fun b hb => by
              simp only [decide_eq_true_eq]
              exact fun hkey => hnew (hkey ▸ List.mem_map_of_mem hb)
            rw [hnone]
            rfl
        rw [if_pos rfl, if_pos (by simp), hstored, List.filter_append, List.foldl_append]
        simp
      · rw [if_neg hk, ih, List.filter_append]
        simp [hk, Ne.symm hk]

/-- What is under its key is in the dictionary. -/
theorem mem_of_get? (h : get? d k = some v) : (k, v) ∈ d := by
  induction d with
  | nil => cases h
  | cons entry d ih =>
      obtain ⟨k₀, v₀⟩ := entry
      rw [get?] at h
      split at h
      · rename_i hk
        obtain rfl := Option.some.inj h
        exact hk ▸ List.mem_cons_self
      · exact List.mem_cons_of_mem _ (ih h)

theorem mem_collect : (k, v) ∈ as.foldl (collect key add zero) [] ↔
    k ∈ as.map key ∧ v = (as.filter (key · = k)).foldl add zero := by
  have hnodup : ((as.foldl (collect key add zero) []).map Prod.fst).Nodup :=
    nodup_collect List.nodup_nil
  constructor
  · intro h
    have hget := get?_of_mem hnodup h
    rw [get?_collect] at hget
    split at hget
    · rename_i hk
      exact ⟨hk, (Option.some.inj hget).symm⟩
    · cases hget
  · rintro ⟨hk, rfl⟩
    refine mem_of_get? ?_
    rw [get?_collect, if_pos hk]

end Collect

end Dicts
