import Mathlib.Data.List.Sort
import Mathlib.Data.Prod.Lex

/-! # Ranking by keys

The greatest elements of a list under a key, and the element that is greater than all others,
if there is one.  A list is ranked by sorting it, greatest key first and otherwise in its own
order; its first two elements then decide whether the greatest is unique (`uniqueTop_of_lt`,
`not_uniqueTop_of_not_lt`).  Under a lexicographic pair of keys the greatest element is among the
greatest of the first key, and it is found by the first key alone, or by the second among them. -/

namespace Ranking

variable {α β γ : Type*} [LinearOrder β] [LinearOrder γ]

/-- No element has a greater key. -/
def Top (key : α → β) (xs : List α) (p : α) : Prop := p ∈ xs ∧ ∀ q ∈ xs, key q ≤ key p

/-- Every other element has a smaller key. -/
def UniqueTop (key : α → β) (xs : List α) (p : α) : Prop :=
  p ∈ xs ∧ ∀ q ∈ xs, q ≠ p → key q < key p

/-- Stable sort, greatest key first. -/
def descending (key : α → β) (xs : List α) : List α :=
  xs.insertionSort fun a b => key b ≤ key a

/-- Stable sort, smallest key first. -/
def ascending (key : α → β) (xs : List α) : List α :=
  xs.insertionSort fun a b => key a ≤ key b

section Unique

variable {key : α → β} {xs ys : List α} {p q : α}

theorem UniqueTop.eq (hp : UniqueTop key xs p) (hq : UniqueTop key xs q) : p = q := by
  by_contra hne
  exact lt_asymm (hp.2 q hq.1 (Ne.symm hne)) (hq.2 p hp.1 hne)

/-- Only the elements matter. -/
theorem UniqueTop.of_mem_iff (h : ∀ a, a ∈ xs ↔ a ∈ ys) (hp : UniqueTop key xs p) :
    UniqueTop key ys p :=
  ⟨(h p).mp hp.1, fun q hq hne => hp.2 q ((h q).mpr hq) hne⟩

theorem uniqueTop_singleton (key : α → β) (p : α) : UniqueTop key [p] p := by
  refine ⟨List.mem_singleton_self p, fun q hq hne => ?_⟩
  exact absurd (List.mem_singleton.mp hq) hne

end Unique

section Sorting

variable {key : α → β} {xs ys rest : List α} {a b : α}

theorem perm_descending (key : α → β) (xs : List α) : (descending key xs).Perm xs :=
  List.perm_insertionSort _ xs

theorem perm_ascending (key : α → β) (xs : List α) : (ascending key xs).Perm xs :=
  List.perm_insertionSort _ xs

theorem mem_descending : a ∈ descending key xs ↔ a ∈ xs := List.mem_insertionSort _

theorem mem_ascending : a ∈ ascending key xs ↔ a ∈ xs := List.mem_insertionSort _

theorem length_descending (key : α → β) (xs : List α) :
    (descending key xs).length = xs.length :=
  List.length_insertionSort _ _

theorem length_ascending (key : α → β) (xs : List α) : (ascending key xs).length = xs.length :=
  List.length_insertionSort _ _

theorem nodup_descending (h : xs.Nodup) : (descending key xs).Nodup :=
  (perm_descending key xs).nodup_iff.mpr h

theorem pairwise_descending (key : α → β) (xs : List α) :
    (descending key xs).Pairwise fun a b => key b ≤ key a := by
  have : Std.Total fun a b : α => key b ≤ key a := ⟨fun a b => le_total (key b) (key a)⟩
  have : IsTrans α fun a b => key b ≤ key a := ⟨fun a b c hab hbc => hbc.trans hab⟩
  exact List.pairwise_insertionSort _ xs

theorem pairwise_ascending (key : α → β) (xs : List α) :
    (ascending key xs).Pairwise fun a b => key a ≤ key b := by
  have : Std.Total fun a b : α => key a ≤ key b := ⟨fun a b => le_total (key a) (key b)⟩
  have : IsTrans α fun a b => key a ≤ key b := ⟨fun a b c hab hbc => hab.trans hbc⟩
  exact List.pairwise_insertionSort _ xs

/-- Where no two elements have one key, their order does not matter. -/
theorem ascending_congr (h : xs.Perm ys) (hkey : ∀ a ∈ xs, ∀ b ∈ xs, key a = key b → a = b) :
    ascending key xs = ascending key ys := by
  have hperm := ((perm_ascending key xs).trans h).trans (perm_ascending key ys).symm
  refine List.Perm.eq_of_pairwise (fun a b ha hb hab hba => ?_) (pairwise_ascending key xs)
    (pairwise_ascending key ys) hperm
  exact hkey a (mem_ascending.mp ha) b (h.mem_iff.mpr (mem_ascending.mp hb)) (le_antisymm hab hba)

/-- The keys after the first two are not greater than the second. -/
theorem le_of_descending (h : descending key xs = a :: b :: rest) {q : α} (hq : q ∈ xs) :
    q = a ∨ key q ≤ key b := by
  have hsorted := pairwise_descending key xs
  rw [← (mem_descending : q ∈ descending key xs ↔ q ∈ xs), h] at hq
  rw [h] at hsorted
  rcases List.mem_cons.mp hq with rfl | hq
  · exact Or.inl rfl
  · right
    rcases List.mem_cons.mp hq with rfl | hq
    · exact le_rfl
    · exact List.rel_of_pairwise_cons (List.pairwise_cons.mp hsorted).2 hq

/-- **The first is the greatest** when it is ahead of the second. -/
theorem uniqueTop_of_lt (h : descending key xs = a :: b :: rest) (hlt : key b < key a) :
    UniqueTop key xs a := by
  refine ⟨mem_descending.mp (h ▸ List.mem_cons_self), fun q hq hne => ?_⟩
  exact ((le_of_descending h hq).resolve_left hne).trans_lt hlt

/-- Without a lead of the first no element is greater than all others. -/
theorem not_uniqueTop_of_not_lt (hnodup : xs.Nodup) (h : descending key xs = a :: b :: rest)
    (hlt : ¬key b < key a) (p : α) : ¬UniqueTop key xs p := by
  intro hp
  have hne : b ≠ a := by
    have : (descending key xs).Nodup := nodup_descending hnodup
    rw [h] at this
    intro heq
    exact (List.nodup_cons.mp this).1 (heq ▸ List.mem_cons_self)
  have ha : a ∈ xs := mem_descending.mp (h ▸ List.mem_cons_self)
  have hb : b ∈ xs := mem_descending.mp (h ▸ List.mem_cons_of_mem _ List.mem_cons_self)
  by_cases hpa : a = p
  · subst hpa
    exact hlt (hp.2 b hb hne)
  · have hap := hp.2 a ha hpa
    have hpb : key p ≤ key b := (le_of_descending h hp.1).resolve_left (Ne.symm hpa)
    have hba : key b ≤ key a := by
      have hsorted := pairwise_descending key xs
      rw [h] at hsorted
      exact List.rel_of_pairwise_cons hsorted List.mem_cons_self
    exact absurd (hap.trans_le (hpb.trans hba)) (lt_irrefl _)

/-- The first of the sorted list has a greatest key. -/
theorem le_head_descending (h : descending key xs = a :: rest) {q : α} (hq : q ∈ xs) :
    key q ≤ key a := by
  have hsorted := pairwise_descending key xs
  rw [← (mem_descending : q ∈ descending key xs ↔ q ∈ xs), h] at hq
  rw [h] at hsorted
  rcases List.mem_cons.mp hq with rfl | hq
  · exact le_rfl
  · exact List.rel_of_pairwise_cons hsorted hq

/-- Two elements or more have the greatest key. -/
def Shared (key : α → β) (xs : List α) : Prop :=
  2 ≤ xs.countP fun p => ∀ q ∈ xs, key q ≤ key p

instance (key : α → β) (xs : List α) : Decidable (Shared key xs) :=
  inferInstanceAs (Decidable (_ ≤ _))

/-- **The greatest key is shared** exactly when the first two of the sorted list are level. -/
theorem shared_iff (h : descending key xs = a :: b :: rest) :
    Shared key xs ↔ ¬key b < key a := by
  have ha : a ∈ xs := mem_descending.mp (h ▸ List.mem_cons_self)
  have htop : ∀ q ∈ xs, key q ≤ key a := fun q hq => le_head_descending h hq
  have hcount : xs.countP (fun p => ∀ q ∈ xs, key q ≤ key p) =
      (a :: b :: rest).countP fun p => ∀ q ∈ xs, key q ≤ key p := by
    rw [← h]
    exact ((perm_descending key xs).countP_eq _).symm
  unfold Shared
  rw [hcount, List.countP_cons_of_pos (by simpa using htop)]
  constructor
  · intro htwo hlt
    have hnone : (b :: rest).countP (fun p => ∀ q ∈ xs, key q ≤ key p) = 0 := by
      rw [List.countP_eq_zero]
      intro q hq hall
      have hqxs : q ∈ xs := mem_descending.mp (h ▸ List.mem_cons_of_mem a hq)
      have hqb : key q ≤ key b := by
        have hsorted := pairwise_descending key xs
        rw [h] at hsorted
        rcases List.mem_cons.mp hq with rfl | hq
        · exact le_rfl
        · exact List.rel_of_pairwise_cons (List.pairwise_cons.mp hsorted).2 hq
      have haq : key a ≤ key q := by simpa using of_decide_eq_true hall a ha
      exact absurd (hqb.trans_lt hlt) (not_lt.mpr haq)
    omega
  · intro hlt
    have hb : ∀ q ∈ xs, key q ≤ key b := fun q hq => (htop q hq).trans (not_lt.mp hlt)
    rw [List.countP_cons_of_pos (by simpa using hb)]
    omega

theorem shared_congr (h : xs.Perm ys) : Shared key xs ↔ Shared key ys := by
  have htop : ∀ p, (∀ q ∈ xs, key q ≤ key p) ↔ ∀ q ∈ ys, key q ≤ key p := fun p =>
    forall_congr' fun q => by rw [h.mem_iff]
  unfold Shared
  simp only [htop]
  rw [h.countP_eq]

variable {δ : Type*} {f : δ → α} {key' : δ → β} {ds : List δ}

/-- Sorting a mapped list is mapping the sorted one. -/
theorem ascending_map (h : ∀ d ∈ ds, key (f d) = key' d) :
    ascending key (ds.map f) = (ascending key' ds).map f := by
  refine (List.map_insertionSort _ _ f ds fun a ha b hb => ?_).symm
  rw [h a ha, h b hb]

end Sorting

/-! ### Two keys -/

section Lex

variable {f : α → β} {g : α → γ} {xs : List α} {p : α}

/-- The first key decides, then the second. -/
def lexKey (f : α → β) (g : α → γ) (a : α) : β ×ₗ γ := toLex (f a, g a)

theorem lexKey_lt_iff {a b : α} :
    lexKey f g a < lexKey f g b ↔ f a < f b ∨ f a = f b ∧ g a < g b :=
  Prod.Lex.toLex_lt_toLex

/-- A unique greatest of the first key is the greatest. -/
theorem UniqueTop.lex_of_first (h : UniqueTop f xs p) : UniqueTop (lexKey f g) xs p :=
  ⟨h.1, fun q hq hne => lexKey_lt_iff.mpr (Or.inl (h.2 q hq hne))⟩

/-- The greatest has the greatest first key. -/
theorem UniqueTop.top_of_lex (h : UniqueTop (lexKey f g) xs p) : Top f xs p := by
  refine ⟨h.1, fun q hq => ?_⟩
  by_cases hne : q = p
  · rw [hne]
  · rcases lexKey_lt_iff.mp (h.2 q hq hne) with hlt | ⟨heq, -⟩
    · exact hlt.le
    · exact heq.le

/-- A unique greatest of the second key is the greatest if its first key is greatest too. -/
theorem UniqueTop.lex_of_second (htop : Top f xs p) (h : UniqueTop g xs p) :
    UniqueTop (lexKey f g) xs p := by
  refine ⟨h.1, fun q hq hne => lexKey_lt_iff.mpr ?_⟩
  rcases (htop.2 q hq).lt_or_eq with hlt | heq
  · exact Or.inl hlt
  · exact Or.inr ⟨heq, h.2 q hq hne⟩

end Lex

end Ranking
