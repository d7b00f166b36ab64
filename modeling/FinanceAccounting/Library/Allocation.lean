import Mathlib.Algebra.Order.Group.Defs
import Mathlib.Algebra.BigOperators.Group.List.Basic
import Mathlib.Order.Lattice

/-! # Greedy allocation

A need is met from a list of sources in their order: every source gives what is still needed, or
all it has.  Sources that have nothing are passed over.  The need that is left after a source is
rounded, as in arithmetic of finite precision.

`sum_greedy` says that the parts add up to the need when the sources cover it, `le_of_greedy` that
no source gives more than it has, `greedy_whole` that only the last may give less, and
`greedy_round` that rounding changes nothing where it leaves the needs along the way as they
are. -/

namespace Allocation

variable {α K : Type*} [AddCommGroup K] [LinearOrder K]

/-- The sources drawn on, each with the part it gives. -/
def greedy (round : K → K) (available : α → K) : K → List α → List (α × K)
  | _, [] => []
  | need, a :: as =>
      if need ≤ 0 then []
      else if min need (available a) ≤ 0 then greedy round available need as
      else
        (a, min need (available a)) ::
          greedy round available (round (need - min need (available a))) as

variable {round : K → K} {available : α → K} {need : K} {as : List α}

theorem greedy_of_nonpos (h : need ≤ 0) : greedy round available need as = [] := by
  cases as with
  | nil => rfl
  | cons a as => exact if_pos h

/-- The sources drawn on are among the sources, in their order. -/
theorem sublist_greedy : ((greedy round available need as).map Prod.fst).Sublist as := by
  induction as generalizing need with
  | nil => exact List.Sublist.refl _
  | cons a as ih =>
      unfold greedy
      split
      · exact List.nil_sublist _
      · split
        · exact ih.cons a
        · exact ih.cons_cons a

/-- A source gives something, and no more than it has. -/
theorem le_of_greedy {p : α × K} (h : p ∈ greedy round available need as) :
    0 < p.2 ∧ p.2 ≤ available p.1 := by
  induction as generalizing need with
  | nil => cases h
  | cons a as ih =>
      unfold greedy at h
      split at h
      · cases h
      · split at h
        · exact ih h
        · rename_i hpos
          rcases List.mem_cons.mp h with rfl | h
          · exact ⟨not_le.mp hpos, min_le_right _ _⟩
          · exact ih h

/-- Rounding changes nothing where it leaves the needs along the way as they are. -/
theorem greedy_round [IsOrderedAddMonoid K] (hpos : ∀ a ∈ as, 0 < available a)
    (h : ∀ pre, pre <+: as → pre ≠ [] → (pre.map available).sum ≤ need →
      round (need - (pre.map available).sum) = need - (pre.map available).sum) (h0 : round 0 = 0) :
    greedy round available need as = greedy id available need as := by
  induction as generalizing need with
  | nil => rfl
  | cons a as ih =>
      unfold greedy
      split
      · rfl
      · rename_i hneed
        have ha := hpos a List.mem_cons_self
        rw [if_neg (not_le.mpr (lt_min (not_le.mp hneed) ha)),
          if_neg (not_le.mpr (lt_min (not_le.mp hneed) ha)), id_eq]
        congr 1
        rcases le_total need (available a) with hle | hle
        · rw [min_eq_left hle, sub_self, h0, greedy_of_nonpos le_rfl, greedy_of_nonpos le_rfl]
        · have hround := h [a] (List.prefix_append [a] as) (List.cons_ne_nil _ _) (by simpa using hle)
          simp only [List.map_cons, List.map_nil, List.sum_cons, List.sum_nil, add_zero] at hround
          rw [min_eq_right hle, hround]
          refine ih (fun b hb => hpos b (List.mem_cons_of_mem _ hb)) fun pre hpre _ hle' => ?_
          have hcons := h (a :: pre) ((List.cons_prefix_cons).mpr ⟨rfl, hpre⟩) (List.cons_ne_nil _ _)
          simp only [List.map_cons, List.sum_cons, ← sub_sub] at hcons
          exact hcons (by rw [add_comm]; exact le_sub_iff_add_le.mp hle')

/-- **The parts add up to the need** when the sources cover it. -/
theorem sum_greedy [IsOrderedAddMonoid K] (hpos : ∀ a ∈ as, 0 < available a) (h0 : 0 ≤ need)
    (h : need ≤ (as.map available).sum) :
    ((greedy id available need as).map Prod.snd).sum = need := by
  induction as generalizing need with
  | nil =>
      simp only [List.map_nil, List.sum_nil] at h
      simpa [greedy] using le_antisymm h0 h
  | cons a as ih =>
      unfold greedy
      split
      · rename_i hneed
        simpa using le_antisymm h0 hneed
      · rename_i hneed
        have ha := hpos a List.mem_cons_self
        rw [if_neg (not_le.mpr (lt_min (not_le.mp hneed) ha)), id_eq, List.map_cons, List.sum_cons]
        rcases le_total need (available a) with hle | hle
        · rw [min_eq_left hle, sub_self, greedy_of_nonpos le_rfl]
          simp
        · rw [min_eq_right hle, ih (fun b hb => hpos b (List.mem_cons_of_mem _ hb))
            (sub_nonneg.mpr hle)]
          · exact add_sub_cancel _ _
          · rw [List.map_cons, List.sum_cons] at h
            exact sub_le_iff_le_add'.mpr h

/-- **All but the last give all they have**: a source is drawn on only when those before it are used
up. -/
theorem greedy_whole [IsOrderedAddMonoid K] (hpos : ∀ a ∈ as, 0 < available a) (h0 : round 0 = 0) :
    ∃ whole rest, as = whole ++ rest ∧
      (greedy round available need as = whole.map (fun a => (a, available a)) ∨
        ∃ a rest' part, rest = a :: rest' ∧
          greedy round available need as = whole.map (fun a => (a, available a)) ++ [(a, part)]) := by
  induction as generalizing need with
  | nil => exact ⟨[], [], rfl, Or.inl rfl⟩
  | cons a as ih =>
      unfold greedy
      split
      · exact ⟨[], a :: as, rfl, Or.inl rfl⟩
      · rename_i hneed
        have ha := hpos a List.mem_cons_self
        rw [if_neg (not_le.mpr (lt_min (not_le.mp hneed) ha))]
        rcases le_total (available a) need with hle | hle
        · rw [min_eq_right hle]
          obtain ⟨whole, rest, rfl, hwhole | ⟨b, rest', part, rfl, hpart⟩⟩ :=
            @ih (round (need - available a)) fun b hb => hpos b (List.mem_cons_of_mem _ hb)
          · refine ⟨a :: whole, rest, rfl, Or.inl ?_⟩
            rw [hwhole, List.map_cons]
          · refine ⟨a :: whole, b :: rest', rfl, Or.inr ⟨b, rest', part, rfl, ?_⟩⟩
            rw [hpart, List.map_cons, List.cons_append]
        · rw [min_eq_left hle, sub_self, h0, greedy_of_nonpos le_rfl]
          exact ⟨[], a :: as, rfl, Or.inr ⟨a, as, need, rfl, rfl⟩⟩

/-- A sum in which one term changes. -/
theorem sum_map_of_change {ι G : Type*} [AddCommGroup G] {key : α → ι} {f g : α → G} {a : α}
    {t : G} (hnodup : (as.map key).Nodup) (ha : a ∈ as) (hother : ∀ b, key b ≠ key a → g b = f b)
    (hchange : g a = f a - t) : (as.map g).sum = (as.map f).sum - t := by
  induction as with
  | nil => cases ha
  | cons b as ih =>
      rw [List.map_cons, List.nodup_cons] at hnodup
      rw [List.map_cons, List.map_cons, List.sum_cons, List.sum_cons]
      rcases List.mem_cons.mp ha with rfl | ha
      · have hrest : as.map g = as.map f := by
          refine List.map_congr_left fun b hb => hother b fun hkey => hnodup.1 ?_
          exact hkey ▸ List.mem_map_of_mem hb
        rw [hrest, hchange, sub_add_eq_add_sub]
      · have hb : key b ≠ key a := fun hkey => hnodup.1 (hkey ▸ List.mem_map_of_mem ha)
        rw [hother b hb, ih hnodup.2 ha, add_sub_assoc]

end Allocation
