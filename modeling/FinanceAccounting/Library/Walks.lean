import Mathlib.Data.List.Basic

/-! # Walks in a graph with edges as labels

A vertex has a list of outgoing edges, and an edge leads to a vertex.  `IsWalk` says that edges follow
one another from a vertex, `Maximal` that a walk is no longer than a bound and cannot be continued
within it, and `walks` lists the maximal ones (`mem_walks`).  Which they are depends only on the
edges that go out of vertices in reach (`maximal_congr`). -/

namespace Walks

variable {V E : Type*} (out : V → List E) (far : E → V)

/-- The edges follow one another from `v`. -/
def IsWalk : V → List E → Prop
  | _, [] => True
  | v, e :: es => e ∈ out v ∧ IsWalk (far e) es

/-- Where the edges lead from `v`. -/
def endpoint : V → List E → V
  | v, [] => v
  | _, e :: es => endpoint (far e) es

/-- A walk of length at most `n` that is as long as that or cannot go on. -/
structure Maximal (n : ℕ) (v : V) (es : List E) : Prop where
  walk : IsWalk out far v es
  length_le : es.length ≤ n
  stops : es.length = n ∨ out (endpoint far v es) = []

/-- All of them. -/
def walks : ℕ → V → List (List E)
  | 0, _ => [[]]
  | n + 1, v =>
      if out v = [] then [[]] else (out v).flatMap fun e => (walks n (far e)).map (e :: ·)

variable {out far} {n : ℕ} {v : V} {e : E} {es es' : List E}

/-- One more edge at the end. -/
theorem isWalk_concat : IsWalk out far v (es ++ [e]) ↔
    IsWalk out far v es ∧ e ∈ out (endpoint far v es) := by
  induction es generalizing v with
  | nil => simp [IsWalk, endpoint]
  | cons e' es ih =>
      simp only [List.cons_append, IsWalk, endpoint, ih, and_assoc]

theorem walks_of_nil (h : out v = []) : walks out far n v = [[]] := by
  cases n with
  | zero => rfl
  | succ n => exact if_pos h

theorem maximal_nil : Maximal out far n v [] ↔ n = 0 ∨ out v = [] := by
  constructor
  · rintro ⟨-, -, hlength | hend⟩
    · exact Or.inl hlength.symm
    · exact Or.inr hend
  · rintro (rfl | hnil)
    · exact ⟨trivial, Nat.le_refl 0, Or.inl rfl⟩
    · exact ⟨trivial, Nat.zero_le n, Or.inr hnil⟩

theorem maximal_cons : Maximal out far (n + 1) v (e :: es) ↔
    e ∈ out v ∧ Maximal out far n (far e) es := by
  constructor
  · rintro ⟨⟨he, hwalk⟩, hle, hstops⟩
    rw [List.length_cons] at hle hstops
    refine ⟨he, hwalk, by omega, ?_⟩
    rcases hstops with hlength | hend
    · exact Or.inl (by omega)
    · exact Or.inr hend
  · rintro ⟨he, hwalk, hle, hstops⟩
    refine ⟨⟨he, hwalk⟩, ?_, ?_⟩
    · rw [List.length_cons]
      omega
    · rcases hstops with hlength | hend
      · left
        rw [List.length_cons, hlength]
      · exact Or.inr hend

/-- Walks of one edge do not depend on where it leads. -/
theorem maximal_of_le_one {far' : E → V} (hn : n ≤ 1) :
    Maximal out far n v es ↔ Maximal out far' n v es := by
  cases es with
  | nil => rw [maximal_nil, maximal_nil]
  | cons e es =>
      cases n with
      | zero =>
          refine iff_of_false (fun hmax => ?_) (fun hmax => ?_)
          · exact absurd hmax.length_le (Nat.not_succ_le_zero _)
          · exact absurd hmax.length_le (Nat.not_succ_le_zero _)
      | succ n =>
          obtain rfl : n = 0 := by omega
          rw [maximal_cons, maximal_cons]
          refine and_congr_right fun _ => ?_
          cases es with
          | nil => exact iff_of_true (maximal_nil.mpr (Or.inl rfl)) (maximal_nil.mpr (Or.inl rfl))
          | cons e' es =>
              refine iff_of_false (fun hmax => ?_) (fun hmax => ?_)
              · exact absurd hmax.length_le (Nat.not_succ_le_zero _)
              · exact absurd hmax.length_le (Nat.not_succ_le_zero _)

/-- **The list is that of the maximal walks.** -/
theorem mem_walks : es ∈ walks out far n v ↔ Maximal out far n v es := by
  induction n generalizing v es with
  | zero =>
      rw [show walks out far 0 v = [[]] from rfl, List.mem_singleton]
      constructor
      · rintro rfl
        exact maximal_nil.mpr (Or.inl rfl)
      · exact fun h => List.length_eq_zero_iff.mp (Nat.le_zero.mp h.length_le)
  | succ n ih =>
      by_cases hnil : out v = []
      · rw [walks_of_nil hnil, List.mem_singleton]
        cases es with
        | nil => exact iff_of_true rfl (maximal_nil.mpr (Or.inr hnil))
        | cons e es =>
            refine iff_of_false (List.cons_ne_nil e es) fun h => ?_
            have he := (maximal_cons.mp h).1
            rw [hnil] at he
            cases he
      · rw [walks, if_neg hnil, List.mem_flatMap]
        cases es with
        | nil =>
            refine iff_of_false ?_ ?_
            · rintro ⟨e, -, he⟩
              obtain ⟨es', -, hcons⟩ := List.mem_map.mp he
              cases hcons
            · intro h
              rcases maximal_nil.mp h with hn | hempty
              · cases hn
              · exact hnil hempty
        | cons e es =>
            rw [maximal_cons]
            constructor
            · rintro ⟨e', he', hmem⟩
              obtain ⟨es', hes', hcons⟩ := List.mem_map.mp hmem
              obtain ⟨rfl, rfl⟩ := List.cons.inj hcons
              exact ⟨he', ih.mp hes'⟩
            · rintro ⟨he, hes⟩
              exact ⟨e, he, List.mem_map_of_mem (ih.mpr hes)⟩

/-- Every walk within the bound goes on to a maximal one. -/
theorem exists_maximal (h : IsWalk out far v es) (hle : es.length ≤ n) :
    ∃ es', Maximal out far n v es' ∧ es.length ≤ es'.length := by
  induction n generalizing v es with
  | zero =>
      obtain rfl := List.length_eq_zero_iff.mp (Nat.le_zero.mp hle)
      exact ⟨[], maximal_nil.mpr (Or.inl rfl), Nat.le_refl 0⟩
  | succ n ih =>
      cases es with
      | nil =>
          cases hout : out v with
          | nil => exact ⟨[], maximal_nil.mpr (Or.inr hout), Nat.le_refl 0⟩
          | cons e rest =>
              have he : e ∈ out v := by
                rw [hout]
                exact List.mem_cons_self
              have hstart : IsWalk out far (far e) [] := trivial
              obtain ⟨es', hes', -⟩ := ih hstart (Nat.zero_le n)
              exact ⟨e :: es', maximal_cons.mpr ⟨he, hes'⟩, Nat.zero_le _⟩
      | cons e es =>
          obtain ⟨he, hwalk⟩ := h
          rw [List.length_cons] at hle
          obtain ⟨es', hes', hlength⟩ := ih hwalk (by omega)
          refine ⟨e :: es', maximal_cons.mpr ⟨he, hes'⟩, ?_⟩
          rw [List.length_cons, List.length_cons]
          omega

/-- **Only the edges in reach matter.** -/
theorem maximal_congr {out' : V → List E}
    (h : ∀ es, IsWalk out far v es → es.length < n →
      ∀ e, e ∈ out' (endpoint far v es) ↔ e ∈ out (endpoint far v es)) :
    Maximal out' far n v es ↔ Maximal out far n v es := by
  induction n generalizing v es with
  | zero =>
      cases es with
      | nil => exact iff_of_true (maximal_nil.mpr (Or.inl rfl)) (maximal_nil.mpr (Or.inl rfl))
      | cons e es =>
          refine iff_of_false (fun hmax => ?_) (fun hmax => ?_)
          · exact absurd hmax.length_le (Nat.not_succ_le_zero _)
          · exact absurd hmax.length_le (Nat.not_succ_le_zero _)
  | succ n ih =>
      have hhere : ∀ e, e ∈ out' v ↔ e ∈ out v := h [] trivial (Nat.succ_pos n)
      cases es with
      | nil =>
          rw [maximal_nil, maximal_nil]
          have hnil : out' v = [] ↔ out v = [] := by
            rw [List.eq_nil_iff_forall_not_mem, List.eq_nil_iff_forall_not_mem]
            exact forall_congr' fun e => not_congr (hhere e)
          rw [hnil]
      | cons e es =>
          rw [maximal_cons, maximal_cons, hhere e]
          refine and_congr_right fun he => ih fun es' hes' hlt => ?_
          refine h (e :: es') ⟨he, hes'⟩ ?_
          rw [List.length_cons]
          omega

end Walks
