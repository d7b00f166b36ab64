import Mathlib.Data.List.Basic

/-! # Paths through a lifecycle

A lifecycle is a list of transitions, each from a state to a state.  A list of transitions is a
path from a state when each of them is one of the lifecycle and starts where the one before it
ended.  `isPath_concat` says when a path goes on, and `exists_entering` that a path to another state
has entered it.  `split_concat` is about any list that goes on. -/

namespace Lifecycles

variable {T S : Type*} (source target : T → S) (transitions : List T)

/-- The transitions lead from the state through the lifecycle. -/
def IsPath : S → List T → Prop
  | _, [] => True
  | q, t :: ts => t ∈ transitions ∧ source t = q ∧ IsPath (target t) ts

/-- The state after some transitions. -/
def stateAfter (q : S) (ts : List T) : S := ts.foldl (fun _ t => target t) q

variable {source target transitions} {q : S} {t : T} {ts us : List T}

@[simp] theorem stateAfter_nil : stateAfter target q [] = q := rfl

@[simp] theorem stateAfter_concat : stateAfter target q (ts ++ [t]) = target t := by
  rw [stateAfter, List.foldl_append]
  rfl

/-- A path is in two parts, of which the second starts where the first ends. -/
theorem isPath_append : IsPath source target transitions q (ts ++ us) ↔
    IsPath source target transitions q ts ∧
      IsPath source target transitions (stateAfter target q ts) us := by
  induction ts generalizing q with
  | nil => exact ⟨fun h => ⟨trivial, h⟩, fun h => h.2⟩
  | cons t ts ih =>
      rw [List.cons_append, IsPath, IsPath, ih]
      exact ⟨fun ⟨hmem, hsource, hrest, hlast⟩ => ⟨⟨hmem, hsource, hrest⟩, hlast⟩,
        fun ⟨⟨hmem, hsource, hrest⟩, hlast⟩ => ⟨hmem, hsource, hrest, hlast⟩⟩

/-- A path goes on with a transition from the state that it has reached. -/
theorem isPath_concat : IsPath source target transitions q (ts ++ [t]) ↔
    IsPath source target transitions q ts ∧ t ∈ transitions ∧
      source t = stateAfter target q ts := by
  rw [isPath_append]
  simp only [IsPath, and_true]

/-- A path that has left its state for another has entered that one. -/
theorem exists_entering (hpath : IsPath source target transitions q ts)
    (hne : stateAfter target q ts ≠ q) :
    ∃ t ∈ ts, t ∈ transitions ∧ target t = stateAfter target q ts := by
  rcases List.eq_nil_or_concat ts with rfl | ⟨front, last, rfl⟩
  · exact absurd rfl hne
  · rw [List.concat_eq_append] at hpath ⊢
    obtain ⟨-, hmem, -⟩ := isPath_concat.mp hpath
    refine ⟨last, ?_, hmem, stateAfter_concat.symm⟩
    exact List.mem_append_right _ List.mem_cons_self

/-- A path starts in its state. -/
theorem source_of_head? {x : S} (hpath : IsPath source target transitions q ts)
    (h : (ts.map source).head? = some x) : x = q := by
  cases ts with
  | nil => cases h
  | cons t ts =>
      obtain ⟨-, hsource, -⟩ := hpath
      exact (Option.some.inj h).symm.trans hsource

/-- A split of a list with one more element is at that element or before it. -/
theorem split_concat {α : Type*} {xs : List α} {x y : α} {earlier later : List α}
    (heq : xs ++ [x] = earlier ++ y :: later) :
    (earlier = xs ∧ y = x) ∨ ∃ later', xs = earlier ++ y :: later' := by
  rcases List.eq_nil_or_concat later with rfl | ⟨front, last, rfl⟩
  · obtain ⟨hxs, hx⟩ := List.append_inj' heq rfl
    exact Or.inl ⟨hxs.symm, (List.singleton_inj.mp hx).symm⟩
  · right
    rw [List.concat_eq_append, ← List.cons_append, ← List.append_assoc] at heq
    exact ⟨front, (List.append_inj' heq rfl).1⟩

end Lifecycles
