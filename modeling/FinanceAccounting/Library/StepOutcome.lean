import Mathlib.Data.List.TakeWhile
import FinanceAccounting.Library.UnitOfWork

/-! # Outcomes of steps

Code that takes several steps in one session ends at the first step that raises.  A step keeps
the tables, adds a row to them, is refused, or is undone together with the whole transaction by
a rollback.  `Tracks` says that a computation ends as the outcomes of its steps say, and is
composed along the computation (`Tracks.andThen`).  From the outcomes alone it is known whether
the computation completes (`Tracks.completes_iff`) and whether it leaves nothing behind when it
raises (`Tracks.unwritten_iff`). -/

namespace UnitOfWork

inductive StepOutcome where
  | kept
  | added
  | refused
  | undone
deriving DecidableEq, Repr

namespace StepOutcome

def accepted : StepOutcome → Bool
  | kept | added => true
  | refused | undone => false

/-- The outcome of the step that raises. -/
def firstRaised (os : List StepOutcome) : Option StepOutcome := os.find? fun o => !o.accepted

/-- The number of rows that are added before a step raises. -/
def additions (os : List StepOutcome) : ℕ := (os.takeWhile accepted).count added

theorem firstRaised_append (os₁ os₂ : List StepOutcome) :
    firstRaised (os₁ ++ os₂) = (firstRaised os₁).or (firstRaised os₂) := List.find?_append

theorem firstRaised_eq_none {os : List StepOutcome} :
    firstRaised os = none ↔ ∀ o ∈ os, o.accepted = true := by
  unfold firstRaised
  rw [List.find?_eq_none]
  simp

theorem not_accepted_of_firstRaised {os : List StepOutcome} {o : StepOutcome}
    (h : firstRaised os = some o) : o.accepted = false := by
  simpa using List.find?_some h

/-- When no step raises, what follows adds to what was added. -/
theorem additions_append_of_none {os₁ os₂ : List StepOutcome} (h : firstRaised os₁ = none) :
    additions (os₁ ++ os₂) = additions os₁ + additions os₂ := by
  have hall := firstRaised_eq_none.mp h
  unfold additions
  rw [List.takeWhile_append_of_pos hall, List.count_append, List.takeWhile_eq_self_iff.mpr hall]

/-- After a step that raises nothing is added. -/
theorem additions_append_of_some {os₁ : List StepOutcome} {o : StepOutcome}
    (h : firstRaised os₁ = some o) (os₂ : List StepOutcome) :
    additions (os₁ ++ os₂) = additions os₁ := by
  unfold additions
  have hne : ¬ (os₁.takeWhile accepted).length = os₁.length := by
    intro hlen
    have hself := (List.takeWhile_prefix accepted).eq_of_length hlen
    rw [firstRaised_eq_none.mpr (List.takeWhile_eq_self_iff.mp hself)] at h
    cases h
  rw [List.takeWhile_append, if_neg hne]

end StepOutcome

open StepOutcome

variable {σ : Type*} {size : σ → ℕ}

/-- From one session to another rows have been added. -/
structure Grown (size : σ → ℕ) (n : ℕ) (s s' : Session σ) : Prop where
  committed : s'.committed = s.committed
  size_eq : size s'.current = size s.current + n
  current : n = 0 → s'.current = s.current

theorem Grown.refl (s : Session σ) : Grown size 0 s s := ⟨rfl, rfl, fun _ => rfl⟩

theorem Grown.trans {n m : ℕ} {s₀ s₁ s₂ : Session σ} (h₁ : Grown size n s₀ s₁)
    (h₂ : Grown size m s₁ s₂) : Grown size (n + m) s₀ s₂ where
  committed := h₂.committed.trans h₁.committed
  size_eq := by rw [h₂.size_eq, h₁.size_eq, Nat.add_assoc]
  current h := (h₂.current (by omega)).trans (h₁.current (by omega))

/-- A computation ends as the outcomes of its steps say. -/
structure Tracks {ε α : Type*} (size : σ → ℕ) (os : List StepOutcome) (s : Session σ)
    (r : Result ε σ α) : Prop where
  completes : firstRaised os = none → ∃ a, r.1 = .ok a
  raises : firstRaised os ≠ none → ∃ e, r.1 = .error e
  rolledBack : firstRaised os = some .undone → r.2.current = s.committed
  grown : firstRaised os ≠ some .undone → Grown size (additions os) s r.2

section Steps

variable {ε α β : Type*} {s s' : Session σ} {a : α} {e : ε}

theorem Tracks.nil : Tracks size [] s ((.ok a, s) : Result ε σ α) where
  completes _ := ⟨a, rfl⟩
  raises h := absurd rfl h
  rolledBack h := by cases h
  grown _ := Grown.refl s

theorem Tracks.kept : Tracks size [.kept] s ((.ok a, s) : Result ε σ α) where
  completes _ := ⟨a, rfl⟩
  raises h := absurd rfl h
  rolledBack h := by cases h
  grown _ := Grown.refl s

theorem Tracks.added {tables : σ} (h : size tables = size s.current + 1) :
    Tracks size [.added] s ((.ok a, s.flush tables) : Result ε σ α) where
  completes _ := ⟨a, rfl⟩
  raises h := absurd rfl h
  rolledBack h := by cases h
  grown _ := ⟨rfl, h, fun h => by cases h⟩

theorem Tracks.refused : Tracks size [.refused] s ((.error e, s) : Result ε σ α) where
  completes h := by cases h
  raises _ := ⟨e, rfl⟩
  rolledBack h := by cases h
  grown _ := Grown.refl s

theorem Tracks.undone : Tracks size [.undone] s ((.error e, s.rollback) : Result ε σ α) where
  completes h := by cases h
  raises _ := ⟨e, rfl⟩
  rolledBack _ := rfl
  grown h := absurd rfl h

/-- **Composition**: the outcomes of a computation are those of its parts. -/
theorem Tracks.andThen {os₁ os₂ : List StepOutcome} {r : Result ε σ α}
    {k : α → Session σ → Result ε σ β} (h₁ : Tracks size os₁ s r)
    (h₂ : ∀ a s', r = (.ok a, s') → Tracks size os₂ s' (k a s')) :
    Tracks size (os₁ ++ os₂) s (r.andThen k) := by
  obtain ⟨v, s'⟩ := r
  cases hfirst : firstRaised os₁ with
  | none =>
      obtain ⟨a, rfl⟩ := h₁.completes hfirst
      have hrest := h₂ a s' rfl
      have hgrown : Grown size (additions os₁) s s' := h₁.grown (by rw [hfirst]; simp)
      rw [Result.ok_andThen]
      refine ⟨?_, ?_, ?_, ?_⟩ <;> rw [firstRaised_append, hfirst, Option.none_or]
      · exact hrest.completes
      · exact hrest.raises
      · intro h
        rw [hrest.rolledBack h, hgrown.committed]
      · intro h
        rw [additions_append_of_none hfirst]
        exact hgrown.trans (hrest.grown h)
  | some o =>
      obtain ⟨e, rfl⟩ := h₁.raises (by rw [hfirst]; simp)
      rw [Result.error_andThen]
      refine ⟨?_, ?_, ?_, ?_⟩ <;> rw [firstRaised_append, hfirst, Option.some_or]
      · intro h
        cases h
      · exact fun _ => ⟨e, rfl⟩
      · intro h
        exact h₁.rolledBack (hfirst.trans h)
      · intro h
        rw [additions_append_of_some hfirst]
        exact h₁.grown (hfirst ▸ h)

/-- A step that keeps the tables, before others. -/
theorem Tracks.keep {os : List StepOutcome} {r : Result ε σ α} (h : Tracks size os s r) :
    Tracks size (.kept :: os) s r := by
  have hstep : Tracks size [.kept] s ((.ok (), s) : Result ε σ Unit) := Tracks.kept
  refine hstep.andThen (k := fun _ _ => r) fun _ s' heq => ?_
  obtain rfl := (Prod.mk.inj heq).2
  exact h

/-- A step that adds a row, before others. -/
theorem Tracks.add {os : List StepOutcome} {tables : σ} {r : Result ε σ α}
    (hsize : size tables = size s.current + 1) (h : Tracks size os (s.flush tables) r) :
    Tracks size (.added :: os) s r := by
  have hstep : Tracks size [.added] s ((.ok (), s.flush tables) : Result ε σ Unit) :=
    Tracks.added hsize
  refine hstep.andThen (k := fun _ _ => r) fun _ s' heq => ?_
  obtain rfl := (Prod.mk.inj heq).2
  exact h

/-- After a step that is refused there are no others. -/
theorem Tracks.refuse (os : List StepOutcome) :
    Tracks size (.refused :: os) s ((.error e, s) : Result ε σ α) := by
  have hstep : Tracks size [.refused] s ((.error e, s) : Result ε σ α) := Tracks.refused
  refine hstep.andThen (k := fun a s => (.ok a, s)) fun _ s' heq => ?_
  cases heq

/-- A value computed from the value of the steps changes nothing. -/
theorem Tracks.map {os : List StepOutcome} {r : Result ε σ α} (h : Tracks size os s r)
    (f : α → β) : Tracks size os s (r.andThen fun a s => (.ok (f a), s)) := by
  have hthen := h.andThen (k := fun a s => (.ok (f a), s)) fun a s' _ => Tracks.nil
  rwa [List.append_nil] at hthen

/-- **A computation completes** exactly when no step raises. -/
theorem Tracks.completes_iff {os : List StepOutcome} {r : Result ε σ α}
    (h : Tracks size os s r) : (∃ a s', r = (.ok a, s')) ↔ firstRaised os = none := by
  constructor
  · rintro ⟨a, s', rfl⟩
    by_contra hraised
    obtain ⟨e, he⟩ := h.raises hraised
    cases he
  · intro hnone
    obtain ⟨a, ha⟩ := h.completes hnone
    exact ⟨a, r.2, Prod.ext ha rfl⟩

/-- **A computation that raises leaves nothing behind** exactly when it is undone or the step
that raises comes before any addition. -/
theorem Tracks.unwritten_iff {os : List StepOutcome} {r : Result ε σ α} (h : Tracks size os s r)
    (hsize : size s.committed ≤ size s.current) :
    (∀ e s', r = (.error e, s') → s'.current = s.current ∨ s'.current = s.committed) ↔
      (firstRaised os = some .refused → additions os = 0) := by
  constructor
  · intro hclean hrefused
    obtain ⟨e, he⟩ := h.raises (by rw [hrefused]; simp)
    have hgrown := h.grown (by rw [hrefused]; simp)
    have hsame : size r.2.current ≤ size s.current := by
      rcases hclean e r.2 (Prod.ext he rfl) with heq | heq
      · rw [heq]
      · rw [heq]
        exact hsize
    have hsum := hgrown.size_eq
    omega
  · rintro hzero e s' rfl
    cases hfirst : firstRaised os with
    | none =>
        obtain ⟨a, ha⟩ := h.completes hfirst
        cases ha
    | some o =>
        cases o with
        | kept => cases not_accepted_of_firstRaised hfirst
        | added => cases not_accepted_of_firstRaised hfirst
        | refused => exact Or.inl ((h.grown (by rw [hfirst]; simp)).current (hzero hfirst))
        | undone => exact Or.inr (h.rolledBack hfirst)

end Steps

end UnitOfWork
