import Mathlib.Data.List.Basic

/-! # Partial transition systems and their runs

A system is a step function `step : σ → α → Option σ`: in state `s` the label `a` is either
refused (`none`: the step is not enabled, for instance because it has to wait) or leads to
one next state.  `run step s as` executes a schedule `as`, a list of labels in the order in
which they take effect, and fails as soon as one of them is refused.

`run_invariant` carries a predicate along every run, and `run_prefix` splits a run at any point
of its schedule.  `Along` says that a property holds of every label of a schedule in the state
in which it takes effect; `Along.run_invariant` carries a predicate along the runs of which it
holds.  `Throughout` says that a predicate holds of every state a schedule passes through, and
`throughout_iff_along` turns a law of all these states into a condition on the single steps.
`Between` relates every state a schedule passes through to the later ones; `between_iff_along` is
its rule for a preorder. -/

namespace TransitionSystem

variable {σ α : Type*}

/-- Execute a schedule. -/
def run (step : σ → α → Option σ) : σ → List α → Option σ
  | s, [] => some s
  | s, a :: as => (step s a).bind fun s' => run step s' as

variable {step : σ → α → Option σ}

@[simp] theorem run_nil (s : σ) : run step s [] = some s := rfl

@[simp] theorem run_cons (s : σ) (a : α) (as : List α) :
    run step s (a :: as) = (step s a).bind fun s' => run step s' as := rfl

theorem run_append (s : σ) (as bs : List α) :
    run step s (as ++ bs) = (run step s as).bind fun s' => run step s' bs := by
  induction as generalizing s with
  | nil => rfl
  | cons a as ih =>
      simp only [List.cons_append, run_cons]
      cases step s a with
      | none => rfl
      | some s' => exact ih s'

/-- A non-empty run is a step followed by a run. -/
theorem run_cons_eq_some {s s'' : σ} {a : α} {as : List α} :
    run step s (a :: as) = some s'' ↔ ∃ s', step s a = some s' ∧ run step s' as = some s'' := by
  simp [Option.bind_eq_some_iff]

/-- A run over a concatenation passes through a state between the two parts. -/
theorem run_prefix {s s'' : σ} {as bs : List α} (h : run step s (as ++ bs) = some s'') :
    ∃ s', run step s as = some s' ∧ run step s' bs = some s'' := by
  rw [run_append, Option.bind_eq_some_iff] at h
  exact h

/-- **Invariant rule**: what every step preserves holds after every run. -/
theorem run_invariant {Inv : σ → Prop}
    (hstep : ∀ s a s', Inv s → step s a = some s' → Inv s') {s s' : σ} {as : List α}
    (hs : Inv s) (h : run step s as = some s') : Inv s' := by
  induction as generalizing s with
  | nil =>
      obtain rfl := Option.some.inj h
      exact hs
  | cons a as ih =>
      obtain ⟨s₁, h₁, h₂⟩ := run_cons_eq_some.mp h
      exact ih (hstep s a s₁ hs h₁) h₂

/-! ### Properties of all steps -/

/-- `P` holds of every label of a schedule, in the state in which it takes effect. -/
def Along (step : σ → α → Option σ) (P : σ → α → Prop) (s : σ) (as : List α) : Prop :=
  ∀ pre a post s', as = pre ++ a :: post → run step s pre = some s' → P s' a

theorem along_nil {P : σ → α → Prop} {s : σ} : Along step P s [] := by
  intro pre a post s' heq
  simp at heq

theorem along_cons {P : σ → α → Prop} {s : σ} {a : α} {as : List α} :
    Along step P s (a :: as) ↔ P s a ∧ ∀ s', step s a = some s' → Along step P s' as := by
  constructor
  · intro h
    refine ⟨h [] a as s rfl rfl, fun s' hstep pre b post s'' heq hrun => ?_⟩
    exact h (a :: pre) b post s'' (by rw [heq, List.cons_append])
      (run_cons_eq_some.mpr ⟨s', hstep, hrun⟩)
  · rintro ⟨hhead, htail⟩ pre b post s'' heq hrun
    cases pre with
    | nil =>
        obtain ⟨rfl, -⟩ := List.cons.inj heq
        obtain rfl := Option.some.inj hrun
        exact hhead
    | cons a' pre =>
        obtain ⟨rfl, htl⟩ := List.cons.inj heq
        obtain ⟨s', hstep, hrun⟩ := run_cons_eq_some.mp hrun
        exact htail s' hstep pre b post s'' htl hrun

theorem Along.of_append {P : σ → α → Prop} {s : σ} {as bs : List α}
    (h : Along step P s (as ++ bs)) : Along step P s as := by
  intro pre a post s' heq hrun
  exact h pre a (post ++ bs) s' (by rw [heq, List.append_assoc, List.cons_append]) hrun

/-- **Invariant rule for a given run**: what the steps of the run preserve holds after it. -/
theorem Along.run_invariant {Inv : σ → Prop} {P : σ → α → Prop}
    (hstep : ∀ s a s', Inv s → P s a → step s a = some s' → Inv s') {s s' : σ} {as : List α}
    (halong : Along step P s as) (hs : Inv s) (h : run step s as = some s') : Inv s' := by
  induction as generalizing s with
  | nil =>
      obtain rfl := Option.some.inj h
      exact hs
  | cons a as ih =>
      obtain ⟨hhead, htail⟩ := along_cons.mp halong
      obtain ⟨s₁, h₁, h₂⟩ := run_cons_eq_some.mp h
      exact ih (htail s₁ h₁) (hstep s a s₁ hs hhead h₁) h₂

/-- What holds of every label in every state holds along every run. -/
theorem along_of_forall {P : σ → α → Prop} (h : ∀ s a, P s a) (s : σ) (as : List α) :
    Along step P s as :=
  fun _ a _ s' _ _ => h s' a

/-- What is true of the labels of a run is true along it. -/
theorem along_of_mem {P : α → Prop} {as : List α} (h : ∀ a ∈ as, P a) (s : σ) :
    Along step (fun _ a => P a) s as :=
  fun pre a _ _ heq _ => h a (heq ▸ List.mem_append_right pre List.mem_cons_self)

/-- Properties that agree wherever `R` holds agree along a run of which `R` holds. -/
theorem along_congr {P Q R : σ → α → Prop} {s : σ} {as : List α} (hR : Along step R s as)
    (h : ∀ s a, R s a → (P s a ↔ Q s a)) : Along step P s as ↔ Along step Q s as :=
  ⟨fun hP pre a post s' heq hrun =>
      (h s' a (hR pre a post s' heq hrun)).mp (hP pre a post s' heq hrun),
    fun hQ pre a post s' heq hrun =>
      (h s' a (hR pre a post s' heq hrun)).mpr (hQ pre a post s' heq hrun)⟩

/-- Properties that agree at every step agree along every run. -/
theorem along_iff {P Q : σ → α → Prop} {s : σ} {as : List α} (h : ∀ s a, P s a ↔ Q s a) :
    Along step P s as ↔ Along step Q s as :=
  along_congr (along_of_forall (P := fun _ _ => True) (fun _ _ => trivial) s as) fun s a _ => h s a

/-- Two properties along a run are one. -/
theorem along_and {P Q : σ → α → Prop} {s : σ} {as : List α} :
    Along step P s as ∧ Along step Q s as ↔ Along step (fun s a => P s a ∧ Q s a) s as :=
  ⟨fun h pre a post s' heq hrun => ⟨h.1 pre a post s' heq hrun, h.2 pre a post s' heq hrun⟩,
    fun h => ⟨fun pre a post s' heq hrun => (h pre a post s' heq hrun).1,
      fun pre a post s' heq hrun => (h pre a post s' heq hrun).2⟩⟩

/-! ### Laws of all states -/

/-- `P` holds of every state that a schedule passes through. -/
def Throughout (step : σ → α → Option σ) (P : σ → Prop) (s : σ) (as : List α) : Prop :=
  ∀ pre post s', as = pre ++ post → run step s pre = some s' → P s'

theorem throughout_nil {P : σ → Prop} {s : σ} : Throughout step P s [] ↔ P s := by
  constructor
  · intro h
    exact h [] [] s rfl rfl
  · intro h pre post s' heq hrun
    obtain ⟨rfl, -⟩ := List.append_eq_nil_iff.mp heq.symm
    obtain rfl := Option.some.inj hrun
    exact h

theorem throughout_cons {P : σ → Prop} {s : σ} {a : α} {as : List α} :
    Throughout step P s (a :: as) ↔ P s ∧ ∀ s', step s a = some s' → Throughout step P s' as := by
  constructor
  · intro h
    refine ⟨h [] (a :: as) s rfl rfl, fun s' hstep pre post s'' heq hrun => ?_⟩
    exact h (a :: pre) post s'' (by rw [heq, List.cons_append])
      (run_cons_eq_some.mpr ⟨s', hstep, hrun⟩)
  · rintro ⟨hhead, htail⟩ pre post s'' heq hrun
    cases pre with
    | nil =>
        obtain rfl := Option.some.inj hrun
        exact hhead
    | cons a' pre =>
        obtain ⟨rfl, htl⟩ := List.cons.inj heq
        obtain ⟨s', hstep, hrun⟩ := run_cons_eq_some.mp hrun
        exact htail s' hstep pre post s'' htl hrun

theorem Throughout.head {P : σ → Prop} {s : σ} {as : List α} (h : Throughout step P s as) : P s :=
  h [] as s rfl rfl

/-- What every step preserves holds of every state. -/
theorem throughout_of_step {Inv : σ → Prop}
    (hstep : ∀ s a s', Inv s → step s a = some s' → Inv s') {s : σ} (hs : Inv s) (as : List α) :
    Throughout step Inv s as :=
  fun _ _ _ _ hrun => run_invariant hstep hs hrun

/-- What the steps of a run preserve holds of every state that the run passes through. -/
theorem Along.throughout {Inv : σ → Prop} {P : σ → α → Prop}
    (hstep : ∀ s a s', Inv s → P s a → step s a = some s' → Inv s') {s : σ} {as : List α}
    (halong : Along step P s as) (hs : Inv s) : Throughout step Inv s as := by
  intro pre post s' heq hrun
  rw [heq] at halong
  exact halong.of_append.run_invariant hstep hs hrun

/-- **Exactness rule**: where steps are never refused, a law holds of every state of a run if
and only if every step of the run meets the condition under which that step keeps the law. -/
theorem throughout_iff_along {Inv Law : σ → Prop} {P : σ → α → Prop}
    (htotal : ∀ s a, (step s a).isSome)
    (hinv : ∀ s a s', Inv s → step s a = some s' → Inv s')
    (hlaw : ∀ s a s', Inv s → Law s → step s a = some s' → (Law s' ↔ P s a)) {s : σ}
    (hs : Inv s) (hl : Law s) (as : List α) : Throughout step Law s as ↔ Along step P s as := by
  induction as generalizing s with
  | nil => exact iff_of_true (throughout_nil.mpr hl) along_nil
  | cons a as ih =>
      obtain ⟨s', hstep⟩ := Option.isSome_iff_exists.mp (htotal s a)
      have hiff := hlaw s a s' hs hl hstep
      have hs' := hinv s a s' hs hstep
      rw [throughout_cons, along_cons]
      constructor
      · rintro ⟨-, htail⟩
        have hl' := (htail s' hstep).head
        refine ⟨hiff.mp hl', fun s'' hstep' => ?_⟩
        obtain rfl := Option.some.inj (hstep.symm.trans hstep')
        exact (ih hs' hl').mp (htail _ hstep)
      · rintro ⟨hhead, htail⟩
        refine ⟨hl, fun s'' hstep' => ?_⟩
        obtain rfl := Option.some.inj (hstep.symm.trans hstep')
        exact (ih hs' (hiff.mpr hhead)).mpr (htail _ hstep)

/-- The exactness rule for a law that needs no further invariant. -/
theorem throughout_iff_along_of_step {Law : σ → Prop} {P : σ → α → Prop}
    (htotal : ∀ s a, (step s a).isSome)
    (hlaw : ∀ s a s', Law s → step s a = some s' → (Law s' ↔ P s a)) {s : σ} (hl : Law s)
    (as : List α) : Throughout step Law s as ↔ Along step P s as :=
  throughout_iff_along htotal (fun _ _ _ h _ => h) (fun s a s' (_ : True) => hlaw s a s') trivial
    hl as

/-! ### Laws of two states -/

/-- `R` relates every state that a schedule passes through to every later one. -/
def Between (step : σ → α → Option σ) (R : σ → σ → Prop) (s : σ) (as : List α) : Prop :=
  ∀ pre mid post s₁ s₂, as = pre ++ (mid ++ post) → run step s pre = some s₁ →
    run step s₁ mid = some s₂ → R s₁ s₂

/-- The step at a label is in the relation. -/
def Steps (step : σ → α → Option σ) (R : σ → σ → Prop) (s : σ) (a : α) : Prop :=
  ∀ s', step s a = some s' → R s s'

/-- What relates the two sides of every step relates the two ends of a run. -/
theorem Along.run_rel {R : σ → σ → Prop} (hrefl : ∀ s, R s s)
    (htrans : ∀ s₁ s₂ s₃, R s₁ s₂ → R s₂ s₃ → R s₁ s₃) {s s' : σ} {as : List α}
    (halong : Along step (Steps step R) s as) (h : run step s as = some s') : R s s' := by
  induction as generalizing s with
  | nil =>
      obtain rfl := Option.some.inj h
      exact hrefl s
  | cons a as ih =>
      obtain ⟨hhead, htail⟩ := along_cons.mp halong
      obtain ⟨s₁, h₁, h₂⟩ := run_cons_eq_some.mp h
      exact htrans s s₁ s' (hhead s₁ h₁) (ih (htail s₁ h₁) h₂)

/-- What holds along a run holds along its rest. -/
theorem Along.of_run {P : σ → α → Prop} {s s' : σ} {as bs : List α}
    (h : Along step P s (as ++ bs)) (hrun : run step s as = some s') : Along step P s' bs := by
  intro pre a post s'' heq hpre
  refine h (as ++ pre) a post s'' (by rw [heq, List.append_assoc]) ?_
  rw [run_append, hrun]
  exact hpre

/-- **The rule of preorders**: a preorder relates all states of a run, the earlier to the later, if
and only if it relates the two sides of every step. -/
theorem between_iff_along {R : σ → σ → Prop} (hrefl : ∀ s, R s s)
    (htrans : ∀ s₁ s₂ s₃, R s₁ s₂ → R s₂ s₃ → R s₁ s₃) {s : σ} {as : List α} :
    Between step R s as ↔ Along step (Steps step R) s as := by
  constructor
  · intro h pre a post s₁ heq hrun s₂ hstep
    exact h pre [a] post s₁ s₂ heq hrun (run_cons_eq_some.mpr ⟨s₂, hstep, rfl⟩)
  · intro h pre mid post s₁ s₂ heq hrun hmid
    have hrest : Along step (Steps step R) s₁ (mid ++ post) := Along.of_run (heq ▸ h) hrun
    exact hrest.of_append.run_rel hrefl htrans hmid

/-- **The rule of preorders under an invariant**: where steps are never refused and a step keeps
the invariant and the preorder if and only if it meets a condition, so does a run. -/
theorem throughout_between_iff_along {Inv : σ → Prop} {R : σ → σ → Prop} {P : σ → α → Prop}
    (htotal : ∀ s a, (step s a).isSome) (hrefl : ∀ s, R s s)
    (htrans : ∀ s₁ s₂ s₃, R s₁ s₂ → R s₂ s₃ → R s₁ s₃)
    (hstep : ∀ s a s', Inv s → step s a = some s' → (Inv s' ∧ R s s' ↔ P s a)) {s : σ}
    (hs : Inv s) (as : List α) :
    Throughout step Inv s as ∧ Between step R s as ↔ Along step P s as := by
  constructor
  · rintro ⟨hinv, hrel⟩ pre a post s₁ heq hrun
    obtain ⟨s₂, h₂⟩ := Option.isSome_iff_exists.mp (htotal s₁ a)
    have hone : run step s₁ [a] = some s₂ := run_cons_eq_some.mpr ⟨s₂, h₂, rfl⟩
    have hafter : run step s (pre ++ [a]) = some s₂ := by
      rw [run_append, hrun]
      exact hone
    have hinv₁ : Inv s₁ := hinv pre (a :: post) s₁ heq hrun
    have hinv₂ : Inv s₂ := hinv (pre ++ [a]) post s₂ (by rw [heq, List.append_assoc]; rfl) hafter
    exact (hstep s₁ a s₂ hinv₁ h₂).mp ⟨hinv₂, hrel pre [a] post s₁ s₂ heq hrun hone⟩
  · intro h
    have hsteps : Along step (Steps step fun s s' => Inv s → Inv s' ∧ R s s') s as :=
      fun pre a post s₁ heq hrun s₂ h₂ hinv₁ =>
        (hstep s₁ a s₂ hinv₁ h₂).mpr (h pre a post s₁ heq hrun)
    have hbetween := (between_iff_along (fun s hinv => ⟨hinv, hrefl s⟩)
      (fun s₁ s₂ s₃ h₁ h₂ hinv => by
        obtain ⟨hinv₂, hrel₁⟩ := h₁ hinv
        obtain ⟨hinv₃, hrel₂⟩ := h₂ hinv₂
        exact ⟨hinv₃, htrans s₁ s₂ s₃ hrel₁ hrel₂⟩)).mpr hsteps
    have hinv : Throughout step Inv s as := fun pre post s' heq hrun =>
      (hbetween [] pre post s s' heq rfl hrun hs).1
    refine ⟨hinv, fun pre mid post s₁ s₂ heq hrun hmid => ?_⟩
    exact (hbetween pre mid post s₁ s₂ heq hrun hmid (hinv pre (mid ++ post) s₁ heq hrun)).2

end TransitionSystem
