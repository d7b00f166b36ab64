import Mathlib.Data.List.Forall2

/-! # Computations that may fail

A sequence of computations in `Except` succeeds when each of them does.  `bind_eq_ok` takes two
apart, and `mapM_eq_ok_iff` a traversal of a list; what holds of the results is then read off
element by element. -/

namespace Traversals

variable {ε α β : Type}

/-- A computation in two parts is a success when both are. -/
theorem bind_eq_ok {x : Except ε α} {f : α → Except ε β} {y : β} :
    (x >>= f) = .ok y ↔ ∃ a, x = .ok a ∧ f a = .ok y := by
  cases x with
  | error e => simp [bind, Except.bind]
  | ok a => simp [bind, Except.bind]

/-- What is read off a result is read off a success. -/
theorem map_eq_ok {x : Except ε α} {f : α → β} {y : β} :
    x.map f = .ok y ↔ ∃ a, x = .ok a ∧ f a = y := by
  cases x with
  | error e => simp [Except.map]
  | ok a => simp [Except.map]

/-- A value that is returned under a condition. -/
theorem ite_eq_ok {c : Prop} [Decidable c] {a y : α} {e : ε} :
    (if c then (.ok a : Except ε α) else .error e) = .ok y ↔ c ∧ y = a := by
  by_cases hc : c
  · rw [if_pos hc]
    exact ⟨fun h => ⟨hc, (Except.ok.inj h).symm⟩, fun h => h.2 ▸ rfl⟩
  · rw [if_neg hc]
    constructor
    · intro h
      cases h
    · exact fun h => absurd h.1 hc

theorem exists_of_map_toOption {f : α → β} {x : Except ε α} {b : β}
    (h : x.toOption.map f = some b) : ∃ a, x = .ok a ∧ f a = b := by
  cases x with
  | error e => cases h
  | ok a => exact ⟨a, rfl, Option.some.inj h⟩

/-- Related lists have related elements. -/
theorem mem_of_forall₂ {R : α → β → Prop} {xs : List α} {ys : List β} (h : List.Forall₂ R xs ys) :
    (∀ x ∈ xs, ∃ y ∈ ys, R x y) ∧ ∀ y ∈ ys, ∃ x ∈ xs, R x y := by
  induction h with
  | nil => simp
  | @cons x y xs ys hxy _ ih =>
      constructor
      · intro z hz
        rcases List.mem_cons.mp hz with rfl | hz
        · exact ⟨y, List.mem_cons_self, hxy⟩
        · obtain ⟨w, hw, hzw⟩ := ih.1 z hz
          exact ⟨w, List.mem_cons_of_mem y hw, hzw⟩
      · intro w hw
        rcases List.mem_cons.mp hw with rfl | hw
        · exact ⟨x, List.mem_cons_self, hxy⟩
        · obtain ⟨z, hz, hzw⟩ := ih.2 w hw
          exact ⟨z, List.mem_cons_of_mem x hz, hzw⟩

theorem forall₂_append_left_iff {R : α → β → Prop} {xs xs' : List α} {zs : List β} :
    List.Forall₂ R (xs ++ xs') zs ↔
      ∃ ys ys', List.Forall₂ R xs ys ∧ List.Forall₂ R xs' ys' ∧ zs = ys ++ ys' := by
  constructor
  · intro h
    induction xs generalizing zs with
    | nil => exact ⟨[], zs, .nil, h, rfl⟩
    | cons x xs ih =>
        obtain ⟨y, rest, hxy, hrest, rfl⟩ := List.forall₂_cons_left_iff.1 h
        obtain ⟨ys, ys', hys, hys', rfl⟩ := ih hrest
        exact ⟨y :: ys, ys', .cons hxy hys, hys', rfl⟩
  · rintro ⟨ys, ys', h, h', rfl⟩
    exact List.rel_append h h'

theorem exists_forall₂ {R : α → β → Prop} {xs : List α} (h : ∀ x ∈ xs, ∃ y, R x y) :
    ∃ ys, List.Forall₂ R xs ys := by
  induction xs with
  | nil => exact ⟨[], .nil⟩
  | cons x xs ih =>
      obtain ⟨y, hy⟩ := h x List.mem_cons_self
      obtain ⟨ys, hys⟩ := ih fun z hz => h z (List.mem_cons_of_mem x hz)
      exact ⟨y :: ys, .cons hy hys⟩

theorem forall₂_singleton_iff {R : α → β → Prop} {x : α} {ys : List β} :
    List.Forall₂ R [x] ys ↔ ∃ y, R x y ∧ ys = [y] := by
  rw [List.forall₂_cons_left_iff]
  constructor
  · rintro ⟨y, rest, hy, hrest, rfl⟩
    rw [List.forall₂_nil_left_iff.1 hrest]
    exact ⟨y, hy, rfl⟩
  · rintro ⟨y, hy, rfl⟩
    exact ⟨y, [], hy, .nil, rfl⟩

/-- A list of one result. -/
theorem singleton_eq_ok {x : Except ε α} {ys : List α} :
    x.map ([·]) = .ok ys ↔ ∃ y, x = .ok y ∧ ys = [y] := by
  rw [map_eq_ok]
  exact ⟨fun ⟨y, hy, h⟩ => ⟨y, hy, h.symm⟩, fun ⟨y, hy, h⟩ => ⟨y, hy, h.symm⟩⟩

section MapM

variable {f : α → Except ε β} {xs : List α} {ys : List β}

/-- **A traversal is a success** when it is one for every element. -/
theorem mapM_eq_ok_iff : xs.mapM f = .ok ys ↔ List.Forall₂ (fun x y => f x = .ok y) xs ys := by
  induction xs generalizing ys with
  | nil =>
      rw [List.mapM_nil, List.forall₂_nil_left_iff]
      exact ⟨fun h => (Except.ok.inj h).symm, fun h => h ▸ rfl⟩
  | cons x xs ih =>
      rw [List.mapM_cons, bind_eq_ok, List.forall₂_cons_left_iff]
      constructor
      · rintro ⟨y, hy, h⟩
        obtain ⟨rest, hrest, h⟩ := bind_eq_ok.mp h
        obtain rfl := Except.ok.inj h
        exact ⟨y, rest, hy, ih.mp hrest, rfl⟩
      · rintro ⟨y, rest, hy, hrest, rfl⟩
        exact ⟨y, hy, bind_eq_ok.mpr ⟨rest, ih.mpr hrest, rfl⟩⟩

/-- The joined results of a traversal, an element at a time. -/
theorem flatten_mapM_cons {f : α → Except ε (List β)} {x : α} {zs : List β} :
    ((x :: xs).mapM f).map List.flatten = .ok zs ↔
      ∃ ys rest, f x = .ok ys ∧ (xs.mapM f).map List.flatten = .ok rest ∧ zs = ys ++ rest := by
  rw [map_eq_ok]
  constructor
  · rintro ⟨yss, hyss, rfl⟩
    obtain ⟨ys, rest, hys, hrest, rfl⟩ := List.forall₂_cons_left_iff.1 (mapM_eq_ok_iff.1 hyss)
    exact ⟨ys, rest.flatten, hys, map_eq_ok.2 ⟨rest, mapM_eq_ok_iff.2 hrest, rfl⟩, rfl⟩
  · rintro ⟨ys, rest, hys, hrest, rfl⟩
    obtain ⟨yss, hyss, rfl⟩ := map_eq_ok.1 hrest
    exact ⟨ys :: yss, mapM_eq_ok_iff.2 (.cons hys (mapM_eq_ok_iff.1 hyss)), rfl⟩

theorem mapM_of_forall {g : α → β} (h : ∀ x ∈ xs, f x = .ok (g x)) :
    xs.mapM f = .ok (xs.map g) := by
  refine mapM_eq_ok_iff.mpr ?_
  induction xs with
  | nil => exact .nil
  | cons x xs ih =>
      exact .cons (h x List.mem_cons_self) (ih fun y hy => h y (List.mem_cons_of_mem x hy))

/-- The elements and the results of a traversal. -/
theorem mem_of_mapM (h : xs.mapM f = .ok ys) :
    (∀ x ∈ xs, ∃ y ∈ ys, f x = .ok y) ∧ ∀ y ∈ ys, ∃ x ∈ xs, f x = .ok y :=
  mem_of_forall₂ (mapM_eq_ok_iff.mp h)

/-- The values of successes. -/
theorem forall₂_toOption (h : ∀ x ∈ xs, ∃ y, f x = .ok y) :
    List.Forall₂ (fun x y => f x = .ok y) xs ((xs.map f).filterMap (·.toOption)) := by
  induction xs with
  | nil => exact .nil
  | cons x xs ih =>
      obtain ⟨y, hy⟩ := h x List.mem_cons_self
      rw [List.map_cons, hy]
      exact .cons hy (ih fun z hz => h z (List.mem_cons_of_mem x hz))

theorem exists_mapM (h : ∀ x ∈ xs, ∃ y, f x = .ok y) : ∃ ys, xs.mapM f = .ok ys := by
  obtain ⟨ys, hys⟩ := exists_forall₂ h
  exact ⟨ys, mapM_eq_ok_iff.mpr hys⟩

/-- **A traversal fails** with the first element that does. -/
theorem mapM_eq_error_iff {e : ε} :
    xs.mapM f = .error e ↔ ∃ before x after, xs = before ++ x :: after ∧ f x = .error e ∧
      ∀ y ∈ before, ∃ z, f y = .ok z := by
  induction xs with
  | nil =>
      rw [List.mapM_nil]
      refine iff_of_false (fun h => (nomatch h)) ?_
      rintro ⟨before, x, after, h, -⟩
      cases before with
      | nil => cases h
      | cons _ _ => cases h
  | cons w xs ih =>
      rw [List.mapM_cons]
      cases hw : f w with
      | error e' =>
          constructor
          · intro h
            obtain rfl : e' = e := Except.error.inj h
            exact ⟨[], w, xs, rfl, hw, fun y hy => absurd hy List.not_mem_nil⟩
          · rintro ⟨before, x, after, h, hx, hbefore⟩
            cases before with
            | nil =>
                obtain ⟨rfl, -⟩ := List.cons.inj h
                exact congrArg _ (Except.error.inj (hw.symm.trans hx))
            | cons y before =>
                obtain ⟨rfl, -⟩ := List.cons.inj h
                obtain ⟨z, hz⟩ := hbefore w List.mem_cons_self
                rw [hw] at hz
                cases hz
      | ok z =>
          have hrest : ((Except.ok z : Except ε β) >>= fun y => xs.mapM f >>= fun ys =>
              pure (y :: ys)) = .error e ↔ xs.mapM f = .error e := by
            show (xs.mapM f >>= fun ys => pure (z :: ys)) = .error e ↔ _
            cases xs.mapM f with
            | error e' => exact ⟨fun h => congrArg _ (Except.error.inj h),
                fun h => congrArg _ (Except.error.inj h)⟩
            | ok ys => exact iff_of_false (fun h => (nomatch h)) fun h => (nomatch h)
          rw [hrest, ih]
          constructor
          · rintro ⟨before, x, after, rfl, hx, hbefore⟩
            exact ⟨w :: before, x, after, rfl, hx, List.forall_mem_cons.2 ⟨⟨z, hw⟩, hbefore⟩⟩
          · rintro ⟨before, x, after, h, hx, hbefore⟩
            cases before with
            | nil =>
                obtain ⟨rfl, -⟩ := List.cons.inj h
                rw [hw] at hx
                cases hx
            | cons y before =>
                obtain ⟨-, h⟩ := List.cons.inj h
                exact ⟨before, x, after, h, hx, fun v hv => hbefore v (List.mem_cons_of_mem y hv)⟩

end MapM

/-- A fold whose steps all succeed. -/
theorem foldlM_of_forall {f : β → α → Except ε β} {g : β → α → β} {xs : List α}
    (h : ∀ x ∈ xs, ∀ b, f b x = .ok (g b x)) (b : β) : xs.foldlM f b = .ok (xs.foldl g b) := by
  induction xs generalizing b with
  | nil => rfl
  | cons x xs ih =>
      rw [List.foldlM_cons, List.foldl_cons]
      exact bind_eq_ok.mpr ⟨_, h x List.mem_cons_self b,
        ih (fun y hy => h y (List.mem_cons_of_mem x hy)) _⟩

end Traversals
