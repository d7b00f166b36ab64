import Mathlib.Data.List.Dedup
import Mathlib.Logic.Relation

/-! # Depth-first traversal

A recursive traversal of a directed multigraph that records the vertices it enters and the edges it
crosses, each in the order of the visits.  A vertex that has been entered is left at once; calls
nest at most `fuel` deep.

What a finished traversal has entered is closed under the edges (`Explored`), so from an empty
trail it is what can be reached (`mem_visited_iff`), and the edges are those that leave it
(`mem_crossed_iff`).  With more fuel than there are vertices to enter, or on a walk without a
repetition, it finishes (`exists_visit`, `exists_visit_of_nests`). -/

namespace DepthFirst

open Relation (ReflTransGen)

variable {V E : Type} [DecidableEq V]

/-- What a traversal has seen. -/
structure Trail (V E : Type) where
  visited : List V
  crossed : List E

def Trail.enter (t : Trail V E) (v : V) : Trail V E := { t with visited := t.visited ++ [v] }

def Trail.cross (t : Trail V E) (e : E) : Trail V E := { t with crossed := t.crossed ++ [e] }

section Visit

variable (out : V → List E) (far : E → V)

/-- `none` when the nesting is exceeded. -/
def visit : ℕ → V → Trail V E → Option (Trail V E)
  | 0, _, _ => none
  | fuel + 1, v, t =>
      if v ∈ t.visited then some t
      else (out v).foldlM (fun t e => visit fuel (far e) (t.cross e)) (t.enter v)

/-- An edge leads from one vertex to the other. -/
def Step (v w : V) : Prop := ∃ e ∈ out v, far e = w

/-- From one trail to a later one: what was entered in between has all its edges crossed and their
ends entered, and nothing else was crossed. -/
structure Explored (t t' : Trail V E) : Prop where
  visited : t.visited ⊆ t'.visited
  crossed : t.crossed ⊆ t'.crossed
  closed : ∀ v ∈ t'.visited, v ∈ t.visited ∨ ∀ e ∈ out v, e ∈ t'.crossed ∧ far e ∈ t'.visited
  origin : ∀ e ∈ t'.crossed, e ∈ t.crossed ∨ ∃ v ∈ t'.visited, e ∈ out v

end Visit

section Laws

variable {out : V → List E} {far : E → V} {fuel : ℕ} {v w root : V} {e : E} {es : List E}
variable {t t₁ t' : Trail V E} {P : V → Prop}

/-! ### What is explored -/

omit [DecidableEq V] in
theorem Explored.refl (t : Trail V E) : Explored out far t t where
  visited := List.Subset.refl _
  crossed := List.Subset.refl _
  closed _ hv := Or.inl hv
  origin _ he := Or.inl he

omit [DecidableEq V] in
theorem Explored.trans (h₁ : Explored out far t t₁) (h₂ : Explored out far t₁ t') :
    Explored out far t t' where
  visited := List.Subset.trans h₁.visited h₂.visited
  crossed := List.Subset.trans h₁.crossed h₂.crossed
  closed v hv := by
    rcases h₂.closed v hv with hv | hclosed
    · rcases h₁.closed v hv with hv | hclosed
      · exact Or.inl hv
      · exact Or.inr fun e he =>
          ⟨h₂.crossed (hclosed e he).1, h₂.visited (hclosed e he).2⟩
    · exact Or.inr hclosed
  origin e he := by
    rcases h₂.origin e he with he | hout
    · rcases h₁.origin e he with he | ⟨v, hv, hout⟩
      · exact Or.inl he
      · exact Or.inr ⟨v, h₂.visited hv, hout⟩
    · exact Or.inr hout

omit [DecidableEq V] in
/-- An edge of a vertex on the trail is crossed first. -/
theorem Explored.of_cross (hv : v ∈ t.visited) (he : e ∈ out v)
    (h : Explored out far (t.cross e) t') : Explored out far t t' where
  visited := h.visited
  crossed := fun x hx => h.crossed (List.mem_append_left _ hx)
  closed := h.closed
  origin x hx := by
    rcases h.origin x hx with hx | hout
    · rcases List.mem_append.mp hx with hx | hx
      · exact Or.inl hx
      · exact Or.inr ⟨v, h.visited hv, List.mem_singleton.mp hx ▸ he⟩
    · exact Or.inr hout

/-- The edges of a vertex on the trail, one by one. -/
theorem explored_of_foldlM
    (hvisit : ∀ w t t', visit out far fuel w t = some t' →
      Explored out far t t' ∧ w ∈ t'.visited) (hv : v ∈ t.visited) (hsub : es ⊆ out v)
    (h : es.foldlM (fun t e => visit out far fuel (far e) (t.cross e)) t = some t') :
    Explored out far t t' ∧ ∀ e ∈ es, e ∈ t'.crossed ∧ far e ∈ t'.visited := by
  induction es generalizing t with
  | nil =>
      obtain rfl := Option.some.inj h
      exact ⟨.refl t, fun e he => by cases he⟩
  | cons e es ih =>
      rw [List.foldlM_cons, Option.bind_eq_bind, Option.bind_eq_some_iff] at h
      obtain ⟨t₁, hfirst, hrest⟩ := h
      obtain ⟨hexplored, hfar⟩ := hvisit _ _ _ hfirst
      have hcrossed : e ∈ t₁.crossed :=
        hexplored.crossed (List.mem_append_right _ (List.mem_singleton_self e))
      have hfirst := hexplored.of_cross hv (hsub List.mem_cons_self)
      obtain ⟨hlater, hall⟩ :=
        ih (hfirst.visited hv) (fun x hx => hsub (List.mem_cons_of_mem e hx)) hrest
      refine ⟨hfirst.trans hlater, fun x hx => ?_⟩
      rcases List.mem_cons.mp hx with rfl | hx
      · exact ⟨hlater.crossed hcrossed, hlater.visited hfar⟩
      · exact hall x hx

/-- **What a visit explores.** -/
theorem explored_of_visit (h : visit out far fuel v t = some t') :
    Explored out far t t' ∧ v ∈ t'.visited := by
  induction fuel generalizing v t t' with
  | zero => cases h
  | succ fuel ih =>
      rw [visit] at h
      split at h
      · rename_i hv
        obtain rfl := Option.some.inj h
        exact ⟨.refl t, hv⟩
      · have hentered : v ∈ (t.enter v).visited :=
          List.mem_append_right _ (List.mem_singleton_self v)
        obtain ⟨hexplored, hall⟩ :=
          explored_of_foldlM (fun w t t' => ih) hentered (List.Subset.refl _) h
        refine ⟨⟨fun u hu => hexplored.visited (List.mem_append_left _ hu), hexplored.crossed,
          fun u hu => ?_, hexplored.origin⟩, hexplored.visited hentered⟩
        rcases hexplored.closed u hu with hu | hclosed
        · rcases List.mem_append.mp hu with hu | hu
          · exact Or.inl hu
          · obtain rfl := List.mem_singleton.mp hu
            exact Or.inr hall
        · exact Or.inr hclosed

/-! ### What is reached -/

/-- A property of the start that edges preserve holds of all that is entered. -/
theorem forall_visited (hstep : ∀ v w, Step out far v w → P v → P w)
    (h : visit out far fuel v t = some t') (hv : P v) (ht : ∀ u ∈ t.visited, P u) :
    ∀ u ∈ t'.visited, P u := by
  induction fuel generalizing v t t' with
  | zero => cases h
  | succ fuel ih =>
      rw [visit] at h
      split at h
      · obtain rfl := Option.some.inj h
        exact ht
      · have hstart : ∀ u ∈ (t.enter v).visited, P u := by
          intro u hu
          rcases List.mem_append.mp hu with hu | hu
          · exact ht u hu
          · exact List.mem_singleton.mp hu ▸ hv
        have hsteps : ∀ e ∈ out v, P (far e) := fun e he => hstep v (far e) ⟨e, he, rfl⟩ hv
        generalize out v = es at h hsteps
        generalize t.enter v = t₁ at h hstart
        induction es generalizing t₁ with
        | nil =>
            obtain rfl := Option.some.inj h
            exact hstart
        | cons e es ihes =>
            rw [List.foldlM_cons, Option.bind_eq_bind, Option.bind_eq_some_iff] at h
            obtain ⟨t₂, hfirst, hrest⟩ := h
            have hnext := ih hfirst (hsteps e List.mem_cons_self) hstart
            exact ihes (fun x hx => hsteps x (List.mem_cons_of_mem e hx)) _ hrest hnext

/-- **Entered is what can be reached.** -/
theorem mem_visited_iff (h : visit out far fuel root ⟨[], []⟩ = some t') :
    v ∈ t'.visited ↔ ReflTransGen (Step out far) root v := by
  obtain ⟨hexplored, hroot⟩ := explored_of_visit h
  constructor
  · intro hv
    exact forall_visited (fun u w hstep hu => hu.tail hstep) h .refl (fun u hu => by cases hu) v hv
  · intro hreach
    induction hreach with
    | refl => exact hroot
    | @tail u w _ hstep ih =>
        obtain ⟨e, he, rfl⟩ := hstep
        rcases hexplored.closed u ih with hold | hclosed
        · cases hold
        · exact (hclosed e he).2

/-- **Crossed are the edges that leave it.** -/
theorem mem_crossed_iff (h : visit out far fuel root ⟨[], []⟩ = some t') :
    e ∈ t'.crossed ↔ ∃ v, ReflTransGen (Step out far) root v ∧ e ∈ out v := by
  obtain ⟨hexplored, -⟩ := explored_of_visit h
  constructor
  · intro he
    rcases hexplored.origin e he with hold | ⟨v, hv, hout⟩
    · cases hold
    · exact ⟨v, (mem_visited_iff h).mp hv, hout⟩
  · rintro ⟨v, hreach, hout⟩
    rcases hexplored.closed v ((mem_visited_iff h).mpr hreach) with hold | hclosed
    · cases hold
    · exact (hclosed e hout).1

/-! ### Termination -/

/-- The vertices that are still to be entered. -/
def remaining (vs : List V) (t : Trail V E) : List V := vs.filter (· ∉ t.visited)

theorem remaining_le {vs : List V} (h : t.visited ⊆ t'.visited) :
    (remaining vs t').length ≤ (remaining vs t).length := by
  unfold remaining
  refine (List.monotone_filter_right vs fun v hv => ?_).length_le
  exact decide_eq_true fun hold => of_decide_eq_true hv (h hold)

theorem remaining_enter_lt {vs : List V} (hv : v ∈ vs) (hnew : v ∉ t.visited) :
    (remaining vs (t.enter v)).length < (remaining vs t).length := by
  have hsub : remaining vs (t.enter v) = (remaining vs t).filter (· ≠ v) := by
    unfold remaining
    rw [List.filter_filter]
    refine List.filter_congr fun u _ => ?_
    simp [Trail.enter, not_or, and_comm]
  rw [hsub]
  refine List.length_filter_lt_length_iff_exists.mpr ⟨v, ?_, by simp⟩
  exact List.mem_filter.mpr ⟨hv, by simpa using hnew⟩

/-- Steps that finish and preserve what each of them needs. -/
theorem exists_foldlM {Q : Trail V E → Prop}
    (hvisit : ∀ e ∈ es, ∀ t, Q t → ∃ t', visit out far fuel (far e) (t.cross e) = some t' ∧ Q t')
    (ht : Q t) : ∃ t', es.foldlM (fun t e => visit out far fuel (far e) (t.cross e)) t = some t' := by
  induction es generalizing t with
  | nil => exact ⟨t, rfl⟩
  | cons e es ih =>
      obtain ⟨t₁, hfirst, ht₁⟩ := hvisit e List.mem_cons_self t ht
      obtain ⟨t', hrest⟩ := ih (fun x hx => hvisit x (List.mem_cons_of_mem e hx)) ht₁
      refine ⟨t', ?_⟩
      rw [List.foldlM_cons, Option.bind_eq_bind, hfirst]
      exact hrest

/-- **A traversal finishes** when its calls may nest deeper than there are vertices to enter. -/
theorem exists_visit {vs : List V} (hclosed : ∀ u ∈ vs, ∀ e ∈ out u, far e ∈ vs) (hv : v ∈ vs)
    (hlt : (remaining vs t).length < fuel) : ∃ t', visit out far fuel v t = some t' := by
  induction fuel generalizing v t with
  | zero => exact absurd hlt (Nat.not_lt_zero _)
  | succ fuel ih =>
      rw [visit]
      split
      · exact ⟨t, rfl⟩
      · rename_i hnew
        have hless := remaining_enter_lt hv hnew
        refine exists_foldlM (Q := fun t => (remaining vs t).length < fuel)
          (fun e he t₁ ht₁ => ?_) (by omega)
        obtain ⟨t₂, ht₂⟩ := ih (t := t₁.cross e) (hclosed v hv e he) ht₁
        exact ⟨t₂, ht₂, Nat.lt_of_le_of_lt (remaining_le (explored_of_visit ht₂).1.visited) ht₁⟩

/-- The calls from a vertex nest at most so deep: along every walk that enters no vertex twice, but
for its last, and none of the path to it. -/
def NestsWithin (R : V → V → Prop) (limit : ℕ) (path : List V) (v : V) : Prop :=
  ∀ vs, List.IsChain R (v :: vs) → (path ++ (v :: vs).dropLast).Nodup → (v :: vs).length ≤ limit

section Nesting

variable {R : V → V → Prop} {limit : ℕ} {path : List V}

omit [DecidableEq V] in
theorem nodup_push (h : path.Nodup) (hv : v ∉ path) : (path ++ [v]).Nodup :=
  List.nodup_append_comm.mp (List.nodup_cons.mpr ⟨hv, h⟩)

omit [DecidableEq V] in
theorem not_nestsWithin_zero (h : path.Nodup) : ¬NestsWithin R 0 path v := by
  intro hnests
  have hlength := hnests [] (.singleton v) (by simpa using h)
  exact absurd hlength (by simp)

omit [DecidableEq V] in
/-- One call more is enough for the calls of a vertex. -/
theorem nestsWithin_succ_iff :
    NestsWithin R (limit + 1) path v ↔
      v ∈ path ∨ ∀ w, R v w → NestsWithin R limit (path ++ [v]) w := by
  constructor
  · intro h
    refine or_iff_not_imp_left.mpr fun _ w hw vs hchain hnodup => ?_
    have hlength := h (w :: vs) (List.isChain_cons_cons.mpr ⟨hw, hchain⟩)
      (by rwa [List.append_assoc] at hnodup)
    exact Nat.le_of_succ_le_succ hlength
  · rintro h (_ | ⟨w, vs⟩) hchain hnodup
    · simp
    · obtain ⟨hw, hrest⟩ := List.isChain_cons_cons.mp hchain
      rcases h with hv | hall
      · exact absurd List.mem_cons_self (List.disjoint_of_nodup_append hnodup hv)
      · exact Nat.succ_le_succ (hall w hw vs hrest (by rwa [List.append_assoc]))

/-- **A traversal finishes** where the walks are not longer than its calls may nest. -/
theorem exists_visit_of_nests (hpath : path.Nodup) (hsub : path ⊆ t.visited)
    (h : NestsWithin (Step out far) fuel path v) : ∃ t', visit out far fuel v t = some t' := by
  induction fuel generalizing v t path with
  | zero => exact absurd h (not_nestsWithin_zero hpath)
  | succ fuel ih =>
      rw [visit]
      split
      · exact ⟨t, rfl⟩
      · rename_i hnew
        have hv : v ∉ path := fun hmem => hnew (hsub hmem)
        have hall := (nestsWithin_succ_iff.mp h).resolve_left hv
        refine exists_foldlM (Q := fun t => path ++ [v] ⊆ t.visited) (fun e he t₁ ht₁ => ?_)
          (List.append_subset.mpr ⟨fun u hu => List.mem_append_left _ (hsub hu),
            fun u hu => List.mem_append_right _ hu⟩)
        obtain ⟨t₂, ht₂⟩ := ih (t := t₁.cross e) (nodup_push hpath hv) ht₁ (hall _ ⟨e, he, rfl⟩)
        exact ⟨t₂, ht₂, List.Subset.trans ht₁ (explored_of_visit ht₂).1.visited⟩

end Nesting

end Laws

end DepthFirst
