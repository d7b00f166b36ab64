import Mathlib.Logic.Relation
import Mathlib.Data.List.Basic
import Mathlib.Tactic.Linarith

/-! # Acyclic relations and depth-first search

`Acyclic E` says that no vertex can be reached from itself along edges of `E`; adding an edge
`a → b` keeps it when `b` does not reach `a` (`Acyclic.add_edge`).

`search` is the recursive depth-first search with a shared visited set, a path that grows on
the way down and shrinks on the way back, and a bound on the depth of the recursion.  The
visited set holds keys of vertices.  A search that fails has explored a set of vertices that
contains the start, misses the target and is closed under successors, so the target is out of
reach (`not_reachable_of_search`). -/

namespace GraphSearch

open Relation (ReflTransGen TransGen)

variable {V K : Type*}

/-! ### Acyclic relations -/

/-- No vertex reaches itself. -/
def Acyclic (E : V → V → Prop) : Prop := ∀ v, ¬ TransGen E v v

/-- `E` with one more edge. -/
def AddEdge (E : V → V → Prop) (a b : V) (x y : V) : Prop := E x y ∨ (x = a ∧ y = b)

/-- A path that uses the new edge leads to its source and on from its target. -/
theorem transGen_addEdge {E : V → V → Prop} {a b x y : V} (h : TransGen (AddEdge E a b) x y) :
    TransGen E x y ∨ (ReflTransGen E x a ∧ ReflTransGen E b y) := by
  induction h with
  | single h =>
      rcases h with h | ⟨rfl, rfl⟩
      · exact Or.inl (.single h)
      · exact Or.inr ⟨.refl, .refl⟩
  | tail _ h ih =>
      rcases h with h | ⟨rfl, rfl⟩
      · rcases ih with ih | ⟨ih₁, ih₂⟩
        · exact Or.inl (ih.tail h)
        · exact Or.inr ⟨ih₁, ih₂.tail h⟩
      · rcases ih with ih | ⟨ih₁, -⟩
        · exact Or.inr ⟨ih.to_reflTransGen, .refl⟩
        · exact Or.inr ⟨ih₁, .refl⟩

/-- **Adding an edge** whose target does not reach its source closes no cycle. -/
theorem Acyclic.add_edge {E : V → V → Prop} {a b : V} (h : Acyclic E)
    (hab : ¬ ReflTransGen E b a) : Acyclic (AddEdge E a b) := by
  intro v hv
  rcases transGen_addEdge hv with hv | ⟨hva, hbv⟩
  · exact h v hv
  · exact hab (hbv.trans hva)

theorem Acyclic.mono {E F : V → V → Prop} (h : Acyclic E) (hFE : ∀ x y, F x y → E x y) :
    Acyclic F := fun v hv => h v (Relation.TransGen.mono hFE v v hv)

/-! ### Depth-first search -/

/-- The variables shared by the calls of a search. -/
structure SearchState (V K : Type*) where
  visited : List K
  path : List V

/-- A search that went too deep, or its answer with the variables it left. -/
abbrev SearchResult (V K : Type*) := Option (Bool × SearchState V K)

/-- Visit the vertices of a list until one call succeeds. -/
def searchAny (visit : V → SearchState V K → SearchResult V K) :
    List V → SearchState V K → SearchResult V K
  | [], st => some (false, st)
  | v :: vs, st =>
      match visit v st with
      | some (false, st') => searchAny visit vs st'
      | r => r

variable [DecidableEq V] [DecidableEq K]

/-- Can `current` reach `target`?  `depth` bounds the nesting of calls. -/
def search (succ : V → List V) (key : V → K) (target : V) :
    ℕ → V → SearchState V K → SearchResult V K
  | 0, _, _ => none
  | depth + 1, current, st =>
      if key current ∈ st.visited then some (false, st)
      else
        let st₁ : SearchState V K := ⟨key current :: st.visited, st.path ++ [current]⟩
        if current = target then some (true, st₁)
        else
          match searchAny (search succ key target depth) (succ current) st₁ with
          | some (false, st₂) => some (false, { st₂ with path := st₂.path.dropLast })
          | r => r

/-- The edge relation of a successor function. -/
def Edge (succ : V → List V) (x y : V) : Prop := y ∈ succ x

variable {succ : V → List V} {key : V → K} {target : V}

/-- From `W₀` to `W` a failing search has visited vertices other than the target, with all
their successors. -/
structure Explored (succ : V → List V) (key : V → K) (target : V) (W₀ W : List K) : Prop where
  mono : ∀ k ∈ W₀, k ∈ W
  closed : ∀ x, key x ∈ W → key x ∉ W₀ → x ≠ target ∧ ∀ y ∈ succ x, key y ∈ W

omit [DecidableEq V] [DecidableEq K] in
theorem Explored.refl (W : List K) : Explored succ key target W W :=
  ⟨fun _ h => h, fun _ h hn => absurd h hn⟩

omit [DecidableEq V] [DecidableEq K] in
theorem Explored.trans {W₀ W₁ W₂ : List K} (h₁ : Explored succ key target W₀ W₁)
    (h₂ : Explored succ key target W₁ W₂) : Explored succ key target W₀ W₂ where
  mono k hk := h₂.mono k (h₁.mono k hk)
  closed x hx hn := by
    by_cases hx₁ : key x ∈ W₁
    · obtain ⟨hne, hs⟩ := h₁.closed x hx₁ hn
      exact ⟨hne, fun y hy => h₂.mono _ (hs y hy)⟩
    · exact h₂.closed x hx hx₁

omit [DecidableEq V] [DecidableEq K] in
/-- Once its successors are explored, so is the vertex itself. -/
theorem Explored.cons {W₀ W : List K} {v : V} (hinj : Function.Injective key)
    (hv : v ≠ target) (h : Explored succ key target (key v :: W₀) W)
    (hs : ∀ y ∈ succ v, key y ∈ W) : Explored succ key target W₀ W where
  mono k hk := h.mono k (List.mem_cons_of_mem _ hk)
  closed x hx hn := by
    by_cases hxv : x = v
    · subst hxv
      exact ⟨hv, hs⟩
    · refine h.closed x hx ?_
      rw [List.mem_cons, not_or]
      exact ⟨fun he => hxv (hinj he), hn⟩

omit [DecidableEq V] [DecidableEq K] in
theorem explored_of_searchAny {visit : V → SearchState V K → SearchResult V K}
    (hvisit : ∀ v st st', visit v st = some (false, st') →
      Explored succ key target st.visited st'.visited ∧ key v ∈ st'.visited)
    {vs : List V} {st st' : SearchState V K} (h : searchAny visit vs st = some (false, st')) :
    Explored succ key target st.visited st'.visited ∧ ∀ v ∈ vs, key v ∈ st'.visited := by
  induction vs generalizing st with
  | nil =>
      obtain rfl := (Prod.mk.inj (Option.some.inj h)).2
      exact ⟨.refl _, by simp⟩
  | cons v vs ih =>
      simp only [searchAny] at h
      split at h
      · rename_i st₁ hv
        obtain ⟨hexp, hmem⟩ := hvisit v st st₁ hv
        obtain ⟨hexp', hmem'⟩ := ih h
        refine ⟨hexp.trans hexp', ?_⟩
        rw [List.forall_mem_cons]
        exact ⟨hexp'.mono _ hmem, hmem'⟩
      · rename_i hr
        exact absurd h (hr st')

/-- **A failing search has explored everything it can reach.** -/
theorem explored_of_search (hinj : Function.Injective key) :
    ∀ {depth : ℕ} {v : V} {st st' : SearchState V K},
      search succ key target depth v st = some (false, st') →
        Explored succ key target st.visited st'.visited ∧ key v ∈ st'.visited
  | 0, _, _, _, h => by cases h
  | depth + 1, v, st, st', h => by
      simp only [search] at h
      split at h
      · rename_i hmem
        obtain rfl := (Prod.mk.inj (Option.some.inj h)).2
        exact ⟨.refl _, hmem⟩
      · split at h
        · cases h
        · rename_i hne
          split at h
          · rename_i st₂ hany
            obtain rfl := (Prod.mk.inj (Option.some.inj h)).2
            obtain ⟨hexp, hall⟩ := explored_of_searchAny
              (fun v st st' => explored_of_search hinj) hany
            exact ⟨hexp.cons hinj hne hall, hexp.mono _ List.mem_cons_self⟩
          · rename_i hr
            exact absurd h (hr st')

/-- **A failing search rules the target out.** -/
theorem not_reachable_of_search (hinj : Function.Injective key) {depth : ℕ} {v : V}
    {st' : SearchState V K} {path : List V}
    (h : search succ key target depth v ⟨[], path⟩ = some (false, st')) :
    ¬ ReflTransGen (Edge succ) v target := by
  obtain ⟨hexp, hv⟩ := explored_of_search hinj h
  have hmem : ∀ x, ReflTransGen (Edge succ) v x → key x ∈ st'.visited := by
    intro x hx
    induction hx with
    | refl => exact hv
    | tail _ hstep ih => exact (hexp.closed _ ih (by simp)).2 _ hstep
  exact fun hreach => (hexp.closed target (hmem target hreach) (by simp)).1 rfl

omit [DecidableEq V] [DecidableEq K] in

omit [DecidableEq V] [DecidableEq K] in
theorem searchAny_congr {visit visit' : V → SearchState V K → SearchResult V K} :
    ∀ {vs : List V} (_ : ∀ v ∈ vs, ∀ st, visit v st = visit' v st) (st : SearchState V K),
      searchAny visit vs st = searchAny visit' vs st
  | [], _, _ => rfl
  | v :: vs, h, st => by
      simp only [searchAny]
      rw [h v List.mem_cons_self st]
      split
      · exact searchAny_congr (fun w hw => h w (List.mem_cons_of_mem _ hw)) _
      · rfl

/-- **A search depends only on the edges it can reach.** -/
theorem search_congr {succ' : V → List V} : ∀ {depth : ℕ} {v : V}
    (_ : ∀ x, ReflTransGen (Edge succ) v x → succ x = succ' x) (st : SearchState V K),
      search succ key target depth v st = search succ' key target depth v st
  | 0, _, _, _ => rfl
  | depth + 1, v, h, st => by
      have hbelow : ∀ w ∈ succ v, ∀ st : SearchState V K,
          search succ key target depth w st = search succ' key target depth w st :=
        fun w hw => search_congr fun x hx => h x (.head hw hx)
      simp only [search]
      rw [← h v .refl, searchAny_congr hbelow]

end GraphSearch
