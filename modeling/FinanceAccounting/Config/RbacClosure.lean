import FinanceAccounting.Config.Compiler
import FinanceAccounting.Library.DepthFirst
import Mathlib.Data.List.Chain

/-! # The closure of roles

A role inherits the permissions of other roles.  The compiler walks the relation twice: once for
its depth and its cycles, along every path without a repetition, and once for the permissions of
each role, entering every role once.

Both walks call themselves, and Python raises where the calls nest too deep.  Elsewhere the first
reports every cycle and every chain that is too long (`resolve_chain`), and the second is a
depth-first traversal, so that what it gathers are the permissions of all roles that can be reached
(`exists_expanded`).  The first goes to the end of every chain before it looks at the length, so
that it has to nest as deep as the chains are long (`compileRbac_sound_iff`). -/

namespace FinanceAccounting.Config

open Relation (ReflTransGen TransGen)
open DepthFirst (NestsWithin Step Trail nestsWithin_succ_iff nodup_push visit)
open Traversals (bind_eq_ok exists_mapM map_eq_ok mem_of_mapM)

/-! ### The relation -/

/-- The first role inherits the second.  The roles of a configuration are a mapping from names; of
several roles with one name the last one counts. -/
def Inherits (roles : List RoleDef) (child parent : String) : Prop :=
  ∃ r, roleNamed roles child = some r ∧ parent ∈ r.inherits

/-- There is a role with this name. -/
def known (roles : List RoleDef) (name : String) : Bool := (roleNamed roles name).isSome

/-- The permissions that a role has itself. -/
def ownPermissions (roles : List RoleDef) (name : String) : Finset String :=
  ((roleNamed roles name).map fun r => r.permissions.toFinset).getD ∅

def cycleError (path : List String) (name : String) : CompilationError :=
  rbacError ("Role inheritance cycle: " ++ " -> ".intercalate path ++ " -> " ++ name)

def depthError (limit : ℤ) (name parent : String) : CompilationError :=
  rbacError ("Role '" ++ name ++ "' exceeds inheritance_depth_limit=" ++ toString limit ++
    " (path includes " ++ parent ++ ")")

section Roles

variable {roles : List RoleDef} {name parent : String} {r : RoleDef}

theorem mem_of_roleNamed (h : roleNamed roles name = some r) : r ∈ roles ∧ r.name = name := by
  have hmem := List.mem_of_find?_eq_some h
  exact ⟨List.mem_reverse.mp hmem, by simpa using List.find?_some h⟩

/-- Where the names differ, every role is the one with its name. -/
theorem roleNamed_of_mem (hnodup : (roles.map (·.name)).Nodup) (hr : r ∈ roles) :
    roleNamed roles r.name = some r := by
  cases h : roleNamed roles r.name with
  | none => exact absurd (List.find?_eq_none.mp h r (List.mem_reverse.mpr hr)) (by simp)
  | some other =>
      obtain ⟨hmem, hname⟩ := mem_of_roleNamed h
      exact congrArg some (List.inj_on_of_nodup_map hnodup hmem hr hname)

theorem Inherits.known (h : Inherits roles name parent) : known roles name = true := by
  obtain ⟨r, hr, -⟩ := h
  rw [Config.known, hr]
  rfl

/-- A role that inherits another is one of the configuration. -/
theorem Inherits.exists_role (h : Inherits roles name parent) : ∃ r ∈ roles, r.name = name := by
  obtain ⟨r, hr, -⟩ := h
  obtain ⟨hmem, hname⟩ := mem_of_roleNamed hr
  exact ⟨r, hmem, hname⟩

end Roles

/-! ### Depth and cycles -/

/-- What a role makes of the result for one of its parents. -/
def combine (limit : ℤ) (name : String) (acc : ℤ × List CompilationError) (parent : String)
    (result : ℤ × List CompilationError) : ℤ × List CompilationError :=
  (max acc.1 (result.1 + 1), acc.2 ++ result.2 ++
    if limit < result.1 + 1 then [depthError limit name parent] else [])

section Depth

variable {roles : List RoleDef} {limit : ℤ} {nesting : ℕ} {path : List String}
variable {name parent : String} {r : RoleDef} {result : ℤ × List CompilationError}

theorem resolveDepth_cycle (h : name ∈ path) :
    resolveDepth roles limit (nesting + 1) path name = .ok (0, [cycleError path name]) := by
  rw [resolveDepth, if_pos h]
  rfl

theorem resolveDepth_unknown (h : name ∉ path) (hr : roleNamed roles name = none) :
    resolveDepth roles limit (nesting + 1) path name = .ok (0, []) := by
  rw [resolveDepth, if_neg h, hr]

theorem resolveDepth_root (h : name ∉ path) (hr : roleNamed roles name = some r)
    (hinherits : r.inherits = []) :
    resolveDepth roles limit (nesting + 1) path name = .ok (1, []) := by
  rw [resolveDepth, if_neg h, hr]
  dsimp only
  rw [hinherits]
  rfl

theorem resolveDepth_inherited (h : name ∉ path) (hr : roleNamed roles name = some r)
    (hinherits : r.inherits ≠ []) :
    resolveDepth roles limit (nesting + 1) path name =
      r.inherits.foldlM (fun acc p =>
        (resolveDepth roles limit nesting (path ++ [name]) p).map (combine limit name acc p))
        (0, []) := by
  rw [resolveDepth, if_neg h, hr]
  dsimp only
  rw [if_neg (by simpa using hinherits)]
  congr 1

section Loop

variable {found : String → Except CompileFailure (ℤ × List CompilationError)}
variable {parents : List String} {acc : ℤ × List CompilationError}

/-- What the loop over the parents keeps of each of them. -/
theorem foldlM_combine
    (h : parents.foldlM (fun acc p => (found p).map (combine limit name acc p)) acc = .ok result) :
    acc.1 ≤ result.1 ∧ acc.2 ⊆ result.2 ∧ ∀ p ∈ parents, ∃ below, found p = .ok below ∧
      below.1 + 1 ≤ result.1 ∧ below.2 ⊆ result.2 ∧
        (limit < below.1 + 1 → depthError limit name p ∈ result.2) := by
  induction parents generalizing acc with
  | nil =>
      obtain rfl := Except.ok.inj h
      exact ⟨le_rfl, List.Subset.refl _, fun p hp => absurd hp List.not_mem_nil⟩
  | cons parent parents ih =>
      rw [List.foldlM_cons] at h
      obtain ⟨acc', hfirst, hrest⟩ := bind_eq_ok.mp h
      obtain ⟨below, hbelow, rfl⟩ := map_eq_ok.mp hfirst
      obtain ⟨hdepth, herrors, hall⟩ := ih hrest
      refine ⟨le_trans (le_max_left _ _) hdepth, fun e he => herrors ?_, fun p hp => ?_⟩
      · exact List.mem_append_left _ (List.mem_append_left _ he)
      · rcases List.mem_cons.mp hp with rfl | hp
        · refine ⟨below, hbelow, le_trans (le_max_right _ _) hdepth, fun e he => herrors ?_,
            fun hlimit => herrors (List.mem_append_right _ ?_)⟩
          · exact List.mem_append_left _ (List.mem_append_right _ he)
          · rw [if_pos hlimit]
            exact List.mem_singleton_self _
        · exact hall p hp

theorem exists_foldlM_iff :
    (∃ result, parents.foldlM (fun acc p => (found p).map (combine limit name acc p)) acc =
        .ok result) ↔ ∀ p ∈ parents, ∃ below, found p = .ok below := by
  constructor
  · rintro ⟨result, h⟩ p hp
    obtain ⟨below, hbelow, -⟩ := (foldlM_combine h).2.2 p hp
    exact ⟨below, hbelow⟩
  · intro h
    induction parents generalizing acc with
    | nil => exact ⟨acc, rfl⟩
    | cons parent parents ih =>
        obtain ⟨below, hbelow⟩ := h parent List.mem_cons_self
        obtain ⟨result, hresult⟩ := ih fun p hp => h p (List.mem_cons_of_mem parent hp)
        exact ⟨result, bind_eq_ok.mpr ⟨combine limit name acc parent below,
          map_eq_ok.mpr ⟨below, hbelow, rfl⟩, hresult⟩⟩

end Loop

/-- **The depth is resolved** where the calls may nest as deep as the chains are long. -/
theorem exists_resolveDepth_iff (hpath : path.Nodup) :
    (∃ result, resolveDepth roles limit nesting path name = .ok result) ↔
      NestsWithin (Inherits roles) nesting path name := by
  induction nesting generalizing path name with
  | zero =>
      refine iff_of_false ?_ (DepthFirst.not_nestsWithin_zero hpath)
      rintro ⟨result, h⟩
      cases h
  | succ nesting ih =>
      rw [nestsWithin_succ_iff]
      by_cases hname : name ∈ path
      · rw [resolveDepth_cycle hname]
        exact iff_of_true ⟨_, rfl⟩ (.inl hname)
      cases hr : roleNamed roles name with
      | none =>
          rw [resolveDepth_unknown hname hr]
          refine iff_of_true ⟨_, rfl⟩ (.inr ?_)
          rintro parent ⟨r, hr', -⟩
          rw [hr] at hr'
          cases hr'
      | some r =>
          have hparents : ∀ parent, Inherits roles name parent ↔ parent ∈ r.inherits := by
            intro parent
            rw [Inherits, hr]
            simp
          simp only [hparents]
          by_cases hinherits : r.inherits = []
          · rw [resolveDepth_root hname hr hinherits, hinherits]
            exact iff_of_true ⟨_, rfl⟩ (.inr fun parent hp => absurd hp List.not_mem_nil)
          rw [resolveDepth_inherited hname hr hinherits, exists_foldlM_iff, or_iff_right hname]
          exact forall₂_congr fun parent _ => ih (nodup_push hpath hname)

/-- What is found for a parent is found for the role. -/
theorem resolveDepth_parent (h : resolveDepth roles limit (nesting + 1) path name = .ok result)
    (hname : name ∉ path) (hparent : Inherits roles name parent) :
    ∃ below, resolveDepth roles limit nesting (path ++ [name]) parent = .ok below ∧
      below.1 + 1 ≤ result.1 ∧ below.2 ⊆ result.2 ∧
        (limit < below.1 + 1 → depthError limit name parent ∈ result.2) := by
  obtain ⟨r, hr, hmem⟩ := hparent
  rw [resolveDepth_inherited hname hr (List.ne_nil_of_mem hmem)] at h
  exact (foldlM_combine h).2.2 parent hmem

/-- The depth of a role that there is is one at least. -/
theorem depth_known (h : resolveDepth roles limit nesting path name = .ok result)
    (hname : name ∉ path) : 0 ≤ result.1 ∧ (known roles name = true → 1 ≤ result.1) := by
  induction nesting generalizing path name result with
  | zero => cases h
  | succ nesting ih =>
      cases hr : roleNamed roles name with
      | none =>
          rw [resolveDepth_unknown hname hr] at h
          obtain rfl := Except.ok.inj h
          refine ⟨le_rfl, fun hknown => ?_⟩
          rw [known, hr] at hknown
          cases hknown
      | some r =>
          by_cases hinherits : r.inherits = []
          · rw [resolveDepth_root hname hr hinherits] at h
            obtain rfl := Except.ok.inj h
            exact ⟨zero_le_one, fun _ => le_rfl⟩
          rw [resolveDepth_inherited hname hr hinherits] at h
          obtain ⟨parent, hparent⟩ := List.exists_mem_of_ne_nil _ hinherits
          obtain ⟨hacc, -, hall⟩ := foldlM_combine h
          obtain ⟨below, hbelow, hdepth, -⟩ := hall parent hparent
          refine ⟨hacc, fun _ => le_trans ?_ hdepth⟩
          by_cases hmem : parent ∈ path ++ [name]
          · cases nesting with
            | zero => cases hbelow
            | succ nesting =>
                rw [resolveDepth_cycle hmem] at hbelow
                obtain rfl := Except.ok.inj hbelow
                exact le_rfl
          · have hnonneg := (ih hbelow hmem).1
            omega

/-- The roles on a chain of names. -/
def rolesOn (roles : List RoleDef) (chain : List String) : ℕ := chain.countP (known roles)

theorem rolesOn_cons {rest : List String} (h : Inherits roles name parent) :
    rolesOn roles (name :: rest) = rolesOn roles rest + 1 := by
  rw [rolesOn, List.countP_cons, if_pos h.known]
  rfl

/-- **Along every chain** there is a cycle, or the depth that is found counts its roles. -/
theorem resolve_chain {rest : List String} (hpath : path.Nodup)
    (h : resolveDepth roles limit nesting path name = .ok result)
    (hchain : List.IsChain (Inherits roles) (name :: rest)) :
    (∃ p n, cycleError p n ∈ result.2) ∨
      (path ++ name :: rest).Nodup ∧ (rolesOn roles (name :: rest) : ℤ) ≤ result.1 := by
  induction rest generalizing nesting path name result with
  | nil =>
      cases nesting with
      | zero => cases h
      | succ nesting =>
          by_cases hname : name ∈ path
          · rw [resolveDepth_cycle hname] at h
            obtain rfl := Except.ok.inj h
            exact .inl ⟨path, name, List.mem_singleton_self _⟩
          obtain ⟨hnonneg, hone⟩ := depth_known h hname
          refine .inr ⟨nodup_push hpath hname, ?_⟩
          rw [rolesOn, List.countP_singleton]
          split
          · exact hone ‹_›
          · exact hnonneg
  | cons parent rest ih =>
      cases nesting with
      | zero => cases h
      | succ nesting =>
          by_cases hname : name ∈ path
          · rw [resolveDepth_cycle hname] at h
            obtain rfl := Except.ok.inj h
            exact .inl ⟨path, name, List.mem_singleton_self _⟩
          obtain ⟨hinherits, hrest⟩ := List.isChain_cons_cons.mp hchain
          obtain ⟨below, hbelow, hdepth, herrors, -⟩ := resolveDepth_parent h hname hinherits
          rcases ih (nodup_push hpath hname) hbelow hrest with ⟨p, n, herror⟩ | ⟨hnodup, hcount⟩
          · exact .inl ⟨p, n, herrors herror⟩
          · refine .inr ⟨by rwa [List.append_assoc] at hnodup, ?_⟩
            rw [rolesOn_cons hinherits]
            push_cast
            omega

/-- **Every cycle** is reported where it is entered. -/
theorem cycle_reported (h : TransGen (Inherits roles) name name)
    (hresult : resolveDepth roles limit nesting [] name = .ok result) :
    ∃ p n, cycleError p n ∈ result.2 := by
  obtain ⟨parent, hfirst, hback⟩ := TransGen.head'_iff.mp h
  obtain ⟨rest, hrest, hlast⟩ := List.exists_isChain_cons_of_relationReflTransGen hback
  have hchain : List.IsChain (Inherits roles) (name :: parent :: rest) :=
    List.isChain_cons_cons.mpr ⟨hfirst, hrest⟩
  rcases resolve_chain List.nodup_nil hresult hchain with herror | ⟨hnodup, -⟩
  · exact herror
  · rw [List.nil_append, List.nodup_cons] at hnodup
    exact absurd (hlast ▸ List.getLast_mem _) hnodup.1

/-- **Every chain that is too long** is reported where it begins. -/
theorem long_chain_reported {rest : List String}
    (h : List.IsChain (Inherits roles) (name :: parent :: rest))
    (hlong : limit < rolesOn roles (name :: parent :: rest))
    (hresult : resolveDepth roles limit nesting [] name = .ok result) :
    (∃ p n, cycleError p n ∈ result.2) ∨ depthError limit name parent ∈ result.2 := by
  cases nesting with
  | zero => cases hresult
  | succ nesting =>
      obtain ⟨hinherits, hrest⟩ := List.isChain_cons_cons.mp h
      obtain ⟨below, hbelow, -, herrors, hdepth⟩ :=
        resolveDepth_parent hresult List.not_mem_nil hinherits
      rcases resolve_chain (List.nodup_singleton name) hbelow hrest with
        ⟨p, n, herror⟩ | ⟨-, hcount⟩
      · exact .inl ⟨p, n, herrors herror⟩
      · refine .inr (hdepth ?_)
        rw [rolesOn_cons hinherits] at hlong
        push_cast at hlong
        omega

end Depth

/-! ### Permissions -/

section Expansion

variable {roles : List RoleDef} {nesting : ℕ} {name : String} {seen : List String} {r : RoleDef}
variable {t t' : Trail String String}

/-- What a role inherits. -/
def inheritsOf (roles : List RoleDef) (name : String) : List String :=
  ((roleNamed roles name).map (·.inherits)).getD []

theorem step_inheritsOf : Step (inheritsOf roles) id = Inherits roles := by
  funext child parent
  rw [Step, Inherits, inheritsOf]
  cases roleNamed roles child <;> simp

/-- The roles that were seen are those on the trail. -/
def Follows (roles : List RoleDef) (t : Trail String String) (seen : List String) : Prop :=
  ∀ n, known roles n = true → (n ∈ seen ↔ n ∈ t.visited)

/-- A union gathers the permissions of the roles that are entered, beside others. -/
structure Gathered (roles : List RoleDef) (t t' : Trail String String)
    (others perms : Finset String) : Prop where
  visited : t.visited ⊆ t'.visited
  kept : others ⊆ perms
  sound : ∀ p ∈ perms, p ∈ others ∨ ∃ n ∈ t'.visited, p ∈ ownPermissions roles n
  complete : ∀ n ∈ t'.visited, n ∉ t.visited → ownPermissions roles n ⊆ perms

theorem Gathered.refl (t : Trail String String) (perms : Finset String) :
    Gathered roles t t perms perms :=
  ⟨List.Subset.refl _, subset_rfl, fun _ hp => .inl hp, fun _ hn hnot => absurd hn hnot⟩

/-- The permissions of a parent, and then those of the others. -/
theorem Gathered.trans {t₁ : Trail String String} {perms found all : Finset String}
    (h₁ : Gathered roles t t₁ ∅ found) (h₂ : Gathered roles t₁ t' (perms ∪ found) all) :
    Gathered roles t t' perms all where
  visited := List.Subset.trans h₁.visited h₂.visited
  kept := subset_trans Finset.subset_union_left h₂.kept
  sound p hp := by
    rcases h₂.sound p hp with hp | hp
    · rcases Finset.mem_union.mp hp with hp | hp
      · exact .inl hp
      · rcases h₁.sound p hp with hnone | ⟨n, hn, hown⟩
        · exact absurd hnone (Finset.notMem_empty p)
        · exact .inr ⟨n, h₂.visited hn, hown⟩
    · exact .inr hp
  complete n hn hnot := by
    by_cases hmid : n ∈ t₁.visited
    · exact subset_trans (h₁.complete n hmid hnot)
        (subset_trans Finset.subset_union_right h₂.kept)
    · exact h₂.complete n hn hmid

/-- A role that is entered, and what is gathered from there. -/
theorem Gathered.of_enter (name : String) {perms : Finset String}
    (h : Gathered roles (t.enter name) t' (ownPermissions roles name) perms) :
    Gathered roles t t' ∅ perms where
  visited := List.Subset.trans (fun n hn => List.mem_append_left _ hn) h.visited
  kept := Finset.empty_subset _
  sound p hp := by
    rcases h.sound p hp with hp | hp
    · exact .inr ⟨name, h.visited (List.mem_append_right _ (List.mem_singleton_self name)), hp⟩
    · exact .inr hp
  complete n hn hnot := by
    by_cases hn' : n = name
    · exact hn' ▸ h.kept
    · refine h.complete n hn fun hmem => ?_
      rcases List.mem_append.mp hmem with hmem | hmem
      · exact hnot hmem
      · exact hn' (List.mem_singleton.mp hmem)

/-- What the loop makes of a parent. -/
def gather (roles : List RoleDef) (nesting : ℕ) (acc : Finset String × List String)
    (parent : String) : Except CompileFailure (Finset String × List String) :=
  (expandedPermissions roles nesting acc.2 parent).map fun found => (acc.1 ∪ found.1, found.2)

theorem expandedPermissions_skip (h : name ∈ seen ∨ roleNamed roles name = none) :
    expandedPermissions roles (nesting + 1) seen name = .ok (∅, seen) := by
  rw [expandedPermissions]
  by_cases hseen : name ∈ seen
  · rw [if_pos hseen]
  · rw [if_neg hseen, h.resolve_left hseen]

theorem expandedPermissions_role (h : name ∉ seen) (hr : roleNamed roles name = some r) :
    expandedPermissions roles (nesting + 1) seen name =
      r.inherits.foldlM (gather roles nesting) (r.permissions.toFinset, name :: seen) := by
  rw [expandedPermissions, if_neg h, hr]
  dsimp only
  congr 1

/-- **The loop over the parents** follows the traversal of them. -/
theorem expansion_loop
    (hvisit : ∀ {v t t' seen}, visit (inheritsOf roles) id nesting v t = some t' →
      Follows roles t seen → ∃ found, expandedPermissions roles nesting seen v = .ok found ∧
        Follows roles t' found.2 ∧ Gathered roles t t' ∅ found.1)
    {parents : List String} (acc : Finset String × List String)
    (h : parents.foldlM
      (fun t e => visit (inheritsOf roles) id nesting (id e) (t.cross e)) t = some t')
    (hfollows : Follows roles t acc.2) :
    ∃ found, parents.foldlM (gather roles nesting) acc = .ok found ∧
      Follows roles t' found.2 ∧ Gathered roles t t' acc.1 found.1 := by
  induction parents generalizing t acc with
  | nil =>
      obtain rfl := Option.some.inj h
      exact ⟨acc, rfl, hfollows, .refl t acc.1⟩
  | cons parent parents ih =>
      rw [List.foldlM_cons, Option.bind_eq_bind, Option.bind_eq_some_iff] at h
      obtain ⟨t₁, hfirst, hrest⟩ := h
      obtain ⟨found, hfound, hfollows₁, hgathered⟩ := hvisit hfirst hfollows
      obtain ⟨all, hall, hfollows', hgathered'⟩ := ih (acc.1 ∪ found.1, found.2) hrest hfollows₁
      have hcrossed : Gathered roles t t₁ ∅ found.1 :=
        ⟨hgathered.visited, hgathered.kept, hgathered.sound, hgathered.complete⟩
      exact ⟨all, bind_eq_ok.mpr ⟨_, map_eq_ok.mpr ⟨found, hfound, rfl⟩, hall⟩, hfollows',
        hcrossed.trans hgathered'⟩

/-- **An expansion** follows the traversal from its role. -/
theorem expansion_of_visit (h : visit (inheritsOf roles) id nesting name t = some t')
    (hfollows : Follows roles t seen) :
    ∃ found, expandedPermissions roles nesting seen name = .ok found ∧
      Follows roles t' found.2 ∧ Gathered roles t t' ∅ found.1 := by
  induction nesting generalizing name t t' seen with
  | zero => cases h
  | succ nesting ih =>
      rw [visit] at h
      cases hr : roleNamed roles name with
      | none =>
          have hunknown : ∀ {n}, known roles n = true → n ≠ name := by
            rintro n hn rfl
            rw [known, hr] at hn
            cases hn
          rw [expandedPermissions_skip (.inr hr)]
          refine ⟨_, rfl, ?_⟩
          split at h
          · obtain rfl := Option.some.inj h
            exact ⟨hfollows, .refl t ∅⟩
          · rw [inheritsOf, hr] at h
            obtain rfl := Option.some.inj h
            refine ⟨fun n hn => ?_, .of_enter name ?_⟩
            · rw [hfollows n hn]
              show _ ↔ n ∈ t.visited ++ [name]
              rw [List.mem_append, List.mem_singleton, or_iff_left (hunknown hn)]
            · rw [ownPermissions, hr]
              exact .refl _ ∅
      | some r =>
          have hmem := hfollows name (by rw [known, hr]; rfl)
          by_cases hvisited : name ∈ t.visited
          · rw [if_pos hvisited] at h
            obtain rfl := Option.some.inj h
            rw [expandedPermissions_skip (.inl (hmem.mpr hvisited))]
            exact ⟨_, rfl, hfollows, .refl t ∅⟩
          · have hentered : Follows roles (t.enter name) (name :: seen) := by
              intro n hn
              rw [List.mem_cons, hfollows n hn]
              show n = name ∨ n ∈ t.visited ↔ n ∈ t.visited ++ [name]
              rw [List.mem_append, List.mem_singleton, or_comm]
            rw [if_neg hvisited, inheritsOf, hr] at h
            obtain ⟨found, hfound, hfollows', hgathered⟩ :=
              expansion_loop ih (r.permissions.toFinset, name :: seen) h hentered
            rw [expandedPermissions_role (fun hseen => hvisited (hmem.mp hseen)) hr]
            refine ⟨found, hfound, hfollows', .of_enter name ?_⟩
            rw [ownPermissions, hr]
            exact hgathered

theorem mem_ownPermissions {p : String} :
    p ∈ ownPermissions roles name ↔ ∃ r, roleNamed roles name = some r ∧ p ∈ r.permissions := by
  unfold ownPermissions
  cases roleNamed roles name with
  | none => simp
  | some r => simp

/-- **The expansion of a role** has the permissions of all roles that it inherits. -/
theorem exists_expanded (h : NestsWithin (Inherits roles) nesting [] name) :
    ∃ found, expandedPermissions roles nesting [] name = .ok found ∧ ∀ p, p ∈ found.1 ↔
      ∃ other r, ReflTransGen (Inherits roles) name other ∧
        roleNamed roles other = some r ∧ p ∈ r.permissions := by
  rw [← step_inheritsOf] at h ⊢
  obtain ⟨t', hvisit⟩ := DepthFirst.exists_visit_of_nests (t := ⟨[], []⟩) List.nodup_nil
    (List.Subset.refl _) h
  have hstart : Follows roles (⟨[], []⟩ : Trail String String) [] := fun n _ => Iff.rfl
  obtain ⟨found, hfound, -, hgathered⟩ := expansion_of_visit hvisit hstart
  refine ⟨found, hfound, fun p => ?_⟩
  constructor
  · intro hp
    rcases hgathered.sound p hp with hp | ⟨other, hother, hown⟩
    · exact absurd hp (Finset.notMem_empty p)
    · obtain ⟨r, hr, hmem⟩ := mem_ownPermissions.mp hown
      exact ⟨other, r, (DepthFirst.mem_visited_iff hvisit).mp hother, hr, hmem⟩
  · rintro ⟨other, r, hreach, hr, hmem⟩
    exact hgathered.complete other ((DepthFirst.mem_visited_iff hvisit).mpr hreach)
      List.not_mem_nil (mem_ownPermissions.mpr ⟨r, hr, hmem⟩)

end Expansion

/-! ### The compilation -/

/-- **The roles of a configuration are compiled.**  The compilation ends without an exception; a cycle
is reported, and so is a chain of inheritance with more roles than the limit, if not for its length
then for a cycle; and in the configuration that is returned, every role has the permissions of all
roles that it inherits, directly or not, and its own. -/
structure Sound (recursionLimit : ℕ) (rbac : RbacConfigDef) : Prop where
  ends : ∃ result, compileRbac recursionLimit rbac = .ok result
  cycles : ∀ name, TransGen (Inherits rbac.roles) name name →
    ∃ errors, compileRbac recursionLimit rbac = .ok (errors, none) ∧
      ∃ p n, cycleError p n ∈ errors
  chains : ∀ name parent rest, List.IsChain (Inherits rbac.roles) (name :: parent :: rest) →
    rbac.hierarchyRules.inheritanceDepthLimit < rolesOn rbac.roles (name :: parent :: rest) →
      ∃ errors, compileRbac recursionLimit rbac = .ok (errors, none) ∧
        ((∃ p n, cycleError p n ∈ errors) ∨
          depthError rbac.hierarchyRules.inheritanceDepthLimit name parent ∈ errors)
  closure : ∀ errors config, compileRbac recursionLimit rbac = .ok (errors, some config) →
    config.rolePermissions.map Prod.fst = rbac.roles.map (·.name) ∧
    ∀ entry ∈ config.rolePermissions, ∀ p, p ∈ entry.2 ↔
      ∃ other r, ReflTransGen (Inherits rbac.roles) entry.1 other ∧
        roleNamed rbac.roles other = some r ∧ p ∈ r.permissions

section Compilation

variable {recursionLimit : ℕ} {rbac : RbacConfigDef} {errors : List CompilationError}
variable {compiled : Option CompiledRbacConfig}

/-- What a compilation that ends has gone through. -/
theorem compileRbac_eq_ok (h : compileRbac recursionLimit rbac = .ok (errors, compiled)) :
    (∀ r ∈ rbac.roles, ∃ result, resolveDepth rbac.roles
        rbac.hierarchyRules.inheritanceDepthLimit recursionLimit [] r.name = .ok result ∧
          result.2 ⊆ errors) ∧
      (errors ≠ [] → compiled = none) ∧
      ∀ config, compiled = some config →
        rolePermissions recursionLimit rbac = .ok config.rolePermissions := by
  obtain ⟨depths, hdepths, h⟩ := bind_eq_ok.mp h
  obtain ⟨permissions, hpermissions, h⟩ := bind_eq_ok.mp h
  obtain ⟨rfl, rfl⟩ := Prod.mk.inj (Except.ok.inj h)
  refine ⟨fun r hr => ?_, fun hne => if_neg (by rwa [List.isEmpty_iff]), fun config hconfig => ?_⟩
  · obtain ⟨result, hmem, hresult⟩ := (mem_of_mapM hdepths).1 r hr
    exact ⟨result, hresult, fun e he =>
      List.mem_append_left _ (List.mem_flatMap.mpr ⟨result, hmem, he⟩)⟩
  · split at hconfig
    · obtain rfl := Option.some.inj hconfig
      exact hpermissions
    · cases hconfig

theorem exists_compileRbac
    (h : ∀ r ∈ rbac.roles, NestsWithin (Inherits rbac.roles) recursionLimit [] r.name) :
    ∃ result, compileRbac recursionLimit rbac = .ok result := by
  obtain ⟨depths, hdepths⟩ : ∃ depths, (rbac.roles.mapM fun r => resolveDepth rbac.roles
      rbac.hierarchyRules.inheritanceDepthLimit recursionLimit [] r.name) = .ok depths :=
    exists_mapM fun r hr => (exists_resolveDepth_iff List.nodup_nil).mpr (h r hr)
  obtain ⟨permissions, hpermissions⟩ : ∃ permissions,
      rolePermissions recursionLimit rbac = .ok permissions := by
    refine exists_mapM fun r hr => ?_
    obtain ⟨found, hfound, -⟩ := exists_expanded (h r hr)
    exact ⟨_, map_eq_ok.mpr ⟨found, hfound, rfl⟩⟩
  exact ⟨_, bind_eq_ok.mpr ⟨depths, hdepths, bind_eq_ok.mpr ⟨permissions, hpermissions, rfl⟩⟩⟩

end Compilation

/-- **The roles are compiled exactly where the calls may nest as deep as the chains are long**: along
every chain of inheritance without a repetition, but perhaps at its end. -/
theorem compileRbac_sound_iff (recursionLimit : ℕ) (rbac : RbacConfigDef) :
    Sound recursionLimit rbac ↔
      ∀ r ∈ rbac.roles, NestsWithin (Inherits rbac.roles) recursionLimit [] r.name := by
  constructor
  · rintro ⟨⟨⟨errors, compiled⟩, hresult⟩, -⟩ r hr
    obtain ⟨result, hdepth, -⟩ := (compileRbac_eq_ok hresult).1 r hr
    exact (exists_resolveDepth_iff List.nodup_nil).mp ⟨result, hdepth⟩
  · intro h
    obtain ⟨⟨errors, compiled⟩, hresult⟩ := exists_compileRbac h
    obtain ⟨hdepths, hrefused, -⟩ := compileRbac_eq_ok hresult
    have hreported : ∀ {e}, e ∈ errors → compileRbac recursionLimit rbac = .ok (errors, none) :=
      fun he => hrefused (List.ne_nil_of_mem he) ▸ hresult
    refine ⟨⟨_, hresult⟩, fun name hcycle => ?_, fun name parent rest hchain hlong => ?_,
      fun errors config hconfig => ?_⟩
    · obtain ⟨w, hfirst, -⟩ := TransGen.head'_iff.mp hcycle
      obtain ⟨r, hr, rfl⟩ := hfirst.exists_role
      obtain ⟨result, hdepth, hsub⟩ := hdepths r hr
      obtain ⟨p, n, herror⟩ := cycle_reported hcycle hdepth
      exact ⟨errors, hreported (hsub herror), p, n, hsub herror⟩
    · obtain ⟨r, hr, rfl⟩ := (List.isChain_cons_cons.mp hchain).1.exists_role
      obtain ⟨result, hdepth, hsub⟩ := hdepths r hr
      rcases long_chain_reported hchain hlong hdepth with ⟨p, n, herror⟩ | herror
      · exact ⟨errors, hreported (hsub herror), .inl ⟨p, n, hsub herror⟩⟩
      · exact ⟨errors, hreported (hsub herror), .inr (hsub herror)⟩
    · have hpermissions := (compileRbac_eq_ok hconfig).2.2 config rfl
      have hentries := mem_of_mapM hpermissions
      refine ⟨?_, fun entry hentry => ?_⟩
      · have hnames := (Traversals.mapM_eq_ok_iff.mp hpermissions).imp fun r entry hentry =>
          show r.name = entry.1 by
            obtain ⟨found, -, rfl⟩ := map_eq_ok.mp hentry
            rfl
        rw [eq_comm, ← List.forall₂_eq_eq_eq, List.forall₂_map_left_iff,
          List.forall₂_map_right_iff]
        exact hnames
      · obtain ⟨r, hr, hentry⟩ := hentries.2 entry hentry
        obtain ⟨found, hfound, rfl⟩ := map_eq_ok.mp hentry
        obtain ⟨found', hfound', hclosure⟩ := exists_expanded (h r hr)
        obtain rfl := Except.ok.inj (hfound.symm.trans hfound')
        exact hclosure

section Chains

def chainName (i : ℕ) : String := String.ofList (List.replicate i 'r')

/-- Of so many roles, each inherits the next. -/
def chainRole (n i : ℕ) : RoleDef where
  name := chainName i
  permissions := []
  inherits := if i + 1 < n then [chainName (i + 1)] else []

def chainOf (n : ℕ) : RbacConfigDef where
  rbacConfig := { version := "1", effectiveFrom := sampleTime.date }
  authorityRules := {}
  roles := (List.range n).map (chainRole n)
  segregationOfDuties := {}

theorem chainName_injective : Function.Injective chainName := by
  intro i j h
  have hlength := congrArg List.length (String.ofList_injective h)
  rwa [List.length_replicate, List.length_replicate] at hlength

theorem mem_chainOf {n i : ℕ} (h : i < n) : chainRole n i ∈ (chainOf n).roles :=
  List.mem_map_of_mem (List.mem_range.mpr h)

theorem inherits_chainOf {n i : ℕ} (h : i + 1 < n) :
    Inherits (chainOf n).roles (chainName i) (chainName (i + 1)) := by
  have hnodup : ((chainOf n).roles.map (·.name)).Nodup := by
    rw [chainOf, List.map_map]
    exact List.nodup_range.map chainName_injective
  refine ⟨chainRole n i, roleNamed_of_mem hnodup (mem_chainOf (by omega)), ?_⟩
  rw [chainRole, if_pos h]
  exact List.mem_singleton_self _

theorem isChain_chainOf (n : ℕ) :
    List.IsChain (Inherits (chainOf n).roles) ((List.range n).map chainName) := by
  rw [List.isChain_iff_getElem]
  intro i hi
  rw [List.getElem_map, List.getElem_map, List.getElem_range, List.getElem_range]
  exact inherits_chainOf (by simpa using hi)

/-- The calls nest through all of them. -/
theorem nestsWithin_chainOf {n limit : ℕ}
    (h : NestsWithin (Inherits (chainOf (n + 1)).roles) limit [] (chainName 0)) : n + 1 ≤ limit := by
  have hnames : (List.range (n + 1)).map chainName =
      chainName 0 :: (List.range n).map fun i => chainName (i + 1) := by
    rw [List.range_succ_eq_map, List.map_cons, List.map_map]
    rfl
  have hchain := isChain_chainOf (n + 1)
  have hnodup := (List.nodup_range (n := n + 1)).map chainName_injective
  rw [hnames] at hchain hnodup
  have hlength := h _ hchain ((List.dropLast_sublist _).nodup hnodup)
  simpa using hlength

theorem not_sound_chainOf (n : ℕ) : ¬Sound n (chainOf (n + 1)) := by
  rintro ⟨⟨⟨errors, compiled⟩, hresult⟩, -⟩
  obtain ⟨result, hdepth, -⟩ := (compileRbac_eq_ok hresult).1 _ (mem_chainOf n.succ_pos)
  have hnests := nestsWithin_chainOf ((exists_resolveDepth_iff List.nodup_nil).mp ⟨result, hdepth⟩)
  omega

/-- One role more than Python nests calls by default, and a depth limit of two: instead of an error
in the list there is an exception. -/
theorem long_chain_raises :
    List.IsChain (Inherits (chainOf 1001).roles) ((List.range 1001).map chainName) ∧
      (chainOf 1001).hierarchyRules.inheritanceDepthLimit = 2 ∧ ¬Sound 1000 (chainOf 1001) :=
  ⟨isChain_chainOf 1001, rfl, not_sound_chainOf 1000⟩

end Chains

end FinanceAccounting.Config
