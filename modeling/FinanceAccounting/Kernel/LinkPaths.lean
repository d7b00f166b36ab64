import Mathlib.Data.List.Dedup
import FinanceAccounting.Kernel.LinkGraph
import FinanceAccounting.Library.Traversals
import FinanceAccounting.Library.Walks

/-! # Paths through the link graph

`LinkGraphService.walk_path` fetches the links that a query can reach and builds paths from them.
The recursion goes on at the child of a link, whatever the direction; so paths to the children are the
maximal walks, and paths to the parents are only up to a depth of one (`walkPath_exact_iff`). -/

namespace FinanceAccounting.LinkGraph

open Walks (IsWalk Maximal walks endpoint)

/-! ### Queries and paths -/

inductive Direction where
  | children
  | parents
  | both
deriving DecidableEq, Repr

structure LinkQuery where
  startingRef : ArtifactRef
  linkTypes : Option (List LinkType) := none
  direction : Direction := .children
  maxDepth : ℤ := 1

/-- A path has one artifact more than links. -/
structure LinkPath where
  artifacts : List ArtifactRef
  links : List EconomicLink
  length_artifacts : artifacts.length = links.length + 1

/-- The path without links. -/
def LinkPath.single (ref : ArtifactRef) : LinkPath where
  artifacts := [ref]
  links := []
  length_artifacts := rfl

/-- One link more. -/
def LinkPath.extend (p : LinkPath) (ref : ArtifactRef) (link : EconomicLink) : LinkPath where
  artifacts := p.artifacts ++ [ref]
  links := p.links ++ [link]
  length_artifacts := by rw [List.length_append, List.length_append, p.length_artifacts]; rfl

/-! ### Fetching the links -/

section Fetch

variable (table : LinkTable) (q : LinkQuery)

/-- No set of types, or an empty one, admits every link. -/
def LinkQuery.admits (link : EconomicLink) : Bool :=
  match q.linkTypes with
  | none | some [] => true
  | some types => link.linkType ∈ types

def LinkQuery.down : Bool := q.direction = .children || q.direction = .both

def LinkQuery.up : Bool := q.direction = .parents || q.direction = .both

/-- The links that the query follows from an artifact. -/
def linksAt (ref : ArtifactRef) : LinkTable :=
  (if q.down then table.filter fun l => l.parentRef = ref && q.admits l else []) ++
    (if q.up then table.filter fun l => l.childRef = ref && q.admits l else [])

/-- The links of the artifacts of one depth that were not visited before. -/
def depthLinks (visited : LinkTable) (refs : List ArtifactRef) : LinkTable :=
  refs.flatMap fun ref =>
    (linksAt table q ref).filter fun l => l.linkId ∉ visited.map (·.linkId)

/-- Every link once. -/
def addVisited (visited found : LinkTable) : LinkTable :=
  found.foldl (fun visited l =>
    if l.linkId ∈ visited.map (·.linkId) then visited else visited ++ [l]) visited

/-- The artifacts of the next depth. -/
def nextRefs (found : LinkTable) : List ArtifactRef :=
  (found.flatMap fun l =>
    (if q.down then [l.childRef] else []) ++ if q.up then [l.parentRef] else []).dedup

/-- `_iterative_traversal`, with so many depths to go. -/
def iterativeTraversal : ℕ → List ArtifactRef → LinkTable → LinkTable
  | 0, _, visited => visited
  | n + 1, refs, visited =>
      let found := depthLinks table q visited refs
      if found.isEmpty then visited
      else iterativeTraversal n (nextRefs q found) (addVisited visited found)

/-- `_fetch_reachable_links`. -/
def fetchReachableLinks : LinkTable :=
  if q.maxDepth = 1 then
    table.filter fun l => l.linkId ∈ (linksAt table q q.startingRef).map (·.linkId)
  else iterativeTraversal table q q.maxDepth.toNat [q.startingRef] []

end Fetch

/-! ### Building the paths -/

section Build

variable (links : LinkTable) (direction : Direction)

/-- The links that the adjacency map of the direction has for an artifact. -/
def adjacent (ref : ArtifactRef) : LinkTable :=
  match direction with
  | .parents => links.filter (·.childRef = ref)
  | _ => links.filter (·.parentRef = ref)

/-- The artifact that a link adds to a path. -/
def getNext (link : EconomicLink) : ArtifactRef :=
  match direction with
  | .parents => link.parentRef
  | _ => link.childRef

/-- `build_path`; the first argument bounds the nesting of calls. -/
def buildPath (maxDepth : ℕ) : ℕ → ArtifactRef → LinkPath → ℕ → Except LinkError (List LinkPath)
  | 0, _, _, _ => .error .recursionError
  | calls + 1, current, path, depth =>
      let next := adjacent links direction current
      if maxDepth ≤ depth || next.isEmpty then .ok [path]
      else
        (next.mapM fun link =>
          buildPath maxDepth calls link.childRef (path.extend (getNext direction link) link)
            (depth + 1)).map List.flatten

/-- `_build_paths`. -/
def buildPaths (recursionLimit : ℕ) (startingRef : ArtifactRef) (maxDepth : ℕ) :
    Except LinkError (List LinkPath) :=
  if links.isEmpty then .ok [LinkPath.single startingRef]
  else
    (buildPath links direction maxDepth (recursionLimit + 1) startingRef
      (LinkPath.single startingRef) 0).map fun paths =>
        if paths.isEmpty then [LinkPath.single startingRef] else paths

end Build

/-- `walk_path`; `build_path` may call itself to a depth of `recursionLimit`. -/
def walkPath (recursionLimit : ℕ) (table : LinkTable) (q : LinkQuery) :
    Except LinkError (List LinkPath) :=
  if q.maxDepth < 1 then .ok [LinkPath.single q.startingRef]
  else
    buildPaths (fetchReachableLinks table q) q.direction recursionLimit q.startingRef
      q.maxDepth.toNat

/-! ### The law -/

section Law

variable (table : LinkTable) (q : LinkQuery)

/-- The artifact that a link leads to. -/
def farEnd (link : EconomicLink) : ArtifactRef := getNext q.direction link

/-- The maximal directed walks of a query. -/
def IsWalkOf (links : List EconomicLink) : Prop :=
  0 ≤ q.maxDepth ∧ Maximal (linksAt table q) (farEnd q) q.maxDepth.toNat q.startingRef links

/-- **The paths are exactly the maximal walks**, each with the artifacts it passes. -/
def WalksExactly (recursionLimit : ℕ) : Prop :=
  ∃ paths, walkPath recursionLimit table q = .ok paths ∧
    ∀ p : LinkPath, p ∈ paths ↔
      IsWalkOf table q p.links ∧ p.artifacts = q.startingRef :: p.links.map (farEnd q)

/-- No walk is deeper than the nesting of calls may be, and walks to the parents have a depth of at
most one, or there are none. -/
def Walkable (recursionLimit : ℕ) : Prop :=
  0 ≤ q.maxDepth ∧
    (∀ links, IsWalk (linksAt table q) (farEnd q) q.startingRef links →
      links.length ≤ q.maxDepth.toNat → links.length ≤ recursionLimit) ∧
    (q.direction = .children ∨ q.maxDepth ≤ 1 ∨ linksAt table q q.startingRef = [])

end Law

/-! ### What is fetched -/

section Fetched

variable {table visited found : LinkTable} {q : LinkQuery} {l : EconomicLink} {ref : ArtifactRef}
variable {refs : List ArtifactRef}

/-- The artifact that a link starts from. -/
def nearEnd (q : LinkQuery) (link : EconomicLink) : ArtifactRef :=
  match q.direction with
  | .parents => link.childRef
  | _ => link.parentRef

/-- In one direction the links at an artifact are those that start from it. -/
theorem mem_linksAt (hq : q.direction ≠ .both) :
    l ∈ linksAt table q ref ↔ l ∈ table ∧ nearEnd q l = ref ∧ q.admits l = true := by
  unfold linksAt LinkQuery.down LinkQuery.up nearEnd
  cases hdirection : q.direction with
  | children => simp
  | parents => simp
  | both => exact absurd hdirection hq

theorem mem_adjacent {links : LinkTable} :
    l ∈ adjacent links q.direction ref ↔ l ∈ links ∧ nearEnd q l = ref := by
  unfold adjacent nearEnd
  cases q.direction <;> simp

/-- The identifier of a link identifies it. -/
theorem mem_of_linkId (hnodup : (table.map (·.linkId)).Nodup) (hvisited : visited ⊆ table)
    (hl : l ∈ table) (hid : l.linkId ∈ visited.map (·.linkId)) : l ∈ visited := by
  obtain ⟨l', hl', heq⟩ := List.mem_map.mp hid
  rw [← List.inj_on_of_nodup_map hnodup (hvisited hl') hl heq]
  exact hl'

theorem mem_addVisited (h : l ∈ addVisited visited found) : l ∈ visited ∨ l ∈ found := by
  unfold addVisited at h
  induction found generalizing visited with
  | nil => exact Or.inl h
  | cons x found ih =>
      rw [List.foldl_cons] at h
      rcases ih h with hmem | hmem
      · split at hmem
        · exact Or.inl hmem
        · rcases List.mem_append.mp hmem with hold | hnew
          · exact Or.inl hold
          · rw [List.mem_singleton.mp hnew]
            exact Or.inr List.mem_cons_self
      · exact Or.inr (List.mem_cons_of_mem x hmem)

theorem subset_addVisited : visited ⊆ addVisited visited found := by
  unfold addVisited
  induction found generalizing visited with
  | nil => exact List.Subset.refl visited
  | cons x found ih =>
      intro l hl
      rw [List.foldl_cons]
      refine ih ?_
      split
      · exact hl
      · exact List.mem_append_left _ hl

theorem linkId_addVisited (h : l ∈ found) :
    l.linkId ∈ (addVisited visited found).map (·.linkId) := by
  induction found generalizing visited with
  | nil => cases h
  | cons x found ih =>
      rcases List.mem_cons.mp h with rfl | hmem
      · have hhere : l.linkId ∈ (if l.linkId ∈ visited.map (·.linkId) then visited
            else visited ++ [l]).map (·.linkId) := by
          split
          · assumption
          · rw [List.map_append]
            exact List.mem_append_right _ List.mem_cons_self
        obtain ⟨l', hl', heq⟩ := List.mem_map.mp hhere
        have hgrown : l' ∈ addVisited (if l.linkId ∈ visited.map (·.linkId) then visited
            else visited ++ [l]) found := subset_addVisited hl'
        exact List.mem_map.mpr ⟨l', hgrown, heq⟩
      · exact ih hmem

theorem subset_iterativeTraversal (n : ℕ) : visited ⊆ iterativeTraversal table q n refs visited := by
  induction n generalizing refs visited with
  | zero => exact List.Subset.refl visited
  | succ n ih =>
      unfold iterativeTraversal
      dsimp only
      split
      · exact List.Subset.refl visited
      · exact fun l hl => ih (subset_addVisited hl)

theorem mem_depthLinks (h : l ∈ depthLinks table q visited refs) : ∃ ref, l ∈ linksAt table q ref := by
  obtain ⟨ref, -, hl⟩ := List.mem_flatMap.mp h
  exact ⟨ref, (List.mem_filter.mp hl).1⟩

/-- Only links of the table that the query admits are fetched. -/
theorem iterativeTraversal_sound (n : ℕ) (hvisited : ∀ l ∈ visited, ∃ ref, l ∈ linksAt table q ref) :
    ∀ l ∈ iterativeTraversal table q n refs visited, ∃ ref, l ∈ linksAt table q ref := by
  induction n generalizing refs visited with
  | zero => exact hvisited
  | succ n ih =>
      unfold iterativeTraversal
      dsimp only
      split
      · exact hvisited
      · refine ih fun l hl => ?_
        rcases mem_addVisited hl with hold | hnew
        · exact hvisited l hold
        · exact mem_depthLinks hnew

/-- The links at an artifact have been visited, or are to be visited next. -/
def Covered (table : LinkTable) (q : LinkQuery) (refs : List ArtifactRef) (visited : LinkTable)
    (ref : ArtifactRef) : Prop :=
  ref ∈ refs ∨ linksAt table q ref ⊆ visited

/-- One depth visits the links at the artifacts that are next. -/
theorem linksAt_subset_addVisited (hq : q.direction ≠ .both)
    (hnodup : (table.map (·.linkId)).Nodup) (hvisited : visited ⊆ table)
    (href : Covered table q refs visited ref) :
    linksAt table q ref ⊆ addVisited visited (depthLinks table q visited refs) := by
  rcases href with hmem | hsubset
  · intro l hl
    have hl' : l ∈ table := ((mem_linksAt hq).mp hl).1
    by_cases hid : l.linkId ∈ visited.map (·.linkId)
    · exact subset_addVisited (mem_of_linkId hnodup hvisited hl' hid)
    · have hfound : l ∈ depthLinks table q visited refs :=
        List.mem_flatMap.mpr ⟨ref, hmem, List.mem_filter.mpr ⟨hl, decide_eq_true hid⟩⟩
      refine mem_of_linkId hnodup (fun x hx => ?_) hl' (linkId_addVisited hfound)
      rcases mem_addVisited hx with hold | hnew
      · exact hvisited hold
      · obtain ⟨_, hx'⟩ := mem_depthLinks hnew
        exact ((mem_linksAt hq).mp hx').1
  · exact fun l hl => subset_addVisited (hsubset hl)

/-- What a link of this depth leads to is next. -/
theorem farEnd_mem_nextRefs (hq : q.direction ≠ .both) (h : l ∈ found) :
    farEnd q l ∈ nextRefs q found := by
  unfold nextRefs farEnd getNext LinkQuery.down LinkQuery.up
  rw [List.mem_dedup, List.mem_flatMap]
  refine ⟨l, h, ?_⟩
  cases hdirection : q.direction with
  | children => simp
  | parents => simp
  | both => exact absurd hdirection hq

/-- A walk does not leave links that are closed. -/
theorem mem_of_closed (hclosed : ∀ x ∈ visited, linksAt table q (farEnd q x) ⊆ visited) :
    ∀ (es : List EconomicLink) (e : EconomicLink), e ∈ visited →
      IsWalk (linksAt table q) (farEnd q) (farEnd q e) es → ∀ l ∈ e :: es, l ∈ visited := by
  intro es
  induction es with
  | nil =>
      intro e he _ l hl
      rw [List.mem_singleton.mp hl]
      exact he
  | cons e' es ih =>
      intro e he hwalk l hl
      rcases List.mem_cons.mp hl with rfl | hl'
      · exact he
      · exact ih e' (hclosed e he hwalk.1) hwalk.2 l hl'

/-- **The traversal visits every link of a walk** that is no longer than its depth; every visited link
leads to an artifact that is covered. -/
theorem iterativeTraversal_complete (hq : q.direction ≠ .both)
    (hnodup : (table.map (·.linkId)).Nodup) (n : ℕ) :
    ∀ (refs : List ArtifactRef) (visited : LinkTable) (ref : ArtifactRef) (es : List EconomicLink),
      visited ⊆ table → (∀ l ∈ visited, Covered table q refs visited (farEnd q l)) →
        Covered table q refs visited ref → IsWalk (linksAt table q) (farEnd q) ref es →
          es.length ≤ n → ∀ l ∈ es, l ∈ iterativeTraversal table q n refs visited := by
  induction n with
  | zero =>
      intro refs visited ref es _ _ _ _ hle l hl
      rw [List.length_eq_zero_iff.mp (Nat.le_zero.mp hle)] at hl
      cases hl
  | succ n ih =>
      intro refs visited ref es hvisited hcovered href hwalk hle l hl
      have hgrown : addVisited visited (depthLinks table q visited refs) ⊆ table := by
        intro x hx
        rcases mem_addVisited hx with hold | hnew
        · exact hvisited hold
        · obtain ⟨_, hx'⟩ := mem_depthLinks hnew
          exact ((mem_linksAt hq).mp hx').1
      have hnext : ∀ x ∈ addVisited visited (depthLinks table q visited refs),
          Covered table q (nextRefs q (depthLinks table q visited refs))
            (addVisited visited (depthLinks table q visited refs)) (farEnd q x) := by
        intro x hx
        rcases mem_addVisited hx with hold | hnew
        · exact Or.inr (linksAt_subset_addVisited hq hnodup hvisited (hcovered x hold))
        · exact Or.inl (farEnd_mem_nextRefs hq hnew)
      cases es with
      | nil => cases hl
      | cons e es =>
          obtain ⟨he, hrest⟩ := hwalk
          rw [List.length_cons] at hle
          have hmem : e ∈ addVisited visited (depthLinks table q visited refs) :=
            linksAt_subset_addVisited hq hnodup hvisited href he
          unfold iterativeTraversal
          dsimp only
          split
          · rename_i hempty
            -- nothing new is at the artifacts that are next: what was visited is closed
            have hnone : depthLinks table q visited refs = [] := List.isEmpty_iff.mp hempty
            have hsame : addVisited visited (depthLinks table q visited refs) = visited := by
              rw [hnone]
              rfl
            have hclosed : ∀ x ∈ visited, linksAt table q (farEnd q x) ⊆ visited := by
              intro x hx
              have hsubset := linksAt_subset_addVisited hq hnodup hvisited (hcovered x hx)
              rwa [hsame] at hsubset
            rw [hsame] at hmem
            exact mem_of_closed hclosed es e hmem hrest l hl
          · rcases List.mem_cons.mp hl with rfl | hl'
            · exact subset_iterativeTraversal n hmem
            · exact ih _ _ (farEnd q e) es hgrown hnext (hnext e hmem) hrest (by omega) l hl'

/-- **What is fetched are the links in reach.** -/
theorem mem_adjacent_fetched (hq : q.direction ≠ .both) (hnodup : (table.map (·.linkId)).Nodup)
    {es : List EconomicLink} (hwalk : IsWalk (linksAt table q) (farEnd q) q.startingRef es)
    (hlt : es.length < q.maxDepth.toNat) (e : EconomicLink) :
    e ∈ adjacent (fetchReachableLinks table q) q.direction (endpoint (farEnd q) q.startingRef es) ↔
      e ∈ linksAt table q (endpoint (farEnd q) q.startingRef es) := by
  rw [mem_adjacent]
  unfold fetchReachableLinks
  split
  · rename_i hone
    have hnil : es = [] := by
      rw [hone] at hlt
      exact List.length_eq_zero_iff.mp (by simpa using hlt)
    rw [hnil, endpoint, List.mem_filter]
    constructor
    · rintro ⟨⟨he, hid⟩, -⟩
      refine mem_of_linkId hnodup (fun x hx => ((mem_linksAt hq).mp hx).1) he ?_
      exact of_decide_eq_true hid
    · intro he
      obtain ⟨hmem, hnear, -⟩ := (mem_linksAt hq).mp he
      exact ⟨⟨hmem, decide_eq_true (List.mem_map_of_mem he)⟩, hnear⟩
  · constructor
    · rintro ⟨he, hnear⟩
      obtain ⟨ref, href⟩ := iterativeTraversal_sound _
        (fun l hl => absurd hl List.not_mem_nil) e he
      obtain ⟨hmem, -, hadmits⟩ := (mem_linksAt hq).mp href
      exact (mem_linksAt hq).mpr ⟨hmem, hnear, hadmits⟩
    · intro he
      refine ⟨?_, ((mem_linksAt hq).mp he).2.1⟩
      refine iterativeTraversal_complete hq hnodup _ _ _ q.startingRef (es ++ [e])
        (List.nil_subset table) (fun l hl => absurd hl List.not_mem_nil) (Or.inl List.mem_cons_self)
        (Walks.isWalk_concat.mpr ⟨hwalk, he⟩) ?_ e (List.mem_append_right _ List.mem_cons_self)
      rw [List.length_append, List.length_singleton]
      omega

/-- At the start of the query. -/
theorem mem_adjacent_start (hq : q.direction ≠ .both) (hnodup : (table.map (·.linkId)).Nodup)
    (hpos : 0 < q.maxDepth) (e : EconomicLink) :
    e ∈ adjacent (fetchReachableLinks table q) q.direction q.startingRef ↔
      e ∈ linksAt table q q.startingRef := by
  have hwalk : IsWalk (linksAt table q) (farEnd q) q.startingRef [] := trivial
  exact mem_adjacent_fetched hq hnodup hwalk (by simpa using hpos) e

end Fetched

/-! ### What is built -/

section Built

variable {links : LinkTable} {direction : Direction} {path : LinkPath} {es : List EconomicLink}
variable {paths : List LinkPath} {maxDepth calls depth : ℕ} {current : ArtifactRef}

/-- The links in their order. -/
def LinkPath.extendAll (direction : Direction) (p : LinkPath) (es : List EconomicLink) : LinkPath :=
  es.foldl (fun p l => p.extend (getNext direction l) l) p

theorem links_extendAll : (path.extendAll direction es).links = path.links ++ es := by
  unfold LinkPath.extendAll
  induction es generalizing path with
  | nil => exact (List.append_nil _).symm
  | cons e es ih =>
      rw [List.foldl_cons, ih]
      simp [LinkPath.extend]

theorem artifacts_extendAll : (path.extendAll direction es).artifacts =
    path.artifacts ++ es.map (getNext direction) := by
  unfold LinkPath.extendAll
  induction es generalizing path with
  | nil => exact (List.append_nil _).symm
  | cons e es ih =>
      rw [List.foldl_cons, ih]
      simp [LinkPath.extend]

theorem LinkPath.ext {p p' : LinkPath} (hartifacts : p.artifacts = p'.artifacts)
    (hlinks : p.links = p'.links) : p = p' := by
  cases p
  cases p'
  simp only at hartifacts hlinks
  subst hartifacts hlinks
  rfl

/-- The walks on which `build_path` goes, in its order: it goes on at the child of a link. -/
def builtWalks (links : LinkTable) (direction : Direction) (n : ℕ) (current : ArtifactRef) :
    List (List EconomicLink) :=
  walks (adjacent links direction) EconomicLink.childRef n current

/-- `build_path` returns the paths of its walks when the calls suffice. -/
theorem buildPath_of_calls (hcalls : ∀ es ∈ builtWalks links direction (maxDepth - depth) current,
      es.length < calls) :
    buildPath links direction maxDepth calls current path depth =
      .ok ((builtWalks links direction (maxDepth - depth) current).map
        (path.extendAll direction)) := by
  induction calls generalizing current path depth with
  | zero =>
      obtain ⟨es, hes, -⟩ := @Walks.exists_maximal _ _ (adjacent links direction)
        EconomicLink.childRef (maxDepth - depth) current [] trivial (Nat.zero_le _)
      exact absurd (hcalls es (Walks.mem_walks.mpr hes)) (Nat.not_lt_zero _)
  | succ calls ih =>
      unfold buildPath
      dsimp only
      by_cases hdepth : maxDepth ≤ depth
      · rw [decide_eq_true hdepth, Bool.true_or, if_pos rfl, Nat.sub_eq_zero_of_le hdepth]
        rfl
      · cases hnext : adjacent links direction current with
        | nil =>
            rw [List.isEmpty_nil, Bool.or_true, if_pos rfl, builtWalks, Walks.walks_of_nil hnext]
            rfl
        | cons l next =>
            have hn : maxDepth - depth = (maxDepth - (depth + 1)) + 1 := by omega
            have hne : adjacent links direction current ≠ [] := by
              rw [hnext]
              exact List.cons_ne_nil l next
            rw [decide_eq_false hdepth, List.isEmpty_cons, Bool.or_false, if_neg Bool.false_ne_true,
              ← hnext]
            have hbuilt : ∀ link ∈ adjacent links direction current,
                buildPath links direction maxDepth calls link.childRef
                  (path.extend (getNext direction link) link) (depth + 1) =
                .ok ((builtWalks links direction (maxDepth - (depth + 1)) link.childRef).map
                  ((path.extend (getNext direction link) link).extendAll direction)) := by
              intro link hlink
              refine ih fun es hes => ?_
              have hlonger := hcalls (link :: es) (by
                rw [hn]
                exact Walks.mem_walks.mpr
                  (Walks.maximal_cons.mpr ⟨hlink, Walks.mem_walks.mp hes⟩))
              rw [List.length_cons] at hlonger
              omega
            rw [Traversals.mapM_of_forall hbuilt, Except.map, ← List.flatMap_def, hn, builtWalks, walks,
              if_neg hne, List.map_flatMap]
            refine congrArg Except.ok (List.flatMap_congr fun link _ => ?_)
            rw [List.map_map]
            rfl

/-- Paths that are returned needed no more calls than there were. -/
theorem length_lt_of_buildPath
    (h : buildPath links direction maxDepth calls current path depth = .ok paths) :
    ∀ es ∈ builtWalks links direction (maxDepth - depth) current, es.length < calls := by
  induction calls generalizing current path depth paths with
  | zero => cases h
  | succ calls ih =>
      intro es hes
      cases es with
      | nil => exact Nat.succ_pos calls
      | cons e es =>
          have hmax := Walks.mem_walks.mp hes
          have hlength := hmax.length_le
          rw [List.length_cons] at hlength
          have hn : maxDepth - depth = (maxDepth - (depth + 1)) + 1 := by omega
          rw [hn] at hmax
          obtain ⟨he, hrest⟩ := Walks.maximal_cons.mp hmax
          unfold buildPath at h
          dsimp only at h
          have hdepth : ¬maxDepth ≤ depth := by omega
          have hne : (adjacent links direction current).isEmpty = false :=
            List.isEmpty_eq_false_iff_exists_mem.mpr ⟨e, he⟩
          rw [decide_eq_false hdepth, hne, Bool.or_false, if_neg Bool.false_ne_true] at h
          obtain ⟨lists, hlists, -⟩ := Traversals.map_eq_ok.mp h
          obtain ⟨ps, -, hps⟩ := (Traversals.mem_of_mapM hlists).1 e he
          have hlt := ih hps es (Walks.mem_walks.mpr hrest)
          rw [List.length_cons]
          omega

/-- **What the paths of `_build_paths` are**: those of its walks, if the calls suffice. -/
theorem buildPaths_eq_ok {recursionLimit : ℕ} {start : ArtifactRef} :
    buildPaths links direction recursionLimit start maxDepth = .ok paths ↔
      (∀ es ∈ builtWalks links direction maxDepth start, es.length ≤ recursionLimit) ∧
        paths = (builtWalks links direction maxDepth start).map
          ((LinkPath.single start).extendAll direction) := by
  unfold buildPaths
  cases hlinks : links with
  | nil =>
      have hnil : adjacent [] direction start = [] := by
        unfold adjacent
        cases direction <;> rfl
      rw [List.isEmpty_nil, if_pos rfl, builtWalks, Walks.walks_of_nil hnil]
      constructor
      · intro h
        refine ⟨fun es hes => ?_, (Except.ok.inj h).symm⟩
        rw [List.mem_singleton.mp hes]
        exact Nat.zero_le _
      · rintro ⟨-, rfl⟩
        rfl
  | cons l rest =>
      rw [List.isEmpty_cons, if_neg Bool.false_ne_true, ← hlinks, Traversals.map_eq_ok]
      have hsome : builtWalks links direction maxDepth start ≠ [] := by
        obtain ⟨es, hes, -⟩ := @Walks.exists_maximal _ _ (adjacent links direction)
          EconomicLink.childRef maxDepth start [] trivial (Nat.zero_le _)
        exact List.ne_nil_of_mem (Walks.mem_walks.mpr hes)
      have hfilled : ∀ built : List LinkPath, built =
          (builtWalks links direction maxDepth start).map
            ((LinkPath.single start).extendAll direction) →
          (if built.isEmpty then [LinkPath.single start] else built) = built := by
        rintro built rfl
        refine if_neg fun hempty => hsome ?_
        exact List.map_eq_nil_iff.mp (List.isEmpty_iff.mp hempty)
      constructor
      · rintro ⟨built, hbuilt, rfl⟩
        have hcalls := length_lt_of_buildPath hbuilt
        have hok := @buildPath_of_calls links direction (LinkPath.single start) maxDepth
          (recursionLimit + 1) 0 start hcalls
        rw [hbuilt] at hok
        refine ⟨fun es hes => Nat.lt_succ_iff.mp (hcalls es hes), ?_⟩
        exact (hfilled built (Except.ok.inj hok)).trans (Except.ok.inj hok)
      · rintro ⟨hcalls, rfl⟩
        refine ⟨_, ?_, hfilled _ rfl⟩
        exact @buildPath_of_calls links direction (LinkPath.single start) maxDepth
          (recursionLimit + 1) 0 start fun es hes => Nat.lt_succ_of_le (hcalls es hes)

/-- A path is among them when its links are a walk and its artifacts those that the walk passes. -/
theorem mem_map_extendAll {start : ArtifactRef} {ess : List (List EconomicLink)} {p : LinkPath} :
    p ∈ ess.map ((LinkPath.single start).extendAll direction) ↔
      p.links ∈ ess ∧ p.artifacts = start :: p.links.map (getNext direction) := by
  have hparts : ∀ es, ((LinkPath.single start).extendAll direction es).links = es ∧
      ((LinkPath.single start).extendAll direction es).artifacts =
        start :: es.map (getNext direction) :=
    fun es => ⟨links_extendAll, artifacts_extendAll⟩
  rw [List.mem_map]
  constructor
  · rintro ⟨es, hes, rfl⟩
    rw [(hparts es).1, (hparts es).2]
    exact ⟨hes, rfl⟩
  · rintro ⟨hmem, hartifacts⟩
    refine ⟨p.links, hmem, LinkPath.ext ?_ (hparts p.links).1⟩
    rw [(hparts p.links).2, hartifacts]

end Built

/-! ### The theorem -/

section Exact

variable {recursionLimit : ℕ} {table : LinkTable} {q : LinkQuery}

/-- At a depth of zero there is the path without links. -/
theorem walksExactly_of_lt (hdepth : q.maxDepth < 1) :
    WalksExactly table q recursionLimit ↔ 0 ≤ q.maxDepth := by
  have hpaths : walkPath recursionLimit table q = .ok [LinkPath.single q.startingRef] :=
    if_pos hdepth
  unfold WalksExactly IsWalkOf
  constructor
  · rintro ⟨paths, hok, h⟩
    obtain rfl := Except.ok.inj (hpaths.symm.trans hok)
    exact ((h _).mp List.mem_cons_self).1.1
  · intro hnonneg
    have hzero : q.maxDepth.toNat = 0 := by omega
    refine ⟨_, hpaths, fun p => ?_⟩
    rw [List.mem_singleton, hzero]
    constructor
    · rintro rfl
      exact ⟨⟨hnonneg, Walks.maximal_nil.mpr (Or.inl rfl)⟩, rfl⟩
    · rintro ⟨⟨-, hmax⟩, hartifacts⟩
      have hlinks : p.links = [] := List.length_eq_zero_iff.mp (Nat.le_zero.mp hmax.length_le)
      rw [hlinks] at hartifacts
      exact LinkPath.ext hartifacts hlinks

/-- From a depth of one on, the paths are exact when the walks on which `build_path` goes are the
maximal ones, and the calls suffice. -/
theorem walksExactly_iff_built (hdepth : 1 ≤ q.maxDepth) :
    WalksExactly table q recursionLimit ↔
      (∀ es ∈ builtWalks (fetchReachableLinks table q) q.direction q.maxDepth.toNat q.startingRef,
        es.length ≤ recursionLimit) ∧
      ∀ es, es ∈ builtWalks (fetchReachableLinks table q) q.direction q.maxDepth.toNat
          q.startingRef ↔
        Maximal (linksAt table q) (farEnd q) q.maxDepth.toNat q.startingRef es := by
  have hwalk : walkPath recursionLimit table q =
      buildPaths (fetchReachableLinks table q) q.direction recursionLimit q.startingRef
        q.maxDepth.toNat := if_neg (by omega)
  have hnonneg : 0 ≤ q.maxDepth := by omega
  unfold WalksExactly IsWalkOf
  rw [hwalk]
  constructor
  · rintro ⟨paths, hok, h⟩
    obtain ⟨hcalls, rfl⟩ := buildPaths_eq_ok.mp hok
    refine ⟨hcalls, fun es => ?_⟩
    have hpath := h ((LinkPath.single q.startingRef).extendAll q.direction es)
    rw [mem_map_extendAll, links_extendAll, artifacts_extendAll] at hpath
    simp only [LinkPath.single, List.nil_append, List.singleton_append, hnonneg, true_and] at hpath
    constructor
    · exact fun hes => (hpath.mp ⟨hes, trivial⟩).1
    · exact fun hmax => (hpath.mpr ⟨hmax, rfl⟩).1
  · rintro ⟨hcalls, h⟩
    refine ⟨_, buildPaths_eq_ok.mpr ⟨hcalls, rfl⟩, fun p => ?_⟩
    rw [mem_map_extendAll, h]
    exact and_congr_left fun _ => (and_iff_right hnonneg).symm

/-- To the children, and to the parents at a depth of one, these walks are the maximal ones. -/
theorem mem_builtWalks_of_children (hq : q.direction ≠ .both)
    (hnodup : (table.map (·.linkId)).Nodup)
    (hgood : q.direction = .children ∨ q.maxDepth ≤ 1) (es : List EconomicLink) :
    es ∈ builtWalks (fetchReachableLinks table q) q.direction q.maxDepth.toNat q.startingRef ↔
      Maximal (linksAt table q) (farEnd q) q.maxDepth.toNat q.startingRef es := by
  have hfetched : Maximal (adjacent (fetchReachableLinks table q) q.direction) (farEnd q)
      q.maxDepth.toNat q.startingRef es ↔
        Maximal (linksAt table q) (farEnd q) q.maxDepth.toNat q.startingRef es :=
    Walks.maximal_congr fun es hwalk hlt => mem_adjacent_fetched hq hnodup hwalk hlt
  rw [← hfetched, builtWalks, Walks.mem_walks]
  rcases hgood with hchildren | hone
  · have hfar : farEnd q = EconomicLink.childRef := by
      funext l
      unfold farEnd getNext
      rw [hchildren]
    rw [hfar]
  · exact Walks.maximal_of_le_one (by omega)

/-- To the parents at a greater depth, a link is followed by itself. -/
theorem not_exact_of_parents (hq : q.direction = .parents) (hdepth : 2 ≤ q.maxDepth)
    (hnodup : (table.map (·.linkId)).Nodup) {l : EconomicLink}
    (hl : l ∈ linksAt table q q.startingRef) :
    ¬∀ es, es ∈ builtWalks (fetchReachableLinks table q) q.direction q.maxDepth.toNat
        q.startingRef ↔
      Maximal (linksAt table q) (farEnd q) q.maxDepth.toNat q.startingRef es := by
  have hne : q.direction ≠ .both := by
    rw [hq]
    decide
  have hnear : l.childRef = q.startingRef := by
    have hmem := ((mem_linksAt hne).mp hl).2.1
    unfold nearEnd at hmem
    rwa [hq] at hmem
  have hadjacent : l ∈ adjacent (fetchReachableLinks table q) q.direction q.startingRef :=
    (mem_adjacent_start hne hnodup (by omega) l).mpr hl
  have hrepeat : ∀ n, IsWalk (adjacent (fetchReachableLinks table q) q.direction)
      EconomicLink.childRef q.startingRef (List.replicate n l) := by
    intro n
    induction n with
    | zero => trivial
    | succ n ih =>
        rw [List.replicate_succ]
        refine ⟨hadjacent, ?_⟩
        rw [hnear]
        exact ih
  intro h
  have hbuilt : List.replicate q.maxDepth.toNat l ∈ builtWalks (fetchReachableLinks table q)
      q.direction q.maxDepth.toNat q.startingRef :=
    Walks.mem_walks.mpr ⟨hrepeat _, le_of_eq List.length_replicate, Or.inl List.length_replicate⟩
  obtain ⟨n, hn⟩ : ∃ n, q.maxDepth.toNat = n + 2 := ⟨q.maxDepth.toNat - 2, by omega⟩
  have hwalk := ((h _).mp hbuilt).walk
  rw [hn, List.replicate_succ, List.replicate_succ] at hwalk
  have hsecond := ((mem_linksAt hne).mp hwalk.2.1).2.1
  unfold nearEnd farEnd getNext at hsecond
  rw [hq] at hsecond
  exact l.parent_ne_child hsecond.symm

/-- **Paths are exactly the maximal walks** to the children, and to the parents at a depth of at most
one. -/
theorem walkPath_exact_iff (recursionLimit : ℕ) (table : LinkTable) (q : LinkQuery)
    (hnodup : (table.map (·.linkId)).Nodup) (hq : q.direction ≠ .both) :
    WalksExactly table q recursionLimit ↔ Walkable table q recursionLimit := by
  rcases lt_or_ge q.maxDepth 1 with hlt | hge
  · rw [walksExactly_of_lt hlt, Walkable]
    constructor
    · intro hnonneg
      refine ⟨hnonneg, fun links _ hle => hle.trans (by omega), Or.inr (Or.inl (by omega))⟩
    · exact fun h => h.1
  · have hnonneg : 0 ≤ q.maxDepth := by omega
    rw [walksExactly_iff_built hge, Walkable]
    by_cases hgood : q.direction = .children ∨ q.maxDepth ≤ 1
    · have hbuilt := mem_builtWalks_of_children hq hnodup hgood
      constructor
      · rintro ⟨hcalls, -⟩
        refine ⟨hnonneg, fun links hwalk hle => ?_, hgood.imp_right Or.inl⟩
        obtain ⟨es, hes, hlength⟩ := Walks.exists_maximal hwalk hle
        exact hlength.trans (hcalls es ((hbuilt es).mpr hes))
      · rintro ⟨-, hcalls, -⟩
        refine ⟨fun es hes => ?_, hbuilt⟩
        have hmax := (hbuilt es).mp hes
        exact hcalls es hmax.walk hmax.length_le
    · rw [not_or, not_le] at hgood
      obtain ⟨hchildren, hdeep⟩ := hgood
      have hparents : q.direction = .parents := by
        cases hdirection : q.direction with
        | children => exact absurd hdirection hchildren
        | parents => rfl
        | both => exact absurd hdirection hq
      cases hstart : linksAt table q q.startingRef with
      | nil =>
          -- without parents there is the path without links only
          have hfetched : adjacent (fetchReachableLinks table q) q.direction q.startingRef = [] := by
            refine List.eq_nil_iff_forall_not_mem.mpr fun e he => ?_
            have hmem := (mem_adjacent_start hq hnodup (by omega) e).mp he
            rw [hstart] at hmem
            cases hmem
          have hwalks : builtWalks (fetchReachableLinks table q) q.direction q.maxDepth.toNat
              q.startingRef = [[]] := Walks.walks_of_nil hfetched
          have hnone : ∀ es, IsWalk (linksAt table q) (farEnd q) q.startingRef es → es = [] := by
            intro es hwalk
            cases es with
            | nil => rfl
            | cons e es =>
                have he := hwalk.1
                rw [hstart] at he
                cases he
          rw [hwalks]
          refine iff_of_true ⟨fun es hes => ?_, fun es => ?_⟩
            ⟨hnonneg, fun links hwalk _ => ?_, Or.inr (Or.inr rfl)⟩
          · rw [List.mem_singleton.mp hes]
            exact Nat.zero_le _
          · rw [List.mem_singleton]
            constructor
            · rintro rfl
              exact Walks.maximal_nil.mpr (Or.inr hstart)
            · exact fun hmax => hnone es hmax.walk
          · rw [hnone links hwalk]
            exact Nat.zero_le _
      | cons l rest =>
          have hl : l ∈ linksAt table q q.startingRef := by
            rw [hstart]
            exact List.mem_cons_self
          refine iff_of_false (fun h => not_exact_of_parents hparents (by omega) hnodup hl h.2) ?_
          rintro ⟨-, -, hchildren' | hle | hnil⟩
          · exact hchildren hchildren'
          · omega
          · cases hnil

/-! ### A chain of three receipts -/

theorem first_ne_second : (⟨1⟩ : UUID) ≠ ⟨2⟩ := by decide

theorem second_ne_third : (⟨2⟩ : UUID) ≠ ⟨3⟩ := by decide

def sampleChain : LinkTable :=
  [sampleLink ⟨0xa1⟩ ⟨1⟩ ⟨2⟩ first_ne_second, sampleLink ⟨0xa2⟩ ⟨2⟩ ⟨3⟩ second_ne_third]

/-- From the first receipt down. -/
def sampleDescent : LinkQuery where
  startingRef := ⟨.receipt, ⟨1⟩⟩
  maxDepth := 2

/-- From the last receipt up. -/
def sampleAscent : LinkQuery where
  startingRef := ⟨.receipt, ⟨3⟩⟩
  direction := .parents
  maxDepth := 2

theorem nodup_sampleChain : (sampleChain.map (·.linkId)).Nodup := by decide

theorem walkPath_exact_descent :
    WalksExactly sampleChain sampleDescent 1000 ↔ Walkable sampleChain sampleDescent 1000 :=
  walkPath_exact_iff 1000 sampleChain sampleDescent nodup_sampleChain (by decide)

/-- **The path up goes twice through the last link** and never reaches the first receipt. -/
theorem walkPath_ascent_repeats : ¬WalksExactly sampleChain sampleAscent 1000 := by
  rintro ⟨paths, hok, h⟩
  have hpaths : (walkPath 1000 sampleChain sampleAscent).toOption.map
      (List.map fun p => p.links.map (·.linkId)) = some [[⟨0xa2⟩, ⟨0xa2⟩]] := by decide +kernel
  rw [hok] at hpaths
  have hids : paths.map (fun p => p.links.map (·.linkId)) = [[⟨0xa2⟩, ⟨0xa2⟩]] :=
    Option.some.inj hpaths
  obtain ⟨p, hp⟩ := List.exists_mem_of_ne_nil paths fun hnil => by
    rw [hnil] at hids
    cases hids
  have hwalk := ((h p).mp hp).1.2.walk
  have hlinks : p.links.map (·.linkId) = [⟨0xa2⟩, ⟨0xa2⟩] := by
    have hmem := List.mem_map_of_mem (f := fun p : LinkPath => p.links.map (·.linkId)) hp
    rw [hids] at hmem
    exact List.mem_singleton.mp hmem
  obtain ⟨l, l', hll⟩ : ∃ l l', p.links = [l, l'] :=
    List.length_eq_two.mp (by rw [← List.length_map (·.linkId), hlinks]; rfl)
  rw [hll] at hwalk hlinks
  have hlast : l'.linkId = ⟨0xa2⟩ := by
    have hids : l.linkId = ⟨0xa2⟩ ∧ l'.linkId = ⟨0xa2⟩ := by simpa using hlinks
    exact hids.2
  have hfar : farEnd sampleAscent l = ⟨.receipt, ⟨2⟩⟩ := by
    have hall : ∀ x ∈ linksAt sampleChain sampleAscent sampleAscent.startingRef,
        farEnd sampleAscent x = ⟨.receipt, ⟨2⟩⟩ := by decide +kernel
    exact hall l hwalk.1
  have hnext : l'.linkId = ⟨0xa1⟩ := by
    have hall : ∀ x ∈ linksAt sampleChain sampleAscent ⟨.receipt, ⟨2⟩⟩, x.linkId = ⟨0xa1⟩ := by
      decide +kernel
    refine hall l' ?_
    rw [← hfar]
    exact hwalk.2.1
  rw [hnext] at hlast
  exact absurd hlast (by decide)

end Exact

end FinanceAccounting.LinkGraph
