import FinanceAccounting.Library.StepOutcome
import FinanceAccounting.Kernel.CorrectionLaws

/-! # Execution of a plan

A plan is built from one set of checks and executed against another: the types that a
CORRECTED_BY link admits, the cycles it must not close, the one correction an artifact may have,
and the primary key of the links.  `Execution.outcomes` gives the outcome of every step of an
execution from the links before it, and `executeCorrection` ends as these outcomes say
(`tracks_executeCorrection`).  In an unchanged store a plan that can be executed completes exactly
if it is `Executable`; an execution that raises leaves nothing behind exactly if the step that
raises comes before any addition or rolls the session back (`executes_iff`). -/

namespace FinanceAccounting.Correction

open LinkGraph (ArtifactRef ArtifactType LinkType EconomicLink LinkTable TypesAllowed Linked)
open UnitOfWork (Session Result StepOutcome Tracks)
open CorrectionEngine (Request)
open Relation (ReflTransGen)

instance (linkType : LinkType) (parent child : ArtifactRef) :
    Decidable (TypesAllowed linkType parent child) :=
  inferInstanceAs (Decidable (∀ spec ∈ LinkGraph.linkTypeSpecs linkType,
    parent.artifactType ∈ spec.validParentTypes ∧ child.artifactType ∈ spec.validChildTypes))

/-! ### Outcomes -/

namespace Execution

variable (x : Execution) (links : LinkTable)

def entryOutcome (entry : CompensatingEntry) : StepOutcome :=
  match x.journalEntryWriter with
  | none => .kept
  | some writer =>
      match writer entry with
      | .ok _ => .added
      | .error _ => .refused

/-- The correcting entry corrects the artifact already. -/
def corrects (ref : ArtifactRef) : Bool :=
  links.any fun l => l.relationship = (.correctedBy, ref, x.correctionDocRef)

/-- The search for a path from the correcting entry to the artifact ends without one. -/
def acyclic (ref : ArtifactRef) : Bool :=
  if ref = x.correctionDocRef then (x.searchSelf links ref).isSome
  else
    (GraphSearch.search (LinkGraph.childRefs links .correctedBy) ArtifactRef.str ref
      x.recursionLimit x.correctionDocRef ⟨[], []⟩).any fun r => !r.1

/-- The identifiers of the links to the artifacts before. -/
def taken (before : List ArtifactRef) : List UUID :=
  (before.zipIdx.filter fun p => !x.corrects links p.1).map fun p => x.uuid4 p.2

/-- What becomes of the row of a link, as far as everything can be read. -/
def rowOutcome (before : List ArtifactRef) (ref : ArtifactRef) : StepOutcome :=
  if ¬ x.acyclic links ref then .refused
  else if 0 < LinkGraph.countChildren links ref .correctedBy then .refused
  else if x.uuid4 before.length ∈ links.map EconomicLink.linkId ++ x.taken links before then .undone
  else .added

/-- What becomes of the link to an artifact after those of the artifacts before; once the
correcting entry is linked to itself the search for a cycle cannot read its row. -/
def linkOutcome (before : List ArtifactRef) (ref : ArtifactRef) : StepOutcome :=
  if x.corrects links ref then .kept
  else if ¬ TypesAllowed .correctedBy ref x.correctionDocRef then .refused
  else if x.correctionDocRef ∈ before then .refused
  else x.rowOutcome links before ref

def linkOutcomes : List ArtifactRef → List ArtifactRef → List StepOutcome
  | _, [] => []
  | before, ref :: refs => x.linkOutcome links before ref :: linkOutcomes (before ++ [ref]) refs

/-- The outcomes of the writer and of the links to the unwound artifacts. -/
def outcomes (plan : UnwindPlan) : List StepOutcome :=
  plan.compensatingEntries.map x.entryOutcome ++
    x.linkOutcomes links [] (plan.unwound.map AffectedArtifact.ref)

end Execution

/-- The number of rows. -/
def Store.size (store : Store) : ℕ :=
  store.links.length + store.unreadable.length + store.written.length

/-! ### The writer -/

section Writer

variable {x : Execution}

theorem tracks_writeEntries : ∀ (entries : List CompensatingEntry) (s : Session Store),
    Tracks Store.size (entries.map x.entryOutcome) s (x.writeEntries s entries)
  | [], s => Tracks.nil
  | entry :: entries, s => by
      rw [List.map_cons]
      unfold Execution.writeEntries
      cases hwriter : x.journalEntryWriter with
      | none =>
          have hout : x.entryOutcome entry = .kept := by
            unfold Execution.entryOutcome
            rw [hwriter]
          rw [hout]
          exact (tracks_writeEntries entries s).keep
      | some writer =>
          dsimp only
          cases hwrite : writer entry with
          | error e =>
              have hout : x.entryOutcome entry = .refused := by
                unfold Execution.entryOutcome
                rw [hwriter]
                dsimp only
                rw [hwrite]
              rw [hout]
              exact Tracks.refuse _
          | ok entryId =>
              have hout : x.entryOutcome entry = .added := by
                unfold Execution.entryOutcome
                rw [hwriter]
                dsimp only
                rw [hwrite]
              rw [hout]
              refine Tracks.add ?_ ((tracks_writeEntries entries _).map _)
              unfold Store.size
              rw [List.length_append]
              rfl

end Writer

/-! ### The links -/

section Links

variable {x : Execution} {links : LinkTable} {before : List ArtifactRef} {ref : ArtifactRef}

theorem mem_corrects : x.corrects links ref = true ↔
    ∃ l ∈ links, l.relationship = (.correctedBy, ref, x.correctionDocRef) := by
  unfold Execution.corrects
  rw [List.any_eq_true]
  simp only [decide_eq_true_eq]

/-- A link that can be read is no link of the correcting entry to itself. -/
theorem ne_of_corrects (h : x.corrects links ref = true) : ref ≠ x.correctionDocRef := by
  obtain ⟨l, -, hrel⟩ := mem_corrects.mp h
  simp only [EconomicLink.relationship, Prod.mk.injEq] at hrel
  obtain ⟨-, hparent, hchild⟩ := hrel
  intro heq
  exact l.parent_ne_child (by rw [hparent, hchild, heq])

theorem taken_append : x.taken links (before ++ [ref]) =
    x.taken links before ++ if x.corrects links ref then [] else [x.uuid4 before.length] := by
  unfold Execution.taken
  rw [List.zipIdx_append, List.filter_append, List.map_append]
  congr 1
  cases hcorrects : x.corrects links ref with
  | true => simp [hcorrects]
  | false => simp [hcorrects]

/-- The store after the links to some artifacts: `added` are those that can be read. -/
structure Linking (x : Execution) (links : LinkTable) (before : List ArtifactRef)
    (added : List EconomicLink) (store : Store) : Prop where
  links_eq : store.links = links ++ added
  relationship : ∀ l ∈ added, l.relationship = (.correctedBy, l.parentRef, x.correctionDocRef)
  parent : ∀ l ∈ added, l.parentRef ∈ before
  unreached : ∀ l ∈ added,
    ¬ ReflTransGen (Linked links .correctedBy) x.correctionDocRef l.parentRef
  ids : x.correctionDocRef ∉ before → added.map EconomicLink.linkId = x.taken links before
  self : ∀ row ∈ store.unreadable, row.parentRef = x.correctionDocRef
  unreadable_iff : store.unreadable ≠ [] ↔ x.correctionDocRef ∈ before

variable {added : List EconomicLink} {store : Store}

theorem Linking.start (hlinks : store.links = links) (hunreadable : store.unreadable = []) :
    Linking x links [] [] store where
  links_eq := by rw [hlinks, List.append_nil]
  relationship := by simp
  parent := by simp
  unreached := by simp
  ids _ := rfl
  self := by simp [hunreadable]
  unreadable_iff := by simp [hunreadable]

/-- The links that were added have other parents than an artifact that comes later. -/
theorem Linking.parent_ne (hl : Linking x links before added store) (hnew : ref ∉ before)
    {l : EconomicLink} (hmem : l ∈ added) : l.parentRef ≠ ref :=
  fun heq => hnew (heq ▸ hl.parent l hmem)

theorem Linking.findExistingLink (hl : Linking x links before added store) (hnew : ref ∉ before)
    {link : EconomicLink} (hrel : link.relationship = (.correctedBy, ref, x.correctionDocRef)) :
    (LinkGraph.findExistingLink store.links link).isSome = x.corrects links ref := by
  unfold LinkGraph.findExistingLink Execution.corrects
  rw [List.isSome_find?, hl.links_eq, hrel, List.any_append]
  have hadded : (added.any fun l =>
      decide (l.relationship = (.correctedBy, ref, x.correctionDocRef))) = false := by
    rw [List.any_eq_false]
    intro l hmem heq
    simp only [EconomicLink.relationship, decide_eq_true_eq, Prod.mk.injEq] at heq
    exact hl.parent_ne hnew hmem heq.2.1
  rw [hadded, Bool.or_false]

theorem Linking.countChildren (hl : Linking x links before added store) (hnew : ref ∉ before) :
    LinkGraph.countChildren store.links ref .correctedBy =
      LinkGraph.countChildren links ref .correctedBy := by
  unfold LinkGraph.countChildren LinkGraph.getChildren
  rw [hl.links_eq, List.filter_append, List.length_append]
  have hadded : (added.filter fun l => l.parentRef = ref && l.linkType = .correctedBy) = [] := by
    rw [List.filter_eq_nil_iff]
    intro l hmem heq
    rw [Bool.and_eq_true, decide_eq_true_eq] at heq
    exact hl.parent_ne hnew hmem heq.1
  rw [hadded, List.length_nil, Nat.add_zero]

/-- What the correcting entry reaches has the same children as before. -/
theorem Linking.childRefs (hl : Linking x links before added store) {v : ArtifactRef}
    (hv : ReflTransGen (Linked links .correctedBy) x.correctionDocRef v) :
    LinkGraph.childRefs links .correctedBy v = LinkGraph.childRefs store.links .correctedBy v := by
  unfold LinkGraph.childRefs LinkGraph.getChildren
  rw [hl.links_eq, List.filter_append, List.map_append]
  have hadded : (added.filter fun l => l.parentRef = v && l.linkType = .correctedBy) = [] := by
    rw [List.filter_eq_nil_iff]
    intro l hmem heq
    rw [Bool.and_eq_true, decide_eq_true_eq] at heq
    exact hl.unreached l hmem (heq.1 ▸ hv)
  rw [hadded, List.map_nil, List.append_nil]

theorem Linking.search (hl : Linking x links before added store) {v : ArtifactRef}
    (hv : ReflTransGen (Linked links .correctedBy) x.correctionDocRef v) (target : ArtifactRef)
    (depth : ℕ) (st : GraphSearch.SearchState ArtifactRef String) :
    GraphSearch.search (LinkGraph.childRefs store.links .correctedBy) ArtifactRef.str target depth
        v st =
      GraphSearch.search (LinkGraph.childRefs links .correctedBy) ArtifactRef.str target depth
        v st := by
  refine (GraphSearch.search_congr (fun u hu => hl.childRefs (hv.trans ?_)) st).symm
  rwa [LinkGraph.edge_childRefs] at hu

theorem Linking.searchSelf (hl : Linking x links before added store) :
    x.searchSelf store.links x.correctionDocRef = x.searchSelf links x.correctionDocRef := by
  unfold Execution.searchSelf
  cases x.recursionLimit with
  | zero => rfl
  | succ depth =>
      dsimp only
      rw [← hl.childRefs .refl]
      refine GraphSearch.searchAny_congr (fun v hv st => hl.search (.single ?_) _ _ _) _
      exact LinkGraph.mem_childRefs.mp hv

/-! ### One link -/

section Create

variable (linkId creatingEventId : UUID) {parent child : ArtifactRef} (createdAt : Datetime)
  (metadata : Option (List (String × Hashing.PyVal)))

theorem create_of_typesAllowed (hne : parent ≠ child) (h : TypesAllowed .correctedBy parent child) :
    ∃ l, EconomicLink.create linkId .correctedBy parent child creatingEventId createdAt metadata =
        .ok l ∧ l.linkId = linkId ∧ l.linkType = .correctedBy ∧ l.parentRef = parent ∧
          l.childRef = child := by
  have hvalid : ∀ spec ∈ LinkGraph.linkTypeSpecs .correctedBy, spec.validate parent child = [] := by
    intro spec hspec
    obtain ⟨hparent, hchild⟩ := h spec hspec
    unfold LinkGraph.LinkTypeSpec.validate
    rw [if_pos hparent, if_pos hchild, List.append_nil]
  unfold EconomicLink.create
  rw [dif_neg hne, dif_pos hvalid]
  exact ⟨_, rfl, rfl, rfl, rfl, rfl⟩

theorem create_of_not_typesAllowed (hne : parent ≠ child)
    (h : ¬ TypesAllowed .correctedBy parent child) :
    ∃ e, EconomicLink.create linkId .correctedBy parent child creatingEventId createdAt metadata =
      .error e := by
  unfold EconomicLink.create
  rw [dif_neg hne, dif_neg fun hvalid => h (LinkGraph.typesAllowed_of_validate hvalid)]
  exact ⟨_, rfl⟩

end Create

theorem typesAllowed_of_corrects (h : x.corrects links ref = true) :
    TypesAllowed .correctedBy ref x.correctionDocRef := by
  obtain ⟨l, -, hrel⟩ := mem_corrects.mp h
  have htypes := l.typesAllowed
  simp only [EconomicLink.relationship, Prod.mk.injEq] at hrel
  obtain ⟨htype, hparent, hchild⟩ := hrel
  rwa [htype, hparent, hchild] at htypes

theorem Linking.checkAcyclic (hl : Linking x links before added store)
    (hne : ref ≠ x.correctionDocRef) {link : EconomicLink} (htype : link.linkType = .correctedBy)
    (hparent : link.parentRef = ref) (hchild : link.childRef = x.correctionDocRef) :
    (∃ e, LinkGraph.checkAcyclic x.recursionLimit store.links link = .error e) ∧
        x.acyclic links ref = false ∨
      LinkGraph.checkAcyclic x.recursionLimit store.links link = .ok () ∧
        x.acyclic links ref = true ∧ x.correctionDocRef.str ∈ x.searched store.links link := by
  unfold LinkGraph.checkAcyclic LinkGraph.detectCycle Execution.acyclic Execution.searched
  rw [if_neg hne, if_pos (by rw [htype]; decide), htype, hparent, hchild, hl.search .refl]
  cases hsearch : GraphSearch.search (LinkGraph.childRefs links .correctedBy) ArtifactRef.str ref
      x.recursionLimit x.correctionDocRef ⟨[], []⟩ with
  | none => exact Or.inl ⟨⟨_, rfl⟩, rfl⟩
  | some r =>
      obtain ⟨found, st⟩ := r
      cases found with
      | true => exact Or.inl ⟨⟨_, rfl⟩, rfl⟩
      | false =>
          have hstart := (GraphSearch.explored_of_search ArtifactRef.str_injective hsearch).2
          refine Or.inr ⟨rfl, rfl, List.mem_filter.mpr ⟨hstart, decide_eq_true ?_⟩⟩
          exact fun heq => hne (ArtifactRef.str_injective heq).symm

theorem not_reachable_of_acyclic (hne : ref ≠ x.correctionDocRef) (h : x.acyclic links ref = true) :
    ¬ ReflTransGen (Linked links .correctedBy) x.correctionDocRef ref := by
  unfold Execution.acyclic at h
  rw [if_neg hne] at h
  obtain ⟨⟨found, st⟩, hsearch, hfound⟩ := (Option.any_eq_true ..).mp h
  obtain rfl : found = false := by simpa using hfound
  have hno := GraphSearch.not_reachable_of_search LinkGraph.ArtifactRef.str_injective hsearch
  rwa [LinkGraph.edge_childRefs] at hno

theorem Linking.refuses (hl : Linking x links before added store) (hnew : ref ∉ before)
    (hdoc : x.correctionDocRef ∉ before) (hcorrects : x.corrects links ref = false)
    {link : EconomicLink} (hrel : link.relationship = (.correctedBy, ref, x.correctionDocRef)) :
    LinkGraph.refuses store.links link = true ↔
      link.linkId ∈ links.map EconomicLink.linkId ++ x.taken links before := by
  have hnone : (LinkGraph.findExistingLink store.links link).isSome = false := by
    rw [hl.findExistingLink hnew hrel, hcorrects]
  unfold LinkGraph.findExistingLink at hnone
  rw [List.isSome_find?, List.any_eq_false] at hnone
  unfold LinkGraph.refuses
  rw [← hl.ids hdoc, ← List.map_append, ← hl.links_eq, List.any_eq_true, List.mem_map]
  constructor
  · rintro ⟨l, hmem, heq⟩
    rcases (Bool.or_eq_true ..).mp heq with heq | heq
    · exact ⟨l, hmem, of_decide_eq_true heq⟩
    · exact absurd heq (hnone l hmem)
  · rintro ⟨l, hmem, heq⟩
    exact ⟨l, hmem, (Bool.or_eq_true ..).mpr (Or.inl (decide_eq_true heq))⟩

/-- Before the correcting entry is linked to itself every row can be read. -/
theorem Linking.unreadable_eq_nil (hl : Linking x links before added store)
    (hdoc : x.correctionDocRef ∉ before) : store.unreadable = [] :=
  not_not.mp fun hne => hdoc (hl.unreadable_iff.mp hne)

/-- An artifact that is corrected already changes nothing. -/
theorem Linking.keep (hl : Linking x links before added store)
    (hcorrects : x.corrects links ref = true) : Linking x links (before ++ [ref]) added store where
  links_eq := hl.links_eq
  relationship := hl.relationship
  parent l hmem := List.mem_append_left _ (hl.parent l hmem)
  unreached := hl.unreached
  ids hdoc := by
    rw [taken_append, hcorrects, if_pos rfl, List.append_nil]
    exact hl.ids fun hmem => hdoc (List.mem_append_left _ hmem)
  self := hl.self
  unreadable_iff := by
    rw [hl.unreadable_iff, List.mem_append, List.mem_singleton]
    exact ⟨Or.inl, fun h => h.resolve_right (ne_of_corrects hcorrects).symm⟩

/-- A row that can be read is added. -/
theorem Linking.add (hl : Linking x links before added store) (hne : ref ≠ x.correctionDocRef)
    (hcorrects : x.corrects links ref = false) (hacyclic : x.acyclic links ref = true)
    {link : EconomicLink} (hrel : link.relationship = (.correctedBy, ref, x.correctionDocRef))
    (hid : link.linkId = x.uuid4 before.length) :
    Linking x links (before ++ [ref]) (added ++ [link]) 
      { store with links := store.links ++ [link] } where
  links_eq := by
    show store.links ++ [link] = _
    rw [hl.links_eq, List.append_assoc]
  relationship l hmem := by
    rcases List.mem_append.mp hmem with hmem | hmem
    · exact hl.relationship l hmem
    · obtain rfl := List.mem_singleton.mp hmem
      simp only [EconomicLink.relationship, Prod.mk.injEq] at hrel ⊢
      exact ⟨hrel.1, trivial, hrel.2.2⟩
  parent l hmem := by
    rcases List.mem_append.mp hmem with hmem | hmem
    · exact List.mem_append_left _ (hl.parent l hmem)
    · obtain rfl := List.mem_singleton.mp hmem
      simp only [EconomicLink.relationship, Prod.mk.injEq] at hrel
      exact List.mem_append_right _ (List.mem_singleton.mpr hrel.2.1)
  unreached l hmem := by
    rcases List.mem_append.mp hmem with hmem | hmem
    · exact hl.unreached l hmem
    · obtain rfl := List.mem_singleton.mp hmem
      simp only [EconomicLink.relationship, Prod.mk.injEq] at hrel
      rw [hrel.2.1]
      exact not_reachable_of_acyclic hne hacyclic
  ids hdoc := by
    have hids := hl.ids fun hmem => hdoc (List.mem_append_left _ hmem)
    rw [taken_append, hcorrects, List.map_append, hids, List.map_singleton, hid]
    rfl
  self := hl.self
  unreadable_iff := by
    rw [List.mem_append, List.mem_singleton]
    exact hl.unreadable_iff.trans ⟨Or.inl, fun h => h.resolve_right hne.symm⟩

/-- The row of the correcting entry itself is added. -/
theorem Linking.addSelf (hl : Linking x links before added store) {link : CorrectionLink}
    (hparent : link.parentRef = x.correctionDocRef) :
    Linking x links (before ++ [x.correctionDocRef]) added
      { store with unreadable := store.unreadable ++ [link] } where
  links_eq := hl.links_eq
  relationship := hl.relationship
  parent l hmem := List.mem_append_left _ (hl.parent l hmem)
  unreached := hl.unreached
  ids hdoc := absurd (List.mem_append_right _ (List.mem_singleton_self _)) hdoc
  self row hmem := by
    rcases List.mem_append.mp hmem with hmem | hmem
    · exact hl.self row hmem
    · rw [List.mem_singleton.mp hmem]
      exact hparent
  unreadable_iff := by simp

/-- How a link is established, by its outcome. -/
inductive Established (x : Execution) (links : LinkTable) (before : List ArtifactRef)
    (ref : ArtifactRef) (s : Session Store) :
    StepOutcome → Result CorrectionError Store Bool → Prop
  | kept (h : x.corrects links ref = true) : Established x links before ref s .kept (.ok false, s)
  | added (store : Store) (added : List EconomicLink) (isNew : Bool)
      (hsize : store.size = s.current.size + 1)
      (h : Linking x links (before ++ [ref]) added store) :
      Established x links before ref s .added (.ok isNew, s.flush store)
  | refused (e : CorrectionError) : Established x links before ref s .refused (.error e, s)
  | undone (e : CorrectionError) : Established x links before ref s .undone (.error e, s.rollback)

theorem checkMaxChildren_correctedBy {table : LinkTable} {link : EconomicLink}
    (htype : link.linkType = .correctedBy) (hparent : link.parentRef = ref) :
    (0 < LinkGraph.countChildren table ref .correctedBy ∧
        ∃ e, LinkGraph.checkMaxChildren table link = .error e) ∨
      (¬ 0 < LinkGraph.countChildren table ref .correctedBy ∧
        LinkGraph.checkMaxChildren table link = .ok ()) := by
  have hlimit : (LinkGraph.linkTypeSpecs .correctedBy).bind LinkGraph.LinkTypeSpec.maxChildren =
      some 1 := rfl
  unfold LinkGraph.checkMaxChildren
  rw [htype, hparent, hlimit]
  dsimp only
  split
  · rename_i hcount
    exact Or.inl ⟨hcount, _, rfl⟩
  · rename_i hcount
    exact Or.inr ⟨hcount, rfl⟩

variable {s : Session Store}

/-- A row that cannot be read stops the search for a cycle. -/
theorem established_unreadable (hl : Linking x links before added s.current)
    (hdoc : x.correctionDocRef ∈ before) {link : EconomicLink}
    (hnone : LinkGraph.findExistingLink s.current.links link = none)
    (hacyclic : (∃ e, LinkGraph.checkAcyclic x.recursionLimit s.current.links link = .error e) ∨
      x.correctionDocRef.str ∈ x.searched s.current.links link) :
    (∃ row, s.current.unreadableAmong (x.searched s.current.links link) = some row) ∨
      (LinkGraph.checkAcyclic x.recursionLimit s.current.links link).toBool = false ∧
        ∀ stored, ∃ e, LinkGraph.establishIn Store.links x.recursionLimit s link true stored =
          (.error e, s) := by
  rcases hacyclic with ⟨e, he⟩ | hsearched
  · refine Or.inr ⟨by rw [he]; rfl, fun stored => ⟨e, ?_⟩⟩
    exact LinkGraph.establishIn_of_acyclic_error hnone he
  · obtain ⟨row, hrow⟩ := List.exists_mem_of_ne_nil _ (hl.unreadable_iff.mpr hdoc)
    left
    unfold Store.unreadableAmong
    rw [← Option.isSome_iff_exists, List.isSome_find?, List.any_eq_true]
    exact ⟨row, hrow, by rw [hl.self row hrow]; exact decide_eq_true hsearched⟩

/-- A row that can be read is stored, refused, or undone. -/
theorem establishIn_linking (hl : Linking x links before added s.current) (hnew : ref ∉ before)
    (hcommitted : s.committed.links ⊆ links) (hne : ref ≠ x.correctionDocRef)
    (hdoc : x.correctionDocRef ∉ before) (hcorrects : x.corrects links ref = false)
    {link : EconomicLink} (hid : link.linkId = x.uuid4 before.length)
    (htype : link.linkType = .correctedBy) (hparent : link.parentRef = ref)
    (hchild : link.childRef = x.correctionDocRef) (stored : Store) :
    (x.rowOutcome links before ref = .refused ∧
        ∃ e, LinkGraph.establishIn Store.links x.recursionLimit s link true stored =
          (.error e, s)) ∨
      (x.rowOutcome links before ref = .undone ∧
        ∃ e, LinkGraph.establishIn Store.links x.recursionLimit s link true stored =
          (.error e, s.rollback)) ∨
      (x.rowOutcome links before ref = .added ∧ x.acyclic links ref = true ∧
        LinkGraph.establishIn Store.links x.recursionLimit s link true stored =
          (.ok ⟨link, false⟩, s.flush stored)) := by
  have hrel : link.relationship = (.correctedBy, ref, x.correctionDocRef) := by
    rw [EconomicLink.relationship, htype, hparent, hchild]
  have hnone : LinkGraph.findExistingLink s.current.links link = none := by
    rw [← Option.isNone_iff_eq_none, ← Option.isSome_eq_false_iff, hl.findExistingLink hnew hrel,
      hcorrects]
  have hrefuses := hl.refuses hnew hdoc hcorrects hrel
  rw [hid] at hrefuses
  unfold Execution.rowOutcome
  rcases hl.checkAcyclic hne htype hparent hchild with ⟨⟨e, he⟩, hcycle⟩ | ⟨hok, hacyclic, -⟩
  · rw [hcycle, if_pos Bool.false_ne_true]
    exact Or.inl ⟨rfl, e, LinkGraph.establishIn_of_acyclic_error hnone he⟩
  · rw [hacyclic, if_neg (not_not.mpr rfl), ← hl.countChildren hnew]
    rcases checkMaxChildren_correctedBy htype hparent with ⟨hcount, e, he⟩ | ⟨hcount, hmax⟩
    · rw [if_pos hcount]
      exact Or.inl ⟨rfl, e, LinkGraph.establishIn_of_maxChildren_error hnone hok he⟩
    · rw [if_neg hcount]
      by_cases hid' : x.uuid4 before.length ∈
          links.map EconomicLink.linkId ++ x.taken links before
      · have hcommitted' : LinkGraph.findExistingLink s.committed.links link = none := by
          refine List.find?_eq_none.mpr fun l hmem => ?_
          have hold : l ∈ s.current.links := hl.links_eq ▸ List.mem_append_left _ (hcommitted hmem)
          exact List.find?_eq_none.mp hnone l hold
        rw [if_pos hid']
        exact Or.inr (Or.inl ⟨rfl, _, LinkGraph.establishIn_of_refuses hnone hok hmax
          (hrefuses.mpr hid') hcommitted'⟩)
      · rw [if_neg hid']
        have hfresh : LinkGraph.refuses s.current.links link = false :=
          Bool.eq_false_iff.mpr fun h => hid' (hrefuses.mp h)
        exact Or.inr (Or.inr ⟨rfl, rfl, LinkGraph.establishIn_of_new hnone hok hmax hfresh⟩)

theorem established_other (hl : Linking x links before added s.current) (hnew : ref ∉ before)
    (hcommitted : s.committed.links ⊆ links) (hne : ref ≠ x.correctionDocRef)
    {link : CorrectionLink} (hparent : link.parentRef = ref)
    (hchild : link.childRef = x.correctionDocRef) (hid : link.linkId = x.uuid4 before.length) :
    Established x links before ref s (x.linkOutcome links before ref) (x.establishOther s link) := by
  unfold Execution.linkOutcome Execution.establishOther
  rw [hparent, hchild, hid]
  by_cases htypes : TypesAllowed .correctedBy ref x.correctionDocRef
  · obtain ⟨l, hcreate, hlid, hltype, hlparent, hlchild⟩ := create_of_typesAllowed
      (x.uuid4 before.length) link.creatingEventId link.createdAt (some link.metadata) hne htypes
    have hrel : l.relationship = (.correctedBy, ref, x.correctionDocRef) := by
      rw [EconomicLink.relationship, hltype, hlparent, hlchild]
    have hfind := hl.findExistingLink hnew hrel
    rw [hcreate, if_neg (not_not.mpr htypes)]
    dsimp only
    cases hcorrects : x.corrects links ref with
    | true =>
        rw [hcorrects] at hfind
        obtain ⟨existing, hexisting⟩ := Option.isSome_iff_exists.mp hfind
        rw [hexisting]
        exact .kept hcorrects
    | false =>
        rw [hcorrects] at hfind
        have hnone := Option.isNone_iff_eq_none.mp (Option.isSome_eq_false_iff.mp hfind)
        have hacyclic := hl.checkAcyclic hne hltype hlparent hlchild
        rw [hnone, if_neg Bool.false_ne_true]
        dsimp only
        by_cases hdoc : x.correctionDocRef ∈ before
        · rw [if_pos hdoc]
          rcases established_unreadable hl hdoc hnone
            (hacyclic.imp (fun h => h.1) fun h => h.2.2) with ⟨row, hrow⟩ | ⟨herror, hin⟩
          · rw [hrow]
            exact .refused _
          · cases hrow : s.current.unreadableAmong (x.searched s.current.links l) with
            | some row => exact .refused _
            | none =>
                obtain ⟨e, he⟩ := hin { s.current with
                  links := s.current.links ++ [LinkGraph.fromDomain l] }
                rw [herror, Bool.false_and, if_neg Bool.false_ne_true, he]
                exact .refused _
        · have hempty := hl.unreadable_eq_nil hdoc
          have hamong : s.current.unreadableAmong (x.searched s.current.links l) = none := by
            rw [Store.unreadableAmong, hempty]
            rfl
          have hcount : s.current.countUnreadable ref = 0 := by
            rw [Store.countUnreadable, hempty]
            rfl
          rw [if_neg hdoc, hamong, hcount]
          dsimp only
          rw [decide_eq_false (lt_irrefl 0), Bool.and_false, if_neg Bool.false_ne_true]
          rcases establishIn_linking hl hnew hcommitted hne hdoc hcorrects hlid hltype hlparent
            hlchild { s.current with links := s.current.links ++ [LinkGraph.fromDomain l] } with
            ⟨hout, e, he⟩ | ⟨hout, e, he⟩ | ⟨hout, hacyclic', hnew'⟩
          · rw [hout, he]
            exact .refused _
          · rw [hout, he]
            exact .undone _
          · rw [hout, hnew']
            refine .added _ _ _ ?_ (hl.add hne hcorrects hacyclic' hrel hlid)
            unfold Store.size
            rw [List.length_append]
            simp only [List.length_singleton]
            omega
  · obtain ⟨e, hcreate⟩ := create_of_not_typesAllowed (x.uuid4 before.length)
      link.creatingEventId link.createdAt (some link.metadata) hne htypes
    have hcorrects : ¬ x.corrects links ref = true := fun h => htypes (typesAllowed_of_corrects h)
    rw [hcreate, if_neg hcorrects, if_pos htypes]
    exact .refused _

theorem typesAllowed_self : TypesAllowed .correctedBy x.correctionDocRef x.correctionDocRef := by
  intro spec hspec
  obtain rfl := Option.some.inj hspec
  show ArtifactType.journalEntry ∈ _ ∧ ArtifactType.journalEntry ∈ _
  decide

theorem established_self (hl : Linking x links before added s.current)
    (hnew : x.correctionDocRef ∉ before) {link : CorrectionLink}
    (hparent : link.parentRef = x.correctionDocRef) (hchild : link.childRef = x.correctionDocRef)
    (hid : link.linkId = x.uuid4 before.length) :
    Established x links before x.correctionDocRef s (x.linkOutcome links before x.correctionDocRef)
      (x.establishSelf s link) := by
  have hcorrects : ¬ x.corrects links x.correctionDocRef = true := fun h => ne_of_corrects h rfl
  have hempty := hl.unreadable_eq_nil hnew
  have hcount : s.current.countUnreadable x.correctionDocRef = 0 := by
    rw [Store.countUnreadable, hempty]
    rfl
  have hids : (s.current.links.any fun l => l.linkId = x.uuid4 before.length) = true ↔
      x.uuid4 before.length ∈ links.map EconomicLink.linkId ++ x.taken links before := by
    rw [← hl.ids hnew, ← List.map_append, ← hl.links_eq, List.any_eq_true, List.mem_map]
    simp only [decide_eq_true_eq]
  unfold Execution.linkOutcome Execution.rowOutcome Execution.acyclic Execution.establishSelf
  rw [if_neg hcorrects, if_neg (not_not.mpr typesAllowed_self), if_neg hnew, if_pos rfl, hparent,
    hchild, hid, hcount, if_neg (lt_irrefl 0), hl.searchSelf]
  cases hsearch : x.searchSelf links x.correctionDocRef with
  | none =>
      rw [if_pos (by simp)]
      exact .refused _
  | some r =>
      obtain ⟨found, search⟩ := r
      have hamong : s.current.unreadableAmong search.visited = none := by
        rw [Store.unreadableAmong, hempty]
        rfl
      dsimp only
      rw [if_neg (by simp), hamong, hl.countChildren hnew]
      dsimp only
      by_cases hchildren : 0 < LinkGraph.countChildren links x.correctionDocRef .correctedBy
      · rw [if_pos hchildren, if_pos hchildren]
        exact .refused _
      · rw [if_neg hchildren, if_neg hchildren]
        by_cases hid' : x.uuid4 before.length ∈
            links.map EconomicLink.linkId ++ x.taken links before
        · rw [if_pos hid', if_pos (hids.mpr hid')]
          exact .undone _
        · rw [if_neg hid', if_neg fun h => hid' (hids.mp h)]
          refine .added _ _ _ ?_ (hl.addSelf hparent)
          unfold Store.size
          rw [List.length_append]
          simp only [List.length_singleton]
          omega

/-- **One link** ends as its outcome says. -/
theorem established (hl : Linking x links before added s.current) (hnew : ref ∉ before)
    (hcommitted : s.committed.links ⊆ links) {link : CorrectionLink} (hparent : link.parentRef = ref)
    (hchild : link.childRef = x.correctionDocRef) (hid : link.linkId = x.uuid4 before.length) :
    Established x links before ref s (x.linkOutcome links before ref) (x.establish s link) := by
  unfold Execution.establish
  rw [hparent, hchild]
  by_cases hself : ref = x.correctionDocRef
  · rw [if_pos hself]
    subst hself
    exact established_self hl hnew hparent hchild hid
  · rw [if_neg hself]
    exact established_other hl hnew hcommitted hself hparent hchild hid

theorem Established.tracks {o : StepOutcome} {r : Result CorrectionError Store Bool}
    (h : Established x links before ref s o r) : Tracks Store.size [o] s r := by
  cases h with
  | kept _ => exact Tracks.kept
  | added store added isNew hsize _ => exact Tracks.added hsize
  | refused e => exact Tracks.refused
  | undone e => exact Tracks.undone

/-- The links that come next find the store that they expect. -/
theorem Established.next (hl : Linking x links before added s.current) {o : StepOutcome}
    {isNew : Bool} {s' : Session Store}
    (h : Established x links before ref s o (.ok isNew, s')) :
    s'.committed = s.committed ∧ ∃ added', Linking x links (before ++ [ref]) added' s'.current := by
  cases h with
  | kept hcorrects => exact ⟨rfl, added, hl.keep hcorrects⟩
  | added store added' isNew hsize hadd => exact ⟨rfl, added', hadd⟩

/-! ### All links -/

theorem tracks_establishLinks (plan : UnwindPlan) : ∀ {artifacts : List AffectedArtifact}
    {before : List ArtifactRef} {added : List EconomicLink} {s : Session Store},
    Linking x links before added s.current → s.committed.links ⊆ links →
    (before ++ (artifacts.filter AffectedArtifact.canUnwind).map AffectedArtifact.ref).Nodup →
      Tracks Store.size
        (x.linkOutcomes links before
          ((artifacts.filter AffectedArtifact.canUnwind).map AffectedArtifact.ref)) s
        (x.establishLinks plan s before.length artifacts)
  | [], before, added, s, hl, _, _ => Tracks.nil
  | a :: artifacts, before, added, s, hl, hcommitted, hnodup => by
      unfold Execution.establishLinks
      by_cases hcan : a.canUnwind = true
      · rw [List.filter_cons_of_pos hcan, List.map_cons] at hnodup ⊢
        rw [if_pos hcan]
        have hnew : a.ref ∉ before := fun hmem =>
          (List.nodup_append.mp hnodup).2.2 a.ref hmem a.ref List.mem_cons_self rfl
        have hstep : Established x links before a.ref s (x.linkOutcome links before a.ref)
            (x.establish s (x.linkOf plan before.length a)) :=
          established hl hnew hcommitted rfl rfl rfl
        refine hstep.tracks.andThen fun isNew s' heq => ?_
        rw [heq] at hstep
        obtain ⟨hcommitted', added', hl'⟩ := hstep.next hl
        rw [List.append_cons] at hnodup
        have hrest := tracks_establishLinks plan hl' (hcommitted' ▸ hcommitted) hnodup
        rw [List.length_append, List.length_singleton] at hrest
        exact hrest.map _
      · rw [List.filter_cons_of_neg hcan] at hnodup ⊢
        rw [if_neg hcan]
        exact tracks_establishLinks plan hl hcommitted hnodup

end Links

/-- **An execution** that passes the first checks ends as its outcomes say. -/
theorem tracks_executeCorrection {x : Execution} {plan : UnwindPlan} {s : Session Store}
    (hnodup : (plan.affectedArtifacts.map AffectedArtifact.ref).Nodup)
    (hcan : plan.canExecute = true) (hunreadable : s.current.unreadable = [])
    (hnested : Nested s) (hroot : findCorrection s.current.links plan.rootRef = none) :
    Tracks Store.size (x.outcomes s.current.links plan) s (x.executeCorrection s plan) := by
  have hdry : ¬ plan.isDryRun = true := by
    intro hdry
    unfold UnwindPlan.canExecute at hcan
    rw [if_pos (of_decide_eq_true hdry)] at hcan
    cases hcan
  have hcount : ¬ 0 < s.current.countUnreadable plan.rootRef := by
    rw [Store.countUnreadable, hunreadable]
    exact lt_irrefl 0
  have hunwound : (([] : List ArtifactRef) ++
      (plan.affectedArtifacts.filter AffectedArtifact.canUnwind).map AffectedArtifact.ref).Nodup :=
    hnodup.sublist (List.filter_sublist.map _)
  unfold Execution.executeCorrection Execution.outcomes
  rw [if_neg hdry, hcan]
  dsimp only
  rw [if_neg hcount, hroot]
  refine (tracks_writeEntries plan.compensatingEntries s).andThen fun ids s' heq => ?_
  have hs' := writeEntries_eq_ok heq
  have hstart : Linking x s.current.links [] [] s'.current := by
    rw [hs']
    exact Linking.start rfl hunreadable
  have hcommitted : s'.committed.links ⊆ s.current.links := by
    rw [hs']
    exact hnested
  exact (tracks_establishLinks plan hstart hcommitted hunwound).map _

/-! ### Plans that can be executed -/

/-- The checks of an execution agree with the plan: the writer takes every entry, every unwound
artifact may be corrected by the correcting entry, which is not among them except as the last,
and the identifiers of the links are new. -/
structure Executable (x : Execution) (links : LinkTable) (plan : UnwindPlan) : Prop where
  written : ∀ c ∈ plan.compensatingEntries, ∀ writer ∈ x.journalEntryWriter,
    ∃ entryId, writer c = .ok entryId
  types : ∀ a ∈ plan.unwound, TypesAllowed .correctedBy a.ref x.correctionDocRef
  acyclic : ∀ a ∈ plan.unwound, x.acyclic links a.ref = true
  last : ∀ before ref after, plan.unwound.map AffectedArtifact.ref = before ++ ref :: after →
    x.correctionDocRef ∉ before
  fresh : ∀ n < plan.unwound.length, x.uuid4 n ∉ links.map EconomicLink.linkId
  distinct : ∀ m n, m < n → n < plan.unwound.length → x.uuid4 m ≠ x.uuid4 n

section Executable

variable {x : Execution} {links : LinkTable} {ref : ArtifactRef} {before : List ArtifactRef}

theorem accepted_entryOutcome {c : CompensatingEntry} : (x.entryOutcome c).accepted = true ↔
    ∀ writer ∈ x.journalEntryWriter, ∃ entryId, writer c = .ok entryId := by
  unfold Execution.entryOutcome
  cases x.journalEntryWriter with
  | none => simp [StepOutcome.accepted]
  | some writer =>
      cases hwrite : writer c with
      | error e => simp [hwrite, StepOutcome.accepted]
      | ok entryId => simp [hwrite, StepOutcome.accepted]

theorem accepted_linkOutcomes : ∀ {refs before : List ArtifactRef},
    (∀ o ∈ x.linkOutcomes links before refs, o.accepted = true) ↔
      ∀ pre ref post, refs = pre ++ ref :: post →
        (x.linkOutcome links (before ++ pre) ref).accepted = true
  | [], before => by simp [Execution.linkOutcomes]
  | ref :: refs, before => by
      unfold Execution.linkOutcomes
      rw [List.forall_mem_cons, accepted_linkOutcomes]
      constructor
      · rintro ⟨hfirst, hrest⟩ pre r post heq
        cases pre with
        | nil =>
            obtain ⟨rfl, -⟩ := List.cons.inj heq
            rwa [List.append_nil]
        | cons p pre =>
            obtain ⟨rfl, hrefs⟩ := List.cons.inj heq
            rw [List.append_cons]
            exact hrest pre r post hrefs
      · intro h
        refine ⟨?_, fun pre r post heq => ?_⟩
        · have hfirst := h [] ref refs rfl
          rwa [List.append_nil] at hfirst
        · rw [← List.append_cons]
          exact h (ref :: pre) r post (by rw [heq]; rfl)

theorem countChildren_of_uncorrected (h : findCorrection links ref = none) :
    LinkGraph.countChildren links ref .correctedBy = 0 := by
  unfold findCorrection at h
  rw [LinkGraph.countChildren, List.head?_eq_none_iff.mp h]
  rfl

theorem corrects_of_uncorrected (h : findCorrection links ref = none) :
    x.corrects links ref = false := by
  unfold findCorrection LinkGraph.getChildren at h
  rw [List.head?_eq_none_iff, List.filter_eq_nil_iff] at h
  rw [Bool.eq_false_iff]
  intro hcorrects
  obtain ⟨l, hmem, hrel⟩ := mem_corrects.mp hcorrects
  simp only [EconomicLink.relationship, Prod.mk.injEq] at hrel
  exact h l hmem (by simp [hrel.1, hrel.2.1])

/-- Every artifact that is uncorrected takes an identifier. -/
theorem taken_of_uncorrected (h : ∀ r ∈ before, findCorrection links r = none) :
    x.taken links before = (List.range before.length).map x.uuid4 := by
  unfold Execution.taken
  have hall : before.zipIdx.filter (fun p => !x.corrects links p.1) = before.zipIdx := by
    rw [List.filter_eq_self]
    rintro ⟨r, n⟩ hmem
    rw [corrects_of_uncorrected (h r (List.fst_mem_of_mem_zipIdx hmem))]
    rfl
  rw [hall, List.range_eq_range', ← List.zipIdx_map_snd 0 before, List.map_map]
  rfl

theorem accepted_linkOutcome (href : findCorrection links ref = none)
    (hbefore : ∀ r ∈ before, findCorrection links r = none) :
    (x.linkOutcome links before ref).accepted = true ↔
      TypesAllowed .correctedBy ref x.correctionDocRef ∧ x.correctionDocRef ∉ before ∧
        x.acyclic links ref = true ∧ x.uuid4 before.length ∉ links.map EconomicLink.linkId ∧
          ∀ n < before.length, x.uuid4 n ≠ x.uuid4 before.length := by
  have hid : x.uuid4 before.length ∉ links.map EconomicLink.linkId ++ x.taken links before ↔
      x.uuid4 before.length ∉ links.map EconomicLink.linkId ∧
        ∀ n < before.length, x.uuid4 n ≠ x.uuid4 before.length := by
    rw [taken_of_uncorrected hbefore, List.mem_append, not_or]
    simp
  unfold Execution.linkOutcome Execution.rowOutcome
  rw [corrects_of_uncorrected href, countChildren_of_uncorrected href, ← hid,
    if_neg Bool.false_ne_true, if_neg (lt_irrefl 0)]
  by_cases htypes : TypesAllowed .correctedBy ref x.correctionDocRef
  · by_cases hdoc : x.correctionDocRef ∈ before
    · simp [htypes, hdoc, StepOutcome.accepted]
    · by_cases hacyclic : x.acyclic links ref = true
      · by_cases hmem : x.uuid4 before.length ∈
            links.map EconomicLink.linkId ++ x.taken links before
        · simp only [htypes, hdoc, hacyclic, hmem, StepOutcome.accepted]
          simp
        · simp only [htypes, hdoc, hacyclic, hmem, StepOutcome.accepted]
          simp
      · simp [htypes, hdoc, hacyclic, StepOutcome.accepted]
  · simp [htypes, StepOutcome.accepted]

/-- **In an unchanged store** no step raises exactly if the checks agree with the plan. -/
theorem firstRaised_outcomes {plan : UnwindPlan}
    (huncorrected : ∀ a ∈ plan.unwound, findCorrection links a.ref = none) :
    StepOutcome.firstRaised (x.outcomes links plan) = none ↔ Executable x links plan := by
  have hrefs : ∀ r ∈ plan.unwound.map AffectedArtifact.ref, findCorrection links r = none := by
    intro r hr
    obtain ⟨a, ha, rfl⟩ := List.mem_map.mp hr
    exact huncorrected a ha
  have hlinks : (∀ o ∈ x.linkOutcomes links [] (plan.unwound.map AffectedArtifact.ref),
      o.accepted = true) ↔ ∀ pre ref post, plan.unwound.map AffectedArtifact.ref =
        pre ++ ref :: post → TypesAllowed .correctedBy ref x.correctionDocRef ∧
          x.correctionDocRef ∉ pre ∧ x.acyclic links ref = true ∧
            x.uuid4 pre.length ∉ links.map EconomicLink.linkId ∧
              ∀ n < pre.length, x.uuid4 n ≠ x.uuid4 pre.length := by
    rw [accepted_linkOutcomes]
    refine forall₄_congr fun pre ref post heq => ?_
    rw [List.nil_append]
    refine accepted_linkOutcome (hrefs ref ?_) fun r hr => hrefs r ?_
    · rw [heq]
      exact List.mem_append_right _ List.mem_cons_self
    · rw [heq]
      exact List.mem_append_left _ hr
  unfold Execution.outcomes
  rw [StepOutcome.firstRaised_eq_none, List.forall_mem_append, hlinks, List.forall_mem_map]
  simp only [accepted_entryOutcome]
  constructor
  · rintro ⟨hwritten, hall⟩
    have hat : ∀ a ∈ plan.unwound, ∃ pre post,
        plan.unwound.map AffectedArtifact.ref = pre ++ a.ref :: post := fun a ha =>
      List.append_of_mem (List.mem_map_of_mem ha)
    have hsplit : ∀ n < plan.unwound.length, ∃ pre ref post,
        plan.unwound.map AffectedArtifact.ref = pre ++ ref :: post ∧ pre.length = n := by
      intro n hn
      rw [← List.length_map AffectedArtifact.ref] at hn
      have hdrop := List.take_append_drop n (plan.unwound.map AffectedArtifact.ref)
      rw [List.drop_eq_getElem_cons hn] at hdrop
      exact ⟨_, _, _, hdrop.symm, List.length_take_of_le hn.le⟩
    refine ⟨hwritten, fun a ha => ?_, fun a ha => ?_, fun pre ref post heq => ?_, fun n hn => ?_,
      fun m n hm hn => ?_⟩
    · obtain ⟨pre, post, heq⟩ := hat a ha
      exact (hall pre a.ref post heq).1
    · obtain ⟨pre, post, heq⟩ := hat a ha
      exact (hall pre a.ref post heq).2.2.1
    · exact (hall pre ref post heq).2.1
    · obtain ⟨pre, ref, post, heq, rfl⟩ := hsplit n hn
      exact (hall pre ref post heq).2.2.2.1
    · obtain ⟨pre, ref, post, heq, rfl⟩ := hsplit n hn
      exact (hall pre ref post heq).2.2.2.2 m hm
  · intro h
    refine ⟨h.written, fun pre ref post heq => ?_⟩
    have hmem : ref ∈ plan.unwound.map AffectedArtifact.ref := by
      rw [heq]
      exact List.mem_append_right _ List.mem_cons_self
    obtain ⟨a, ha, rfl⟩ := List.mem_map.mp hmem
    have hlength : pre.length < plan.unwound.length := by
      have hlen := congrArg List.length heq
      rw [List.length_map, List.length_append, List.length_cons] at hlen
      omega
    exact ⟨h.types a ha, h.last pre a.ref post heq, h.acyclic a ha, h.fresh _ hlength,
      fun n hn => h.distinct n _ hn hlength⟩

end Executable

/-! ### Executable plans execute -/

/-- The links as they are committed and as the open transaction sees them. -/
structure LinkSession where
  committed : LinkTable
  current : LinkTable
  nested : committed <+: current

/-- Nothing has been written yet. -/
def LinkSession.start (t : LinkSession) : Session Store := ⟨⟨t.committed, [], []⟩, ⟨t.current, [], []⟩⟩

section Executing

variable (engine : CorrectionEngine) (planned : LinkTable) (request : Request) (x : Execution)
  (t : LinkSession)

/-- A plan that can be executed completes in the store it was built from, and an execution that
raises leaves the tables as they were before it or as they were committed. -/
structure Executes : Prop where
  completes : ∀ plan, engine.buildUnwindPlan planned request = .ok plan →
    plan.canExecute = true → t.current = planned →
      (∃ result s', x.executeCorrection t.start plan = (.ok result, s')) ∧
        ∀ a ∈ plan.unwound, TypesAllowed .correctedBy a.ref x.correctionDocRef
  unwritten : ∀ plan, engine.buildUnwindPlan planned request = .ok plan →
    ∀ e s', x.executeCorrection t.start plan = (.error e, s') →
      s'.current = t.start.current ∨ s'.current = t.start.committed

/-- The two sets of checks agree, and in a store that has changed the first step that is refused
comes before any entry or link is written. -/
structure ChecksAgree : Prop where
  executable : ∀ plan, engine.buildUnwindPlan planned request = .ok plan →
    plan.canExecute = true → t.current = planned → Executable x planned plan
  early : ∀ plan, engine.buildUnwindPlan planned request = .ok plan → plan.canExecute = true →
    findCorrection t.current plan.rootRef = none →
      StepOutcome.firstRaised (x.outcomes t.current plan) = some .refused →
        StepOutcome.additions (x.outcomes t.current plan) = 0

variable {engine planned request x t} {plan : UnwindPlan}

theorem executeCorrection_of_not_canExecute {s : Session Store} (h : plan.canExecute = false) :
    ∃ e, x.executeCorrection s plan = (.error e, s) := by
  unfold Execution.executeCorrection
  by_cases hdry : plan.isDryRun = true
  · rw [if_pos hdry]
    exact ⟨_, rfl⟩
  · rw [if_neg hdry, h]
    cases hblocked : plan.blockedArtifacts with
    | nil =>
        unfold UnwindPlan.canExecute at h
        rw [if_neg fun hstrategy => hdry (decide_eq_true hstrategy), hblocked] at h
        simp at h
    | cons blocked rest => exact ⟨_, rfl⟩

theorem executeCorrection_of_corrected {s : Session Store} (hcan : plan.canExecute = true)
    (hunreadable : s.current.unreadable = []) {correction : EconomicLink}
    (h : findCorrection s.current.links plan.rootRef = some correction) :
    ∃ e, x.executeCorrection s plan = (.error e, s) := by
  have hcount : ¬ 0 < s.current.countUnreadable plan.rootRef := by
    rw [Store.countUnreadable, hunreadable]
    exact lt_irrefl 0
  unfold Execution.executeCorrection
  by_cases hdry : plan.isDryRun = true
  · rw [if_pos hdry]
    exact ⟨_, rfl⟩
  · rw [if_neg hdry, hcan]
    dsimp only
    rw [if_neg hcount, h]
    exact ⟨_, rfl⟩

/-- **Executable plans execute** exactly when the two sets of checks agree. -/
theorem executes_iff (engine : CorrectionEngine) (planned : LinkTable) (request : Request)
    (x : Execution) (t : LinkSession) :
    Executes engine planned request x t ↔ ChecksAgree engine planned request x t := by
  have htracks : ∀ plan, engine.buildUnwindPlan planned request = .ok plan →
      plan.canExecute = true → findCorrection t.current plan.rootRef = none →
        Tracks Store.size (x.outcomes t.current plan) t.start (x.executeCorrection t.start plan) :=
    fun plan hbuild hcan hroot => tracks_executeCorrection (s := t.start)
      (built_of_buildUnwindPlan hbuild).nodup hcan rfl t.nested.subset hroot
  have hsize : t.start.committed.size ≤ t.start.current.size :=
    Nat.add_le_add_right (Nat.add_le_add_right t.nested.length_le 0) 0
  constructor
  · intro h
    refine ⟨fun plan hbuild hcan hsame => ?_, fun plan hbuild hcan hroot => ?_⟩
    · have hbuilt := built_of_buildUnwindPlan hbuild
      subst hsame
      have hrun := htracks plan hbuild hcan hbuilt.root
      exact (firstRaised_outcomes hbuilt.uncorrected).mp
        (hrun.completes_iff.mp (h.completes plan hbuild hcan rfl).1)
    · exact ((htracks plan hbuild hcan hroot).unwritten_iff hsize).mp (h.unwritten plan hbuild)
  · intro h
    refine ⟨fun plan hbuild hcan hsame => ?_, fun plan hbuild => ?_⟩
    · have hbuilt := built_of_buildUnwindPlan hbuild
      have hexecutable := h.executable plan hbuild hcan hsame
      subst hsame
      have hrun := htracks plan hbuild hcan hbuilt.root
      exact ⟨hrun.completes_iff.mpr ((firstRaised_outcomes hbuilt.uncorrected).mpr hexecutable),
        hexecutable.types⟩
    · cases hcan : plan.canExecute with
      | false =>
          obtain ⟨e, he⟩ := executeCorrection_of_not_canExecute (s := t.start) (x := x) hcan
          intro e' s' hraise
          rw [he] at hraise
          exact Or.inl (congrArg Session.current (Prod.mk.inj hraise).2.symm)
      | true =>
          cases hroot : findCorrection t.current plan.rootRef with
          | some correction =>
              obtain ⟨e, he⟩ := executeCorrection_of_corrected (s := t.start) (x := x) hcan rfl hroot
              intro e' s' hraise
              rw [he] at hraise
              exact Or.inl (congrArg Session.current (Prod.mk.inj hraise).2.symm)
          | none =>
              exact ((htracks plan hbuild hcan hroot).unwritten_iff hsize).mpr
                (h.early plan hbuild hcan hroot)

end Executing

/-- The correction of an event with one entry. -/
def sampleEventRequest : Request :=
  ⟨⟨.event, ⟨0x1⟩⟩, .cascade, .void, none, none, none, sampleTime⟩

def sampleLinks : LinkSession := ⟨[], [], List.prefix_rfl⟩

/-- The entry of the event is reversed before the link is found to be invalid. -/
theorem event_plan_raises : ¬ ∀ (engine : CorrectionEngine) (planned : LinkTable)
    (request : Request) (x : Execution) (t : LinkSession),
    Executes engine planned request x t := by
  intro h
  have hrun : ((sampleEngine [sampleEntry 0x100] (by decide)).buildUnwindPlan []
      sampleEventRequest).toOption.any (fun plan => plan.canExecute &&
        (sampleExecution.executeCorrection sampleLinks.start plan).1.toOption.isNone) = true := by
    decide +kernel
  obtain ⟨plan, hplan, hcheck⟩ := (Option.any_eq_true ..).mp hrun
  obtain ⟨hcan, hraises⟩ := (Bool.and_eq_true ..).mp hcheck
  have hbuild : (sampleEngine [sampleEntry 0x100] (by decide)).buildUnwindPlan []
      sampleEventRequest = .ok plan := by
    cases hbuilt : (sampleEngine [sampleEntry 0x100] (by decide)).buildUnwindPlan []
        sampleEventRequest with
    | error e =>
        rw [hbuilt] at hplan
        cases hplan
    | ok plan' =>
        rw [hbuilt] at hplan
        exact congrArg Except.ok (Option.some.inj hplan)
  obtain ⟨⟨result, s', hexec⟩, -⟩ :=
    (h _ [] sampleEventRequest sampleExecution sampleLinks).completes plan hbuild hcan rfl
  rw [hexec] at hraises
  cases hraises

end FinanceAccounting.Correction
