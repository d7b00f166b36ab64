import FinanceAccounting.Library.GraphSearch
import FinanceAccounting.Library.TransitionSystem
import FinanceAccounting.Library.UnitOfWork
import FinanceAccounting.Kernel.Hashing

/-! # The economic link graph

Artifact references, link types with their specifications, and `LinkGraphService` over the
`economic_links` table.  `establish_link` looks for an existing link, searches for a cycle when
the link type is acyclic, counts the children of the parent when the specification limits
them, and flushes the row; a refused flush rolls the session back.  `establish_links` is the
loop over a list, which an exception leaves in the middle.

`invariant_of_run` says that after any sequence of calls, commits and rollbacks from the empty
table, whatever they returned or raised, the links of every acyclic type form an acyclic graph,
artifact types and child limits are respected, and no relationship is stored twice. -/

namespace FinanceAccounting.LinkGraph

open TransitionSystem (run run_invariant)
open GraphSearch (Acyclic AddEdge SearchState search)
open Relation (ReflTransGen)
open Hashing (PyVal)
open UnitOfWork (Session Result)

/-! ### References and links -/

inductive ArtifactType where
  | event
  | journalEntry
  | journalLine
  | purchaseOrder
  | receipt
  | invoice
  | payment
  | creditMemo
  | debitMemo
  | costLot
  | shipment
  | inventoryAdjustment
  | asset
  | depreciation
  | disposal
  | bankStatement
  | bankTransaction
  | intercompanyTransaction
deriving DecidableEq, Repr

namespace ArtifactType

/-- All members, in declaration order. -/
def all : List ArtifactType :=
  [event, journalEntry, journalLine, purchaseOrder, receipt, invoice, payment, creditMemo,
    debitMemo, costLot, shipment, inventoryAdjustment, asset, depreciation, disposal,
    bankStatement, bankTransaction, intercompanyTransaction]

def value : ArtifactType → String
  | event => "event"
  | journalEntry => "journal_entry"
  | journalLine => "journal_line"
  | purchaseOrder => "purchase_order"
  | receipt => "receipt"
  | invoice => "invoice"
  | payment => "payment"
  | creditMemo => "credit_memo"
  | debitMemo => "debit_memo"
  | costLot => "cost_lot"
  | shipment => "shipment"
  | inventoryAdjustment => "inventory_adjustment"
  | asset => "asset"
  | depreciation => "depreciation"
  | disposal => "disposal"
  | bankStatement => "bank_statement"
  | bankTransaction => "bank_transaction"
  | intercompanyTransaction => "intercompany_transaction"

theorem mem_all (a : ArtifactType) : a ∈ all := by
  cases a <;> decide

theorem value_injective : Function.Injective value := by
  have hnodup : (all.map value).Nodup := by decide
  exact fun a b h => List.inj_on_of_nodup_map hnodup (mem_all a) (mem_all b) h

end ArtifactType

inductive LinkType where
  | fulfilledBy
  | paidBy
  | appliedTo
  | reversedBy
  | correctedBy
  | consumedBy
  | sourcedFrom
  | allocatedTo
  | allocatedFrom
  | derivedFrom
  | matchedWith
  | adjustedBy
deriving DecidableEq, Repr

def LinkType.value : LinkType → String
  | .fulfilledBy => "fulfilled_by"
  | .paidBy => "paid_by"
  | .appliedTo => "applied_to"
  | .reversedBy => "reversed_by"
  | .correctedBy => "corrected_by"
  | .consumedBy => "consumed_by"
  | .sourcedFrom => "sourced_from"
  | .allocatedTo => "allocated_to"
  | .allocatedFrom => "allocated_from"
  | .derivedFrom => "derived_from"
  | .matchedWith => "matched_with"
  | .adjustedBy => "adjusted_by"

structure ArtifactRef where
  artifactType : ArtifactType
  artifactId : UUID
deriving DecidableEq, Repr

namespace ArtifactRef

/-- `str(ref)`. -/
def str (r : ArtifactRef) : String := r.artifactType.value ++ ":" ++ r.artifactId.str

/-- The text of a reference identifies it: the identifier has a fixed length. -/
theorem str_injective : Function.Injective str := by
  intro a b h
  have hl := congrArg String.toList h
  simp only [str, String.toList_append, UUID.str, String.toList_ofList] at hl
  obtain ⟨htype, hid⟩ := List.append_inj' hl (by
    rw [UUID.length_toChars, UUID.length_toChars])
  have htype' := String.toList_inj.mp (List.append_cancel_right htype)
  obtain ⟨ta, ia⟩ := a
  obtain ⟨tb, ib⟩ := b
  obtain rfl := ArtifactType.value_injective htype'
  obtain rfl := UUID.toChars_injective hid
  rfl

end ArtifactRef

structure LinkTypeSpec where
  linkType : LinkType
  validParentTypes : List ArtifactType
  validChildTypes : List ArtifactType
  isSymmetric : Bool := false
  maxChildren : Option ℕ := none

def typeError (side : String) (t : ArtifactType) (linkType : LinkType)
    (valid : List ArtifactType) : String :=
  side ++ " type " ++ t.value ++ " not valid for " ++ linkType.value ++ ". Valid: [" ++
    String.intercalate ", " (valid.map fun v => "'" ++ v.value ++ "'") ++ "]"

def LinkTypeSpec.validate (spec : LinkTypeSpec) (parent child : ArtifactRef) : List String :=
  (if parent.artifactType ∈ spec.validParentTypes then []
    else [typeError "Parent" parent.artifactType spec.linkType spec.validParentTypes]) ++
  (if child.artifactType ∈ spec.validChildTypes then []
    else [typeError "Child" child.artifactType spec.linkType spec.validChildTypes])

/-- `LINK_TYPE_SPECS`; two link types have no specification. -/
def linkTypeSpecs : LinkType → Option LinkTypeSpec
  | .fulfilledBy => some
      { linkType := .fulfilledBy
        validParentTypes := [.purchaseOrder, .receipt]
        validChildTypes := [.receipt, .invoice] }
  | .paidBy => some
      { linkType := .paidBy
        validParentTypes := [.invoice, .creditMemo, .debitMemo]
        validChildTypes := [.payment] }
  | .reversedBy => some
      { linkType := .reversedBy
        validParentTypes := [.journalEntry, .event]
        validChildTypes := [.journalEntry, .event]
        maxChildren := some 1 }
  | .correctedBy => some
      { linkType := .correctedBy
        validParentTypes := [.invoice, .receipt, .payment, .purchaseOrder, .journalEntry]
        validChildTypes := [.invoice, .receipt, .payment, .creditMemo, .journalEntry]
        maxChildren := some 1 }
  | .consumedBy => some
      { linkType := .consumedBy
        validParentTypes := [.costLot]
        validChildTypes := [.event, .shipment, .inventoryAdjustment] }
  | .sourcedFrom => some
      { linkType := .sourcedFrom
        validParentTypes := [.event, .receipt]
        validChildTypes := [.costLot] }
  | .allocatedTo => some
      { linkType := .allocatedTo
        validParentTypes := [.payment, .journalEntry, .costLot]
        validChildTypes := [.invoice, .journalLine, .event] }
  | .derivedFrom => some
      { linkType := .derivedFrom
        validParentTypes := ArtifactType.all
        validChildTypes := ArtifactType.all }
  | .matchedWith => some
      { linkType := .matchedWith
        validParentTypes :=
          [.purchaseOrder, .receipt, .invoice, .bankStatement, .bankTransaction, .journalEntry]
        validChildTypes :=
          [.purchaseOrder, .receipt, .invoice, .bankStatement, .bankTransaction, .journalEntry]
        isSymmetric := true }
  | .adjustedBy => some
      { linkType := .adjustedBy
        validParentTypes := [.journalEntry, .costLot, .asset]
        validChildTypes := [.journalEntry, .inventoryAdjustment] }
  | .appliedTo | .allocatedFrom => none

/-- The artifact types of a link are among those its type allows. -/
def TypesAllowed (linkType : LinkType) (parent child : ArtifactRef) : Prop :=
  ∀ spec ∈ linkTypeSpecs linkType,
    parent.artifactType ∈ spec.validParentTypes ∧ child.artifactType ∈ spec.validChildTypes

/-- A link that passed `__post_init__`: no link to itself, and valid artifact types. -/
structure EconomicLink where
  linkId : UUID
  linkType : LinkType
  parentRef : ArtifactRef
  childRef : ArtifactRef
  creatingEventId : UUID
  createdAt : Datetime
  metadata : Option (List (String × PyVal))
  parent_ne_child : parentRef ≠ childRef
  typesAllowed : TypesAllowed linkType parentRef childRef

theorem typesAllowed_of_validate {linkType : LinkType} {parent child : ArtifactRef}
    (h : ∀ spec ∈ linkTypeSpecs linkType, spec.validate parent child = []) :
    TypesAllowed linkType parent child := by
  intro spec hspec
  have hv := h spec hspec
  unfold LinkTypeSpec.validate at hv
  rw [List.append_eq_nil_iff] at hv
  constructor
  · by_contra hp
    simp [hp] at hv
  · by_contra hc
    simp [hc] at hv

/-- The constructor with its checks. -/
def EconomicLink.create (linkId : UUID) (linkType : LinkType) (parentRef childRef : ArtifactRef)
    (creatingEventId : UUID) (createdAt : Datetime)
    (metadata : Option (List (String × PyVal))) : Except String EconomicLink :=
  if hself : parentRef = childRef then
    .error ("Self-link not allowed: parent and child are both " ++ parentRef.str)
  else
    if hvalid : ∀ spec ∈ linkTypeSpecs linkType, spec.validate parentRef childRef = [] then
      .ok
        { linkId, linkType, parentRef, childRef, creatingEventId, createdAt, metadata
          parent_ne_child := hself
          typesAllowed := typesAllowed_of_validate hvalid }
    else
      .error ("Invalid link type combination: " ++ String.intercalate "; "
        (((linkTypeSpecs linkType).map fun spec => spec.validate parentRef childRef).getD []))

/-! ### The service -/

/-- Rows of `economic_links`, oldest first. -/
abbrev LinkTable := List EconomicLink

/-- Link types that must stay acyclic. -/
def acyclicLinkTypes : List LinkType :=
  [.fulfilledBy, .sourcedFrom, .derivedFrom, .consumedBy, .correctedBy]

inductive LinkError where
  | duplicateLink (linkType parentRef childRef : String)
  | linkCycle (linkType : String) (path : List String)
  | maxChildrenExceeded (linkType parentRef : String) (maxChildren currentChildren : ℕ)
  | recursionError
deriving DecidableEq, Repr

structure LinkEstablishResult where
  link : EconomicLink
  wasDuplicate : Bool := false

/-- Link type and both ends: what the unique constraint covers. -/
def EconomicLink.relationship (l : EconomicLink) : LinkType × ArtifactRef × ArtifactRef :=
  (l.linkType, l.parentRef, l.childRef)

/-- The stored row of a link: empty metadata are stored as `NULL`. -/
def fromDomain (l : EconomicLink) : EconomicLink :=
  { l with metadata := l.metadata.filter fun m => !m.isEmpty }

def findExistingLink (table : LinkTable) (link : EconomicLink) : Option EconomicLink :=
  table.find? fun l => l.relationship = link.relationship

def getChildren (table : LinkTable) (parentRef : ArtifactRef) (linkType : LinkType) : LinkTable :=
  table.filter fun l => l.parentRef = parentRef && l.linkType = linkType

def countChildren (table : LinkTable) (parentRef : ArtifactRef) (linkType : LinkType) : ℕ :=
  (getChildren table parentRef linkType).length

/-- The children the search visits. -/
def childRefs (table : LinkTable) (linkType : LinkType) (ref : ArtifactRef) : List ArtifactRef :=
  (getChildren table ref linkType).map EconomicLink.childRef

/-- A path that the new link would close, when its child reaches its parent;
`recursionLimit` bounds the nesting of `can_reach`. -/
def detectCycle (recursionLimit : ℕ) (table : LinkTable) (newLink : EconomicLink) :
    Except LinkError (Option (List ArtifactRef)) :=
  match search (childRefs table newLink.linkType) ArtifactRef.str newLink.parentRef
      recursionLimit newLink.childRef ⟨[], []⟩ with
  | none => .error .recursionError
  | some (true, st) => .ok (some (st.path ++ [newLink.parentRef]))
  | some (false, _) => .ok none

def duplicateLinkError (link : EconomicLink) : LinkError :=
  .duplicateLink link.linkType.value link.parentRef.str link.childRef.str

/-- The acyclicity check of `establish_link`. -/
def checkAcyclic (recursionLimit : ℕ) (table : LinkTable) (link : EconomicLink) :
    Except LinkError Unit :=
  if link.linkType ∈ acyclicLinkTypes then
    match detectCycle recursionLimit table link with
    | .error e => .error e
    | .ok (some path) => .error (.linkCycle link.linkType.value (path.map ArtifactRef.str))
    | .ok none => .ok ()
  else .ok ()

/-- The limit on the children of a parent. -/
def checkMaxChildren (table : LinkTable) (link : EconomicLink) : Except LinkError Unit :=
  match (linkTypeSpecs link.linkType).bind LinkTypeSpec.maxChildren with
  | none => .ok ()
  | some maxChildren =>
      if maxChildren ≤ countChildren table link.parentRef link.linkType then
        .error (.maxChildrenExceeded link.linkType.value link.parentRef.str maxChildren
          (countChildren table link.parentRef link.linkType))
      else .ok ()

/-- The primary key or the unique constraint refuses the row. -/
def refuses (table : LinkTable) (link : EconomicLink) : Bool :=
  table.any fun l => l.linkId = link.linkId || l.relationship = link.relationship

section Establish

variable {σ : Type} (read : σ → LinkTable)

/-- Add and flush the row; a refused flush rolls the session back. -/
def persist (s : Session σ) (link : EconomicLink) (allowDuplicate : Bool) (stored : σ) :
    Result LinkError σ LinkEstablishResult :=
  if refuses (read s.current) link then
    match findExistingLink (read s.rollback.current) link with
    | some existing =>
        if allowDuplicate then (.ok ⟨existing, true⟩, s.rollback)
        else (.error (duplicateLinkError link), s.rollback)
    | none => (.error (duplicateLinkError link), s.rollback)
  else (.ok ⟨link, false⟩, s.flush stored)

/-- `establish_link` in a session over tables that hold the links, perhaps among others; `stored` are
the tables with the row of the link. -/
def establishIn (recursionLimit : ℕ) (s : Session σ) (link : EconomicLink) (allowDuplicate : Bool)
    (stored : σ) : Result LinkError σ LinkEstablishResult :=
  match findExistingLink (read s.current) link with
  | some existing =>
      if allowDuplicate then (.ok ⟨existing, true⟩, s) else (.error (duplicateLinkError link), s)
  | none =>
      match checkAcyclic recursionLimit (read s.current) link with
      | .error e => (.error e, s)
      | .ok () =>
          match checkMaxChildren (read s.current) link with
          | .error e => (.error e, s)
          | .ok () => persist read s link allowDuplicate stored

end Establish

/-- `establish_link` over the table of the links. -/
def establishLink (recursionLimit : ℕ) (s : Session LinkTable) (link : EconomicLink)
    (allowDuplicate : Bool) : Result LinkError LinkTable LinkEstablishResult :=
  establishIn id recursionLimit s link allowDuplicate (s.current ++ [fromDomain link])

/-- The loop of `establish_links`. -/
def establishLinks (recursionLimit : ℕ) (s : Session LinkTable) (allowDuplicates : Bool) :
    List EconomicLink → Result LinkError LinkTable (List LinkEstablishResult)
  | [] => (.ok [], s)
  | link :: links =>
      match establishLink recursionLimit s link allowDuplicates with
      | (.error e, s') => (.error e, s')
      | (.ok result, s') =>
          match establishLinks recursionLimit s' allowDuplicates links with
          | (.error e, s'') => (.error e, s'')
          | (.ok results, s'') => (.ok (result :: results), s'')

/-- What a caller of the service does with its session. -/
inductive Call where
  | establishLink (recursionLimit : ℕ) (link : EconomicLink) (allowDuplicate : Bool)
  | establishLinks (recursionLimit : ℕ) (links : List EconomicLink) (allowDuplicates : Bool)
  | commit
  | rollback

/-- One call, whatever it returns or raises. -/
def step (s : Session LinkTable) : Call → Option (Session LinkTable)
  | .establishLink limit link allow => some (establishLink limit s link allow).2
  | .establishLinks limit links allow => some (establishLinks limit s allow links).2
  | .commit => some s.commit
  | .rollback => some s.rollback

/-! ### The invariant -/

/-- The links of one type as a relation on artifacts. -/
def Linked (table : LinkTable) (linkType : LinkType) (parent child : ArtifactRef) : Prop :=
  ∃ l ∈ table, l.linkType = linkType ∧ l.parentRef = parent ∧ l.childRef = child

/-- The graph invariant of the table. -/
structure Invariant (table : LinkTable) : Prop where
  acyclic : ∀ linkType ∈ acyclicLinkTypes, Acyclic (Linked table linkType)
  typesAllowed : ∀ l ∈ table, TypesAllowed l.linkType l.parentRef l.childRef
  maxChildren : ∀ linkType, ∀ spec ∈ linkTypeSpecs linkType, ∀ m ∈ spec.maxChildren, ∀ parent,
    countChildren table parent linkType ≤ m
  unique : (table.map EconomicLink.relationship).Nodup

variable {table : LinkTable} {link : EconomicLink}

theorem invariant_nil : Invariant [] where
  acyclic _ _ v hv := by
    cases hv with
    | single h => simp [Linked] at h
    | tail _ h => simp [Linked] at h
  typesAllowed := by simp
  maxChildren := by simp [countChildren, getChildren]
  unique := by simp

theorem mem_childRefs {linkType : LinkType} {parent child : ArtifactRef} :
    child ∈ childRefs table linkType parent ↔ Linked table linkType parent child := by
  simp only [childRefs, getChildren, Linked, List.mem_map, List.mem_filter, Bool.and_eq_true,
    decide_eq_true_eq]
  constructor
  · rintro ⟨l, ⟨hl, hp, ht⟩, hc⟩
    exact ⟨l, hl, ht, hp, hc⟩
  · rintro ⟨l, hl, ht, hp, hc⟩
    exact ⟨l, ⟨hl, hp, ht⟩, hc⟩

theorem edge_childRefs {linkType : LinkType} :
    GraphSearch.Edge (childRefs table linkType) = Linked table linkType := by
  funext x y
  exact propext mem_childRefs

/-- The acyclicity check lets a link pass only if its child does not reach its parent. -/
theorem not_reachable_of_checkAcyclic {limit : ℕ} (h : checkAcyclic limit table link = .ok ())
    (hmem : link.linkType ∈ acyclicLinkTypes) :
    ¬ ReflTransGen (Linked table link.linkType) link.childRef link.parentRef := by
  unfold checkAcyclic detectCycle at h
  rw [if_pos hmem] at h
  cases hs : search (childRefs table link.linkType) ArtifactRef.str link.parentRef limit
      link.childRef ⟨[], []⟩ with
  | none =>
      rw [hs] at h
      cases h
  | some r =>
      obtain ⟨found, st⟩ := r
      cases found with
      | true =>
          rw [hs] at h
          cases h
      | false =>
          have hno := GraphSearch.not_reachable_of_search ArtifactRef.str_injective hs
          rwa [edge_childRefs] at hno

theorem count_lt_of_checkMaxChildren (h : checkMaxChildren table link = .ok ())
    {spec : LinkTypeSpec} (hspec : linkTypeSpecs link.linkType = some spec) {m : ℕ}
    (hm : spec.maxChildren = some m) : countChildren table link.parentRef link.linkType < m := by
  unfold checkMaxChildren at h
  rw [hspec, Option.bind_some, hm] at h
  dsimp only at h
  split at h
  · cases h
  · rename_i hlt
    exact not_le.mp hlt

/-- Storing a link adds one edge to the graph of its type. -/
theorem linked_append {linkType : LinkType} {x y : ArtifactRef}
    (h : Linked (table ++ [fromDomain link]) linkType x y) :
    Linked table linkType x y ∨
      (link.linkType = linkType ∧ x = link.parentRef ∧ y = link.childRef) := by
  obtain ⟨l, hl, ht, hp, hc⟩ := h
  rcases List.mem_append.mp hl with hl | hl
  · exact Or.inl ⟨l, hl, ht, hp, hc⟩
  · obtain rfl := List.mem_singleton.mp hl
    exact Or.inr ⟨ht, hp.symm, hc.symm⟩

theorem countChildren_append (parent : ArtifactRef) (linkType : LinkType) :
    countChildren (table ++ [fromDomain link]) parent linkType =
      countChildren table parent linkType +
        if link.parentRef = parent ∧ link.linkType = linkType then 1 else 0 := by
  simp only [countChildren, getChildren, List.filter_append, List.length_append]
  by_cases h : link.parentRef = parent ∧ link.linkType = linkType
  · simp [fromDomain, h]
  · rw [not_and] at h
    by_cases hp : link.parentRef = parent <;> simp [fromDomain, hp, h]

/-- **A link that passes the checks keeps the invariant.** -/
theorem Invariant.append (hi : Invariant table) {limit : ℕ}
    (hacyclic : checkAcyclic limit table link = .ok ())
    (hmax : checkMaxChildren table link = .ok ()) (hnew : refuses table link = false) :
    Invariant (table ++ [fromDomain link]) where
  acyclic linkType hmem := by
    by_cases ht : link.linkType = linkType
    · subst ht
      refine ((hi.acyclic _ hmem).add_edge (not_reachable_of_checkAcyclic hacyclic hmem)).mono ?_
      intro x y hxy
      exact (linked_append hxy).imp id fun h => h.2
    · refine (hi.acyclic _ hmem).mono fun x y hxy => ?_
      exact (linked_append hxy).resolve_right fun h => ht h.1
  typesAllowed l hl := l.typesAllowed
  maxChildren linkType spec hspec m hm parent := by
    rw [countChildren_append]
    split
    · rename_i h
      obtain ⟨rfl, rfl⟩ := h
      exact count_lt_of_checkMaxChildren hmax hspec hm
    · exact hi.maxChildren linkType spec hspec m hm parent
  unique := by
    rw [List.map_append, List.nodup_append]
    refine ⟨hi.unique, by simp, ?_⟩
    intro r hr r' hr'
    obtain ⟨l, hl, rfl⟩ := List.mem_map.mp hr
    obtain rfl := List.mem_singleton.mp hr'
    intro heq
    have := List.any_eq_false.mp hnew l hl
    simp only [Bool.or_eq_true, decide_eq_true_eq, not_or] at this
    exact this.2 heq

/-! ### One link -/

/-- What becomes of a link: it is found, or stored, or a check raises, or the database refuses
the row. -/
inductive Verdict where
  | found
  | new
  | rejected
  | refused
deriving DecidableEq, Repr

/-- The checks of `establish_link` on the table, in their order. -/
def verdict (limit : ℕ) (allow : Bool) (table : LinkTable) (link : EconomicLink) : Verdict :=
  if (findExistingLink table link).isSome then if allow then .found else .rejected
  else
    match checkAcyclic limit table link, checkMaxChildren table link with
    | .ok (), .ok () => if refuses table link then .refused else .new
    | _, _ => .rejected

section Established

variable {σ : Type} {read : σ → LinkTable} {limit : ℕ} {s : Session σ} {allow : Bool} {stored : σ}

/-- What `establish_link` returns, and leaves behind, by what the checks say of the link. -/
inductive Established (read : σ → LinkTable) (limit : ℕ) (s : Session σ) (link : EconomicLink)
    (allow : Bool) (stored : σ) : Verdict → Result LinkError σ LinkEstablishResult → Prop where
  | found {existing : EconomicLink} (hmem : existing ∈ read s.current)
      (hrelationship : existing.relationship = link.relationship) (hallow : allow = true) :
      Established read limit s link allow stored .found (.ok ⟨existing, true⟩, s)
  | new (hfind : findExistingLink (read s.current) link = none)
      (hacyclic : checkAcyclic limit (read s.current) link = .ok ())
      (hmax : checkMaxChildren (read s.current) link = .ok ())
      (hrefuses : refuses (read s.current) link = false) :
      Established read limit s link allow stored .new (.ok ⟨link, false⟩, s.flush stored)
  | rejected (e : LinkError) :
      Established read limit s link allow stored .rejected (.error e, s)
  | refound {existing : EconomicLink} (hfind : findExistingLink (read s.current) link = none)
      (hback : findExistingLink (read s.committed) link = some existing) (hallow : allow = true) :
      Established read limit s link allow stored .refused (.ok ⟨existing, true⟩, s.rollback)
  | refused : Established read limit s link allow stored .refused
      (.error (duplicateLinkError link), s.rollback)

theorem mem_of_findExistingLink {existing : EconomicLink}
    (h : findExistingLink table link = some existing) :
    existing ∈ table ∧ existing.relationship = link.relationship := by
  unfold findExistingLink at h
  exact ⟨List.mem_of_find?_eq_some h, by simpa using List.find?_some h⟩

theorem established : Established read limit s link allow stored
    (verdict limit allow (read s.current) link) (establishIn read limit s link allow stored) := by
  unfold verdict establishIn
  cases hfind : findExistingLink (read s.current) link with
  | some existing =>
      obtain ⟨hmem, hrelationship⟩ := mem_of_findExistingLink hfind
      cases allow with
      | false => exact .rejected _
      | true => exact .found hmem hrelationship rfl
  | none =>
      rw [Option.isSome_none, if_neg Bool.false_ne_true]
      cases hacyclic : checkAcyclic limit (read s.current) link with
      | error e => exact .rejected e
      | ok _ =>
          cases hmax : checkMaxChildren (read s.current) link with
          | error e => exact .rejected e
          | ok _ =>
              unfold persist
              cases hrefuses : refuses (read s.current) link with
              | false => exact .new hfind hacyclic hmax hrefuses
              | true =>
                  cases hback : findExistingLink (read s.rollback.current) link with
                  | none => exact .refused
                  | some existing =>
                      cases allow with
                      | false => exact .refused
                      | true => exact .refound hfind hback rfl

/-- Where what is committed is seen, a link that was not found is not found after the rollback. -/
theorem findExistingLink_committed (hseen : read s.committed ⊆ read s.current)
    (h : findExistingLink (read s.current) link = none) :
    findExistingLink (read s.committed) link = none := by
  unfold findExistingLink at h ⊢
  rw [List.find?_eq_none] at h ⊢
  exact fun l hl => h l (hseen hl)

end Established

/-! ### Calls -/

theorem both_establishLink {s : Session LinkTable} (hs : s.Both Invariant) (limit : ℕ)
    (link : EconomicLink) (allow : Bool) : (establishLink limit s link allow).2.Both Invariant := by
  unfold establishLink
  have hone := @established link _ id limit s allow (s.current ++ [fromDomain link])
  generalize establishIn id limit s link allow _ = r at hone ⊢
  generalize verdict limit allow (id s.current) link = v at hone
  cases hone with
  | found | rejected => exact hs
  | new hfind hacyclic hmax hrefuses => exact hs.flush (hs.current.append hacyclic hmax hrefuses)
  | refound | refused => exact hs.rollback

/-- The loop keeps the invariant, also when it is left by an exception. -/
theorem both_establishLinks {s : Session LinkTable} (hs : s.Both Invariant) (limit : ℕ)
    (allow : Bool) (links : List EconomicLink) :
    (establishLinks limit s allow links).2.Both Invariant := by
  induction links generalizing s with
  | nil => exact hs
  | cons link links ih =>
      have hlink := both_establishLink hs limit link allow
      unfold establishLinks
      split
      · rename_i e s' h
        rwa [h] at hlink
      · rename_i result s' h
        rw [h] at hlink
        have hlinks := ih hlink
        split
        · rename_i e s'' h'
          rwa [h'] at hlinks
        · rename_i results s'' h'
          rwa [h'] at hlinks

/-- **Step lemma**: every call keeps the invariant. -/
theorem both_step {s s' : Session LinkTable} {c : Call} (hs : s.Both Invariant)
    (h : step s c = some s') : s'.Both Invariant := by
  cases c with
  | establishLink limit link allow =>
      obtain rfl := Option.some.inj h
      exact both_establishLink hs limit link allow
  | establishLinks limit links allow =>
      obtain rfl := Option.some.inj h
      exact both_establishLinks hs limit allow links
  | commit =>
      obtain rfl := Option.some.inj h
      exact hs.commit
  | rollback =>
      obtain rfl := Option.some.inj h
      exact hs.rollback

/-- **L3.** After any sequence of calls from the empty store, successful or not, the links of
each acyclic type form an acyclic graph, artifact types are allowed, no parent has more
children than its limit, and no relationship occurs twice. -/
theorem invariant_of_run (calls : List Call) (s : Session LinkTable)
    (h : run step (Session.start []) calls = some s) :
    Invariant s.current ∧ Invariant s.committed := by
  have hs := run_invariant (fun _ _ _ hs h => both_step hs h) (.start invariant_nil) h
  exact ⟨hs.current, hs.committed⟩

/-! ### Links among other tables -/

section Read

variable {σ : Type} (read : σ → LinkTable)

/-- The session afterwards: as it was, rolled back, or with the link. -/
theorem session_establishIn (recursionLimit : ℕ) (s : Session σ) (link : EconomicLink)
    (allowDuplicate : Bool) (stored : σ) :
    (establishIn read recursionLimit s link allowDuplicate stored).2 = s ∨
      (establishIn read recursionLimit s link allowDuplicate stored).2 = s.rollback ∨
        (establishIn read recursionLimit s link allowDuplicate stored).2 = s.flush stored := by
  have hone := @established link _ read recursionLimit s allowDuplicate stored
  generalize establishIn read recursionLimit s link allowDuplicate stored = r at hone ⊢
  generalize verdict recursionLimit allowDuplicate (read s.current) link = v at hone
  cases hone with
  | found | rejected => exact Or.inl rfl
  | new => exact Or.inr (Or.inr rfl)
  | refound | refused => exact Or.inr (Or.inl rfl)

variable {read}

/-- Where what is committed is seen, a link is found, stored or refused. -/
theorem establishIn_cases {recursionLimit : ℕ} {s : Session σ} {link : EconomicLink} {stored : σ}
    (hnested : read s.committed ⊆ read s.current) :
    (∃ existing ∈ read s.current, existing.relationship = link.relationship ∧
        establishIn read recursionLimit s link true stored = (.ok ⟨existing, true⟩, s)) ∨
      (findExistingLink (read s.current) link = none ∧
        checkAcyclic recursionLimit (read s.current) link = .ok () ∧
        checkMaxChildren (read s.current) link = .ok () ∧ refuses (read s.current) link = false ∧
        establishIn read recursionLimit s link true stored = (.ok ⟨link, false⟩, s.flush stored)) ∨
      ∃ e, establishIn read recursionLimit s link true stored = (.error e, s) ∨
        establishIn read recursionLimit s link true stored = (.error e, s.rollback) := by
  have hone := @established link _ read recursionLimit s true stored
  generalize establishIn read recursionLimit s link true stored = r at hone ⊢
  generalize verdict recursionLimit true (read s.current) link = v at hone
  cases hone with
  | found hmem hrelationship => exact Or.inl ⟨_, hmem, hrelationship, rfl⟩
  | new hfind hacyclic hmax hrefuses =>
      exact Or.inr (Or.inl ⟨hfind, hacyclic, hmax, hrefuses, rfl⟩)
  | rejected e => exact Or.inr (Or.inr ⟨e, Or.inl rfl⟩)
  | refound hfind hback =>
      rw [findExistingLink_committed hnested hfind] at hback
      cases hback
  | refused => exact Or.inr (Or.inr ⟨_, Or.inr rfl⟩)

variable {recursionLimit : ℕ} {s : Session σ} {stored : σ} {e : LinkError} {allow : Bool}

/-- Where duplicates are not allowed, a link is stored or refused. -/
theorem establishIn_strict (read : σ → LinkTable) (recursionLimit : ℕ) (s : Session σ)
    (link : EconomicLink) (stored : σ) :
    (refuses (read s.current) link = false ∧
        establishIn read recursionLimit s link false stored = (.ok ⟨link, false⟩, s.flush stored)) ∨
      ∃ e, establishIn read recursionLimit s link false stored = (.error e, s) ∨
        establishIn read recursionLimit s link false stored = (.error e, s.rollback) := by
  have hone := @established link _ read recursionLimit s false stored
  generalize establishIn read recursionLimit s link false stored = r at hone ⊢
  generalize verdict recursionLimit false (read s.current) link = v at hone
  cases hone with
  | found _ _ hallow => cases hallow
  | new hfind hacyclic hmax hrefuses => exact Or.inl ⟨hrefuses, rfl⟩
  | rejected e => exact Or.inr ⟨e, Or.inl rfl⟩
  | refound _ _ hallow => cases hallow
  | refused => exact Or.inr ⟨_, Or.inr rfl⟩

theorem establishIn_of_acyclic_error (hnone : findExistingLink (read s.current) link = none)
    (hacyclic : checkAcyclic recursionLimit (read s.current) link = .error e) :
    establishIn read recursionLimit s link allow stored = (.error e, s) := by
  unfold establishIn
  rw [hnone]
  dsimp only
  rw [hacyclic]

theorem establishIn_of_maxChildren_error (hnone : findExistingLink (read s.current) link = none)
    (hacyclic : checkAcyclic recursionLimit (read s.current) link = .ok ())
    (hmax : checkMaxChildren (read s.current) link = .error e) :
    establishIn read recursionLimit s link allow stored = (.error e, s) := by
  unfold establishIn
  rw [hnone]
  dsimp only
  rw [hacyclic]
  dsimp only
  rw [hmax]

/-- A row that is refused takes the transaction with it. -/
theorem establishIn_of_refuses (hnone : findExistingLink (read s.current) link = none)
    (hacyclic : checkAcyclic recursionLimit (read s.current) link = .ok ())
    (hmax : checkMaxChildren (read s.current) link = .ok ())
    (hrefuses : refuses (read s.current) link = true)
    (hcommitted : findExistingLink (read s.committed) link = none) :
    establishIn read recursionLimit s link allow stored =
      (.error (duplicateLinkError link), s.rollback) := by
  unfold establishIn
  rw [hnone]
  dsimp only
  rw [hacyclic]
  dsimp only
  rw [hmax]
  unfold persist
  rw [if_pos hrefuses, show read s.rollback.current = read s.committed from rfl, hcommitted]

theorem establishIn_of_new (hnone : findExistingLink (read s.current) link = none)
    (hacyclic : checkAcyclic recursionLimit (read s.current) link = .ok ())
    (hmax : checkMaxChildren (read s.current) link = .ok ())
    (hrefuses : refuses (read s.current) link = false) :
    establishIn read recursionLimit s link allow stored = (.ok ⟨link, false⟩, s.flush stored) := by
  unfold establishIn
  rw [hnone]
  dsimp only
  rw [hacyclic]
  dsimp only
  rw [hmax]
  unfold persist
  rw [hrefuses]
  rfl

end Read

/-- A link between two receipts. -/
def sampleLink (linkId : UUID) (parent child : UUID) (h : parent ≠ child) : EconomicLink where
  linkId := linkId
  linkType := .fulfilledBy
  parentRef := ⟨.receipt, parent⟩
  childRef := ⟨.receipt, child⟩
  creatingEventId := ⟨7⟩
  createdAt := sampleTime
  metadata := none
  parent_ne_child := by simpa using h
  typesAllowed := by simp [TypesAllowed, linkTypeSpecs]

/-- Two links in a row, committed; the link that would close the circle is refused. -/
def sampleCalls : List Call :=
  [.establishLinks 1000 [sampleLink ⟨0xa1⟩ ⟨1⟩ ⟨2⟩ (by decide),
      sampleLink ⟨0xa2⟩ ⟨2⟩ ⟨3⟩ (by decide)] false,
    .commit, .establishLink 1000 (sampleLink ⟨0xa3⟩ ⟨3⟩ ⟨1⟩ (by decide)) false]

theorem invariant_of_run_sample :
    ∃ s, run step (Session.start []) sampleCalls = some s ∧
      s.current.map EconomicLink.linkId = [⟨0xa1⟩, ⟨0xa2⟩] ∧ Invariant s.current :=
  ⟨_, rfl, by decide +kernel, (invariant_of_run sampleCalls _ rfl).1⟩

end FinanceAccounting.LinkGraph
