import FinanceAccounting.Kernel.LinkGraph

/-! # Matching bank statement lines

`match_bank_transaction` writes a MATCHED_WITH link from the statement of a line to every GL
reference, with the identifier of the line in its metadata, and returns the line as MATCHED.  The
links are keyed by statement and reference, and one that exists is taken for granted, whichever line
it was written for.  `recoverable_throughout` says when the matches can still be read off the
links. -/

namespace FinanceAccounting.BankMatching

open Hashing (PyVal)
open LinkGraph (ArtifactRef EconomicLink LinkError LinkTable LinkType establishLink
  findExistingLink fromDomain)
open TransitionSystem (Along Throughout)
open UnitOfWork (Result Session)

/-! ### Statement lines -/

inductive BankReconciliationStatus where
  | unmatched
  | suggested
  | matched
  | excluded
deriving DecidableEq, Repr

structure BankReconciliationLine where
  lineId : UUID
  statementRef : ArtifactRef
  transactionDate : Date
  description : String
  amount : Decimal
  currency : String
  status : BankReconciliationStatus
  matchedGlRefs : List ArtifactRef := []
  suggestedGlRefs : List ArtifactRef := []
  matchConfidence : Option Decimal := none
  linksCreated : List EconomicLink := []
  metadata : Option (List (String × PyVal)) := none

namespace BankReconciliationLine

def isReconciled (line : BankReconciliationLine) : Bool := line.status = .matched

def withConfirmedMatch (line : BankReconciliationLine) (matchedRefs : List ArtifactRef)
    (links : List EconomicLink) : BankReconciliationLine :=
  { line with
    status := .matched
    matchedGlRefs := matchedRefs
    suggestedGlRefs := []
    matchConfidence := none
    linksCreated := links }

end BankReconciliationLine

inductive MatchError where
  | bankReconciliation (statementLineId reason : String)
  | valueError (message : String)
  | link (e : LinkError)

/-- A call, with the identifiers and the times that its links get. -/
structure MatchCall where
  statementLine : BankReconciliationLine
  glRefs : List ArtifactRef
  creatingEventId : UUID
  uuid4 : ℕ → UUID
  now : ℕ → Datetime

/-- The metadata of a link. -/
def matchMetadata (line : BankReconciliationLine) : List (String × PyVal) :=
  [("statement_line_id", .scalar (.str line.lineId.str)),
    ("amount", .scalar (.str (String.ofList line.amount.toChars))),
    ("currency", .scalar (.str line.currency)),
    ("transaction_date", .scalar (.str line.transactionDate.str))]

section Service

variable (limit : ℕ)

/-- The loop over the GL references; the links that are new. -/
def linkRefs (c : MatchCall) (s : Session LinkTable) (i : ℕ) :
    List ArtifactRef → Result MatchError LinkTable (List EconomicLink)
  | [] => (.ok [], s)
  | glRef :: glRefs =>
      match EconomicLink.create (c.uuid4 i) .matchedWith c.statementLine.statementRef glRef
          c.creatingEventId (c.now i) (some (matchMetadata c.statementLine)) with
      | .error e => (.error (.valueError e), s)
      | .ok link =>
          match establishLink limit s link true with
          | (.error e, s') => (.error (.link e), s')
          | (.ok result, s') =>
              match linkRefs c s' (i + 1) glRefs with
              | (.error e, s'') => (.error e, s'')
              | (.ok links, s'') =>
                  (.ok (if result.wasDuplicate then links else result.link :: links), s'')

/-- `match_bank_transaction`. -/
def matchBankTransaction (s : Session LinkTable) (c : MatchCall) :
    Result MatchError LinkTable BankReconciliationLine :=
  if c.statementLine.isReconciled then
    (.error (.bankReconciliation c.statementLine.lineId.str "Line is already reconciled"), s)
  else
    match linkRefs limit c s 0 c.glRefs with
    | (.error e, s') => (.error e, s')
    | (.ok links, s') => (.ok (c.statementLine.withConfirmedMatch c.glRefs links), s')

/-- The links, and the lines that were returned, latest first. -/
structure State where
  session : Session LinkTable
  returned : List BankReconciliationLine := []

/-- A call, whether it returns or raises. -/
def step (s : State) (c : MatchCall) : Option State :=
  match matchBankTransaction limit s.session c with
  | (.error _, session) => some { s with session := session }
  | (.ok line, session) => some ⟨session, line :: s.returned⟩

end Service

/-! ### What can be read off the links -/

/-- A MATCHED_WITH link from the statement to the reference. -/
structure Joins (statementRef glRef : ArtifactRef) (l : EconomicLink) : Prop where
  linkType : l.linkType = .matchedWith
  parent : l.parentRef = statementRef
  child : l.childRef = glRef

def CarriesLine (lineId : UUID) (l : EconomicLink) : Prop :=
  (l.metadata.getD []).lookup "statement_line_id" = some (.scalar (.str lineId.str))

/-- Every match of a returned line has a link that carries the line, and no reference is matched to
two lines. -/
structure Recoverable (s : State) : Prop where
  linked : ∀ line ∈ s.returned, ∀ glRef ∈ line.matchedGlRefs,
    ∃ l ∈ s.session.current, Joins line.statementRef glRef l ∧ CarriesLine line.lineId l
  unique : ∀ line ∈ s.returned, ∀ other ∈ s.returned, ∀ glRef ∈ line.matchedGlRefs,
    glRef ∈ other.matchedGlRefs → line.lineId = other.lineId

/-- The identifiers of the links are new. -/
structure Fresh (s : State) (c : MatchCall) : Prop where
  injective : ∀ i < c.glRefs.length, ∀ j < c.glRefs.length, c.uuid4 i = c.uuid4 j → i = j
  unused : ∀ i < c.glRefs.length, ∀ l ∈ s.session.current, l.linkId ≠ c.uuid4 i

/-- No reference of the call is matched to another line, and where the statement is linked to one,
a link carries the line. -/
structure Meets (s : State) (c : MatchCall) : Prop where
  linked : ∀ glRef ∈ c.glRefs,
    (∃ l ∈ s.session.current, Joins c.statementLine.statementRef glRef l) →
      ∃ l ∈ s.session.current, Joins c.statementLine.statementRef glRef l ∧
        CarriesLine c.statementLine.lineId l
  unmatched : ∀ line ∈ s.returned, ∀ glRef ∈ line.matchedGlRefs, glRef ∈ c.glRefs →
    line.lineId = c.statementLine.lineId

/-! ### One call -/

section Calls

variable {limit i : ℕ} {s : Session LinkTable} {c : MatchCall} {link : EconomicLink}

/-- What the loop does to the table: rows stay, and a new one carries the line and joins what no row
joined before. -/
structure Grown (c : MatchCall) (t t' : LinkTable) : Prop where
  subset : t ⊆ t'
  new : ∀ l ∈ t', l ∈ t ∨ CarriesLine c.statementLine.lineId l ∧
    ∀ old ∈ t, old.relationship ≠ l.relationship

theorem Grown.refl (c : MatchCall) (t : LinkTable) : Grown c t t :=
  ⟨List.Subset.refl t, fun _ hl => .inl hl⟩

theorem Grown.trans {t t' t'' : LinkTable} (h : Grown c t t') (h' : Grown c t' t'') :
    Grown c t t'' := by
  refine ⟨List.Subset.trans h.subset h'.subset, fun l hl => ?_⟩
  rcases h'.new l hl with hl | ⟨hline, hnew⟩
  · exact h.new l hl
  · exact .inr ⟨hline, fun old hold => hnew old (h.subset hold)⟩

theorem create_eq_ok {linkId event : UUID} {statementRef glRef : ArtifactRef} {at_ : Datetime}
    {metadata : List (String × PyVal)}
    (h : EconomicLink.create linkId .matchedWith statementRef glRef event at_ (some metadata) =
      .ok link) :
    link.linkId = linkId ∧ Joins statementRef glRef link ∧ link.metadata = some metadata := by
  unfold EconomicLink.create at h
  split_ifs at h
  obtain rfl := Except.ok.inj h
  exact ⟨rfl, ⟨rfl, rfl, rfl⟩, rfl⟩

theorem carriesLine_fromDomain
    (h : link.metadata = some (matchMetadata c.statementLine)) :
    CarriesLine c.statementLine.lineId (fromDomain link) := by
  unfold CarriesLine fromDomain
  rw [h]
  rfl

/-- **A MATCHED_WITH link** is written unless there is one with its ends. -/
theorem establishLink_matched (htype : link.linkType = .matchedWith)
    (hfresh : ∀ l ∈ s.current, l.linkId ≠ link.linkId) :
    (∃ l ∈ s.current, l.relationship = link.relationship ∧
        establishLink limit s link true = (.ok ⟨l, true⟩, s)) ∨
      ((∀ l ∈ s.current, l.relationship ≠ link.relationship) ∧
        establishLink limit s link true =
          (.ok ⟨link, false⟩, s.flush (s.current ++ [fromDomain link]))) := by
  unfold establishLink LinkGraph.establishIn
  dsimp only [id]
  cases hfind : findExistingLink s.current link with
  | some l =>
      obtain ⟨hl, hrel⟩ := LinkGraph.mem_of_findExistingLink hfind
      exact .inl ⟨l, hl, hrel, rfl⟩
  | none =>
      have hnone : ∀ l ∈ s.current, l.relationship ≠ link.relationship := fun l hl hrel =>
        List.find?_eq_none.mp hfind l hl (decide_eq_true hrel)
      have hacyclic : LinkGraph.checkAcyclic limit s.current link = .ok () := by
        unfold LinkGraph.checkAcyclic
        rw [htype, if_neg (by decide)]
      have hchildren : LinkGraph.checkMaxChildren s.current link = .ok () := by
        unfold LinkGraph.checkMaxChildren
        rw [htype]
        rfl
      have hrefuses : LinkGraph.refuses s.current link = false := by
        refine List.any_eq_false.mpr fun l hl => ?_
        simp [hfresh l hl, hnone l hl]
      refine .inr ⟨hnone, ?_⟩
      simp only [hacyclic, hchildren, LinkGraph.persist, id, hrefuses, Bool.false_eq_true, if_false]

/-- **Step lemma** for the loop: where it ends, every reference is joined. -/
theorem grown_linkRefs {n : ℕ} (hinj : ∀ i < n, ∀ j < n, c.uuid4 i = c.uuid4 j → i = j)
    (glRefs : List ArtifactRef) (hn : i + glRefs.length = n)
    (hfresh : ∀ j < n, i ≤ j → ∀ l ∈ s.current, l.linkId ≠ c.uuid4 j) :
    Grown c s.current (linkRefs limit c s i glRefs).2.current ∧
      ∀ links, (linkRefs limit c s i glRefs).1 = .ok links → ∀ glRef ∈ glRefs,
        ∃ l ∈ (linkRefs limit c s i glRefs).2.current,
          Joins c.statementLine.statementRef glRef l := by
  induction glRefs generalizing i s with
  | nil => exact ⟨.refl c _, fun _ _ _ h => nomatch h⟩
  | cons glRef glRefs ih =>
      rw [List.length_cons] at hn
      unfold linkRefs
      cases hcreate : EconomicLink.create (c.uuid4 i) .matchedWith c.statementLine.statementRef
          glRef c.creatingEventId (c.now i) (some (matchMetadata c.statementLine)) with
      | error e => exact ⟨.refl c _, fun _ h => nomatch h⟩
      | ok link =>
          obtain ⟨hid, hjoins, hmetadata⟩ := create_eq_ok hcreate
          have hrelationship : ∀ {l : EconomicLink}, l.relationship = link.relationship →
              Joins c.statementLine.statementRef glRef l := by
            intro l h
            simp only [EconomicLink.relationship, Prod.mk.injEq] at h
            exact ⟨h.1.trans hjoins.linkType, h.2.1.trans hjoins.parent,
              h.2.2.trans hjoins.child⟩
          -- the reference is joined, by an old row or by a new one
          obtain ⟨r, s', hestablish, hgrown, hjoined, hfresh'⟩ : ∃ r s',
              establishLink limit s link true = (.ok r, s') ∧ Grown c s.current s'.current ∧
                (∃ l ∈ s'.current, Joins c.statementLine.statementRef glRef l) ∧
                  ∀ j < n, i + 1 ≤ j → ∀ l ∈ s'.current, l.linkId ≠ c.uuid4 j := by
            rcases establishLink_matched hjoins.linkType
                (fun l hl => hid ▸ hfresh i (by omega) le_rfl l hl)
              with ⟨l, hl, hrel, hestablish⟩ | ⟨hnew, hestablish⟩
            · exact ⟨_, _, hestablish, .refl c _, ⟨l, hl, hrelationship hrel⟩,
                fun j hjn hj => hfresh j hjn (by omega)⟩
            · refine ⟨_, _, hestablish, ⟨List.subset_append_left _ _, fun l hl => ?_⟩,
                ⟨fromDomain link, by simp [Session.flush], hrelationship rfl⟩,
                fun j hjn hj l hl => ?_⟩
              · refine (List.mem_append.mp hl).imp id fun hl => ?_
                obtain rfl := List.mem_singleton.mp hl
                exact ⟨carriesLine_fromDomain hmetadata, hnew⟩
              · rcases List.mem_append.mp hl with hl | hl
                · exact hfresh j hjn (by omega) l hl
                · obtain rfl := List.mem_singleton.mp hl
                  rw [show (fromDomain link).linkId = c.uuid4 i from hid]
                  exact fun heq => absurd (hinj i (by omega) j hjn heq) (by omega)
          obtain ⟨hrest, hends⟩ := ih (by omega) hfresh'
          dsimp only
          rw [hestablish]
          dsimp only
          rcases hloop : linkRefs limit c s' (i + 1) glRefs with ⟨e | links, s''⟩
          · rw [hloop] at hrest
            exact ⟨hgrown.trans hrest, fun _ h => nomatch h⟩
          · rw [hloop] at hrest hends
            refine ⟨hgrown.trans hrest, fun _ _ ref href => ?_⟩
            rcases List.mem_cons.mp href with rfl | href
            · obtain ⟨l, hl, hjoins⟩ := hjoined
              exact ⟨l, hrest.subset hl, hjoins⟩
            · exact hends links rfl ref href

/-- **Step lemma**: a call that meets the condition keeps the matches recoverable. -/
theorem recoverable_step {s s' : State} (h : Recoverable s) (hfresh : Fresh s c)
    (hmeets : Meets s c) (hstep : step limit s c = some s') : Recoverable s' := by
  unfold step matchBankTransaction at hstep
  split_ifs at hstep
  · obtain rfl := Option.some.inj hstep
    exact h
  · obtain ⟨hgrown, hjoined⟩ := @grown_linkRefs limit 0 s.session c _ hfresh.injective
      c.glRefs (Nat.zero_add _) fun j hj (_ : 0 ≤ j) => hfresh.unused j hj
    have hkept : ∀ line ∈ s.returned, ∀ glRef ∈ line.matchedGlRefs,
        ∃ l ∈ (linkRefs limit c s.session 0 c.glRefs).2.current,
          Joins line.statementRef glRef l ∧ CarriesLine line.lineId l := by
      intro line hline glRef href
      obtain ⟨l, hl, hboth⟩ := h.linked line hline glRef href
      exact ⟨l, hgrown.subset hl, hboth⟩
    rcases hloop : linkRefs limit c s.session 0 c.glRefs with ⟨e | links, session⟩
    · rw [hloop] at hstep hkept
      obtain rfl := Option.some.inj hstep
      exact ⟨hkept, h.unique⟩
    · rw [hloop] at hstep hkept hjoined hgrown
      obtain rfl := Option.some.inj hstep
      constructor
      · intro line hline glRef href
        rcases List.mem_cons.mp hline with rfl | hline
        · obtain ⟨l, hl, hjoins⟩ := hjoined links rfl glRef href
          rcases hgrown.new l hl with hold | ⟨hcarries, -⟩
          · obtain ⟨l, hl, hboth⟩ := hmeets.linked glRef href ⟨l, hold, hjoins⟩
            exact ⟨l, hgrown.subset hl, hboth⟩
          · exact ⟨l, hl, hjoins, hcarries⟩
        · exact hkept line hline glRef href
      · intro line hline other hother glRef href hother'
        rcases List.mem_cons.mp hline with rfl | hline
        · rcases List.mem_cons.mp hother with rfl | hother
          · rfl
          · exact (hmeets.unmatched other hother glRef hother' href).symm
        · rcases List.mem_cons.mp hother with rfl | hother
          · exact hmeets.unmatched line hline glRef href hother'
          · exact h.unique line hline other hother glRef href hother'

end Calls

/-- **Bank matches are recoverable** from the links, in every run from any table whose calls match
references that are not matched to another line, and link a statement to a reference for one line
only. -/
theorem recoverable_throughout (limit : ℕ) (session : Session LinkTable) (calls : List MatchCall)
    (hcalls : Along (step limit) (fun s c => Fresh s c ∧ Meets s c) ⟨session, []⟩ calls) :
    Throughout (step limit) Recoverable ⟨session, []⟩ calls :=
  hcalls.throughout (fun _ _ _ h hcall hstep => recoverable_step h hcall.1 hcall.2 hstep)
    ⟨fun _ h => (nomatch h), fun _ h => (nomatch h)⟩

/-- A call that matches a line of one statement to a journal entry. -/
def sampleMatch (lineId : UUID) : MatchCall where
  statementLine :=
    { lineId := lineId
      statementRef := ⟨.bankStatement, ⟨1⟩⟩
      transactionDate := sampleTime.date
      description := "Deposit"
      amount := .finite false 10000 (-2)
      currency := "USD"
      status := .unmatched }
  glRefs := [⟨.journalEntry, ⟨2⟩⟩]
  creatingEventId := ⟨3⟩
  uuid4 i := ⟨10 + i⟩
  now _ := sampleTime

def sampleSession : Session LinkTable := ⟨[], []⟩

theorem recoverable_throughout_deposit :
    Throughout (step 100) Recoverable ⟨sampleSession, []⟩ [sampleMatch ⟨4⟩] := by
  refine recoverable_throughout 100 sampleSession _
    (TransitionSystem.along_cons.mpr ⟨⟨⟨?_, ?_⟩, ?_, ?_⟩, fun _ _ => TransitionSystem.along_nil⟩)
  · intro i hi j hj _
    exact (Nat.lt_one_iff.mp hi).trans (Nat.lt_one_iff.mp hj).symm
  · exact fun _ _ _ h => nomatch h
  · rintro _ _ ⟨_, h, _⟩
    exact nomatch h
  · exact fun _ h => nomatch h

/-- Two lines of the statement are matched to the one entry. -/
theorem line_matched_unlinked :
    ¬Throughout (step 100) Recoverable ⟨sampleSession, []⟩
      [sampleMatch ⟨4⟩, sampleMatch ⟨5⟩] := by
  intro h
  have hlast := h _ [] _ (List.append_nil _).symm rfl
  have hsame := hlast.unique _ (List.mem_cons_self ..) _
    (List.mem_cons_of_mem _ (List.mem_cons_self ..)) ⟨.journalEntry, ⟨2⟩⟩
    (List.mem_singleton.mpr rfl) (List.mem_singleton.mpr rfl)
  exact absurd hsame (by decide)

end FinanceAccounting.BankMatching
