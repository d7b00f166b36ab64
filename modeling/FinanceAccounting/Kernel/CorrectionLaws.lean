import Mathlib.Data.List.Dedup
import Mathlib.Algebra.BigOperators.Group.List.Basic
import FinanceAccounting.Kernel.Correction

/-! # What a correction reverses

The entries of the artifacts that a plan unwinds and the compensating entries of an execution are
to cancel on every ledger, account and currency, and every entry is to be reversed exactly once.

`New` says what the traversal yields: every artifact once, with its entries and the answer of the
check.  The engine reverses the first entry of every unwound artifact, so `reverses_all_iff`
proves that an execution reverses everything exactly when the unwound artifacts have all their
entries among their first entries, share none of these, and none was reversed before. -/

namespace FinanceAccounting.Correction

open LinkGraph (ArtifactRef ArtifactType LinkType EconomicLink LinkTable LinkError)
open UnitOfWork (Session Result)
open CorrectionEngine (Request)

/-! ### Traversal -/

section Traversal

variable {engine : CorrectionEngine} {links : LinkTable}

/-- Artifacts that a part of the traversal has met for the first time. -/
structure New (engine : CorrectionEngine) (links : LinkTable) (visited visited' : List ArtifactRef)
    (met : List AffectedArtifact) : Prop where
  nodup : (met.map AffectedArtifact.ref).Nodup
  fresh : ∀ a ∈ met, a.ref ∉ visited
  visited_iff : ∀ r, r ∈ visited' ↔ r ∈ visited ∨ r ∈ met.map AffectedArtifact.ref
  entries : ∀ a ∈ met, a.originalGlEntries = engine.getGlEntries a.ref
  checked : ∀ a ∈ met, engine.checkCanUnwind links a.ref = .ok a.blockReason
  blocked : ∀ a ∈ met, a.canUnwind = a.blockReason.isNone

theorem New.nil (visited : List ArtifactRef) : New engine links visited visited [] where
  nodup := List.nodup_nil
  fresh := by simp
  visited_iff := by simp
  entries := by simp
  checked := by simp
  blocked := by simp

theorem New.append {v₀ v₁ v₂ : List ArtifactRef} {as bs : List AffectedArtifact}
    (ha : New engine links v₀ v₁ as) (hb : New engine links v₁ v₂ bs) :
    New engine links v₀ v₂ (as ++ bs) where
  nodup := by
    rw [List.map_append, List.nodup_append]
    refine ⟨ha.nodup, hb.nodup, fun r hr r' hr' heq => ?_⟩
    obtain ⟨b, hmem, rfl⟩ := List.mem_map.mp hr'
    exact hb.fresh b hmem ((ha.visited_iff _).mpr (Or.inr (heq ▸ hr)))
  fresh a hmem := by
    rcases List.mem_append.mp hmem with hmem | hmem
    · exact ha.fresh a hmem
    · exact fun hv => hb.fresh a hmem ((ha.visited_iff _).mpr (Or.inl hv))
  visited_iff r := by
    rw [hb.visited_iff, ha.visited_iff, List.map_append, List.mem_append, or_assoc]
  entries a hmem := (List.mem_append.mp hmem).elim (ha.entries a) (hb.entries a)
  checked a hmem := (List.mem_append.mp hmem).elim (ha.checked a) (hb.checked a)
  blocked a hmem := (List.mem_append.mp hmem).elim (ha.blocked a) (hb.blocked a)

/-- One artifact is met. -/
theorem New.downstream {visited : List ArtifactRef} {link : EconomicLink}
    {parent : AffectedArtifact} {blockReason : Option String} (hfresh : link.childRef ∉ visited)
    (hcheck : engine.checkCanUnwind links link.childRef = .ok blockReason) :
    New engine links visited (link.childRef :: visited)
      [.downstream link.childRef parent link.linkType (engine.getGlEntries link.childRef)
        blockReason] where
  nodup := List.nodup_singleton _
  fresh := by simpa [AffectedArtifact.downstream] using hfresh
  visited_iff r := by
    rw [List.mem_cons, List.map_singleton, List.mem_singleton, or_comm]
    rfl
  entries := by simp [AffectedArtifact.downstream]
  checked := by simpa [AffectedArtifact.downstream] using hcheck
  blocked := by simp [AffectedArtifact.downstream]

theorem new_visitChildren {parent : AffectedArtifact} :
    ∀ {children : List EconomicLink} {visited : List ArtifactRef}
      {r : List AffectedArtifact × List ArtifactRef},
      engine.visitChildren links parent children visited = .ok r →
        New engine links visited r.2 r.1
  | [], visited, r, h => by
      obtain rfl := Except.ok.inj h
      exact New.nil visited
  | link :: children, visited, r, h => by
      unfold CorrectionEngine.visitChildren at h
      split at h
      · exact new_visitChildren h
      · rename_i hfresh
        cases hcheck : engine.checkCanUnwind links link.childRef with
        | error e =>
            rw [hcheck] at h
            cases h
        | ok blockReason =>
            rw [hcheck] at h
            dsimp only at h
            cases hrest : engine.visitChildren links parent children (link.childRef :: visited) with
            | error e =>
                rw [hrest] at h
                cases h
            | ok rest =>
                rw [hrest] at h
                obtain rfl := Except.ok.inj h
                exact (New.downstream hfresh hcheck).append (new_visitChildren hrest)

theorem new_visitLevel : ∀ {level : List AffectedArtifact} {visited : List ArtifactRef}
    {r : List AffectedArtifact × List ArtifactRef},
    engine.visitLevel links level visited = .ok r → New engine links visited r.2 r.1
  | [], visited, r, h => by
      obtain rfl := Except.ok.inj h
      exact New.nil visited
  | parent :: parents, visited, r, h => by
      unfold CorrectionEngine.visitLevel at h
      cases hchildren : engine.visitChildren links parent (downstreamChildren links parent.ref)
          visited with
      | error e =>
          rw [hchildren] at h
          cases h
      | ok children =>
          rw [hchildren] at h
          dsimp only at h
          cases hrest : engine.visitLevel links parents children.2 with
          | error e =>
              rw [hrest] at h
              cases h
          | ok rest =>
              rw [hrest] at h
              obtain rfl := Except.ok.inj h
              exact (new_visitChildren hchildren).append (new_visitLevel hrest)

/-- **The traversal meets every artifact once.** -/
theorem new_visitLevels : ∀ {depth : ℕ} {level : List AffectedArtifact}
    {visited : List ArtifactRef} {below : List AffectedArtifact},
    engine.visitLevels links depth level visited = .ok below →
      ∃ visited', New engine links visited visited' below
  | 0, level, visited, below, h => by
      obtain rfl := Except.ok.inj h
      exact ⟨visited, New.nil visited⟩
  | depth + 1, level, visited, below, h => by
      unfold CorrectionEngine.visitLevels at h
      cases hnext : engine.visitLevel links level visited with
      | error e =>
          rw [hnext] at h
          cases h
      | ok next =>
          rw [hnext] at h
          dsimp only at h
          split at h
          · obtain rfl := Except.ok.inj h
            exact ⟨visited, New.nil visited⟩
          · cases hrest : engine.visitLevels links depth next.1 next.2 with
            | error e =>
                rw [hrest] at h
                cases h
            | ok rest =>
                rw [hrest] at h
                obtain rfl := Except.ok.inj h
                obtain ⟨visited', hbelow⟩ := new_visitLevels hrest
                exact ⟨visited', (new_visitLevel hnext).append hbelow⟩

end Traversal

/-! ### Generated entries -/

section Entries

variable {engine : CorrectionEngine} {request : Request}

/-- The entry of an artifact that is reversed: the first, if it has lines. -/
def reversedEntry (engine : CorrectionEngine) (a : AffectedArtifact) : Option GLEntry :=
  (engine.lookup.entries a.ref).head?.filter fun e => !e.lines.isEmpty

/-- What a compensating entry says about the entry it reverses. -/
def CompensatingEntry.reversal (c : CompensatingEntry) : UUID × List CompensatingLine :=
  (c.originalEntryId, c.lines)

def GLEntry.reversal (e : GLEntry) : UUID × List CompensatingLine :=
  (e.entryId, e.lines.map CompensatingLine.reverseLine)

theorem createReversal_eq_ok {ref : ArtifactRef} {entry : GLEntry} {c : CompensatingEntry}
    (h : CorrectionEngine.createReversal request ref entry = .ok c) :
    c.reversal = entry.reversal := by
  unfold CorrectionEngine.createReversal at h
  cases hlines : checkLines (entry.lines.map CompensatingLine.reverseLine) with
  | error e =>
      rw [hlines] at h
      cases h
  | ok lines =>
      rw [hlines] at h
      obtain rfl := Except.ok.inj h
      have hval : lines.val = entry.lines.map CompensatingLine.reverseLine := by
        unfold checkLines at hlines
        split at hlines
        · cases hlines
        · split at hlines
          · cases hlines
          · cases hlines
          · split at hlines
            · obtain rfl := Except.ok.inj hlines
              rfl
            · cases hlines
      exact congrArg (Prod.mk entry.entryId) hval

theorem generateCompensatingEntry_eq_ok {a : AffectedArtifact} {c : Option CompensatingEntry}
    (hentries : a.originalGlEntries = engine.getGlEntries a.ref)
    (h : engine.generateCompensatingEntry request a = .ok c) :
    c.map CompensatingEntry.reversal = (reversedEntry engine a).map GLEntry.reversal := by
  unfold CorrectionEngine.generateCompensatingEntry AffectedArtifact.hasGlImpact at h
  rw [hentries, CorrectionEngine.getGlEntries, List.length_map] at h
  unfold reversedEntry
  cases hlookup : engine.lookup.entries a.ref with
  | nil =>
      rw [hlookup] at h
      obtain rfl := Except.ok.inj h
      rfl
  | cons entry entries =>
      rw [hlookup] at h
      rw [if_pos (by simp)] at h
      dsimp only at h
      split at h
      · rename_i hempty
        obtain rfl := Except.ok.inj h
        rw [List.head?_cons, Option.filter_some, if_neg (by simpa using hempty)]
        rfl
      · rename_i hlines
        cases hreversal : CorrectionEngine.createReversal request a.ref entry with
        | error e =>
            rw [hreversal] at h
            cases h
        | ok c' =>
            rw [hreversal] at h
            obtain rfl := Except.ok.inj h
            rw [List.head?_cons, Option.filter_some, if_pos (by simpa using hlines)]
            exact congrArg some (createReversal_eq_ok hreversal)

/-- **The generated entries** reverse the first entries of the artifacts that can be unwound. -/
theorem generateEntries_eq_ok : ∀ {affected : List AffectedArtifact} {cs : List CompensatingEntry},
    (∀ a ∈ affected, a.originalGlEntries = engine.getGlEntries a.ref) →
    engine.generateEntries request affected = .ok cs →
      cs.map CompensatingEntry.reversal =
        ((affected.filter AffectedArtifact.canUnwind).filterMap (reversedEntry engine)).map
          GLEntry.reversal
  | [], cs, _, h => by
      obtain rfl := Except.ok.inj h
      rfl
  | a :: affected, cs, hentries, h => by
      have hrest : ∀ b ∈ affected, b.originalGlEntries = engine.getGlEntries b.ref := fun b hb =>
        hentries b (List.mem_cons_of_mem _ hb)
      have ha := hentries a List.mem_cons_self
      unfold CorrectionEngine.generateEntries at h
      by_cases hcan : a.canUnwind = true
      · rw [List.filter_cons_of_pos hcan]
        by_cases himpact : a.hasGlImpact = true
        · rw [if_pos (by simp [hcan, himpact])] at h
          cases hgen : engine.generateCompensatingEntry request a with
          | error e =>
              rw [hgen] at h
              cases h
          | ok c =>
              rw [hgen] at h
              dsimp only at h
              cases hmore : engine.generateEntries request affected with
              | error e =>
                  rw [hmore] at h
                  cases h
              | ok cs' =>
                  rw [hmore] at h
                  obtain rfl := Except.ok.inj h
                  have hc := generateCompensatingEntry_eq_ok ha hgen
                  rw [List.map_append, generateEntries_eq_ok hrest hmore]
                  cases hrev : reversedEntry engine a with
                  | none =>
                      rw [hrev] at hc
                      rw [List.filterMap_cons_none hrev, Option.map_eq_none_iff.mp hc]
                      rfl
                  | some e =>
                      rw [hrev] at hc
                      obtain ⟨c', rfl, hc'⟩ := Option.map_eq_some_iff.mp hc
                      rw [List.filterMap_cons_some hrev, List.map_cons, ← hc']
                      rfl
        · rw [if_neg (by simp [himpact])] at h
          have hnone : reversedEntry engine a = none := by
            unfold AffectedArtifact.hasGlImpact at himpact
            rw [ha, CorrectionEngine.getGlEntries, List.length_map] at himpact
            have hnil : engine.lookup.entries a.ref = [] :=
              List.length_eq_zero_iff.mp (by simpa using himpact)
            unfold reversedEntry
            rw [hnil]
            rfl
          rw [List.filterMap_cons_none hnone]
          exact generateEntries_eq_ok hrest h
      · rw [if_neg (by simp [hcan])] at h
        rw [List.filter_cons_of_neg hcan]
        exact generateEntries_eq_ok hrest h

end Entries

/-! ### Plans -/

section Plans

variable {engine : CorrectionEngine} {links : LinkTable} {request : Request} {plan : UnwindPlan}

/-- What is known of a plan that was built. -/
structure Built (engine : CorrectionEngine) (links : LinkTable) (plan : UnwindPlan) : Prop where
  nodup : (plan.affectedArtifacts.map AffectedArtifact.ref).Nodup
  entries : ∀ a ∈ plan.affectedArtifacts, a.originalGlEntries = engine.getGlEntries a.ref
  uncorrected : ∀ a ∈ plan.unwound, findCorrection links a.ref = none
  root : findCorrection links plan.rootRef = none
  reversals : plan.isDryRun = false → plan.compensatingEntries.map CompensatingEntry.reversal =
    (plan.unwound.filterMap (reversedEntry engine)).map GLEntry.reversal

/-- What can be unwound has not been corrected. -/
theorem findCorrection_of_checked {ref : ArtifactRef}
    (h : engine.checkCanUnwind links ref = .ok none) : findCorrection links ref = none := by
  unfold CorrectionEngine.checkCanUnwind at h
  cases hfind : findCorrection links ref with
  | none => rfl
  | some correction =>
      rw [hfind] at h
      cases h

theorem built_of_parts {below : List AffectedArtifact} {visited : List ArtifactRef}
    {cs : List CompensatingEntry} (hroot : findCorrection links request.rootRef = none)
    (hnew : New engine links [request.rootRef] visited below)
    (hcs : request.strategy ≠ .dryRun →
      engine.generateEntries request (engine.rootArtifact request.rootRef :: below) = .ok cs) :
    Built engine links (engine.createPlan request below cs) := by
  have hentries : ∀ a ∈ engine.rootArtifact request.rootRef :: below,
      a.originalGlEntries = engine.getGlEntries a.ref := by
    intro a ha
    rcases List.mem_cons.mp ha with rfl | ha
    · rfl
    · exact hnew.entries a ha
  refine ⟨?_, hentries, fun a ha => ?_, hroot, fun hdry => ?_⟩
  · show ((engine.rootArtifact request.rootRef :: below).map AffectedArtifact.ref).Nodup
    rw [List.map_cons, List.nodup_cons]
    refine ⟨fun hmem => ?_, hnew.nodup⟩
    obtain ⟨a, ha, heq⟩ := List.mem_map.mp hmem
    exact hnew.fresh a ha (List.mem_singleton.mpr heq)
  · obtain ⟨hmem, hcan⟩ := List.mem_filter.mp ha
    rcases List.mem_cons.mp hmem with rfl | hmem
    · exact hroot
    · have hchecked := hnew.checked a hmem
      rw [hnew.blocked a hmem, Option.isNone_iff_eq_none] at hcan
      rw [hcan] at hchecked
      exact findCorrection_of_checked hchecked
  · exact generateEntries_eq_ok hentries (hcs (of_decide_eq_false hdry))

theorem built_of_buildUnwindPlan (h : engine.buildUnwindPlan links request = .ok plan) :
    Built engine links plan := by
  unfold CorrectionEngine.buildUnwindPlan at h
  cases hroot : findCorrection links request.rootRef with
  | some correction =>
      rw [hroot] at h
      cases h
  | none =>
      rw [hroot] at h
      dsimp only at h
      cases hbelow : engine.traverseDownstream links request.rootRef request.depth with
      | error e =>
          rw [hbelow] at h
          cases h
      | ok below =>
          rw [hbelow] at h
          dsimp only at h
          obtain ⟨visited, hnew⟩ := new_visitLevels hbelow
          split at h
          · cases h
          · split at h
            · rename_i hdry
              obtain rfl := Except.ok.inj h
              exact built_of_parts hroot hnew fun hne => absurd hdry hne
            · cases hcs : engine.generateEntries request
                  (engine.rootArtifact request.rootRef :: below) with
              | error e =>
                  rw [hcs] at h
                  cases h
              | ok cs =>
                  rw [hcs] at h
                  obtain rfl := Except.ok.inj h
                  exact built_of_parts hroot hnew fun _ => hcs

end Plans

/-! ### What an execution writes -/

section Writing

variable {x : Execution} {plan : UnwindPlan}

/-- What is committed is seen in the open transaction. -/
def Nested (s : Session Store) : Prop := s.committed.links ⊆ s.current.links

/-- The entries that the writer gets. -/
def Execution.handed (x : Execution) (plan : UnwindPlan) : List CompensatingEntry :=
  if x.journalEntryWriter.isSome then plan.compensatingEntries else []

theorem writeEntries_eq_ok : ∀ {entries : List CompensatingEntry} {s s' : Session Store}
    {ids : List UUID}, x.writeEntries s entries = (.ok ids, s') →
      s' = s.flush { s.current with written := s.current.written ++
        if x.journalEntryWriter.isSome then entries else [] }
  | [], s, s', ids, h => by
      obtain rfl := (Prod.mk.inj h).2
      rw [ite_self, List.append_nil]
      rfl
  | entry :: entries, s, s', ids, h => by
      unfold Execution.writeEntries at h
      cases hw : x.journalEntryWriter with
      | none =>
          rw [hw] at h
          have hrest := writeEntries_eq_ok h
          rw [hw] at hrest
          exact hrest
      | some writer =>
          rw [hw] at h
          dsimp only at h
          split at h
          · cases h
          · obtain ⟨ids', s₁, hrun, heq⟩ := Result.andThen_eq_ok.mp h
            obtain rfl := (Prod.mk.inj heq).2
            have hrest := writeEntries_eq_ok hrun
            rw [hw] at hrest
            rw [hrest]
            simp [Session.flush]

theorem establish_eq_ok {s s' : Session Store} {link : CorrectionLink} {isNew : Bool}
    (hnested : Nested s) (h : x.establish s link = (.ok isNew, s')) :
    Nested s' ∧ s'.current.written = s.current.written := by
  unfold Execution.establish at h
  split at h
  · unfold Execution.establishSelf at h
    split at h
    · cases h
    · split at h
      · cases h
      · split at h
        · cases h
        · split at h
          · cases h
          · split at h
            · cases h
            · obtain rfl := (Prod.mk.inj h).2
              exact ⟨hnested, rfl⟩
  · unfold Execution.establishOther at h
    split at h
    · cases h
    · rename_i l _
      split at h
      · obtain rfl := (Prod.mk.inj h).2
        exact ⟨hnested, rfl⟩
      · split at h
        · cases h
        · split at h
          · cases h
          · rcases LinkGraph.establishIn_cases hnested with ⟨existing, -, -, heq⟩ |
              ⟨-, -, -, -, heq⟩ | ⟨e, heq | heq⟩ <;> rw [heq] at h
            · obtain rfl := (Prod.mk.inj h).2
              exact ⟨hnested, rfl⟩
            · obtain rfl := (Prod.mk.inj h).2
              exact ⟨List.Subset.trans hnested (List.subset_append_left _ _), rfl⟩
            · cases h
            · cases h

theorem written_establishLinks : ∀ {artifacts : List AffectedArtifact} {s s' : Session Store}
    {n : ℕ} {made : List CorrectionLink}, Nested s →
    x.establishLinks plan s n artifacts = (.ok made, s') →
      s'.current.written = s.current.written
  | [], s, s', n, made, _, h => by
      obtain rfl := (Prod.mk.inj h).2
      rfl
  | a :: artifacts, s, s', n, made, hnested, h => by
      unfold Execution.establishLinks at h
      split at h
      · obtain ⟨isNew, s₁, hlink, hmore⟩ := Result.andThen_eq_ok.mp h
        obtain ⟨hnested₁, hwritten⟩ := establish_eq_ok hnested hlink
        obtain ⟨rest, s₂, hrest, heq⟩ := Result.andThen_eq_ok.mp hmore
        obtain rfl := (Prod.mk.inj heq).2
        rw [written_establishLinks hnested₁ hrest, hwritten]
      · exact written_establishLinks hnested h

/-- **A completed execution** has written the compensating entries, if there is a writer. -/
theorem written_executeCorrection {s s' : Session Store} {result : CorrectionResult}
    (hnested : Nested s) (h : x.executeCorrection s plan = (.ok result, s')) :
    plan.isDryRun = false ∧ s'.current.written = s.current.written ++ x.handed plan := by
  unfold Execution.executeCorrection at h
  split at h
  · cases h
  · rename_i hdry
    refine ⟨by simpa using hdry, ?_⟩
    split at h
    · cases h
    · split at h
      · cases h
      · split at h
        · cases h
        · obtain ⟨ids, s₁, hwrite, hmore⟩ := Result.andThen_eq_ok.mp h
          obtain ⟨made, s₂, hlinks, heq⟩ := Result.andThen_eq_ok.mp hmore
          obtain rfl := (Prod.mk.inj heq).2
          have hs₁ := writeEntries_eq_ok hwrite
          have hnested₁ : Nested s₁ := by
            rw [hs₁]
            exact hnested
          rw [written_establishLinks hnested₁ hlinks, hs₁]
          rfl

end Writing

/-! ### Impact on the ledgers -/

structure ImpactKey where
  ledger : String
  accountId : String
  currency : String

/-- A debit counts positive, a credit negative. -/
def GLLine.impact (key : ImpactKey) (l : GLLine) : ℚ :=
  if l.accountId = key.accountId ∧ l.currency = key.currency then
    if l.isDebit then l.amount.toRat else -l.amount.toRat
  else 0

def CompensatingLine.impact (key : ImpactKey) (l : CompensatingLine) : ℚ :=
  if l.accountId = key.accountId ∧ l.currency = key.currency then
    if l.isDebit then l.amount.toRat else -l.amount.toRat
  else 0

/-- What an entry adds to a key; `ledgerOf` gives the ledger that an entry is posted to. -/
def GLEntry.impact (ledgerOf : UUID → String) (key : ImpactKey) (e : GLEntry) : ℚ :=
  if ledgerOf e.entryId = key.ledger then (e.lines.map (GLLine.impact key)).sum else 0

/-- What lines posted to the ledger of an entry add to a key. -/
def reversalImpact (ledgerOf : UUID → String) (key : ImpactKey)
    (r : UUID × List CompensatingLine) : ℚ :=
  if ledgerOf r.1 = key.ledger then (r.2.map (CompensatingLine.impact key)).sum else 0

/-- A compensating entry is posted to the ledger of the entry that it reverses. -/
def CompensatingEntry.impact (ledgerOf : UUID → String) (key : ImpactKey)
    (c : CompensatingEntry) : ℚ :=
  reversalImpact ledgerOf key c.reversal

theorem impact_reverseLine (key : ImpactKey) (l : GLLine) :
    (CompensatingLine.reverseLine l).impact key = -l.impact key := by
  unfold CompensatingLine.impact GLLine.impact CompensatingLine.reverseLine
  dsimp only
  split
  · cases l.isDebit
    · exact (neg_neg _).symm
    · rfl
  · exact neg_zero.symm

theorem sum_reverseLine (key : ImpactKey) : ∀ lines : List GLLine,
    ((lines.map CompensatingLine.reverseLine).map (CompensatingLine.impact key)).sum =
      -(lines.map (GLLine.impact key)).sum
  | [] => neg_zero.symm
  | l :: lines => by
      simp only [List.map_cons, List.sum_cons]
      rw [impact_reverseLine, sum_reverseLine key lines, neg_add]

theorem reversalImpact_reversal (ledgerOf : UUID → String) (key : ImpactKey) (e : GLEntry) :
    reversalImpact ledgerOf key e.reversal = -e.impact ledgerOf key := by
  unfold reversalImpact GLEntry.impact GLEntry.reversal
  dsimp only
  split
  · exact sum_reverseLine key e.lines
  · exact neg_zero.symm

/-- Entries and their reversals cancel. -/
theorem sum_reversal (ledgerOf : UUID → String) (key : ImpactKey) : ∀ es : List GLEntry,
    ((es.map GLEntry.reversal).map (reversalImpact ledgerOf key)).sum =
      -(es.map (GLEntry.impact ledgerOf key)).sum
  | [] => neg_zero.symm
  | e :: es => by
      simp only [List.map_cons, List.sum_cons]
      rw [reversalImpact_reversal, sum_reversal ledgerOf key es, neg_add]

/-! ### Everything is reversed -/

section Reversing

variable (engine : CorrectionEngine) (plan : UnwindPlan)

/-- The entries of the artifacts that are unwound, each of them once. -/
def ownedEntries : List GLEntry :=
  (plan.unwound.flatMap fun a => engine.lookup.entries a.ref).dedup

/-- On every key the entries and what was written for them sum to zero. -/
def SumsToZero (ledgerOf : UUID → String) (written : List CompensatingEntry) : Prop :=
  ∀ key, ((ownedEntries engine plan).map (GLEntry.impact ledgerOf key)).sum +
    (written.map (CompensatingEntry.impact ledgerOf key)).sum = 0

/-- Every entry is reversed by one of the entries written, and not by an earlier one. -/
def EachReversedOnce (links : LinkTable) (written : List CompensatingEntry) : Prop :=
  ∀ e ∈ ownedEntries engine plan,
    (written.countP fun c => c.originalEntryId = e.entryId) = 1 ∧
      findReversal links ⟨.journalEntry, e.entryId⟩ = none

/-- The unwound artifacts have all their entries among their first entries, these have lines, no
two artifacts have the same, and none was reversed before. -/
structure FirstEntriesCover (links : LinkTable) (x : Execution) : Prop where
  writer : ownedEntries engine plan ≠ [] → x.journalEntryWriter.isSome
  first : ∀ e ∈ ownedEntries engine plan,
    ∃ a ∈ plan.unwound, (engine.lookup.entries a.ref).head? = some e
  lines : ∀ e ∈ ownedEntries engine plan, e.lines ≠ []
  once : ∀ a ∈ plan.unwound, ∀ b ∈ plan.unwound, ∀ e,
    (engine.lookup.entries a.ref).head? = some e →
      (engine.lookup.entries b.ref).head? = some e → a.ref = b.ref
  unreversed : ∀ e ∈ ownedEntries engine plan, findReversal links ⟨.journalEntry, e.entryId⟩ = none

variable {engine plan} {links : LinkTable} {x : Execution}

theorem mem_ownedEntries {e : GLEntry} :
    e ∈ ownedEntries engine plan ↔ ∃ a ∈ plan.unwound, e ∈ engine.lookup.entries a.ref := by
  unfold ownedEntries
  rw [List.mem_dedup, List.mem_flatMap]

theorem reversedEntry_eq_some {a : AffectedArtifact} {e : GLEntry} :
    reversedEntry engine a = some e ↔
      (engine.lookup.entries a.ref).head? = some e ∧ e.lines ≠ [] := by
  unfold reversedEntry
  rw [Option.filter_eq_some_iff]
  simp

theorem mem_entries_of_reversedEntry {a : AffectedArtifact} {e : GLEntry}
    (h : reversedEntry engine a = some e) : e ∈ engine.lookup.entries a.ref :=
  List.mem_of_head? (reversedEntry_eq_some.mp h).1

/-- In one journal an entry is known by its identifier. -/
theorem entryId_inj {e e' : GLEntry} (he : e ∈ ownedEntries engine plan)
    (he' : e' ∈ ownedEntries engine plan) (heq : e.entryId = e'.entryId) : e = e' := by
  obtain ⟨a, -, ha⟩ := mem_ownedEntries.mp he
  obtain ⟨b, -, hb⟩ := mem_ownedEntries.mp he'
  exact engine.lookup.consistent a.ref b.ref e ha e' hb heq

/-- The entries that the written entries reverse. -/
def reversedEntries (engine : CorrectionEngine) (plan : UnwindPlan) (x : Execution) :
    List GLEntry :=
  if x.journalEntryWriter.isSome then plan.unwound.filterMap (reversedEntry engine) else []

theorem map_reversal_handed (hbuilt : Built engine links plan) (hdry : plan.isDryRun = false) :
    (x.handed plan).map CompensatingEntry.reversal =
      (reversedEntries engine plan x).map GLEntry.reversal := by
  unfold Execution.handed reversedEntries
  split
  · exact hbuilt.reversals hdry
  · rfl

theorem mem_reversedEntries {e : GLEntry} : e ∈ reversedEntries engine plan x ↔
    x.journalEntryWriter.isSome ∧ ∃ a ∈ plan.unwound, reversedEntry engine a = some e := by
  unfold reversedEntries
  split
  · rename_i hwriter
    rw [List.mem_filterMap]
    simp [hwriter]
  · rename_i hwriter
    simp [hwriter]

theorem mem_ownedEntries_of_reversed {e : GLEntry} (he : e ∈ reversedEntries engine plan x) :
    e ∈ ownedEntries engine plan := by
  obtain ⟨-, a, ha, hrev⟩ := mem_reversedEntries.mp he
  exact mem_ownedEntries.mpr ⟨a, ha, mem_entries_of_reversedEntry hrev⟩

theorem countP_handed (hbuilt : Built engine links plan) (hdry : plan.isDryRun = false)
    {e : GLEntry} (he : e ∈ ownedEntries engine plan) :
    ((x.handed plan).countP fun c => c.originalEntryId = e.entryId) =
      (reversedEntries engine plan x).count e := by
  have hid : ∀ cs : List CompensatingEntry, (cs.countP fun c => c.originalEntryId = e.entryId) =
      (cs.map CompensatingEntry.reversal).countP fun r => r.1 = e.entryId := by
    intro cs
    rw [List.countP_map]
    rfl
  rw [hid, map_reversal_handed hbuilt hdry, List.countP_map, List.count]
  refine List.countP_congr fun e' he' => ?_
  have howned := mem_ownedEntries_of_reversed he'
  constructor
  · intro h
    have heq : e'.entryId = e.entryId := of_decide_eq_true h
    exact beq_iff_eq.mpr (entryId_inj howned he heq)
  · intro h
    obtain rfl := beq_iff_eq.mp h
    exact decide_eq_true rfl

/-- An entry that is reversed once is the first entry of one artifact. -/
theorem once_of_count_eq_one {a b : AffectedArtifact} {e : GLEntry} (ha : a ∈ plan.unwound)
    (hb : b ∈ plan.unwound) (hea : reversedEntry engine a = some e)
    (heb : reversedEntry engine b = some e)
    (hcount : (reversedEntries engine plan x).count e = 1) : a.ref = b.ref := by
  have hwriter : x.journalEntryWriter.isSome := by
    have hmem : e ∈ reversedEntries engine plan x := List.count_pos_iff.mp (by omega)
    exact (mem_reversedEntries.mp hmem).1
  unfold reversedEntries at hcount
  rw [if_pos hwriter, List.count, List.countP_filterMap, List.countP_eq_length_filter,
    List.length_eq_one_iff] at hcount
  obtain ⟨c, hc⟩ := hcount
  have hsome : ∀ d ∈ plan.unwound, reversedEntry engine d = some e → d = c := by
    intro d hd hed
    have hmem : d ∈ plan.unwound.filter fun d =>
        ((reversedEntry engine d).map fun e' => e' == e).getD false := by
      refine List.mem_filter.mpr ⟨hd, ?_⟩
      rw [hed]
      exact beq_self_eq_true e
    rw [hc] at hmem
    exact List.mem_singleton.mp hmem
  rw [hsome a ha hea, hsome b hb heb]

/-- The reversed entries are all the entries, once each. -/
theorem perm_ownedEntries (hnodup : (plan.affectedArtifacts.map AffectedArtifact.ref).Nodup)
    (hcover : FirstEntriesCover engine plan links x) :
    (reversedEntries engine plan x).Perm (ownedEntries engine plan) := by
  have hunwound : plan.unwound.Pairwise fun a b => a.ref ≠ b.ref :=
    (List.pairwise_map.mp hnodup).sublist List.filter_sublist
  have hreversed : (reversedEntries engine plan x).Nodup := by
    unfold reversedEntries
    split
    · rw [List.Nodup, List.pairwise_filterMap]
      refine List.Pairwise.imp_of_mem ?_ hunwound
      intro a b ha hb hne e he e' he' heq
      obtain rfl := heq
      exact hne (hcover.once a ha b hb e (reversedEntry_eq_some.mp he).1
        (reversedEntry_eq_some.mp he').1)
    · exact List.nodup_nil
  refine (List.perm_ext_iff_of_nodup hreversed (List.nodup_dedup _)).mpr fun e => ?_
  refine ⟨mem_ownedEntries_of_reversed, fun he => ?_⟩
  obtain ⟨a, ha, hfirst⟩ := hcover.first e he
  exact mem_reversedEntries.mpr ⟨hcover.writer (List.ne_nil_of_mem he), a, ha,
    reversedEntry_eq_some.mpr ⟨hfirst, hcover.lines e he⟩⟩

/-- What is handed to the writer covers everything exactly under the condition. -/
theorem handed_iff {before : LinkTable} (ledgerOf : UUID → String)
    (hbuilt : Built engine before plan) (hdry : plan.isDryRun = false) :
    (SumsToZero engine plan ledgerOf (x.handed plan) ∧
        EachReversedOnce engine plan links (x.handed plan)) ↔
      FirstEntriesCover engine plan links x := by
  constructor
  · rintro ⟨-, hreversed⟩
    have hcount : ∀ e ∈ ownedEntries engine plan, (reversedEntries engine plan x).count e = 1 := by
      intro e he
      rw [← countP_handed hbuilt hdry he]
      exact (hreversed e he).1
    have hmem : ∀ e ∈ ownedEntries engine plan, e ∈ reversedEntries engine plan x := by
      intro e he
      have hone := hcount e he
      exact List.count_pos_iff.mp (by omega)
    have hlines : ∀ e ∈ ownedEntries engine plan, e.lines ≠ [] := by
      intro e he
      obtain ⟨-, a, -, hrev⟩ := mem_reversedEntries.mp (hmem e he)
      exact (reversedEntry_eq_some.mp hrev).2
    refine ⟨fun hne => ?_, fun e he => ?_, hlines, fun a ha b hb e hea heb => ?_,
      fun e he => (hreversed e he).2⟩
    · obtain ⟨e, he⟩ := List.exists_mem_of_ne_nil _ hne
      exact (mem_reversedEntries.mp (hmem e he)).1
    · obtain ⟨-, a, ha, hrev⟩ := mem_reversedEntries.mp (hmem e he)
      exact ⟨a, ha, (reversedEntry_eq_some.mp hrev).1⟩
    · have he : e ∈ ownedEntries engine plan :=
        mem_ownedEntries.mpr ⟨a, ha, List.mem_of_head? hea⟩
      exact once_of_count_eq_one ha hb (reversedEntry_eq_some.mpr ⟨hea, hlines e he⟩)
        (reversedEntry_eq_some.mpr ⟨heb, hlines e he⟩) (hcount e he)
  · intro hcover
    have hperm := perm_ownedEntries hbuilt.nodup hcover
    refine ⟨fun key => ?_, fun e he => ⟨?_, hcover.unreversed e he⟩⟩
    · have hwritten : ((x.handed plan).map (CompensatingEntry.impact ledgerOf key)).sum =
          -((reversedEntries engine plan x).map (GLEntry.impact ledgerOf key)).sum := by
        rw [← sum_reversal, ← map_reversal_handed hbuilt hdry, List.map_map]
        rfl
      rw [hwritten, (hperm.map (GLEntry.impact ledgerOf key)).sum_eq]
      exact add_neg_cancel _
    · rw [countP_handed hbuilt hdry he]
      exact List.count_eq_one_of_mem (hperm.nodup_iff.mpr (List.nodup_dedup _))
        (hperm.mem_iff.mpr he)

/-- What a step of the session wrote. -/
def writtenBy (s s' : Session Store) : List CompensatingEntry :=
  s'.current.written.drop s.current.written.length

end Reversing

/-! ### Completed corrections -/

def sampleInvoice : ArtifactRef := ⟨.invoice, ⟨0x1⟩⟩

/-- An entry over ten. -/
def sampleEntry (id : BitVec 128) : GLEntry :=
  ⟨⟨id⟩, [⟨"1200", .finite false 10 0, "USD", true, ⟨id + 0x10⟩⟩,
    ⟨"4000", .finite false 10 0, "USD", false, ⟨id + 0x20⟩⟩]⟩

/-- An engine that finds entries for every artifact. -/
def sampleEngine (entries : List GLEntry) (h : (entries.map GLEntry.entryId).Nodup) :
    CorrectionEngine where
  glEntryLookup := some ⟨fun _ => entries, fun _ _ _ he _ he' heq =>
    List.inj_on_of_nodup_map h he he' heq⟩
  journal := ⟨[], List.nodup_nil⟩
  periods := none

def sampleRequest : Request := ⟨sampleInvoice, .cascade, .void, none, none, none, sampleTime⟩

def sampleExecution : Execution where
  actorId := "actor"
  creatingEventId := ⟨0xe⟩
  journalEntryWriter := some fun _ => .ok ⟨0xf⟩
  recursionLimit := 1000
  now := sampleTime
  uuid4 n := ⟨n⟩

/-- Nothing is linked and nothing is written. -/
def sampleSession : Session Store := ⟨⟨[], [], []⟩, ⟨[], [], []⟩⟩

/-- A correction is planned and executed. -/
def sampleRun (engine : CorrectionEngine) :
    Option (UnwindPlan × CorrectionResult × Session Store) :=
  (engine.buildUnwindPlan [] sampleRequest).toOption.bind fun plan =>
    (sampleExecution.executeCorrection sampleSession plan).1.toOption.map fun result =>
      (plan, result, (sampleExecution.executeCorrection sampleSession plan).2)

theorem sampleRun_eq_some {engine : CorrectionEngine}
    {r : UnwindPlan × CorrectionResult × Session Store} (h : sampleRun engine = some r) :
    engine.buildUnwindPlan [] sampleRequest = .ok r.1 ∧
      sampleExecution.executeCorrection sampleSession r.1 = (.ok r.2.1, r.2.2) := by
  obtain ⟨plan, hplan, hmap⟩ := Option.bind_eq_some_iff.mp h
  obtain ⟨result, hresult, rfl⟩ := Option.map_eq_some_iff.mp hmap
  refine ⟨?_, Prod.ext ?_ rfl⟩
  · cases hbuild : engine.buildUnwindPlan [] sampleRequest with
    | error e =>
        rw [hbuild] at hplan
        cases hplan
    | ok plan' =>
        rw [hbuild] at hplan
        exact congrArg Except.ok (Option.some.inj hplan)
  · dsimp only
    cases hexec : (sampleExecution.executeCorrection sampleSession plan).1 with
    | error e =>
        rw [hexec] at hresult
        cases hresult
    | ok result' =>
        rw [hexec] at hresult
        exact congrArg Except.ok (Option.some.inj hresult)

theorem sampleNested : Nested sampleSession := List.Subset.refl []

/-- **A completed correction reverses everything** exactly when the first entries cover. -/
theorem reverses_all_iff {engine : CorrectionEngine} {links : LinkTable} {request : Request}
    {plan : UnwindPlan} {x : Execution} {s s' : Session Store} {result : CorrectionResult}
    (ledgerOf : UUID → String) (hnested : Nested s)
    (hbuild : engine.buildUnwindPlan links request = .ok plan)
    (hexec : x.executeCorrection s plan = (.ok result, s')) :
    (SumsToZero engine plan ledgerOf (writtenBy s s') ∧
        EachReversedOnce engine plan s.current.links (writtenBy s s')) ↔
      FirstEntriesCover engine plan s.current.links x := by
  obtain ⟨hdry, hwritten⟩ := written_executeCorrection hnested hexec
  have hhanded : writtenBy s s' = x.handed plan := by
    unfold writtenBy
    rw [hwritten]
    exact List.drop_left
  rw [hhanded]
  exact handed_iff ledgerOf (built_of_buildUnwindPlan hbuild) hdry

/-- The invoice has one entry. -/
theorem reverses_all_of_oneEntry : ∃ plan result s',
    (sampleEngine [sampleEntry 0x100] (by decide)).buildUnwindPlan [] sampleRequest = .ok plan ∧
      sampleExecution.executeCorrection sampleSession plan = (.ok result, s') ∧
      SumsToZero (sampleEngine [sampleEntry 0x100] (by decide)) plan (fun _ => "")
        (writtenBy sampleSession s') ∧
      EachReversedOnce (sampleEngine [sampleEntry 0x100] (by decide)) plan []
        (writtenBy sampleSession s') := by
  have hrun : (sampleRun (sampleEngine [sampleEntry 0x100] (by decide))).any
      (fun r => r.1.unwound.map AffectedArtifact.ref = [sampleInvoice]) = true := by
    decide +kernel
  obtain ⟨⟨plan, result, s'⟩, hsome, hunwound⟩ := (Option.any_eq_true ..).mp hrun
  obtain ⟨hbuild, hexec⟩ := sampleRun_eq_some hsome
  have hrefs : ∀ a ∈ plan.unwound, a.ref = sampleInvoice := fun a ha =>
    List.mem_singleton.mp ((of_decide_eq_true hunwound) ▸ List.mem_map_of_mem ha)
  refine ⟨plan, result, s', hbuild, hexec,
    (reverses_all_iff (fun _ => "") sampleNested hbuild hexec).mpr ?_⟩
  refine ⟨fun _ => rfl, fun e he => ?_, fun e he => ?_, fun a ha b hb _ _ _ => ?_, fun _ _ => rfl⟩
  · obtain ⟨a, ha, hmem⟩ := mem_ownedEntries.mp he
    obtain rfl := List.mem_singleton.mp hmem
    exact ⟨a, ha, rfl⟩
  · obtain ⟨a, ha, hmem⟩ := mem_ownedEntries.mp he
    obtain rfl := List.mem_singleton.mp hmem
    exact List.cons_ne_nil _ _
  · rw [hrefs a ha, hrefs b hb]

/-- The invoice has two entries. -/
theorem second_entry_kept : ¬ ∀ (engine : CorrectionEngine) (links : LinkTable)
    (request : Request) (plan : UnwindPlan) (x : Execution) (s s' : Session Store)
    (result : CorrectionResult) (ledgerOf : UUID → String), Nested s →
    engine.buildUnwindPlan links request = .ok plan →
      x.executeCorrection s plan = (.ok result, s') →
        SumsToZero engine plan ledgerOf (writtenBy s s') ∧
          EachReversedOnce engine plan s.current.links (writtenBy s s') := by
  intro h
  have hrun : (sampleRun (sampleEngine [sampleEntry 0x100, sampleEntry 0x200] (by decide))).any
      (fun r => sampleEntry 0x200 ∈ ownedEntries
          (sampleEngine [sampleEntry 0x100, sampleEntry 0x200] (by decide)) r.1 ∧
        ((writtenBy sampleSession r.2.2).countP fun c =>
          c.originalEntryId = (sampleEntry 0x200).entryId) = 0) = true := by
    decide +kernel
  obtain ⟨⟨plan, result, s'⟩, hsome, hkept⟩ := (Option.any_eq_true ..).mp hrun
  obtain ⟨hbuild, hexec⟩ := sampleRun_eq_some hsome
  obtain ⟨howned, hcount⟩ := of_decide_eq_true hkept
  have honce := (h _ _ _ _ _ _ _ _ (fun _ => "") sampleNested hbuild hexec).2 _ howned
  have hone := honce.1
  rw [hcount] at hone
  cases hone

end FinanceAccounting.Correction
