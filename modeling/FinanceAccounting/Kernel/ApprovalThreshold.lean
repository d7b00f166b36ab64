import Mathlib.Data.List.Perm.Lattice
import FinanceAccounting.Kernel.ApprovalLifecycle

/-! # The threshold of approval rules

`record_decision` maps one APPROVE to the status APPROVED, while the engine's
`evaluate_approval_status` counts approvals.  `approved_soundly_iff` says exactly when the two
agree along a run: every APPROVE on an open request is the last approval its rule needs.  Where
no decision meets policy drift nothing has been approved on an open request before
(`grants_iff_alone`), so the rule must need no more than this one. -/

namespace FinanceAccounting.Approval

open TransitionSystem (run Along Throughout)
open UnitOfWork (Session Logged Change)

/-! ### The decisions on record -/

namespace Tables

variable {t : Tables}

theorem mem_of_load {requestId : UUID} {model : ApprovalRequestModel}
    (h : t.load requestId = some model) : model ∈ t.requests ∧ model.requestId = requestId :=
  ⟨List.mem_of_find?_eq_some h, by simpa using List.find?_some h⟩

theorem decisions_decide {d : ApprovalDecisionRecord}
    (h : t.decidedBy d.requestId d.actorId = false) :
    (t.decide d).decisions = t.decisions ++ [d] := by
  rw [decide, dif_neg (by simp [h])]

theorem requests_decide (t : Tables) (d : ApprovalDecisionRecord) :
    (t.decide d).requests = t.requests := by
  unfold decide
  split <;> rfl

theorem decisionsOf_decide {d : ApprovalDecisionRecord}
    (h : t.decidedBy d.requestId d.actorId = false) (requestId : UUID) :
    (t.decide d).decisionsOf requestId =
      t.decisionsOf requestId ++ if d.requestId = requestId then [d] else [] := by
  rw [decisionsOf, decisions_decide h, List.filter_append, List.filter_cons, List.filter_nil,
    decisionsOf]
  simp only [decide_eq_true_eq]

/-- An actor decides once on a request (AL-7). -/
theorem nodup_actors (t : Tables) (requestId : UUID) :
    ((t.decisionsOf requestId).map (·.actorId)).Nodup := by
  have hpairs : ((t.decisionsOf requestId).map fun d => (d.requestId, d.actorId)).Nodup :=
    (List.filter_sublist.map _).nodup t.actors
  have heq : ((t.decisionsOf requestId).map fun d => (d.requestId, d.actorId)) =
      ((t.decisionsOf requestId).map (·.actorId)).map (Prod.mk requestId) := by
    rw [List.map_map]
    refine List.map_congr_left fun d hd => ?_
    have hid : d.requestId = requestId := by simpa using (List.mem_filter.mp hd).2
    show (d.requestId, d.actorId) = (requestId, d.actorId)
    rw [hid]
  rw [heq] at hpairs
  exact hpairs.of_map

end Tables

/-! ### The last approval -/

/-- An approval by an actor of the role is the last one the rule needs. -/
structure Completes (rule : ApprovalRule) (decisions : List ApprovalDecisionRecord)
    (actorRole : String) : Prop where
  unrejected : ∀ d ∈ decisions, d.decision ≠ .reject
  actors : rule.minApprovers ≤ (eligibleApprovals rule decisions).length +
    if validateActorAuthority actorRole rule = true then 1 else 0
  roles : rule.requireDistinctRoles = true →
    rule.minApprovers ≤ ((eligibleApprovals rule decisions).map (·.actorRole)).dedup.length +
      if validateActorAuthority actorRole rule = true ∧
        actorRole ∉ (eligibleApprovals rule decisions).map (·.actorRole) then 1 else 0

theorem length_dedup_append_singleton {α : Type*} [DecidableEq α] (xs : List α) (b : α) :
    (xs ++ [b]).dedup.length = xs.dedup.length + if b ∉ xs then 1 else 0 := by
  have hperm : (xs ++ [b]).dedup.Perm (b :: xs).dedup :=
    (show (xs ++ [b]).Perm ([b] ++ xs) from List.perm_append_comm).dedup
  rw [hperm.length_eq]
  by_cases hb : b ∈ xs
  · rw [List.dedup_cons_of_mem hb, if_neg (not_not.mpr hb), Nat.add_zero]
  · rw [List.dedup_cons_of_notMem hb, if_pos hb, List.length_cons]

theorem eligibleApprovals_singleton {rule : ApprovalRule} {d : ApprovalDecisionRecord}
    (h : d.decision = .approve) :
    eligibleApprovals rule [d] =
      if validateActorAuthority d.actorRole rule = true then [d] else [] := by
  rw [eligibleApprovals, approvals, List.filter_cons, if_pos (by simpa using h), List.filter_nil,
    List.filter_cons, List.filter_nil]

section Append

variable {rule : ApprovalRule} {ds : List ApprovalDecisionRecord} {d : ApprovalDecisionRecord}

/-- One more approval is one more eligible approver, if the rule accepts its role. -/
theorem length_eligibleApprovals_append (h : d.decision = .approve) :
    (eligibleApprovals rule (ds ++ [d])).length = (eligibleApprovals rule ds).length +
      if validateActorAuthority d.actorRole rule = true then 1 else 0 := by
  rw [eligibleApprovals_append, eligibleApprovals_singleton h, List.length_append]
  split <;> rfl

theorem length_roles_append (h : d.decision = .approve) :
    ((eligibleApprovals rule (ds ++ [d])).map (·.actorRole)).dedup.length =
      ((eligibleApprovals rule ds).map (·.actorRole)).dedup.length +
        if validateActorAuthority d.actorRole rule = true ∧
          d.actorRole ∉ (eligibleApprovals rule ds).map (·.actorRole) then 1 else 0 := by
  rw [eligibleApprovals_append, eligibleApprovals_singleton h, List.map_append]
  by_cases hrole : validateActorAuthority d.actorRole rule = true
  · rw [if_pos hrole, List.map_cons, List.map_nil, length_dedup_append_singleton]
    simp only [hrole, true_and]
  · rw [if_neg hrole, if_neg fun hc => hrole hc.1, List.map_nil, List.append_nil, Nat.add_zero]

/-- **The threshold is met by one more approval** exactly when it is the last one needed. -/
theorem approves_append_iff (hactors : ((ds ++ [d]).map (·.actorId)).Nodup)
    (h : d.decision = .approve) : Approves rule (ds ++ [d]) ↔ Completes rule ds d.actorRole := by
  have hreject : (∀ e ∈ ds ++ [d], e.decision ≠ .reject) ↔ ∀ e ∈ ds, e.decision ≠ .reject := by
    simp only [List.mem_append, List.mem_singleton]
    refine ⟨fun hall e he => hall e (Or.inl he), fun hall e he => ?_⟩
    rcases he with he | rfl
    · exact hall e he
    · rw [h]
      decide
  rw [approves_iff hactors, length_eligibleApprovals_append h, length_roles_append h, hreject]
  push_cast
  exact ⟨fun ⟨hr, ha, hd⟩ => ⟨hr, ha, hd⟩, fun hc => ⟨hc.unrejected, hc.actors, hc.roles⟩⟩

end Append

/-! ### Approval along a run -/

section Threshold

variable {sha256 : String → String} {rule : ApprovalRule} {requestId : UUID}

/-- A change that leaves the request APPROVED finds it approved under the rule. -/
def ApprovedSoundly (rule : ApprovalRule) (requestId : UUID) (c : Change Standing) : Prop :=
  c.after.request.requestId = requestId → c.after.request.status = .approved →
    Approves rule c.after.decisions

/-- The call approves the request: nothing refuses its APPROVE. -/
structure RecordsApproval (t : Tables) (requestId : UUID) (a : RecordDecision) (d : Draws) : Prop
    where
  id : a.requestId = requestId
  approve : a.decision = .approve
  flushed : d.flushRefused = false
  may : ∃ model, MayDecide t a model ∧ drifted model a.activePolicy = false

/-- An approval that is recorded on the request is the last one the rule needs. -/
def Grants (rule : ApprovalRule) (requestId : UUID) (s : Session Log) : Action → Prop
  | .call (.recordDecision a) d => RecordsApproval s.current.tables requestId a d →
      Completes rule (s.current.tables.decisionsOf requestId) a.actorRole
  | _ => True

theorem not_refuses_approve_iff {a : RecordDecision} {model : ApprovalRequestModel}
    (ha : a.decision = .approve) (hopen : model.status.isOpen = true) :
    ¬Refuses a model ↔ drifted model a.activePolicy = false := by
  have hmem : ApprovalStatus.approved ∈ approvalTransitions model.status := by
    revert hopen
    cases model.status <;> decide
  simp [Refuses, ha, resolveNewStatus, hmem, terminal, terminalApprovalStatuses]

/-- The decisions on record after a decision has been recorded. -/
theorem decisionsOf_record {t : Tables} {a : RecordDecision} {d : Draws}
    {model : ApprovalRequestModel} (hmay : MayDecide t a model) :
    (t.decide (a.record d)).decisionsOf a.requestId = t.decisionsOf a.requestId ++ [a.record d] := by
  rw [Tables.decisionsOf_decide (d := a.record d) hmay.undecided]
  show _ ++ (if a.requestId = a.requestId then _ else _) = _
  rw [if_pos rfl]

/-- The change that approves a request is sound exactly when it completes the rule. -/
theorem approvedSoundly_statusChange {t t' : Tables} {a : RecordDecision} {d : Draws}
    {model : ApprovalRequestModel} {resolvedAt : Option Datetime} (hmay : MayDecide t a model)
    (ha : a.decision = .approve)
    (ht' : t' = (t.decide (a.record d)).setStatus (·.requestId = model.requestId)
      (resolveNewStatus a.decision) resolvedAt) :
    ApprovedSoundly rule a.requestId
        (statusChange t t' model (resolveNewStatus a.decision) resolvedAt) ↔
      Completes rule (t.decisionsOf a.requestId) a.actorRole := by
  have hid := (Tables.mem_of_load hmay.found).2
  have hds : t'.decisionsOf model.requestId = t.decisionsOf a.requestId ++ [a.record d] := by
    rw [ht', hid]
    exact decisionsOf_record hmay
  have hnodup : ((t.decisionsOf a.requestId ++ [a.record d]).map (·.actorId)).Nodup := by
    rw [← hds]
    exact t'.nodup_actors _
  have hiff : Approves rule (t'.decisionsOf model.requestId) ↔
      Completes rule (t.decisionsOf a.requestId) a.actorRole := by
    rw [hds]
    exact approves_append_iff hnodup ha
  rw [← hiff]
  constructor
  · intro h
    exact h hid (by rw [ha]; rfl)
  · intro h _ _
    exact h

/-- The changes of a call that grants approval only when it completes the rule. -/
theorem approvedSoundly_of_moved {d : Draws} {s : Session Log} {op : Operation} {t : Tables}
    {cs : List (Change Standing)} (hmoved : Moved d s.current.tables op t cs)
    (hgrants : Grants rule requestId s (.call op d)) :
    ∀ c ∈ cs, ApprovedSoundly rule requestId c := by
  cases hmoved with
  | created hfresh hpending =>
      intro c hc _ happroved
      obtain rfl := List.mem_singleton.mp hc
      exact absurd (hpending.symm.trans happroved) (by decide)
  | noted hmay hrefuses =>
      intro c hc
      cases hc
  | decided hmay hrefuses hflush ht' =>
      rename_i a model resolvedAt
      intro c hc
      obtain rfl := List.mem_singleton.mp hc
      intro hid happroved
      have ha : a.decision = .approve := by
        have hs : resolveNewStatus a.decision = .approved := happroved
        revert hs
        cases a.decision <;> decide
      have heq : a.requestId = requestId :=
        (Tables.mem_of_load hmay.found).2.symm.trans hid
      subst heq
      have hcompletes := hgrants ⟨rfl, ha, hflush, model, hmay,
        (not_refuses_approve_iff ha hmay.isOpen).mp hrefuses⟩
      exact (approvedSoundly_statusChange hmay ha ht').mpr hcompletes hid happroved
  | autoApproved hfound hflush ht' =>
      intro c hc _ happroved
      obtain rfl := List.mem_singleton.mp hc
      cases happroved
  | cancelled hfound hallowed ht' =>
      intro c hc _ happroved
      obtain rfl := List.mem_singleton.mp hc
      cases happroved
  | expired ht' =>
      intro c hc _ happroved
      obtain ⟨r, hr, rfl⟩ := List.mem_map.mp hc
      cases happroved

/-- A call that nothing refuses records its approval. -/
theorem recordDecision_of_records {a : RecordDecision} {d : Draws} {s : Session Log}
    {model : ApprovalRequestModel} (hmay : MayDecide s.current.tables a model)
    (hrefuses : ¬Refuses a model) (hflush : d.flushRefused = false) :
    ∃ t' resolvedAt, t' = (s.current.tables.decide (a.record d)).setStatus
        (·.requestId = model.requestId) (resolveNewStatus a.decision) resolvedAt ∧
      (recordDecision a d s).2 = s.flush (s.current.become t'
        [statusChange s.current.tables t' model (resolveNewStatus a.decision) resolvedAt]) := by
  have hterminal : ¬terminal model.status = true := by
    have := isOpen_iff_not_terminal.mp hmay.isOpen
    simpa [terminal] using this
  obtain ⟨hvalid, hdrift⟩ := not_or.mp hrefuses
  refine ⟨_, if terminal (resolveNewStatus a.decision) then some d.now else model.resolvedAt, rfl,
    ?_⟩
  simp only [recordDecision, hmay.found, if_neg hterminal, hmay.undecided, Bool.false_eq_true,
    if_false, if_neg hvalid, if_neg hdrift, hflush]
  rfl

/-- **Step lemma**: a step approves soundly exactly when it grants only completed rules. -/
theorem both_approvedSoundly_iff {s s' : Session Log} {a : Action}
    (h : s.Both (Logged.Every (ApprovedSoundly rule requestId)))
    (hstep : step sha256 s a = some s') :
    s'.Both (Logged.Every (ApprovedSoundly rule requestId)) ↔ Grants rule requestId s a := by
  constructor
  · intro h'
    cases a with
    | commit => exact trivial
    | rollback => exact trivial
    | call op d =>
        cases op with
        | recordDecision a =>
            rintro ⟨rfl, ha, hflush, model, hmay, hdrift⟩
            obtain rfl := Option.some.inj hstep
            have hrefuses := (not_refuses_approve_iff ha hmay.isOpen).mpr hdrift
            obtain ⟨t', resolvedAt, ht', hs'⟩ := recordDecision_of_records hmay hrefuses hflush
            rw [Operation.perform, hs'] at h'
            have hchange := (Logged.both_every_flush h).mp h' _ (List.mem_singleton_self _)
            exact (approvedSoundly_statusChange hmay ha ht').mp hchange
        | createRequest a => exact trivial
        | recordAutoApproval requestId => exact trivial
        | cancelRequest requestId => exact trivial
        | expireStaleRequests asOf timeoutHours => exact trivial
  · intro hgrants
    refine both_every_step h hstep fun op d t cs ha hmoved => ?_
    exact approvedSoundly_of_moved hmoved (ha ▸ hgrants)

end Threshold

/-! ### Runs without drift -/

/-- The policy that a decision comes with is not older than the request. -/
def Undrifted (s : Session Log) : Action → Prop
  | .call (.recordDecision a) _ => ∀ model, s.current.tables.load a.requestId = some model →
      drifted model a.activePolicy = false
  | _ => True

/-- An approval that is recorded on the request is all the rule needs. -/
def GrantsAlone (rule : ApprovalRule) (requestId : UUID) (s : Session Log) : Action → Prop
  | .call (.recordDecision a) d => RecordsApproval s.current.tables requestId a d →
      rule.minApprovers ≤ if validateActorAuthority a.actorRole rule = true then 1 else 0
  | _ => True

/-- Decisions belong to requests, and an open request has only been escalated. -/
structure Unsettled (t : Tables) : Prop where
  keyed : ∀ d ∈ t.decisions, t.hasId d.requestId = true
  escalated : ∀ r ∈ t.requests, r.status.isOpen = true →
    ∀ d ∈ t.decisions, d.requestId = r.requestId → d.decision = .escalate

theorem unsettled_empty : Unsettled .empty where
  keyed d hd := by cases hd
  escalated r hr := by cases hr

section Unsettled

variable {t : Tables}

theorem Tables.hasId_iff {requestId : UUID} :
    t.hasId requestId = true ↔ ∃ r ∈ t.requests, r.requestId = requestId := by
  simp only [Tables.hasId, List.any_eq_true, decide_eq_true_eq]

theorem Tables.mem_setStatus {test : ApprovalRequestModel → Bool} {status : ApprovalStatus}
    {resolvedAt : Option Datetime} {r' : ApprovalRequestModel} :
    r' ∈ (t.setStatus test status resolvedAt).requests ↔
      ∃ r ∈ t.requests, (if test r then { r with status, resolvedAt } else r) = r' :=
  List.mem_map

theorem Tables.hasId_setStatus (test : ApprovalRequestModel → Bool) (status : ApprovalStatus)
    (resolvedAt : Option Datetime) (requestId : UUID) :
    (t.setStatus test status resolvedAt).hasId requestId = t.hasId requestId := by
  show (t.requests.map _).any _ = t.requests.any _
  rw [List.any_map]
  congr 1
  funext r
  simp only [Function.comp_apply]
  split <;> rfl

theorem Tables.requests_insert {r : ApprovalRequestModel} (h : t.hasId r.requestId = false) :
    (t.insert r).requests = t.requests ++ [r] := by
  rw [Tables.insert, dif_neg (by simp [h])]

theorem Tables.decisions_insert (t : Tables) (r : ApprovalRequestModel) :
    (t.insert r).decisions = t.decisions := by
  unfold Tables.insert
  split <;> rfl

/-- Closing requests leaves the others as they are. -/
theorem Unsettled.close (h : Unsettled t) (test : ApprovalRequestModel → Bool)
    {status : ApprovalStatus} (hclosed : status.isOpen = false) (resolvedAt : Option Datetime) :
    Unsettled (t.setStatus test status resolvedAt) where
  keyed d hd := by
    rw [Tables.hasId_setStatus]
    exact h.keyed d hd
  escalated r' hr' hopen d hd hid := by
    obtain ⟨r, hr, rfl⟩ := Tables.mem_setStatus.mp hr'
    by_cases htest : test r = true
    · rw [if_pos htest] at hopen
      exact absurd (hclosed.symm.trans hopen) (by decide)
    · rw [if_neg htest] at hopen hid
      exact h.escalated r hr hopen d hd hid

/-- A new request has no decisions. -/
theorem Unsettled.insert (h : Unsettled t) {r : ApprovalRequestModel}
    (hfresh : t.hasId r.requestId = false) : Unsettled (t.insert r) where
  keyed d hd := by
    rw [Tables.decisions_insert] at hd
    obtain ⟨r', hr', hid⟩ := Tables.hasId_iff.mp (h.keyed d hd)
    rw [Tables.hasId_iff, Tables.requests_insert hfresh]
    exact ⟨r', List.mem_append_left _ hr', hid⟩
  escalated r' hr' hopen d hd hid := by
    rw [Tables.decisions_insert] at hd
    rw [Tables.requests_insert hfresh] at hr'
    rcases List.mem_append.mp hr' with hr' | hr'
    · exact h.escalated r' hr' hopen d hd hid
    · obtain rfl := List.mem_singleton.mp hr'
      have := h.keyed d hd
      rw [hid, hfresh] at this
      cases this

/-- A decision is recorded, and its request is closed unless it was an escalation. -/
theorem Unsettled.record (h : Unsettled t) {a : RecordDecision} {d : Draws}
    {model : ApprovalRequestModel} (hmay : MayDecide t a model) {t' : Tables}
    (hdecisions : t'.decisions = t.decisions ++ [a.record d])
    (hids : ∀ requestId, t'.hasId requestId = t.hasId requestId)
    (hrequests : ∀ r' ∈ t'.requests, r'.status.isOpen = true →
      (r'.requestId = a.requestId ∧ a.decision = .escalate) ∨
        (r' ∈ t.requests ∧ (r'.requestId = a.requestId → a.decision = .escalate))) :
    Unsettled t' where
  keyed e he := by
    rw [hids]
    rw [hdecisions] at he
    rcases List.mem_append.mp he with he | he
    · exact h.keyed e he
    · obtain rfl := List.mem_singleton.mp he
      obtain ⟨hmem, hid⟩ := Tables.mem_of_load hmay.found
      exact Tables.hasId_iff.mpr ⟨model, hmem, hid⟩
  escalated r' hr' hopen e he hid := by
    obtain ⟨hmem, hmid⟩ := Tables.mem_of_load hmay.found
    rw [hdecisions] at he
    rcases hrequests r' hr' hopen with ⟨hr'id, hesc⟩ | ⟨hold, hesc⟩
    · rcases List.mem_append.mp he with he | he
      · exact h.escalated model hmem hmay.isOpen e he (hid.trans (hr'id.trans hmid.symm))
      · obtain rfl := List.mem_singleton.mp he
        exact hesc
    · rcases List.mem_append.mp he with he | he
      · exact h.escalated r' hold hopen e he hid
      · obtain rfl := List.mem_singleton.mp he
        exact hesc hid.symm

/-- Only an escalation is refused for its transition. -/
theorem escalate_of_refuses {a : RecordDecision} {model : ApprovalRequestModel}
    (hopen : model.status.isOpen = true) (hdrift : drifted model a.activePolicy = false)
    (hrefuses : Refuses a model) : a.decision = .escalate := by
  rcases hrefuses with hinvalid | hterminal
  · revert hinvalid hopen
    cases a.decision <;> cases model.status <;> decide
  · rw [hdrift, Bool.and_false] at hterminal
    cases hterminal

theorem Unsettled.moved (h : Unsettled t) {d : Draws} {op : Operation} {t' : Tables}
    {cs : List (Change Standing)} (hmoved : Moved d t op t' cs)
    (hdrift : ∀ a model, op = .recordDecision a → t.load a.requestId = some model →
      drifted model a.activePolicy = false) : Unsettled t' := by
  cases hmoved with
  | created hfresh hpending => exact h.insert hfresh
  | noted hmay hrefuses =>
      rename_i a model
      have hesc := escalate_of_refuses hmay.isOpen (hdrift a model rfl hmay.found) hrefuses
      refine h.record hmay (Tables.decisions_decide (d := a.record d) hmay.undecided)
        (fun requestId => ?_) fun r' hr' _ => ?_
      · rw [Tables.hasId, Tables.requests_decide, Tables.hasId]
      · rw [Tables.requests_decide] at hr'
        exact Or.inr ⟨hr', fun _ => hesc⟩
  | decided hmay hrefuses hflush ht' =>
      rename_i a model resolvedAt
      obtain ⟨hmem, hmid⟩ := Tables.mem_of_load hmay.found
      subst ht'
      refine h.record hmay (Tables.decisions_decide (d := a.record d) hmay.undecided)
        (fun requestId => ?_) fun r' hr' hopen => ?_
      · rw [Tables.hasId_setStatus, Tables.hasId, Tables.requests_decide, Tables.hasId]
      · obtain ⟨r, hr, rfl⟩ := Tables.mem_setStatus.mp hr'
        rw [Tables.requests_decide] at hr
        by_cases hid : r.requestId = model.requestId
        · left
          simp only [hid, decide_true, if_true] at hopen ⊢
          refine ⟨hmid, ?_⟩
          revert hopen
          cases a.decision <;> decide
        · right
          simp only [hid, decide_false, Bool.false_eq_true, if_false]
          exact ⟨hr, fun heq => absurd (heq.trans hmid.symm) hid⟩
  | autoApproved hfound hflush ht' =>
      subst ht'
      exact h.close _ rfl _
  | cancelled hfound hallowed ht' =>
      subst ht'
      exact h.close _ rfl _
  | expired ht' =>
      subst ht'
      exact h.close _ rfl _

end Unsettled

variable {sha256 : String → String}

theorem unsettled_step {s s' : Session Log} {a : Action}
    (h : s.Both fun l => Unsettled l.tables) (hdrift : Undrifted s a)
    (hstep : step sha256 s a = some s') : s'.Both fun l => Unsettled l.tables := by
  refine both_step h hstep fun op d t cs ha hmoved =>
    h.flush (h.current.moved hmoved fun args model hop hfound => ?_)
  subst ha hop
  exact hdrift model hfound

/-- On an open request that was only escalated, an approval stands alone. -/
theorem completes_iff_of_escalated {rule : ApprovalRule} {ds : List ApprovalDecisionRecord}
    {actorRole : String} (h : ∀ d ∈ ds, d.decision = .escalate) :
    Completes rule ds actorRole ↔
      rule.minApprovers ≤ if validateActorAuthority actorRole rule = true then 1 else 0 := by
  have hnone : eligibleApprovals rule ds = [] := by
    have hnil : approvals ds = [] := List.filter_eq_nil_iff.mpr fun d hd => by simp [h d hd]
    rw [eligibleApprovals, hnil, List.filter_nil]
  constructor
  · intro hc
    have := hc.actors
    rwa [hnone, List.length_nil, Nat.cast_zero, zero_add] at this
  · intro hle
    refine ⟨fun d hd => by simp [h d hd], ?_, fun _ => ?_⟩
    · rwa [hnone, List.length_nil, Nat.cast_zero, zero_add]
    · rw [hnone]
      simpa using hle

/-- **Without drift an approval stands alone**: the threshold is one at most. -/
theorem grants_iff_alone (rule : ApprovalRule) (requestId : UUID) {as : List Action}
    (hdrift : Along (step sha256) Undrifted (begin .empty) as) :
    Along (step sha256) (Grants rule requestId) (begin .empty) as ↔
      Along (step sha256) (GrantsAlone rule requestId) (begin .empty) as := by
  have hunsettled : Along (step sha256) (fun s _ => s.Both fun l => Unsettled l.tables)
      (begin .empty) as := by
    intro pre a post s heq hrun
    have hpre : Along (step sha256) Undrifted (begin .empty) pre := by
      rw [heq] at hdrift
      exact hdrift.of_append
    exact hpre.run_invariant (fun _ _ _ => unsettled_step) (Session.Both.start unsettled_empty) hrun
  refine TransitionSystem.along_congr hunsettled fun s a hs => ?_
  cases a with
  | commit => exact Iff.rfl
  | rollback => exact Iff.rfl
  | call op d =>
      cases op with
      | recordDecision a =>
          refine forall_congr' fun hrec => ?_
          obtain ⟨model, hmay, -⟩ := hrec.may
          obtain ⟨hmem, hid⟩ := Tables.mem_of_load hmay.found
          refine completes_iff_of_escalated fun e he => ?_
          obtain ⟨hemem, heid⟩ := List.mem_filter.mp he
          exact hs.current.escalated model hmem hmay.isOpen e hemem
            ((of_decide_eq_true heid).trans (hrec.id.symm.trans hid.symm))
      | createRequest a => exact Iff.rfl
      | recordAutoApproval requestId => exact Iff.rfl
      | cancelRequest requestId => exact Iff.rfl
      | expireStaleRequests asOf timeoutHours => exact Iff.rfl

/-- **Approval under a rule**: throughout a run a request becomes APPROVED only when its rule is
met, exactly when every approval recorded on it is the last one the rule needs; in a run from
empty tables without drift, exactly when the rule needs none but this one. -/
theorem approved_soundly_iff (sha256 : String → String) (rule : ApprovalRule) (requestId : UUID)
    (as : List Action) :
    (∀ t, Throughout (step sha256)
        (fun s => s.Both (Logged.Every (ApprovedSoundly rule requestId))) (begin t) as ↔
      Along (step sha256) (Grants rule requestId) (begin t) as) ∧
    (Along (step sha256) Undrifted (begin .empty) as →
      (Along (step sha256) (Grants rule requestId) (begin .empty) as ↔
        Along (step sha256) (GrantsAlone rule requestId) (begin .empty) as)) :=
  ⟨fun t => TransitionSystem.throughout_iff_along_of_step step_isSome
    (fun _ _ _ => both_approvedSoundly_iff) (both_begin _ t) as, grants_iff_alone rule requestId⟩

/-- Two controllers have to approve. -/
def sampleRule : ApprovalRule where
  ruleName := "two controllers"
  priority := 1
  requiredRoles := ["controller"]
  minApprovers := 2

/-- A request under the rule that one controller approves. -/
def sampleSingle : List Action :=
  let policy : ApprovalPolicy :=
    { policyName := "Payments", version := 1, rules := [sampleRule] }
  let key : TransitionKey := ⟨"ap_payment", "payment", ⟨7⟩, "approve", "submitted", "approved"⟩
  [.call (.createRequest { key with policy, matchedRuleName := "two controllers", requestorId := ⟨1⟩ })
      ⟨sampleTime, ⟨10⟩, false⟩,
    .call (.recordDecision ⟨⟨10⟩, ⟨2⟩, "controller", .approve, "", some policy⟩)
      ⟨sampleTime, ⟨11⟩, false⟩]

/-- **One approval is enough where two are required.** -/
theorem single_approval_approves :
    ¬Throughout (step Digest.spell)
      (fun s => s.Both (Logged.Every (ApprovedSoundly sampleRule ⟨10⟩))) (begin .empty)
      sampleSingle := by
  intro h
  have hrun : (run (step Digest.spell) (begin .empty) sampleSingle).any (fun s =>
      s.current.changes.any fun c => c.after.request.requestId = ⟨10⟩ &&
        c.after.request.status = .approved &&
          !(evaluateApprovalStatus sampleRule c.after.decisions).isApproved) = true := by
    decide +kernel
  obtain ⟨s, hs, hany⟩ := (Option.any_eq_true ..).mp hrun
  obtain ⟨c, hc, hstatus⟩ := List.any_eq_true.mp hany
  simp only [Bool.and_eq_true, decide_eq_true_eq, Bool.not_eq_true'] at hstatus
  obtain ⟨⟨hid, happroved⟩, hfalse⟩ := hstatus
  have hlaw := (h sampleSingle [] s (List.append_nil _).symm hs).current c hc hid happroved
  rw [hlaw.reported] at hfalse
  cases hfalse

end FinanceAccounting.Approval
