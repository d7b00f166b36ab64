import FinanceAccounting.Modules.AssetBoundary
import FinanceAccounting.Library.TransitionSystem

/-! # Does the asset register agree with the journal?

The register keeps a net book value for each asset.  It agrees with the journal when that value is
the cost less what depreciation, impairment, disposals and scraps have posted for the asset, is not
negative, and no asset is depreciated, disposed of or scrapped after it has been disposed of or
scrapped.  No method ever updates a row of the register, so `register_agrees` needs runs in which
nothing is written off: a call that goes through posts nothing for a registered asset that changes
its carrying amount, and nothing for an asset that is gone. -/

namespace FinanceAccounting.FixedAssets

open UnitOfWork (Session Result)
open ModulePosting (ModulePostingStatus)
open AllocationEngine (Arithmetic)
open PolicyBridge (findForEvent AccountingPolicy)
open TransitionSystem (Along Throughout)
open Modules

/-! ### Entries and assets -/

/-- The event was posted for the asset. -/
def isFor (assetId : UUID) (e : Event) : Bool := e.payload.value "asset_id" = .text assetId.str

inductive EffectKind where
  | depreciation
  | impairment
  | disposal
  | scrap
deriving DecidableEq

/-- What an event does to its asset; an impairment is a disposal event with its own amount. -/
def effectKind (e : Event) : Option EffectKind :=
  if e.eventType ∈ ["asset.depreciation", "asset.mass_depreciation", "asset.component_depreciation"]
  then some .depreciation
  else if e.eventType = "asset.disposal" then
    if (e.payload "impairment_amount").isSome then some .impairment else some .disposal
  else if e.eventType = "asset.scrap" then some .scrap
  else none

/-- The asset is gone afterwards. -/
def retires (e : Event) : Bool :=
  effectKind e = some .disposal || effectKind e = some .scrap

/-- Not to happen to an asset that is gone. -/
def uses (e : Event) : Bool := effectKind e = some .depreciation || retires e

/-- What lines do to the carrying amount of assets. -/
def carrying (lines : List LedgerLine) : ℚ :=
  ((lines.filter fun l => l.role = "FIXED_ASSET" ∨ l.role = "ACCUMULATED_DEPRECIATION").map
    (·.signed)).sum

namespace Tables

/-- All rows, written or about to be. -/
def all (t : Tables) : List AssetRecord := t.rows ++ t.pending

/-- What depreciation, impairment, disposals and scraps have posted for an asset. -/
def effect (t : Tables) (assetId : UUID) : ℚ :=
  ((t.journal.filter fun entry => isFor assetId entry.event && (effectKind entry.event).isSome).map
    fun entry => carrying entry.lines).sum

def Registered (t : Tables) (assetId : UUID) : Prop :=
  ∃ row, AssetRecord.asset row ∈ t.all ∧ row.id = assetId

/-- The asset has been disposed of or scrapped. -/
def Retired (t : Tables) (assetId : UUID) : Prop :=
  ∃ entry ∈ t.journal, retires entry.event = true ∧ isFor assetId entry.event = true

/-- **The register agrees with the journal.** -/
structure Agrees (t : Tables) : Prop where
  netBookValue : ∀ row, AssetRecord.asset row ∈ t.all →
    row.netBookValue = row.acquisitionCost + t.effect row.id
  nonneg : ∀ row, AssetRecord.asset row ∈ t.all → 0 ≤ row.netBookValue
  final : t.journal.Pairwise fun earlier later => ∀ assetId, retires earlier.event = true →
    isFor assetId earlier.event = true → isFor assetId later.event = true →
      uses later.event = false

theorem all_flush {t t' : Tables} (h : t.flush = some t') : t'.all = t.all := by
  obtain rfl := flush_eq_some h
  simp [all]

theorem journal_flush {t t' : Tables} (h : t.flush = some t') : t'.journal = t.journal := by
  obtain rfl := flush_eq_some h
  rfl

theorem effect_congr {t t' : Tables} (h : t'.journal = t.journal) (assetId : UUID) :
    t'.effect assetId = t.effect assetId := by
  rw [effect, effect, h]

theorem Agrees.congr {t t' : Tables} (h : t.Agrees) (hjournal : t'.journal = t.journal)
    (hall : t'.all = t.all) : t'.Agrees where
  netBookValue row hrow := by
    rw [effect_congr hjournal]
    exact h.netBookValue row (hall ▸ hrow)
  nonneg row hrow := h.nonneg row (hall ▸ hrow)
  final := by
    rw [hjournal]
    exact h.final

end Tables

/-! ### Harmless calls -/

/-- No entry of a batch or an allocation is missing. -/
def Plan.complete : Plan → Bool
  | .checked _ event => event.isSome
  | .mass _ events => events.all Option.isSome
  | _ => true

def Plan.commits : Plan → Bool
  | .uncommitted .. => false
  | _ => true

section Harmless

variable (ctx : Decimal.Context) (answers : Answers)

/-- The entries that these events make, where they are posted. -/
def newEntries : ℕ → List Event → List Entry
  | _, [] => []
  | n, e :: es =>
      match Modules.postEvent ctx allProfiles (answers.verdict n) e with
      | .posted lines => ⟨e, lines⟩ :: newEntries (n + 1) es
      | _ => newEntries (n + 1) es

/-- Nothing stops the call: the executor, the kernel and the constraints let it through. -/
structure Plan.GoesThrough (p : Plan) (t : Tables) : Prop where
  transition : ∃ r requests, answers.workflow = some (r, requests) ∧ r.success = true
  complete : p.complete = true
  posted : ∀ n e, p.events[n]? = some e →
    (Modules.postEvent ctx allProfiles (answers.verdict n) e).isSuccess = true
  accepted : p.commits = true → ∀ t₀, t.flush = some t₀ → (t₀.write p.rows).isSome = true

/-- An entry that changes no carrying amount in the register, for an asset that is not gone. -/
structure HarmlessEntry (t : Tables) (entry : Entry) : Prop where
  carrying : (effectKind entry.event).isSome = true → ∀ assetId,
    isFor assetId entry.event = true → t.Registered assetId → carrying entry.lines = 0
  uses : uses entry.event = true → ∀ assetId, isFor assetId entry.event = true →
    ¬t.Retired assetId

/-- **The condition**: if the call goes through, it writes nothing off in the register and uses no
asset that is gone, and an asset that it registers has nothing written off already; an acquisition
that the kernel takes for posted already, so that no guard has seen its cost, has no negative
cost. -/
def Plan.Harmless (p : Plan) (t : Tables) : Prop :=
  p.GoesThrough ctx answers t →
    (∀ entry ∈ newEntries ctx answers 0 p.events, HarmlessEntry t entry) ∧
      ∀ row, AssetRecord.asset row ∈ p.rows → t.effect row.id = 0 ∧
        (newEntries ctx answers 0 p.events = [] → 0 ≤ row.acquisitionCost)

end Harmless

/-! ### What a call leaves -/

/-- The same entries and the same rows. -/
structure SameView (t t' : Tables) : Prop where
  journal : t'.journal = t.journal
  all : t'.all = t.all

namespace SameView

theorem refl (t : Tables) : SameView t t := ⟨rfl, rfl⟩

theorem flush {t t' : Tables} (h : t.flush = some t') : SameView t t' :=
  ⟨Tables.journal_flush h, Tables.all_flush h⟩

end SameView

/-- What becomes of a session. -/
inductive Outcome (ctx : Decimal.Context) (answers : Answers) (p : Plan) (s : Session Tables) :
    Session Tables → Prop where
  | undone : Outcome ctx answers p s (Session.start s.committed)
  /-- A refused transition: nothing but approval requests. -/
  | waiting {s' : Session Tables} (committed : s'.committed = s.committed)
      (view : SameView s.current s'.current) : Outcome ctx answers p s s'
  /-- All entries and rows are there, committed or not. -/
  | through {s' : Session Tables} (goes : p.GoesThrough ctx answers s.current)
      (journal : s'.current.journal = s.current.journal ++ newEntries ctx answers 0 p.events)
      (all : s'.current.all = s.current.all ++ p.rows)
      (committed : s'.committed = s.committed ∨ s'.committed = s'.current) :
      Outcome ctx answers p s s'

section Run

variable {ctx : Decimal.Context} {answers : Answers} {s s' : Session Tables}

/-- The executor leaves the entries and rows as they are, with nothing pending. -/
theorem view_of_executeTransition {t : TransitionCall} {r : WorkflowExecutor.TransitionResult}
    (h : (storeEnv ctx answers).executeTransition t s = (.ok r, s')) :
    (∃ requests, answers.workflow = some (r, requests)) ∧ s'.committed = s.committed ∧
      SameView s.current s'.current ∧ ∃ t₀, s.current.flush = some t₀ ∧
        s'.current.rows = t₀.rows ∧ s'.current.categories = t₀.categories ∧
          s'.current.pending = [] := by
  obtain ⟨t₀, requests, hflush, hworkflow, rfl⟩ := executeTransition_eq_ok h
  have hview := SameView.flush hflush
  refine ⟨⟨requests, hworkflow⟩, rfl, ⟨hview.journal, hview.all⟩, t₀, hflush, rfl, rfl, ?_⟩
  rw [Tables.flush_eq_some hflush]
  rfl

/-- A posting leaves the rows as they are and adds an entry or none. -/
theorem view_of_postEvent {n : ℕ} {e : Event} {status : ModulePostingStatus}
    (h : (storeEnv ctx answers).postEvent n e s = (.ok status, s'))
    (hpending : s.current.pending = []) :
    (Modules.postEvent ctx allProfiles (answers.verdict n) e).isSuccess = succeeded status ∧
      s'.committed = s.committed ∧
      s'.current.journal = s.current.journal ++ newEntries ctx answers n [e] ∧
      s'.current.rows = s.current.rows ∧ s'.current.categories = s.current.categories ∧
        s'.current.pending = [] := by
  obtain ⟨t, hflush, hposted | hanswered⟩ := postEvent_eq_ok h
  · obtain ⟨lines, hlines, rfl, rfl⟩ := hposted
    obtain rfl := Tables.flush_eq_some hflush
    simp [newEntries, hlines, hpending, succeeded, Posting.isSuccess]
  · obtain ⟨hlines, rfl⟩ := hanswered
    obtain rfl := Tables.flush_eq_some hflush
    simp [newEntries, hlines, hpending, succeeded, Posting.isSuccess]

/-- Whether the constraints take rows depends on the rows and the categories only. -/
theorem isSome_write_congr (rs : List AssetRecord) : ∀ {t t' : Tables}, t'.rows = t.rows →
    t'.categories = t.categories → (t'.write rs).isSome = (t.write rs).isSome := by
  induction rs with
  | nil => exact fun _ _ => rfl
  | cons r rs ih =>
      intro t t' hrows hcategories
      have haccepts : t'.accepts r = t.accepts r := by
        cases r <;> simp only [Tables.accepts, Tables.asset?, hrows, hcategories]
      have hadded : ({ t' with rows := t'.rows ++ [r] } : Tables).rows =
          ({ t with rows := t.rows ++ [r] } : Tables).rows := by
        simp only [hrows]
      unfold Tables.write
      rw [haccepts]
      split
      · exact ih hadded hcategories
      · rfl

theorem foldl_add (rows : List AssetRecord) : ∀ t : Tables,
    rows.foldl (fun t r => (storeEnv ctx answers).add r t) t =
      { t with pending := t.pending ++ rows } := by
  induction rows with
  | nil =>
      intro t
      simp
  | cons r rows ih =>
      intro t
      rw [List.foldl_cons, ih]
      simp [storeEnv, Tables.add]

/-- A commit of a session in which only these rows are pending. -/
theorem flush_of_pending {t t₀ T : Tables} {rows : List AssetRecord} (hrows : t.rows = t₀.rows)
    (hcategories : t.categories = t₀.categories)
    (h : ({ t with pending := rows } : Tables).flush = some T) :
    T = { t with rows := t.rows ++ rows, pending := [] } ∧ (t₀.write rows).isSome = true := by
  refine ⟨Tables.flush_eq_some h, ?_⟩
  have hpending : ({ t with pending := rows } : Tables).rows = t₀.rows := hrows
  rw [← isSome_write_congr rows hpending hcategories]
  have hwrite : ({ t with pending := rows } : Tables).write rows = some T := h
  rw [hwrite]
  rfl

theorem Outcome.of_rollback {p : Plan} {s₁ : Session Tables} (h : s₁.committed = s.committed) :
    Outcome ctx answers p s s₁.rollback := by
  have hundone : s₁.rollback = Session.start s.committed := by
    rw [Session.rollback, Session.start, h]
  rw [hundone]
  exact .undone

/-- What a loop of postings leaves when it ends. -/
structure Posted (ctx : Decimal.Context) (answers : Answers) (n : ℕ)
    (events : List (Option Event)) (statuses : List ModulePostingStatus)
    (s s' : Session Tables) : Prop where
  complete : events.all Option.isSome = true
  committed : s'.committed = s.committed
  journal : s'.current.journal =
    s.current.journal ++ newEntries ctx answers n (events.filterMap id)
  rows : s'.current.rows = s.current.rows
  categories : s'.current.categories = s.current.categories
  pending : s'.current.pending = []
  succeeded : statuses.all Modules.succeeded = true → ∀ k e,
    (events.filterMap id)[k]? = some e →
      (Modules.postEvent ctx allProfiles (answers.verdict (n + k)) e).isSuccess = true

theorem posted_of_postings (events : List (Option Event)) :
    ∀ {n : ℕ} {statuses : List ModulePostingStatus} {s s' : Session Tables},
      s.current.pending = [] →
        postings (storeEnv ctx answers) n events s = (.ok statuses, s') →
          Posted ctx answers n events statuses s s' := by
  induction events with
  | nil =>
      intro n statuses s s' hpending h
      cases h
      exact ⟨rfl, rfl, (List.append_nil _).symm, rfl, rfl, hpending, fun _ _ _ h => by cases h⟩
  | cons event events ih =>
      intro n statuses s s' hpending h
      cases event with
      | none => cases h
      | some e =>
          unfold postings at h
          obtain ⟨status, s₁, hpost, hrest⟩ := Result.andThen_eq_ok.mp h
          obtain ⟨statuses', s₂, hpostings, hreturn⟩ := Result.andThen_eq_ok.mp hrest
          cases hreturn
          obtain ⟨hposted, hcommitted, hjournal, hrows, hcategories, hpending₁⟩ :=
            view_of_postEvent hpost hpending
          have htail := ih hpending₁ hpostings
          refine ⟨htail.complete, htail.committed.trans hcommitted, ?_, htail.rows.trans hrows,
            htail.categories.trans hcategories, htail.pending, ?_⟩
          · have hsplit : newEntries ctx answers n ((some e :: events).filterMap id) =
                newEntries ctx answers n [e] ++
                  newEntries ctx answers (n + 1) (events.filterMap id) := by
              simp only [List.filterMap_cons_some (show id (some e) = some e from rfl), newEntries]
              split <;> rfl
            rw [htail.journal, hjournal, hsplit, List.append_assoc]
          · intro hall k e' he'
            rw [List.all_cons, Bool.and_eq_true] at hall
            cases k with
            | zero =>
                obtain rfl := Option.some.inj he'
                exact hposted.trans hall.1
            | succ k =>
                have hk := htail.succeeded hall.2 k e' he'
                rwa [Nat.add_right_comm] at hk

theorem posted_of_postEvent {e : Event} {status : ModulePostingStatus}
    (h : (storeEnv ctx answers).postEvent 0 e s = (.ok status, s'))
    (hpending : s.current.pending = []) :
    Posted ctx answers 0 [some e] [status] s s' :=
  posted_of_postings [some e] hpending <| by
    simp only [postings, h, Result.ok_andThen]

/-- A call goes through when its transition does, its events are posted, and its rows are taken. -/
theorem Outcome.of_posted {p : Plan} {t : TransitionCall} {r : WorkflowExecutor.TransitionResult}
    {s₁ s₂ : Session Tables} {events : List (Option Event)} {statuses : List ModulePostingStatus}
    (htransition : (storeEnv ctx answers).executeTransition t s = (.ok r, s₁))
    (hsuccess : r.success = true) (hposted : Posted ctx answers 0 events statuses s₁ s₂)
    (hall : statuses.all succeeded = true) (hcomplete : p.complete = true)
    (hevents : p.events = events.filterMap id)
    (hflush : p.commits = true →
      (({ s₂.current with pending := p.rows } : Tables).flush).isSome = true)
    (hjournal : s'.current.journal = s₂.current.journal)
    (hrows : s'.current.all = s₂.current.rows ++ p.rows)
    (hcommitted : s'.committed = s.committed ∨ s'.committed = s'.current) :
    Outcome ctx answers p s s' := by
  obtain ⟨⟨requests, hworkflow⟩, _, hview, t₀, hflush₀, hrows₁, hcategories₁, hpending₁⟩ :=
    view_of_executeTransition htransition
  refine .through ⟨⟨r, requests, hworkflow, hsuccess⟩, hcomplete, ?_, ?_⟩ ?_ ?_ hcommitted
  · intro n e he
    have hn := hposted.succeeded hall n e (hevents ▸ he)
    rwa [Nat.zero_add] at hn
  · intro hcommits t₀' hflush₀'
    rw [hflush₀] at hflush₀'
    obtain rfl := Option.some.inj hflush₀'
    obtain ⟨T, hT⟩ := Option.isSome_iff_exists.mp (hflush hcommits)
    exact (flush_of_pending (hposted.rows.trans hrows₁) (hposted.categories.trans hcategories₁)
      hT).2
  · rw [hjournal, hposted.journal, hview.journal, hevents]
  · rw [hrows, hposted.rows, ← hview.all, Tables.all, hpending₁, List.append_nil]

theorem outcome_guarded (t : TransitionCall) (e : Event) (rows : List AssetRecord)
    (s : Session Tables) : Outcome ctx answers (.guarded t e rows) s
      ((Plan.guarded t e rows).run (storeEnv ctx answers) s).2 := by
  simp only [Plan.run]
  rcases hrun : (storeEnv ctx answers).guardedPosting t e rows s with ⟨err | status, s'⟩
  · rw [mapOk_error, Env.guardedPosting_eq_error hrun]
    exact .undone
  · rw [mapOk_ok]
    obtain ⟨r, s₁, htransition, hrefused | hpassed⟩ := Env.guardedPosting_eq_ok hrun
    · obtain ⟨_, _, rfl⟩ := hrefused
      obtain ⟨_, hcommitted, hview, _⟩ := view_of_executeTransition htransition
      exact .waiting hcommitted hview
    · obtain ⟨_, hcommitted₁, _, _, _, _, _, hpending₁⟩ := view_of_executeTransition htransition
      obtain ⟨s₂, hsuccess, hpost, hdone⟩ := hpassed
      have hposted := posted_of_postEvent hpost hpending₁
      rcases hdone with ⟨_, rfl⟩ | ⟨hsucceeded, T, hflush, rfl⟩
      · exact .of_rollback (hposted.committed.trans hcommitted₁)
      · rw [foldl_add, hposted.pending, List.nil_append] at hflush
        obtain rfl := Tables.flush_eq_some hflush
        refine .of_posted htransition hsuccess hposted (by simpa using hsucceeded) rfl rfl ?_ rfl ?_
          (Or.inr rfl)
        · intro _
          exact Option.isSome_of_eq_some hflush
        · exact List.append_nil _

theorem outcome_mass (t : TransitionCall) (events : List (Option Event)) (s : Session Tables) :
    Outcome ctx answers (.mass t events) s
      ((Plan.mass t events).run (storeEnv ctx answers) s).2 := by
  refine gate_cases (motive := fun out => Outcome ctx answers (.mass t events) s out.2)
    (fun e s₁ hcommitted₁ _ => .of_rollback hcommitted₁)
    fun r s₁ htransition hcommitted₁ hsuccess => ?_
  obtain ⟨_, _, _, _, _, _, _, hpending₁⟩ := view_of_executeTransition htransition
  obtain ⟨hc, _⟩ := @postings_session _ (storeEnv ctx answers) events 0 s₁
  rcases hpostings : postings (storeEnv ctx answers) 0 events s₁ with ⟨err | statuses, s₂⟩
  · rw [hpostings] at hc
    exact .of_rollback (hc.trans hcommitted₁)
  · have hposted := posted_of_postings events hpending₁ hpostings
    rw [Result.ok_andThen]
    cases hall : statuses.all succeeded with
    | false => exact .of_rollback (hposted.committed.trans hcommitted₁)
    | true =>
        simp only [if_true]
        rcases hcommit : (storeEnv ctx answers).commit s₂ with ⟨err | _, s₃⟩
        · rw [Env.commit_eq_error hcommit]
          exact .of_rollback (hposted.committed.trans hcommitted₁)
        · obtain ⟨T, hflush, rfl⟩ := Env.commit_eq_ok hcommit
          have hnothing : ({ s₂.current with pending := [] } : Tables).flush = some T := by
            rw [← hposted.pending]
            exact hflush
          obtain rfl := Tables.flush_eq_some hnothing
          refine .of_posted htransition hsuccess hposted hall hposted.complete rfl
            (fun _ => Option.isSome_of_eq_some hnothing) rfl ?_ (Or.inr rfl)
          simp [Plan.rows, Tables.all, Session.commit, Session.flush]

theorem outcome_checked (t : TransitionCall) (event : Option Event) (s : Session Tables) :
    Outcome ctx answers (.checked t event) s
      ((Plan.checked t event).run (storeEnv ctx answers) s).2 := by
  cases event with
  | some e =>
      rw [run_checked]
      have h := @outcome_mass ctx answers t [some e] s
      generalize ((Plan.mass t [some e]).run (storeEnv ctx answers) s).2 = s' at h ⊢
      cases h with
      | undone => exact .undone
      | waiting hcommitted hview => exact .waiting hcommitted hview
      | through hgoes hjournal hall hcommitted =>
          exact .through ⟨hgoes.transition, rfl, hgoes.posted, hgoes.accepted⟩ hjournal hall
            hcommitted
  | none =>
      exact gate_cases (motive := fun out => Outcome ctx answers (.checked t none) s out.2)
        (fun e s₁ h _ => .of_rollback h) fun r s₁ _ h _ => .of_rollback h

theorem outcome_uncommitted (t : TransitionCall) (e : Event) (row : AssetRecord)
    (s : Session Tables) : Outcome ctx answers (.uncommitted t e row) s
      ((Plan.uncommitted t e row).run (storeEnv ctx answers) s).2 := by
  refine gate_cases (motive := fun out => Outcome ctx answers (.uncommitted t e row) s out.2)
    (fun err s₁ hcommitted₁ _ => .of_rollback hcommitted₁)
    fun r s₁ htransition hcommitted₁ hsuccess => ?_
  obtain ⟨_, _, _, _, _, _, _, hpending₁⟩ := view_of_executeTransition htransition
  have h₂ := (storeEnv ctx answers).committed_postEvent 0 e s₁
  rcases hpost : (storeEnv ctx answers).postEvent 0 e s₁ with ⟨err | status, s₂⟩
  · rw [hpost] at h₂
    exact .of_rollback (h₂.trans hcommitted₁)
  · have hposted := posted_of_postEvent hpost hpending₁
    rw [Result.ok_andThen]
    cases hsucceeded : succeeded status with
    | false => exact .of_rollback (hposted.committed.trans hcommitted₁)
    | true =>
        refine .of_posted htransition hsuccess hposted (by simpa using hsucceeded) rfl rfl
          (fun hcommits => by cases hcommits) rfl ?_
          (Or.inl (hposted.committed.trans hcommitted₁))
        simp [Plan.rows, Tables.all, Env.addRow, storeEnv, Tables.add, hposted.pending]

/-- **What becomes of a session**: a call is undone, waits for an approval, or goes through. -/
theorem outcome_of_run {a : Arithmetic} (c : Call) (s : Session Tables) :
    Outcome a.ctx answers (c.plan a) s (c.run a (storeEnv a.ctx answers) s).2 := by
  rw [run_eq_plan]
  cases c.plan a with
  | guarded t e rows => exact outcome_guarded t e rows s
  | checked t event => exact outcome_checked t event s
  | mass t events => exact outcome_mass t events s
  | uncommitted t e row => exact outcome_uncommitted t e row s

end Run

/-! ### What a plan contains -/

section Plans

variable {a : Arithmetic} {ctx : Decimal.Context} {answers : Answers}

theorem event_of_mem_newEntries {entry : Entry} (events : List Event) :
    ∀ {n : ℕ}, entry ∈ newEntries ctx answers n events → entry.event ∈ events := by
  induction events with
  | nil => exact fun h => by cases h
  | cons e events ih =>
      intro n h
      unfold newEntries at h
      split at h
      · rcases List.mem_cons.mp h with rfl | hmem
        · exact List.mem_cons_self
        · exact List.mem_cons_of_mem _ (ih hmem)
      · exact List.mem_cons_of_mem _ (ih h)

theorem length_newEntries_le (events : List Event) :
    ∀ n, (newEntries ctx answers n events).length ≤ events.length := by
  induction events with
  | nil => exact fun _ => le_rfl
  | cons e events ih =>
      intro n
      unfold newEntries
      have hrest := ih (n + 1)
      split
      · simp only [List.length_cons]
        omega
      · simp only [List.length_cons]
        omega

/-- Of the calls with several events none retires an asset. -/
theorem plan_events (c : Call) : (c.plan a).events.length ≤ 1 ∨
    ∀ e ∈ (c.plan a).events, retires e = false := by
  cases c with
  | runMassDepreciation assets batchId actorId currency =>
      refine Or.inr fun e he => ?_
      simp only [Call.plan, Plan.events, List.mem_filterMap, List.mem_map, id] at he
      obtain ⟨event, ⟨asset, _, rfl⟩, hevent⟩ := he
      obtain ⟨p, _, rfl⟩ := Option.map_eq_some_iff.mp hevent
      simp [retires, effectKind, massDepreciationEvent]
  | recordImpairment assetId impairmentAmount actorId componentTargets allocationMethod currency =>
      left
      simp only [Call.plan, Plan.events]
      cases (impairmentAllocation a impairmentAmount componentTargets allocationMethod
        currency).toOption <;> simp
  | _ => exact Or.inl le_rfl

/-- A policy with one debit and one credit posts no negative amount. -/
theorem amount_nonneg_of_pair {policies : List AccountingPolicy} {e : Event}
    {lines : List LedgerLine} {name eventType debitRole creditRole : String}
    {clauses : List PolicyBridge.WhereClause} {guards : List PolicyBridge.GuardCondition}
    (hfound : findForEvent policies e.eventType e.payload =
      some (pairPolicy name eventType debitRole creditRole clauses guards))
    (h : interpret ctx policies e = .posted lines) : 0 ≤ e.amount := by
  cases hguard : (pairPolicy name eventType debitRole creditRole clauses guards).firedGuard
    e.payload with
  | some g =>
      unfold interpret at h
      rw [hfound] at h
      simp only [hguard] at h
      cases h
  | none =>
      rw [interpret_pair hfound hguard] at h
      by_contra hneg
      rw [if_neg hneg] at h
      cases h

/-- An asset whose acquisition is posted has no negative cost. -/
theorem cost_nonneg_of_posted {assetId : UUID} {cost : ℚ} {assetClass : Option String}
    {usefulLifeMonths : ℤ} {paymentMethod currency : String} {description : Option String}
    {lines : List LedgerLine}
    (h : interpret ctx allProfiles (acquisitionEvent assetId cost assetClass usefulLifeMonths
      paymentMethod currency description) = .posted lines) : 0 ≤ cost := by
  have hfound : ∀ p, findForEvent allProfiles "asset.acquisition" (acquisitionEvent assetId cost
      assetClass usefulLifeMonths paymentMethod currency description).payload = some p →
        p = assetAcquisitionCash ∨ p = assetAcquisitionOnAccount := by
    intro p hp
    have htype : allProfiles.filter (·.eventType = "asset.acquisition") =
        [assetAcquisitionCash, assetAcquisitionOnAccount] := rfl
    unfold findForEvent at hp
    rw [htype] at hp
    dsimp only at hp
    split at hp
    · rename_i q hq
      obtain rfl := Option.some.inj hp
      simpa using List.mem_of_find?_eq_some hq
    · simpa using List.mem_of_find?_eq_some hp
  cases hp : findForEvent allProfiles "asset.acquisition" (acquisitionEvent assetId cost
      assetClass usefulLifeMonths paymentMethod currency description).payload with
  | none =>
      unfold interpret at h
      have hnone : findForEvent allProfiles (acquisitionEvent assetId cost assetClass
        usefulLifeMonths paymentMethod currency description).eventType (acquisitionEvent assetId
          cost assetClass usefulLifeMonths paymentMethod currency description).payload = none := hp
      rw [hnone] at h
      cases h
  | some p =>
      rcases hfound p hp with rfl | rfl
      · exact amount_nonneg_of_pair hp h
      · exact amount_nonneg_of_pair hp h

/-- A row of the register comes from an acquisition: nothing is written off yet, and its cost is
what the kernel has seen. -/
theorem plan_asset {c : Call} {row : AssetModel} (h : AssetRecord.asset row ∈ (c.plan a).rows) :
    row.netBookValue = row.acquisitionCost ∧
      (∀ e ∈ (c.plan a).events, effectKind e = none) ∧
      (newEntries a.ctx answers 0 (c.plan a).events ≠ [] → 0 ≤ row.acquisitionCost) := by
  cases c with
  | recordAssetAcquisition assetId cost effectiveDate actorId categoryId assetClass
      usefulLifeMonths paymentMethod currency description =>
      simp only [Call.plan, Plan.rows, List.mem_singleton, AssetRecord.asset.injEq] at h
      subst h
      refine ⟨rfl, ?_, ?_⟩
      · intro e he
        simp only [Call.plan, Plan.events, List.mem_singleton] at he
        subst he
        simp [effectKind, acquisitionEvent]
      · intro hnew
        simp only [Call.plan, Plan.events, newEntries] at hnew
        split at hnew
        · rename_i lines hlines
          exact cost_nonneg_of_posted (interpret_of_posted hlines)
        · exact absurd rfl hnew
  | _ => simp [Call.plan, Plan.rows] at h

end Plans

/-! ### The law -/

section Law

variable {a : Arithmetic} {answers : Answers} {t t' : Tables} {c : Call}

theorem effect_append {news : List Entry} (h : t'.journal = t.journal ++ news) (assetId : UUID) :
    t'.effect assetId = t.effect assetId +
      ((news.filter fun entry => isFor assetId entry.event && (effectKind entry.event).isSome).map
        fun entry => carrying entry.lines).sum := by
  simp only [Tables.effect, h, List.filter_append, List.map_append, List.sum_append]

/-- A harmless call that goes through keeps the law. -/
theorem agrees_through (h : t.Agrees) (hgoes : (c.plan a).GoesThrough a.ctx answers t)
    (hharmless : (c.plan a).Harmless a.ctx answers t)
    (hjournal : t'.journal = t.journal ++ newEntries a.ctx answers 0 (c.plan a).events)
    (hall : t'.all = t.all ++ (c.plan a).rows) : t'.Agrees := by
  obtain ⟨hentries, hrows⟩ := hharmless hgoes
  have hsame : ∀ row, AssetRecord.asset row ∈ t.all → t'.effect row.id = t.effect row.id := by
    intro row hrow
    rw [effect_append hjournal]
    have hzero : ∀ x ∈ ((newEntries a.ctx answers 0 (c.plan a).events).filter fun entry =>
        isFor row.id entry.event && (effectKind entry.event).isSome).map
          fun entry => carrying entry.lines, x = 0 := by
      intro x hx
      obtain ⟨entry, hentry, rfl⟩ := List.mem_map.mp hx
      obtain ⟨hmem, hfor⟩ := List.mem_filter.mp hentry
      rw [Bool.and_eq_true] at hfor
      exact (hentries entry hmem).carrying hfor.2 row.id hfor.1 ⟨row, hrow, rfl⟩
    rw [List.sum_eq_zero hzero, add_zero]
  have hnew : ∀ row, AssetRecord.asset row ∈ (c.plan a).rows →
      row.netBookValue = row.acquisitionCost + t'.effect row.id ∧ 0 ≤ row.netBookValue := by
    intro row hrow
    obtain ⟨hvalue, hkind, hcost⟩ := @plan_asset a answers c row hrow
    have hnone : (newEntries a.ctx answers 0 (c.plan a).events).filter (fun entry =>
        isFor row.id entry.event && (effectKind entry.event).isSome) = [] := by
      refine List.filter_eq_nil_iff.mpr fun entry hentry => ?_
      have hevent := hkind entry.event (event_of_mem_newEntries _ hentry)
      simp [hevent]
    obtain ⟨heffect, hunseen⟩ := hrows row hrow
    refine ⟨?_, ?_⟩
    · rw [effect_append hjournal, hnone, heffect, hvalue]
      simp
    · rw [hvalue]
      by_cases hempty : newEntries a.ctx answers 0 (c.plan a).events = []
      · exact hunseen hempty
      · exact hcost hempty
  refine ⟨?_, ?_, ?_⟩
  · intro row hrow
    rw [hall, List.mem_append] at hrow
    rcases hrow with hold | hadded
    · rw [hsame row hold]
      exact h.netBookValue row hold
    · exact (hnew row hadded).1
  · intro row hrow
    rw [hall, List.mem_append] at hrow
    rcases hrow with hold | hadded
    · exact h.nonneg row hold
    · exact (hnew row hadded).2
  · rw [hjournal, List.pairwise_append]
    refine ⟨h.final, ?_, ?_⟩
    · rcases @plan_events a c with hone | hnever
      · have hlength := (@length_newEntries_le a.ctx answers
          (c.plan a).events 0).trans hone
        match hnews : newEntries a.ctx answers 0 (c.plan a).events with
        | [] => exact List.Pairwise.nil
        | [entry] => exact List.pairwise_singleton _ entry
        | _ :: _ :: _ =>
            rw [hnews] at hlength
            simp at hlength
      · refine List.pairwise_of_forall_mem_list fun earlier hearlier later _ assetId hretires => ?_
        rw [hnever earlier.event (event_of_mem_newEntries _ hearlier)] at hretires
        cases hretires
    · intro earlier hearlier later hlater assetId hretires hfor hfor'
      by_contra huses
      rw [Bool.not_eq_false] at huses
      exact (hentries later hlater).uses huses assetId hfor' ⟨earlier, hearlier, hretires, hfor⟩

/-- **A harmless call keeps the law**, in what is committed and in what is open. -/
theorem agrees_of_run {s : Session Tables} (h : s.Both Tables.Agrees)
    (hharmless : (c.plan a).Harmless a.ctx answers s.current) :
    (c.run a (storeEnv a.ctx answers) s).2.Both Tables.Agrees := by
  have houtcome : Outcome a.ctx answers (c.plan a) s (c.run a (storeEnv a.ctx answers) s).2 :=
    outcome_of_run c s
  generalize (c.run a (storeEnv a.ctx answers) s).2 = s' at houtcome ⊢
  cases houtcome with
  | undone => exact Session.Both.start h.committed
  | waiting hcommitted hview =>
      refine ⟨?_, h.current.congr hview.journal hview.all⟩
      rw [hcommitted]
      exact h.committed
  | through hgoes hjournal hall hcommitted =>
      have hcurrent := agrees_through h.current hgoes hharmless hjournal hall
      refine ⟨?_, hcurrent⟩
      rcases hcommitted with hbefore | hafter
      · rw [hbefore]
        exact h.committed
      · rw [hafter]
        exact hcurrent

end Law

/-! ### Runs -/

/-- One call, with what it is answered. -/
def registerStep (a : Arithmetic) (s : Session Tables) (label : Call × Answers) :
    Option (Session Tables) :=
  some (label.1.run a (storeEnv a.ctx label.2) s).2

/-- Categories, but no assets. -/
def noAssets (categories : List UUID) : Tables where
  categories := categories

theorem agrees_noAssets (categories : List UUID) : (noAssets categories).Agrees where
  netBookValue row hrow := by cases hrow
  nonneg row hrow := by cases hrow
  final := List.Pairwise.nil

/-- **In a run of harmless calls the register agrees with the journal throughout.** -/
theorem register_agrees (a : Arithmetic) (categories : List UUID)
    (labels : List (Call × Answers))
    (h : Along (registerStep a)
      (fun s label => (label.1.plan a).Harmless a.ctx label.2 s.current)
      (Session.start (noAssets categories)) labels) :
    Throughout (registerStep a) (Session.Both Tables.Agrees)
      (Session.start (noAssets categories)) labels := by
  refine h.throughout ?_ (Session.Both.start (agrees_noAssets categories))
  intro s label s' hagrees hharmless hstep
  obtain rfl := Option.some.inj hstep
  exact agrees_of_run hagrees hharmless

/-- The acquisition of an asset for 1000. -/
def sampleAcquisition : Call × Answers :=
  (.recordAssetAcquisition ⟨1⟩ 1000 sampleDate ⟨5⟩ ⟨9⟩ none 60 "CASH" "USD" none, permissive)

/-- Its depreciation by 100. -/
def sampleDepreciation : Call × Answers :=
  (.recordDepreciation ⟨1⟩ 100 sampleDate ⟨5⟩ none "straight_line" "USD", permissive)

theorem register_agrees_acquisition :
    Throughout (registerStep sampleArithmetic) (Session.Both Tables.Agrees)
      (Session.start (noAssets [⟨9⟩])) [sampleAcquisition] := by
  refine register_agrees sampleArithmetic [⟨9⟩] [sampleAcquisition] ?_
  refine TransitionSystem.along_cons.mpr ⟨fun _ => ⟨?_, ?_⟩, fun _ _ =>
    TransitionSystem.along_nil⟩
  · intro entry hentry
    have hevent := event_of_mem_newEntries _ hentry
    have hkind : effectKind entry.event = none := by
      rw [List.mem_singleton.mp hevent]
      rfl
    refine ⟨fun hsome => ?_, fun huses => ?_⟩
    · rw [hkind] at hsome
      cases hsome
    · simp [uses, retires, hkind] at huses
  · intro row hrow
    refine ⟨rfl, fun hnone => ?_⟩
    have hnew : (newEntries sampleArithmetic.ctx sampleAcquisition.2 0
        (sampleAcquisition.1.plan sampleArithmetic).events).length = 1 := by decide +kernel
    have hzero := congrArg List.length hnone
    rw [hnew] at hzero
    cases hzero

/-- **A depreciation is posted, and the register keeps its value.** -/
theorem depreciation_not_registered :
    ¬Throughout (registerStep sampleArithmetic) (Session.Both Tables.Agrees)
      (Session.start (noAssets [⟨9⟩])) [sampleAcquisition, sampleDepreciation] := by
  intro h
  have hagrees := (h [sampleAcquisition, sampleDepreciation] [] _ rfl rfl).current.netBookValue
    (acquiredAsset ⟨1⟩ 1000 sampleDate ⟨9⟩ 60 none) (by decide +kernel)
  revert hagrees
  decide +kernel

end FinanceAccounting.FixedAssets
