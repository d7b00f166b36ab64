import FinanceAccounting.Library.Ranking
import FinanceAccounting.Kernel.PostingStrategy

/-! # Strategies and their replay

`StrategyRegistry` with `Bookkeeper.propose`.  R14 and R23: the version that a proposal records
gives the same proposal at any later time, until it is unregistered (`proposals_replay`). -/

namespace FinanceAccounting.Bookkeeper

open PostingStrategy (Environment ReferenceData LineSpec ProposedJournalEntry ValidationError)

variable {Event : Type}

/-- What the subclasses define for events, with the lifecycle metadata of R23. -/
structure EventStrategy (Event : Type) where
  className : String
  eventType : String
  version : ℤ
  supportedFromVersion : ℤ := 1
  supportedToVersion : Option ℤ := none
  computeLineSpecs : Event → ReferenceData → Except String (List LineSpec)
  description : Event → Option String
  metadata : Event → Option String

def EventStrategy.on (s : EventStrategy Event) (event : Event) : PostingStrategy.Strategy where
  version := s.version
  lineSpecs := s.computeLineSpecs event
  description := s.description event
  metadata := s.metadata event

def keyed (eventType : String) (version : ℤ) (s : EventStrategy Event) : Bool :=
  s.eventType = eventType && s.version = version

/-- The registered strategies in the order of their registration. -/
abbrev StrategyRegistry (Event : Type) := List (EventStrategy Event)

/-- An exception: its code, or its class if it has none, and its text. -/
structure RegistryError where
  code : String
  text : String

/-- `_validate_lifecycle`: why a strategy is refused. -/
def validateLifecycle (s : EventStrategy Event) : Option String :=
  if s.version < 1 then some ("Strategy version must be >= 1, got " ++ toString s.version)
  else if s.supportedFromVersion < 1 then
    some ("supported_from_version must be >= 1, got " ++ toString s.supportedFromVersion)
  else (s.supportedToVersion.filter (· < s.supportedFromVersion)).map fun last =>
    "supported_to_version (" ++ toString last ++ ") must be >= supported_from_version (" ++
      toString s.supportedFromVersion ++ ")"

def named (eventType : String) (version : ℤ) : String := eventType ++ " v" ++ toString version

def register (r : StrategyRegistry Event) (s : EventStrategy Event) :
    Except RegistryError (StrategyRegistry Event) :=
  match validateLifecycle s with
  | some reason => .error ⟨"STRATEGY_LIFECYCLE_ERROR",
      "Strategy lifecycle error for " ++ named s.eventType s.version ++ ": " ++ reason⟩
  | none =>
      match r.find? (keyed s.eventType s.version) with
      | some existing => .error ⟨"ValueError", "Strategy already registered for " ++
          named s.eventType s.version ++ ": " ++ existing.className⟩
      | none => .ok (r ++ [s])

def versions (r : StrategyRegistry Event) (eventType : String) : List ℤ :=
  (r.filter (·.eventType = eventType)).map (·.version)

/-- A version of the strategy for an event type, or the latest one. -/
def get (r : StrategyRegistry Event) (eventType : String) (version : Option ℤ) :
    Except RegistryError (EventStrategy Event) :=
  match (versions r eventType).max? with
  | none => .error ⟨"STRATEGY_NOT_FOUND", "No strategy found for event type: " ++ eventType⟩
  | some latest =>
      match r.find? (keyed eventType (version.getD latest)) with
      | some s => .ok s
      | none => .error ⟨"STRATEGY_VERSION_NOT_FOUND",
          "Strategy version " ++ toString (version.getD latest) ++ " not found for " ++ eventType ++
          ". Available versions: " ++
          toString (Ranking.ascending (fun v => v) (versions r eventType))⟩

inductive Call (Event : Type)
  | register (s : EventStrategy Event)
  | unregister (eventType : String) (version : Option ℤ)
  | clear

/-- A registration that raises leaves the registry as it is. -/
def perform (r : StrategyRegistry Event) : Call Event → StrategyRegistry Event
  | .register s => (register r s).toOption.getD r
  | .unregister eventType version =>
      r.filter fun s => !(s.eventType = eventType && version.all (· = s.version))
  | .clear => []

/-- The call unregisters a version. -/
def Call.removes (eventType : String) (version : ℤ) : Call Event → Bool
  | .register _ => false
  | .unregister eventType' version' => eventType = eventType' && version'.all (· = version)
  | .clear => true

/-! ### The bookkeeper -/

structure BookkeeperResult where
  proposedEntry : Option ProposedJournalEntry
  errors : List ValidationError
  strategyVersion : Option ℤ

def failure (errors : List ValidationError) : BookkeeperResult := ⟨none, errors, none⟩

section Propose

variable (env : Environment) (str : Decimal.Signal → String) (r : StrategyRegistry Event)
  (eventType : String) (event : Event) (ref : ReferenceData)

/-- The strategy on an event; no result where the version of a success fails its assertion. -/
def invoke (s : EventStrategy Event) : Option BookkeeperResult :=
  match PostingStrategy.propose env ref (s.on event) with
  | .error e => some (failure [{
      code := "STRATEGY_ERROR"
      message := "Strategy execution failed: " ++ str e }])
  | .ok (.error errors) => some (failure errors)
  | .ok (.ok entry) => if 1 ≤ s.version then some ⟨some entry, [], some s.version⟩ else none

/-- `Bookkeeper.propose`; `str` is the text of a signal. -/
def propose (strategyVersion : Option ℤ) : Option BookkeeperResult :=
  match get r eventType strategyVersion with
  | .error e => some (failure [{ code := e.code, message := e.text }])
  | .ok s => invoke env str event ref s

/-- A proposal under a version, the latest one unless it was asked for.  After any calls that leave
the version registered, it proposes the same. -/
structure Replays (requested : Option ℤ) (result : BookkeeperResult) (v : ℤ) : Prop where
  entry : result.proposedEntry.isSome
  latest : requested = none → ∀ s ∈ r, s.eventType = eventType → s.version ≤ v
  replayed : ∀ later : List (Call Event), (∀ call ∈ later, call.removes eventType v = false) →
    propose env str (later.foldl perform r) eventType event ref (some v) = some result

end Propose

/-! ### Replay -/

section Replay

variable {r : StrategyRegistry Event} {eventType : String} {v : ℤ} {s : EventStrategy Event}

theorem of_keyed (h : keyed eventType v s = true) : s.eventType = eventType ∧ s.version = v := by
  simpa [keyed] using h

theorem mem_versions (hs : s ∈ r) (h : s.eventType = eventType) : s.version ∈ versions r eventType :=
  List.mem_map.mpr ⟨s, List.mem_filter.mpr ⟨hs, by simpa using h⟩, rfl⟩

/-- **Spec of `get`**: a strategy of the version, which is the latest one if none is given. -/
theorem get_eq_ok {version : Option ℤ} (h : get r eventType version = .ok s) :
    r.find? (keyed eventType s.version) = some s ∧
      (version = none → ∀ other ∈ r, other.eventType = eventType → other.version ≤ s.version) := by
  unfold get at h
  split at h
  · cases h
  · rename_i latest hlatest
    split at h
    · rename_i s' hfound
      obtain rfl := Except.ok.inj h
      have hversion := (of_keyed (List.find?_some hfound)).2
      refine ⟨hversion ▸ hfound, ?_⟩
      rintro rfl other hother htype
      rw [hversion]
      exact (List.max?_eq_some_iff.mp hlatest).2 _ (mem_versions hother htype)
    · cases h

/-- A version that is found is what `get` returns for it. -/
theorem get_of_find (h : r.find? (keyed eventType v) = some s) : get r eventType (some v) = .ok s := by
  have hmem := mem_versions (List.mem_of_find?_eq_some h) (of_keyed (List.find?_some h)).1
  unfold get
  split
  · rename_i hnone
    rw [List.max?_eq_none_iff.mp hnone] at hmem
    cases hmem
  · rw [Option.getD_some, h]

/-- What a registration leaves, whether it raises or not. -/
theorem perform_register (r : StrategyRegistry Event) (s : EventStrategy Event) :
    perform r (.register s) = r ∨ 1 ≤ s.version ∧ perform r (.register s) = r ++ [s] := by
  simp only [perform, register]
  split
  · exact Or.inl rfl
  · rename_i hvalid
    split
    · exact Or.inl rfl
    · refine Or.inr ⟨?_, rfl⟩
      by_contra hneg
      rw [validateLifecycle, if_pos (by omega)] at hvalid
      cases hvalid

/-- **Step lemma**: a strategy is found until its version is unregistered. -/
theorem find_perform {call : Call Event} (hkept : call.removes eventType v = false)
    (h : r.find? (keyed eventType v) = some s) :
    (perform r call).find? (keyed eventType v) = some s := by
  cases call with
  | clear => cases hkept
  | register s' =>
      rcases perform_register r s' with heq | ⟨-, heq⟩
      · rwa [heq]
      · rw [heq, List.find?_append, h, Option.some_or]
  | unregister eventType' version' =>
      rw [perform, List.find?_filter, ← h]
      congr 1
      funext other
      cases hother : keyed eventType v other with
      | false => simp
      | true =>
          obtain ⟨rfl, rfl⟩ := of_keyed hother
          rw [Call.removes] at hkept
          simp [hkept]

theorem find_calls {calls : List (Call Event)}
    (hkept : ∀ call ∈ calls, call.removes eventType v = false)
    (h : r.find? (keyed eventType v) = some s) :
    (calls.foldl perform r).find? (keyed eventType v) = some s := by
  induction calls generalizing r with
  | nil => exact h
  | cons call calls ih =>
      rw [List.forall_mem_cons] at hkept
      exact ih hkept.2 (find_perform hkept.1 h)

/-- R23: every registered version is positive. -/
theorem version_pos (calls : List (Call Event)) (hr : ∀ s ∈ r, 1 ≤ s.version) :
    ∀ s ∈ calls.foldl perform r, 1 ≤ s.version := by
  induction calls generalizing r with
  | nil => exact hr
  | cons call calls ih =>
      refine ih fun s hs => ?_
      cases call with
      | clear => cases hs
      | unregister => exact hr s (List.mem_of_mem_filter hs)
      | register s' =>
          rcases perform_register r s' with heq | ⟨hpos, heq⟩
          · exact hr s (heq ▸ hs)
          · rw [heq, List.mem_append, List.mem_singleton] at hs
            rcases hs with hs | rfl
            · exact hr s hs
            · exact hpos

/-- An entry is proposed under the version of the strategy. -/
theorem of_invoke {env : Environment} {str : Decimal.Signal → String} {event : Event}
    {ref : ReferenceData} (hpos : 1 ≤ s.version) :
    ∃ result, invoke env str event ref s = some result ∧
      ∀ v ∈ result.strategyVersion, v = s.version ∧ result.proposedEntry.isSome := by
  unfold invoke
  split
  · exact ⟨_, rfl, fun v hv => by cases hv⟩
  · exact ⟨_, rfl, fun v hv => by cases hv⟩
  · rw [if_pos hpos]
    exact ⟨_, rfl, fun v hv => ⟨(Option.some.inj hv).symm, rfl⟩⟩

end Replay

/-- **Proposals replay**: over any calls of a registry, a proposal has a result, and the version that
it records gives the same result at any later time, until it is unregistered. -/
theorem proposals_replay (env : Environment) (str : Decimal.Signal → String)
    (calls : List (Call Event)) (eventType : String) (event : Event) (ref : ReferenceData)
    (requested : Option ℤ) : ∃ result,
      propose env str (calls.foldl perform []) eventType event ref requested = some result ∧
      ∀ v ∈ result.strategyVersion,
        Replays env str (calls.foldl perform []) eventType event ref requested result v := by
  have hpos := version_pos calls (r := []) fun s hs => absurd hs List.not_mem_nil
  generalize calls.foldl perform [] = r at hpos
  unfold propose
  cases hget : get r eventType requested with
  | error e => exact ⟨_, rfl, fun v hv => by cases hv⟩
  | ok s =>
      obtain ⟨hfound, hlatest⟩ := get_eq_ok hget
      have hs := List.mem_of_find?_eq_some hfound
      obtain ⟨result, hresult, hversion⟩ := of_invoke (hpos s hs)
      refine ⟨result, hresult, fun v hv => ?_⟩
      obtain ⟨rfl, hentry⟩ := hversion v hv
      refine ⟨hentry, hlatest, fun later hkept => ?_⟩
      rw [propose, get_of_find (find_calls hkept hfound)]
      exact hresult

end FinanceAccounting.Bookkeeper
